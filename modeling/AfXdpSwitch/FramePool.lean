import Mathlib.Data.List.Nodup
import Mathlib.Data.List.Perm.Subperm
import Mathlib.Data.List.Range
import Mathlib.Logic.Relation

/-!
# A pool of frames that change hands

The abstract view of an AF_XDP socket: a fixed set of `N` frames, each in one
place at a time.  An entry of a place is an address of type `A`, and `key` says
which frame it addresses; several addresses may denote one frame, and an address
whose key is not below `N` denotes none.

Frames move from the free `stack` through `staged` (written to the fill ring but
not submitted) and `fill` to the kernel's receive side `krx` and the RX ring `rx`,
from there back to the stack or through the TX ring `tx` and the kernel's transmit
side `ktx` to the completion ring `comp`.  `lost` collects the frames that user
space let go of.  Only staged and fill entries may denote no frame.

`Step` lists the moves and `Step.conserved` is the one case analysis over them:
every frame stays in exactly one place.
-/

/-- Who holds which frames.  Queues have their oldest entry first, the stack its
top last. -/
@[ext] structure FramePool (A : Type) where
  stack : List A
  staged : List A
  fill : List A
  krx : List A
  rx : List A
  tx : List A
  ktx : List A
  comp : List A
  lost : List A

namespace FramePool
variable {A : Type} (N : Nat) (key : A → Nat)

/-- The places whose entries always denote a frame. -/
def solid (p : FramePool A) : List A :=
  p.stack ++ p.krx ++ p.rx ++ p.tx ++ p.ktx ++ p.comp ++ p.lost

/-- Every entry of every place. -/
def all (p : FramePool A) : List A := p.solid ++ (p.staged ++ p.fill)

/-- One move of a frame, or of an entry that denotes none. -/
inductive Step : FramePool A → FramePool A → Prop
  | stage {p rest a} (h : p.stack = rest ++ [a]) :
      Step p { p with stack := rest, staged := p.staged ++ [a] }
  | stageNone {p a} (h : N ≤ key a) : Step p { p with staged := p.staged ++ [a] }
  | submit {p} : Step p { p with staged := [], fill := p.fill ++ p.staged }
  | takeFill {p a rest} (h : p.fill = a :: rest) (ha : key a < N) :
      Step p { p with fill := rest, krx := p.krx ++ [a] }
  | discard {p a rest} (h : p.fill = a :: rest) (ha : N ≤ key a) : Step p { p with fill := rest }
  | deliver {p l a r b} (h : p.krx = l ++ a :: r) (hb : key b = key a) :
      Step p { p with krx := l ++ r, rx := p.rx ++ [b] }
  | drop {p a rest} (h : p.rx = a :: rest) :
      Step p { p with rx := rest, stack := p.stack ++ [a] }
  | send {p a rest} (h : p.rx = a :: rest) : Step p { p with rx := rest, tx := p.tx ++ [a] }
  | lose {p a rest} (h : p.rx = a :: rest) : Step p { p with rx := rest, lost := p.lost ++ [a] }
  | takeTx {p a rest} (h : p.tx = a :: rest) : Step p { p with tx := rest, ktx := p.ktx ++ [a] }
  | complete {p l a r} (h : p.ktx = l ++ a :: r) :
      Step p { p with ktx := l ++ r, comp := p.comp ++ [a] }
  | recycle {p a rest} (h : p.comp = a :: rest) :
      Step p { p with comp := rest, stack := p.stack ++ [a] }

/-- Every frame is in exactly one place, once, and every entry outside the fill
path denotes a frame. -/
structure Conserved (p : FramePool A) : Prop where
  once : ∀ c, c < N → (p.all.map key).count c = 1
  solid : ∀ a ∈ p.solid, key a < N

variable {N key} {p q : FramePool A}

/-- The entries of a pool denoting frame `c`, place by place. -/
theorem count_all (p : FramePool A) (c : Nat) : (p.all.map key).count c =
    (p.stack.map key).count c + (p.krx.map key).count c + (p.rx.map key).count c +
    (p.tx.map key).count c + (p.ktx.map key).count c + (p.comp.map key).count c +
    (p.lost.map key).count c + (p.staged.map key).count c + (p.fill.map key).count c := by
  simp only [all, FramePool.solid, List.map_append, List.count_append]
  omega

theorem forall_solid {p : FramePool A} {P : A → Prop} : (∀ a ∈ p.solid, P a) ↔
    (∀ a ∈ p.stack, P a) ∧ (∀ a ∈ p.krx, P a) ∧ (∀ a ∈ p.rx, P a) ∧ (∀ a ∈ p.tx, P a) ∧
    (∀ a ∈ p.ktx, P a) ∧ (∀ a ∈ p.comp, P a) ∧ (∀ a ∈ p.lost, P a) := by
  simp only [FramePool.solid, List.forall_mem_append, and_assoc]

/-- Popping the stack, with a stand-in that denotes no frame once it is empty. -/
theorem Step.pop (p : FramePool A) {x : A} (hx : N ≤ key x) :
    Step N key p { p with
      stack := p.stack.dropLast
      staged := p.staged ++ [p.stack.getLast?.getD x] } := by
  -- the stand-in is staged only if there is no last element
  obtain ⟨stack, staged, fill, krx, rx, tx, ktx, comp, lost⟩ := p
  cases h : stack.getLast? with
  | none =>
      obtain rfl := List.getLast?_eq_none_iff.mp h
      exact Step.stageNone hx
  | some a => exact Step.stage (List.dropLast_append_getLast? a h).symm

/-- An address of another frame does not count. -/
theorem count_key_of_le {a : A} {c : Nat} (ha : N ≤ key a) (hc : c < N) :
    (if (key a == c) = true then 1 else 0) = 0 := by
  rw [if_neg]
  simp only [beq_iff_eq]
  omega

/-- A move neither adds nor removes an entry denoting a frame. -/
theorem Step.count (hs : Step N key p q) {c : Nat} (hc : c < N) :
    (q.all.map key).count c = (p.all.map key).count c := by
  rw [count_all, count_all]
  cases hs with
  | stage h | takeFill h _ | drop h | send h | lose h | takeTx h | complete h | recycle h =>
      simp only [h, List.map_append, List.map_cons, List.map_nil, List.count_append,
        List.count_cons, List.count_nil]
      omega
  | deliver h hb =>
      simp only [h, hb, List.map_append, List.map_cons, List.map_nil, List.count_append,
        List.count_cons, List.count_nil]
      omega
  | submit =>
      simp only [List.map_append, List.map_nil, List.count_append, List.count_nil]
      omega
  | stageNone ha =>
      simp only [List.map_append, List.map_cons, List.map_nil, List.count_append,
        List.count_cons, List.count_nil, count_key_of_le ha hc]
      omega
  | discard h ha =>
      simp only [h, List.map_cons, List.count_cons, count_key_of_le ha hc]
      omega

/-- Outside the fill path entries keep denoting frames. -/
theorem Step.solid (hs : Step N key p q) (h : ∀ a ∈ p.solid, key a < N) :
    ∀ a ∈ q.solid, key a < N := by
  rw [forall_solid] at h ⊢
  cases hs with
  | stage e | drop e | send e | lose e | takeTx e | complete e | recycle e =>
      simp only [e, List.forall_mem_append, List.forall_mem_cons] at h ⊢
      tauto
  | takeFill e ha =>
      simp only [List.forall_mem_append, List.forall_mem_cons]
      tauto
  | deliver e hb =>
      simp only [e, List.forall_mem_append, List.forall_mem_cons, hb] at h ⊢
      tauto
  | submit | stageNone | discard => exact h

/-- **A move keeps every frame in exactly one place.** -/
theorem Step.conserved (hs : Step N key p q) (h : Conserved N key p) : Conserved N key q :=
  ⟨fun c hc => (hs.count hc).trans (h.once c hc), hs.solid h.solid⟩

theorem Conserved.of_eq (h : Conserved N key p) (e : q = p) : Conserved N key q := e ▸ h

/-- If every entry denotes a frame there are as many entries as frames. -/
theorem Conserved.length_all (h : Conserved N key p) (hfill : ∀ a ∈ p.staged ++ p.fill, key a < N) :
    p.all.length = N := by
  have hlt : ∀ c ∈ p.all.map key, c < N := by
    intro c hm
    obtain ⟨a, ha, rfl⟩ := List.mem_map.mp hm
    rcases List.mem_append.mp ha with ha | ha
    · exact h.solid a ha
    · exact hfill a ha
  -- each frame occurs once and nothing else occurs, so the keys are a permutation of them
  have hperm : (p.all.map key).Perm (List.range N) := by
    rw [List.perm_iff_count]
    intro c
    by_cases hc : c < N
    · rw [h.once c hc, List.count_eq_one_of_mem List.nodup_range (List.mem_range.mpr hc)]
    · rw [List.count_eq_zero_of_not_mem fun hm => hc (hlt c hm),
        List.count_eq_zero_of_not_mem fun hm => hc (List.mem_range.mp hm)]
  have := hperm.length_eq
  rwa [List.length_map, List.length_range] at this

/-- The entries outside the fill path are at most as many as the frames. -/
theorem Conserved.length_solid_le (h : Conserved N key p) : p.solid.length ≤ N := by
  have hnodup : (p.solid.map key).Nodup := by
    rw [List.nodup_iff_count_le_one]
    intro c
    by_cases hc : c < N
    · have := h.once c hc
      rw [all, List.map_append, List.count_append] at this
      omega
    · have hnot : c ∉ p.solid.map key := by
        intro hm
        obtain ⟨a, ha, rfl⟩ := List.mem_map.mp hm
        exact hc (h.solid a ha)
      rw [List.count_eq_zero_of_not_mem hnot]
      exact Nat.zero_le 1
  have hsub : p.solid.map key ⊆ List.range N := by
    intro c hm
    obtain ⟨a, ha, rfl⟩ := List.mem_map.mp hm
    exact List.mem_range.mpr (h.solid a ha)
  have := (List.subperm_of_subset hnodup hsub).length_le
  rwa [List.length_map, List.length_range] at this

end FramePool
