import Mathlib.Logic.Function.Basic
import Mathlib.Algebra.Group.Nat.Defs
import Mathlib.Data.List.Basic

/-!
# Rings shared by one producer and one consumer

A ring of `n` slots is addressed by two free-running `w`-bit indices, the
producer's and the consumer's.  Neither is ever reduced: an entry of index `i`
lives in slot `i mod n`, and the indices wrap at `2 ^ w`.  As long as `n`
divides `2 ^ w` the two reductions agree, so the entries between the two indices
form a FIFO queue whatever the indices are.

`pending` is that queue.  The lemmas below say what the four elementary
operations do to it: writing a slot the producer has not published yet leaves it
alone, publishing appends the written entries, and releasing drops entries from
the front.  Nothing here is about a particular program.
-/

/-- The shared part of a ring: the two published indices and the slots. -/
@[ext] structure SpscRing (α : Type) (w : Nat) where
  producer : BitVec w
  consumer : BitVec w
  desc : Nat → α

namespace SpscRing
variable {α : Type} {w n : Nat}

/-- The slot of index `i` in a ring of `n` slots. -/
def slot (n : Nat) (i : BitVec w) : Nat := i.toNat % n

/-- The `c` entries from index `i` on, in index order. -/
def window (n : Nat) (desc : Nat → α) (i : BitVec w) : Nat → List α
  | 0 => []
  | c + 1 => desc (slot n i) :: window n desc (i + 1) c

/-- How many published entries the consumer has not released. -/
def count (r : SpscRing α w) : Nat := (r.producer - r.consumer).toNat

/-- The published entries the consumer has not released, oldest first. -/
def pending (n : Nat) (r : SpscRing α w) : List α := window n r.desc r.consumer r.count

/-- Store `x` in the slot of index `i`. -/
def write (n : Nat) (r : SpscRing α w) (i : BitVec w) (x : α) : SpscRing α w :=
  { r with desc := Function.update r.desc (slot n i) x }

/-- Advance the producer index by `k`. -/
def publish (r : SpscRing α w) (k : BitVec w) : SpscRing α w :=
  { r with producer := r.producer + k }

/-- Advance the consumer index by `k`. -/
def release (r : SpscRing α w) (k : BitVec w) : SpscRing α w :=
  { r with consumer := r.consumer + k }

/-- Store one entry and publish it. -/
def push (n : Nat) (r : SpscRing α w) (x : α) : SpscRing α w :=
  (r.write n r.producer x).publish 1

/-- Store and publish several entries, one after the other. -/
def pushAll (n : Nat) (r : SpscRing α w) (xs : List α) : SpscRing α w := xs.foldl (push n) r

/-- The slot count divides the index range and is smaller than it.  This is what
makes wrapping indices harmless. -/
structure Fits (n w : Nat) : Prop where
  dvd : n ∣ 2 ^ w
  lt : n < 2 ^ w

/-! ## Windows -/

theorem slot_add (h : Fits n w) (i : BitVec w) (k : Nat) :
    slot n (i + BitVec.ofNat w k) = (i.toNat + k) % n := by
  unfold slot
  rw [BitVec.toNat_add, BitVec.toNat_ofNat, Nat.add_mod_mod, Nat.mod_mod_of_dvd _ h.dvd]

@[simp] theorem window_zero (desc : Nat → α) (i : BitVec w) : window n desc i 0 = [] := rfl

theorem window_succ (desc : Nat → α) (i : BitVec w) (c : Nat) :
    window n desc i (c + 1) = desc (slot n i) :: window n desc (i + 1) c := rfl

@[simp] theorem length_window (desc : Nat → α) (i : BitVec w) (c : Nat) :
    (window n desc i c).length = c := by
  induction c generalizing i with
  | zero => rfl
  | succ c ih => rw [window_succ, List.length_cons, ih]

theorem ofNat_succ_eq (a : Nat) : (1 : BitVec w) + BitVec.ofNat w a = BitVec.ofNat w (a + 1) := by
  rw [Nat.add_comm a 1, BitVec.ofNat_add]; rfl

/-- A window splits at any point. -/
theorem window_add (desc : Nat → α) (i : BitVec w) (a b : Nat) :
    window n desc i (a + b) = window n desc i a ++ window n desc (i + BitVec.ofNat w a) b := by
  induction a generalizing i with
  | zero => simp
  | succ a ih =>
      rw [show a + 1 + b = a + b + 1 from by omega, window_succ, window_succ, ih,
        BitVec.add_assoc, ofNat_succ_eq, List.cons_append]

theorem window_snoc (desc : Nat → α) (i : BitVec w) (c : Nat) :
    window n desc i (c + 1) = window n desc i c ++ [desc (slot n (i + BitVec.ofNat w c))] := by
  rw [window_add, window_succ, window_zero]

theorem drop_window (desc : Nat → α) (i : BitVec w) {a c : Nat} (h : a ≤ c) :
    (window n desc i c).drop a = window n desc (i + BitVec.ofNat w a) (c - a) := by
  obtain ⟨b, rfl⟩ := Nat.exists_eq_add_of_le h
  rw [window_add, List.drop_left' (length_window ..), Nat.add_sub_cancel_left]

theorem take_window (desc : Nat → α) (i : BitVec w) {a c : Nat} (h : a ≤ c) :
    (window n desc i c).take a = window n desc i a := by
  obtain ⟨b, rfl⟩ := Nat.exists_eq_add_of_le h
  rw [window_add, List.take_left' (length_window ..)]

theorem getElem_window (desc : Nat → α) (i : BitVec w) {a c : Nat} (h : a < c) :
    (window n desc i c)[a]? = some (desc (slot n (i + BitVec.ofNat w a))) := by
  have hd := drop_window (n := n) desc i (Nat.le_of_lt h)
  rw [show c - a = (c - a - 1) + 1 from by omega, window_succ] at hd
  rw [← List.head?_drop, hd, List.head?_cons]

/-- Two windows with the same entries in every slot they visit are equal. -/
theorem window_congr {d d' : Nat → α} {i : BitVec w} {c : Nat}
    (h : ∀ a, a < c → d (slot n (i + BitVec.ofNat w a)) = d' (slot n (i + BitVec.ofNat w a))) :
    window n d i c = window n d' i c := by
  induction c with
  | zero => rfl
  | succ c ih =>
      rw [window_snoc, window_snoc, ih (fun a ha => h a (by omega)), h c (by omega)]

/-- Indices less than `n` apart never share a slot. -/
theorem slot_ne (h : Fits n w) (i : BitVec w) {a b : Nat} (hab : a < b) (hb : b < a + n) :
    slot n (i + BitVec.ofNat w a) ≠ slot n (i + BitVec.ofNat w b) := by
  rw [slot_add h, slot_add h]
  intro he
  have hdvd : n ∣ (i.toNat + b) - (i.toNat + a) :=
    Nat.dvd_of_mod_eq_zero (Nat.sub_mod_eq_zero_of_mod_eq he.symm)
  have := Nat.le_of_dvd (by omega) hdvd
  omega

/-- Writing beyond the end of a window, less than one lap ahead, leaves it alone. -/
theorem window_update_of_le (h : Fits n w) (desc : Nat → α) (i : BitVec w) {c b : Nat} (x : α)
    (hc : c ≤ b) (hb : b < n) :
    window n (Function.update desc (slot n (i + BitVec.ofNat w b)) x) i c = window n desc i c := by
  refine window_congr fun a ha => ?_
  exact Function.update_of_ne (slot_ne h i (by omega) (by omega)) _ _

/-! ## The queue between the two indices -/

@[simp] theorem length_pending (r : SpscRing α w) : (r.pending n).length = r.count :=
  length_window ..

theorem producer_eq (r : SpscRing α w) : r.producer = r.consumer + BitVec.ofNat w r.count := by
  unfold count
  rw [BitVec.ofNat_toNat, BitVec.setWidth_eq, BitVec.add_comm, BitVec.sub_add_cancel]

@[simp] theorem count_write (r : SpscRing α w) (i : BitVec w) (x : α) :
    (r.write n i x).count = r.count := rfl
@[simp] theorem publish_consumer (r : SpscRing α w) (k : BitVec w) :
    (r.publish k).consumer = r.consumer := rfl
@[simp] theorem publish_producer (r : SpscRing α w) (k : BitVec w) :
    (r.publish k).producer = r.producer + k := rfl
@[simp] theorem publish_desc (r : SpscRing α w) (k : BitVec w) : (r.publish k).desc = r.desc := rfl
@[simp] theorem release_producer (r : SpscRing α w) (k : BitVec w) :
    (r.release k).producer = r.producer := rfl
@[simp] theorem release_consumer (r : SpscRing α w) (k : BitVec w) :
    (r.release k).consumer = r.consumer + k := rfl
@[simp] theorem release_desc (r : SpscRing α w) (k : BitVec w) : (r.release k).desc = r.desc := rfl

/-- Entries written at or after the producer index are not pending yet. -/
theorem pending_write (h : Fits n w) (r : SpscRing α w) {j : Nat} (x : α)
    (hj : r.count + j < n) :
    (r.write n (r.producer + BitVec.ofNat w j) x).pending n = r.pending n := by
  have hi : r.producer + BitVec.ofNat w j = r.consumer + BitVec.ofNat w (r.count + j) := by
    rw [BitVec.ofNat_add, ← BitVec.add_assoc, ← r.producer_eq]
  rw [hi]
  exact window_update_of_le h _ _ _ (Nat.le_add_right _ _) hj

theorem count_publish (r : SpscRing α w) {k : BitVec w} (hk : r.count + k.toNat < 2 ^ w) :
    (r.publish k).count = r.count + k.toNat := by
  unfold count at *
  rw [publish_producer, publish_consumer, BitVec.sub_eq_add_neg, BitVec.add_assoc,
    BitVec.add_comm k, ← BitVec.add_assoc, ← BitVec.sub_eq_add_neg, BitVec.toNat_add,
    Nat.mod_eq_of_lt hk]

/-- Publishing appends the entries written from the producer index on. -/
theorem pending_publish (r : SpscRing α w) {k : BitVec w} (hk : r.count + k.toNat < 2 ^ w) :
    (r.publish k).pending n = r.pending n ++ window n r.desc r.producer k.toNat := by
  unfold pending
  rw [count_publish r hk, publish_desc, publish_consumer, window_add, ← r.producer_eq]

theorem count_release (r : SpscRing α w) {k : BitVec w} (hk : k.toNat ≤ r.count) :
    (r.release k).count = r.count - k.toNat := by
  unfold count at *
  have hlt : (r.producer - r.consumer - k).toNat = (r.producer - r.consumer).toNat - k.toNat :=
    BitVec.toNat_sub_of_le hk
  rw [release_producer, release_consumer, ← hlt]
  simp only [BitVec.sub_eq_add_neg, BitVec.neg_add, BitVec.add_assoc]

/-- Releasing drops the oldest entries. -/
theorem pending_release (r : SpscRing α w) {k : BitVec w} (hk : k.toNat ≤ r.count) :
    (r.release k).pending n = (r.pending n).drop k.toNat := by
  unfold pending
  rw [count_release r hk, release_desc, release_consumer, drop_window _ _ hk, BitVec.ofNat_toNat,
    BitVec.setWidth_eq]

/-- The entries in front of the consumer index are those of `pending`. -/
theorem pending_getElem (r : SpscRing α w) {a : Nat} (ha : a < r.count) :
    (r.pending n)[a]? = some (r.desc (slot n (r.consumer + BitVec.ofNat w a))) :=
  getElem_window _ _ ha

/-! ## One entry at a time -/

theorem toNat_one (hw : 1 < 2 ^ w) : (1 : BitVec w).toNat = 1 := by
  show (BitVec.ofNat w 1).toNat = 1
  rw [BitVec.toNat_ofNat, Nat.mod_eq_of_lt hw]

/-- A ring that is not full takes one more entry at its end. -/
theorem pending_push (h : Fits n w) (r : SpscRing α w) (x : α) (hr : r.count < n) :
    (r.push n x).pending n = r.pending n ++ [x] := by
  have hw : 1 < 2 ^ w := by have := h.lt; omega
  have h1 := toNat_one hw
  have hwr : (r.write n r.producer x).pending n = r.pending n := by
    simpa using pending_write h r (j := 0) x hr
  unfold push
  rw [pending_publish _ (by rw [count_write, h1]; have := h.lt; omega), hwr, h1, window_succ,
    window_zero]
  simp [write]

theorem count_push (h : Fits n w) (r : SpscRing α w) (x : α) (hr : r.count < n) :
    (r.push n x).count = r.count + 1 := by
  have hl := congrArg List.length (pending_push h r x hr)
  simpa using hl

theorem pending_pushAll (h : Fits n w) (r : SpscRing α w) (xs : List α)
    (hr : r.count + xs.length ≤ n) : (r.pushAll n xs).pending n = r.pending n ++ xs := by
  induction xs generalizing r with
  | nil => exact (List.append_nil _).symm
  | cons x xs ih =>
      rw [List.length_cons] at hr
      have hc := count_push h r x (by omega)
      have := ih (r.push n x) (by omega)
      rw [pending_push h r x (by omega), List.append_assoc] at this
      exact this

/-- Releasing one entry removes the head. -/
theorem pending_release_one (hw : 1 < 2 ^ w) (r : SpscRing α w) (hr : 0 < r.count) :
    ((r.release 1).pending n) = (r.pending n).tail := by
  rw [pending_release r (by rw [toNat_one hw]; omega), toNat_one hw, List.drop_one]

theorem count_release_one (hw : 1 < 2 ^ w) (r : SpscRing α w) (hr : 0 < r.count) :
    (r.release 1).count = r.count - 1 := by
  rw [count_release r (by rw [toNat_one hw]; omega), toNat_one hw]

end SpscRing
