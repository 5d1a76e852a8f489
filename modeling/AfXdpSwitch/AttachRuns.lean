import AfXdpSwitch.LinkAttach

/-!
# What the tools do to a program

Without offload an interface has one program at most: the driver's mode and the generic one exclude
each other.  Here it is a place that is empty or holds one program in one of the two modes, and the
tools of `LinkAttach`, run one after the other in any order, move it from one such state to another.
So it can be said which runs leave a program where it is.
-/

namespace AfXdpSwitch
namespace LinkAttach
open Netlink

variable {k : Kernel}

/-! ## The interface as a place for one program -/

/-- A program that is not offloaded. -/
structure Held where
  mode : Mode
  id : BitVec 32
  mode_ne : mode ≠ .hw
  id_ne : id ≠ 0

def programsOf : Option Held → Programs
  | none => noPrograms
  | some h => put noPrograms h.mode (some h.id)

/-- The program, unless it is in this slot. -/
def without (m : Mode) : Option Held → Option Held
  | none => none
  | some h => if h.mode = m then none else some h

section HeldPrograms
variable {o : Option Held} {m : Mode}

theorem programsOf_slot (h : Held) : slot (programsOf (some h)) m =
    if m = h.mode then some h.id else none := by
  split
  · rename_i heq
    rw [heq]
    exact slot_put
  · rename_i hne
    refine (slot_put_of_ne hne).trans ?_
    cases m <;> rfl

theorem programsOf_none_slot : slot (programsOf none) m = none := by
  cases m <;> rfl

theorem put_programsOf : put (programsOf o) m none = programsOf (without m o) := by
  cases o with
  | none => exact put_slot programsOf_none_slot
  | some h =>
      show _ = programsOf (if h.mode = m then none else some h)
      split
      · rename_i heq
        show put (put noPrograms h.mode (some h.id)) m none = noPrograms
        rw [heq]
        cases m <;> rfl
      · rename_i hne
        exact put_slot (by rw [programsOf_slot, if_neg (Ne.symm hne)])

theorem exists_of_slot (h : slot (programsOf o) m ≠ none) :
    ∃ held, o = some held ∧ held.mode = m := by
  cases o with
  | none => exact absurd programsOf_none_slot h
  | some held =>
      rw [programsOf_slot] at h
      by_contra hno
      exact h (if_neg fun he => hno ⟨held, rfl, he.symm⟩)

theorem exists_of_without_ne (h : without m o ≠ o) : ∃ held, o = some held ∧ held.mode = m := by
  cases o with
  | none => exact absurd rfl h
  | some held =>
      by_contra hno
      exact h (if_neg fun he => hno ⟨held, rfl, he⟩)

theorem without_self (held : Held) : without held.mode (some held) = none := if_pos rfl

theorem eq_none_of_empty (h : programsOf o = noPrograms) : o = none := by
  cases o with
  | none => rfl
  | some held =>
      have hslot : slot (programsOf (some held)) held.mode = some held.id := by
        rw [programsOf_slot, if_pos rfl]
      rw [h, show noPrograms = programsOf none from rfl, programsOf_none_slot] at hslot
      cases hslot

/-- If nothing is there, or nothing without what is in the slot. -/
theorem without_eq_none (h : programsOf o = noPrograms ∨ programsOf (without m o) = noPrograms) :
    without m o = none := by
  rcases h with h | h
  · rw [eq_none_of_empty h]
    rfl
  · exact eq_none_of_empty h

theorem ids_ne_zero : slot (programsOf o) m ≠ some 0 := by
  cases o with
  | none => rw [programsOf_none_slot]; exact fun h => nomatch h
  | some h =>
      rw [programsOf_slot]
      split
      · exact fun he => h.id_ne (Option.some.inj he)
      · exact fun he => nomatch he

theorem programsOf_mode_ne : (programsOf o).mode ≠ xdpAttachedMulti := by
  cases o with
  | none => decide
  | some h =>
      obtain ⟨mode, id, hm, hid⟩ := h
      cases mode with
      | drv => exact show xdpAttachedDrv ≠ _ by decide
      | skb => exact show xdpAttachedSkb ≠ _ by decide
      | hw => exact absurd rfl hm

theorem eq_none_of_slots (hm : m ≠ .hw) (h : slot (programsOf o) m = none)
    (hother : slot (programsOf o) m.other = none) : o = none := by
  cases o with
  | none => rfl
  | some held =>
      rw [programsOf_slot] at h hother
      rcases Mode.eq_or_other_eq hm held.mode_ne with he | he
      · rw [if_pos he] at h
        cases h
      · rw [if_pos he] at hother
        cases hother

/-- With the other slot emptied and this one filled, there is one program. -/
theorem put_put_programsOf (hm : m ≠ .hw) {id : BitVec 32} (hid : id ≠ 0) :
    put (put (programsOf o) m.other none) m (some id) = programsOf (some ⟨m, id, hm, hid⟩) := by
  cases o with
  | none => cases m <;> rfl
  | some h =>
      obtain ⟨mode, id', hmode, hid'⟩ := h
      cases m <;> cases mode <;> first | rfl | exact absurd rfl hmode | exact absurd rfl hm

theorem target_ne_hw {native : Bool} {flags : BitVec 32} (h : flags &&& xdpFlagsHwMode = 0) :
    target native flags ≠ .hw := by
  unfold target
  rw [if_neg (not_not.mpr h)]
  split
  · exact fun h => nomatch h
  split
  · exact fun h => nomatch h
  · cases native <;> exact fun h => nomatch h

end HeldPrograms

/-! ## Runs -/

/-- What a user of an interface can do, without offload: the two tools of the C loader and the two
methods of the Go package, whose loop is given up after `polls` rounds.  The flags of `goAttach` are
those in `DefaultXdpFlags` when it is called. -/
inductive Op where
  | attach (flags prog : BitVec 32) (plain : flags &&& xdpFlagsHwMode = 0) (id_ne : prog ≠ 0)
  | detach (flags expectedProgId : BitVec 32) (plain : flags &&& xdpFlagsHwMode = 0)
  | goDetach (polls : Nat)
  | goAttach (polls : Nat) (flags prog : BitVec 32) (plain : flags &&& xdpFlagsHwMode = 0)
      (id_ne : prog ≠ 0)

/-- Run it; the result says if there was no error. -/
def perform (k : Kernel) (s : Iface) : Op → Bool × Iface
  | .attach flags prog _ _ =>
      let (exit, s) := k.xdpLinkAttach flags prog s
      (exit == Kernel.exitOk, s)
  | .detach flags expectedProgId _ =>
      let (exit, s) := k.xdpLinkDetach flags expectedProgId s
      (exit == Kernel.exitOk, s)
  | .goDetach polls =>
      let (err, s) := k.removeProgram polls s
      (err == some 0, s)
  | .goAttach polls flags prog _ _ =>
      let (err, s) := k.attach polls flags prog s
      (err == some 0, s)

def performAll (k : Kernel) (s : Iface) (ops : List Op) : Iface :=
  ops.foldl (fun s op => (perform k s op).2) s

/-- The program `o` becomes `o'` by an operation with this result. -/
def Next (native : Bool) (o o' : Option Held) : Op → Bool → Prop
  | .attach flags prog _ _, true =>
      (∃ h, o' = some h ∧ h.mode = target native flags ∧ h.id = prog) ∧
        (flags &&& xdpFlagsUpdateIfNoexist ≠ 0 → o = none)
  | .attach flags _ _ _, false =>
      o' = o ∨ flags &&& xdpFlagsUpdateIfNoexist = 0 ∧ o' = none ∧
        ∃ h, o = some h ∧ h.mode = (target native flags).other
  | .detach flags expectedProgId _, true =>
      o' = without (target native flags) o ∧ (o' ≠ o → expectedProgId = 0 ∨
        ∃ h, o = some h ∧ h.id = expectedProgId)
  | .detach _ _ _, false => o' = o
  | .goDetach _, true => o' = none ∧ without (target native 0) o = none
  | .goDetach _, false => o' = o ∨ o' = without (target native 0) o
  | .goAttach _ flags prog _ _, true =>
      (∃ h, o' = some h ∧ h.mode = target native flags ∧ h.id = prog) ∧
        without (target native 0) o = none
  | .goAttach _ _ _ _ _, false => o' = o ∨ o' = without (target native 0) o

/-- **An interface without offload is a place for one program.**  Whatever the kernel answers, each
operation takes it from one such state to another as `Next` says. -/
theorem perform_refines (hk : k.Documented) {s : Iface} {o : Option Held}
    (hs : s.programs = programsOf o) (op : Op) :
    ∃ o', (perform k s op).2.programs = programsOf o' ∧
      Next k.native o o' op (perform k s op).1 := by
  cases op with
  | attach flags prog plain id_ne =>
      have hm : target k.native flags ≠ .hw := target_ne_hw plain
      have h := xdpLinkAttach_cases flags prog s hk
      dsimp only at h
      rw [hs] at h
      unfold perform
      dsimp only
      rcases h with ⟨hexit, hp, hno⟩ | ⟨hexit, hp⟩ | ⟨hexit, hforce, hother, hp⟩
      · rw [hexit]
        refine ⟨_, hp.trans (put_put_programsOf hm id_ne), ⟨_, rfl, rfl, rfl⟩, fun hflag => ?_⟩
        exact eq_none_of_slots hm (hno hflag).1 ((hno hflag).2 hm)
      · rw [hexit]
        exact ⟨o, hp, .inl rfl⟩
      · rw [hexit]
        obtain ⟨held, rfl, hmode⟩ := exists_of_slot hother
        refine ⟨none, ?_, .inr ⟨hforce, rfl, held, rfl, hmode⟩⟩
        rw [hp, put_programsOf, ← hmode, without_self]
  | detach flags expectedProgId plain =>
      have hids : ∀ m, slot s.programs m ≠ some 0 := fun m => hs ▸ ids_ne_zero
      obtain ⟨hfail, hok, hexp⟩ := xdpLinkDetach_cases flags s hk hids expectedProgId
      have hclear : ¬ Unclear s.programs flags := fun h => programsOf_mode_ne (hs ▸ h.1)
      rw [if_neg hclear, hs, put_programsOf] at hok
      rw [hs] at hfail hexp
      unfold perform
      dsimp only
      by_cases hexit : (k.xdpLinkDetach flags expectedProgId s).1 = Kernel.exitOk
      · rw [hexit]
        refine ⟨_, hok hexit, rfl, fun hne => ?_⟩
        obtain ⟨held, rfl, hmode⟩ := exists_of_without_ne hne
        have hafter := hok hexit
        rw [← put_programsOf] at hafter
        have hid := hexp held.id (by rw [programsOf_slot, if_pos hmode.symm])
          (by rw [hafter, slot_put])
        exact hid.imp_right fun he => ⟨held, rfl, he.symm⟩
      · rw [beq_false_of_ne hexit]
        exact ⟨o, hfail hexit, rfl⟩
  | goDetach polls =>
      obtain ⟨hp, hnil⟩ := removeProgram_cases hk polls s
      rw [hs, put_programsOf] at hp
      unfold perform
      dsimp only
      by_cases hret : (k.removeProgram polls s).1 = some 0
      · rw [hret]
        have hempty := hnil hret
        refine ⟨none, hempty, rfl, without_eq_none ?_⟩
        exact hp.imp (fun h => h.symm.trans hempty) fun h => h.symm.trans hempty
      · rw [beq_false_of_ne hret]
        rcases hp with hp | hp
        · exact ⟨o, hp, .inl rfl⟩
        · exact ⟨_, hp, .inr rfl⟩
  | goAttach polls flags prog plain id_ne =>
      have h := attach_cases hk polls flags prog s
      have hm : target k.native flags ≠ .hw := target_ne_hw plain
      dsimp only at h
      rw [hs, put_programsOf] at h
      unfold perform
      dsimp only
      rcases h with ⟨hret, hbefore, hp⟩ | ⟨hret, hp⟩
      · rw [hret]
        exact ⟨some ⟨_, prog, hm, id_ne⟩, hp, ⟨_, rfl, rfl, rfl⟩, without_eq_none hbefore⟩
      · rw [beq_false_of_ne hret]
        rcases hp with hp | hp
        · exact ⟨o, hp, .inl rfl⟩
        · exact ⟨_, hp, .inr rfl⟩

/-- The operations of a run, with their results. -/
def outcomes (k : Kernel) : Iface → List Op → List (Op × Bool)
  | _, [] => []
  | s, op :: ops => (op, (perform k s op).1) :: outcomes k (perform k s op).2 ops

/-- What becomes of the program in a run. -/
inductive Runs (native : Bool) : Option Held → List (Op × Bool) → Option Held → Prop
  | nil (o : Option Held) : Runs native o [] o
  | cons {o o₁ o₂ : Option Held} {op : Op} {ok : Bool} {rest : List (Op × Bool)} :
      Next native o o₁ op ok → Runs native o₁ rest o₂ → Runs native o ((op, ok) :: rest) o₂

/-- **Whole runs.**  An interface that never had an offloaded program goes through the states of a
place for one program, with the results that the tools report. -/
theorem performAll_refines (hk : k.Documented) (ops : List Op) :
    ∃ o', (performAll k ⟨noPrograms, 0⟩ ops).programs = programsOf o' ∧
      Runs k.native none (outcomes k ⟨noPrograms, 0⟩ ops) o' := by
  have hrun : ∀ (ops : List Op) (s : Iface) (o : Option Held), s.programs = programsOf o →
      ∃ o', (performAll k s ops).programs = programsOf o' ∧
        Runs k.native o (outcomes k s ops) o' := by
    intro ops
    induction ops with
    | nil => exact fun s o hs => ⟨o, hs, .nil o⟩
    | cons op ops ih =>
        intro s o hs
        obtain ⟨o₁, hs₁, hnext⟩ := perform_refines hk hs op
        obtain ⟨o₂, hs₂, hruns⟩ := ih _ o₁ hs₁
        exact ⟨o₂, hs₂, .cons hnext hruns⟩
  exact hrun ops _ none rfl

/-- A program in the generic slot is replaced by force, and the new one taken away in its turn. -/
theorem performAll_refines_force :
    let ops := [.attach xdpFlagsSkbMode 7 (by decide) (by decide),
      .attach 0 8 (by decide) (by decide), .detach xdpFlagsDrvMode 8 (by decide)]
    outcomes (netDevice true) ⟨noPrograms, 0⟩ ops = ops.map (·, true) ∧
      ∃ o', (performAll (netDevice true) ⟨noPrograms, 0⟩ ops).programs = programsOf o' ∧
        Runs true none (outcomes (netDevice true) ⟨noPrograms, 0⟩ ops) o' :=
  ⟨rfl, performAll_refines (netDevice_documented true) _⟩

/-- The operation is not about this program: it attaches only where there is none, expects another
program or is about another slot. -/
def Spares (native : Bool) (h : Held) : Op → Prop
  | .attach flags _ _ _ => flags &&& xdpFlagsUpdateIfNoexist ≠ 0
  | .detach flags expectedProgId _ =>
      h.mode ≠ target native flags ∨ expectedProgId ≠ 0 ∧ h.id ≠ expectedProgId
  | .goDetach _ => h.mode ≠ target native 0
  | .goAttach _ _ _ _ _ => h.mode ≠ target native 0

theorem without_of_ne {h : Held} {m : Mode} (hne : h.mode ≠ m) : without m (some h) = some h :=
  if_neg hne

theorem Next.spared {native ok : Bool} {h : Held} {o' : Option Held} {op : Op}
    (hnext : Next native (some h) o' op ok) (hspares : Spares native h op) : o' = some h := by
  cases op with
  | attach flags prog plain id_ne =>
      cases ok with
      | true => exact absurd (hnext.2 hspares) (Option.some_ne_none h)
      | false => exact hnext.elim id fun hforced => absurd hforced.1 hspares
  | detach flags expectedProgId plain =>
      cases ok with
      | false => exact hnext
      | true =>
          obtain ⟨ho', hexp⟩ := hnext
          rcases hspares with hmode | ⟨hzero, hid⟩
          · rw [ho', without_of_ne hmode]
          · by_contra hne
            rcases hexp hne with hz | ⟨h', heq, hid'⟩
            · exact hzero hz
            · rw [← Option.some.inj heq] at hid'
              exact hid hid'
  | goDetach polls =>
      have hstay := without_of_ne hspares
      cases ok with
      | true => exact absurd (hstay.symm.trans hnext.2) (Option.some_ne_none h)
      | false => exact hnext.elim id fun ho' => ho'.trans hstay
  | goAttach polls flags prog plain id_ne =>
      have hstay := without_of_ne hspares
      cases ok with
      | true => exact absurd (hstay.symm.trans hnext.2) (Option.some_ne_none h)
      | false => exact hnext.elim id fun ho' => ho'.trans hstay

/-- **What the tools never take away.**  A program stays on its interface in any run of operations
none of which is about it, whether they fail or not. -/
theorem program_stays (hk : k.Documented) {s : Iface} {h : Held}
    (hs : s.programs = programsOf (some h)) {ops : List Op}
    (hspares : ∀ op ∈ ops, Spares k.native h op) :
    (performAll k s ops).programs = programsOf (some h) := by
  induction ops generalizing s with
  | nil => exact hs
  | cons op ops ih =>
      obtain ⟨o', hs', hnext⟩ := perform_refines hk hs op
      obtain rfl := hnext.spared (hspares op List.mem_cons_self)
      exact ih hs' fun op' hop' => hspares op' (List.mem_cons_of_mem op hop')

/-- The Go package does not get a generic program off a driver with XDP. -/
theorem program_stays_generic :
    (performAll (netDevice true) ⟨programsOf (some ⟨.skb, 7, by decide, by decide⟩), 0⟩
      [.goDetach 100, .goAttach 100 0 8 (by decide) (by decide),
        .detach xdpFlagsSkbMode 8 (by decide)]).programs =
        programsOf (some ⟨.skb, 7, by decide, by decide⟩) := by
  refine program_stays (netDevice_documented true) rfl fun op hop => ?_
  simp only [List.mem_cons, List.not_mem_nil, or_false] at hop
  rcases hop with rfl | rfl | rfl
  · exact show Mode.skb ≠ target true 0 by decide
  · exact show Mode.skb ≠ target true 0 by decide
  · exact .inr ⟨by decide, show (7 : BitVec 32) ≠ 8 by decide⟩

end LinkAttach
end AfXdpSwitch
