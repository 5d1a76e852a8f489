import Mathlib.Data.List.Nodup
import Mathlib.Data.List.Perm.Subperm

/-!
# Resources that are open, owned and lost

A process acquires resources and gives them back by name.  A `Ledger` has the resources that are
open, and beside them those that are lost: still open, but no variable of the program names them
any more.  `Holds own l` says that what is open is what the program owns and what is lost, each
once; so whatever is given back was its own, and at the end exactly the lost resources remain.

The environment chooses which name a new resource gets, as long as it is not in use.
-/

namespace ResourceLedger

variable {ρ : Type}

/-- The resources that are open, and those that are lost. -/
structure Ledger (ρ : Type) where
  opened : List ρ
  lost : List ρ

/-- The first number from `a` on whose resource is not in the list, of the next `n`. -/
def unusedFrom [DecidableEq ρ] (mk : Nat → ρ) (l : List ρ) : Nat → Nat → Nat
  | 0, a => a
  | n + 1, a => if mk a ∈ l then unusedFrom mk l n (a + 1) else a

/-- A number whose resource is not in the list. -/
def unused [DecidableEq ρ] (mk : Nat → ρ) (l : List ρ) (a : Nat) : Nat :=
  unusedFrom mk l l.length a

namespace Ledger

/-- A new resource. -/
def acquire (l : Ledger ρ) (r : ρ) : Ledger ρ := { l with opened := r :: l.opened }

/-- Giving back what is not open has no effect. -/
def release [DecidableEq ρ] (l : Ledger ρ) (r : ρ) : Ledger ρ := { l with opened := l.opened.erase r }

/-- Nothing names the resource any more; it stays open. -/
def lose (l : Ledger ρ) (r : ρ) : Ledger ρ := { l with lost := r :: l.lost }

end Ledger

/-- What is open is what is owned and what is lost, each once. -/
structure Holds (own : List ρ) (l : Ledger ρ) : Prop where
  nodup : l.opened.Nodup
  perm : l.opened.Perm (own ++ l.lost)

section Unused
variable [DecidableEq ρ] {mk : Nat → ρ}

/-- Either the search ends at an unused number, or it has seen only used ones. -/
theorem unusedFrom_spec (mk : Nat → ρ) (l : List ρ) (n a : Nat) :
    mk (unusedFrom mk l n a) ∉ l ∨
      unusedFrom mk l n a = a + n ∧ ∀ i, i < n → mk (a + i) ∈ l := by
  induction n generalizing a with
  | zero => exact .inr ⟨rfl, fun i hi => absurd hi (Nat.not_lt_zero i)⟩
  | succ n ih =>
      unfold unusedFrom
      split
      · rcases ih (a + 1) with h | ⟨he, h⟩
        · exact .inl h
        · refine .inr ⟨by omega, fun i hi => ?_⟩
          cases i with
          | zero => assumption
          | succ i =>
              rw [show a + (i + 1) = a + 1 + i by omega]
              exact h i (by omega)
      · exact .inl ‹_›

/-- A list has too few elements for all of `length + 1` numbers. -/
theorem unused_not_mem (hmk : Function.Injective mk) (l : List ρ) (a : Nat) :
    mk (unused mk l a) ∉ l := by
  intro hmem
  rcases unusedFrom_spec mk l l.length a with h | ⟨he, h⟩
  · exact h hmem
  have hall : ∀ i, i < l.length + 1 → mk (a + i) ∈ l := by
    intro i hi
    rcases Nat.lt_succ_iff_lt_or_eq.mp hi with hlt | rfl
    · exact h i hlt
    · rw [← he]
      exact hmem
  have hsub : (List.range (l.length + 1)).map (fun i => mk (a + i)) ⊆ l := by
    intro r hr
    obtain ⟨i, hi, rfl⟩ := List.mem_map.mp hr
    exact hall i (List.mem_range.mp hi)
  have hnodup : ((List.range (l.length + 1)).map fun i => mk (a + i)).Nodup :=
    List.Nodup.map (fun i j hij => Nat.add_left_cancel (hmk hij)) List.nodup_range
  have hle := (List.subperm_of_subset hnodup hsub).length_le
  rw [List.length_map, List.length_range] at hle
  omega

end Unused

namespace Holds
variable {own own' : List ρ} {l : Ledger ρ} {r : ρ}

theorem congr (h : Holds own l) (hp : own.Perm own') : Holds own' l :=
  ⟨h.nodup, h.perm.trans (hp.append_right _)⟩

theorem mem (h : Holds own l) (hr : r ∈ own) : r ∈ l.opened :=
  h.perm.mem_iff.mpr (List.mem_append_left _ hr)

/-- Nothing is owned twice. -/
theorem not_mem (h : Holds (r :: own) l) : r ∉ own := by
  have hn := h.perm.nodup_iff.mp h.nodup
  rw [List.cons_append, List.nodup_cons, List.mem_append, not_or] at hn
  exact hn.1.1

theorem acquire (h : Holds own l) (hr : r ∉ l.opened) : Holds (r :: own) (l.acquire r) :=
  ⟨List.nodup_cons.mpr ⟨hr, h.nodup⟩, h.perm.cons r⟩

/-- **What is given back was its own.** -/
theorem release [DecidableEq ρ] (h : Holds (r :: own) l) : Holds own (l.release r) := by
  refine ⟨h.nodup.erase r, ?_⟩
  have hp := h.perm.erase r
  rwa [List.cons_append, List.erase_cons_head] at hp

theorem lose (h : Holds (r :: own) l) : Holds own (l.lose r) :=
  ⟨h.nodup, h.perm.trans List.perm_middle.symm⟩

end Holds

end ResourceLedger
