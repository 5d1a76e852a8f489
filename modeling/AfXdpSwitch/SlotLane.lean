import Mathlib.Data.List.Nodup
import Mathlib.Data.List.NodupEquivFin
import Mathlib.Data.List.Range
import Mathlib.Data.Finset.Card
import Mathlib.Order.Interval.Finset.Nat

/-!
# Slots handed out through a map of flags

A lane is a range of slots with one flag each.  A slot is free while its flag is set.
Whoever wants slots looks for set flags, puts the slots it found into the lane's
pipeline and clears their flags; whoever takes a slot out of the pipeline sets its flag
again.

Looking for slots and clearing their flags are two operations.  What was found and is
not in the pipeline yet is `Held`: nothing in the map says so, and the next search finds
the same slots.  The lane stays consistent (`Ok`) as long as what enters it is held.
-/

namespace SlotLane

/-- Set the flags of some slots to `b`. -/
def mark (free : Nat → Bool) (b : Bool) : List Nat → (Nat → Bool)
  | [] => free
  | i :: is => mark (Function.update free i b) b is

/-- The first `n` free slots of the range, in ascending order. -/
def firstFree (lo hi : Nat) (free : Nat → Bool) (n : Nat) : List Nat :=
  ((List.range' lo (hi - lo)).filter free).take n

/-- The flags say which slots are in the pipeline, and each of them is there once. -/
structure Ok (lo hi : Nat) (free : Nat → Bool) (pipe : List Nat) : Prop where
  nodup : pipe.Nodup
  range : ∀ i ∈ pipe, lo ≤ i ∧ i < hi
  used : ∀ i, free i = false ↔ i ∈ pipe

/-- Distinct free slots of the range. -/
structure Held (lo hi : Nat) (free : Nat → Bool) (held : List Nat) : Prop where
  nodup : held.Nodup
  range : ∀ i ∈ held, lo ≤ i ∧ i < hi
  free : ∀ i ∈ held, free i = true

variable {lo hi n : Nat} {free : Nat → Bool} {pipe held l rest : List Nat} {b : Bool}

theorem mark_apply (free : Nat → Bool) (b : Bool) (l : List Nat) (i : Nat) :
    mark free b l i = if i ∈ l then b else free i := by
  induction l generalizing free with
  | nil => simp [mark]
  | cons x l ih =>
      rw [mark, ih]
      by_cases hl : i ∈ l
      · simp [hl]
      · by_cases hx : i = x
        · subst hx; simp
        · simp [hl, hx]

theorem mark_of_mem {i : Nat} (h : i ∈ l) : mark free b l i = b := by
  rw [mark_apply, if_pos h]

theorem mark_of_not_mem {i : Nat} (h : i ∉ l) : mark free b l i = free i := by
  rw [mark_apply, if_neg h]

/-! ## The pipeline -/

theorem Ok.empty (lo hi : Nat) : Ok lo hi (fun _ => true) [] where
  nodup := List.nodup_nil
  range := fun _ h => absurd h List.not_mem_nil
  used := fun _ => by simp

/-- Slots may change places within the pipeline. -/
theorem Ok.perm (h : Ok lo hi free pipe) (hp : pipe.Perm l) : Ok lo hi free l where
  nodup := hp.nodup_iff.mp h.nodup
  range := fun i hi => h.range i (hp.mem_iff.mpr hi)
  used := fun i => (h.used i).trans hp.mem_iff

theorem Ok.length_le (h : Ok lo hi free pipe) : pipe.length ≤ hi - lo := by
  have hs : pipe.toFinset ⊆ Finset.Ico lo hi := by
    intro i hi
    exact Finset.mem_Ico.mpr (h.range i (List.mem_toFinset.mp hi))
  have hc := Finset.card_le_card hs
  rwa [List.toFinset_card_of_nodup h.nodup, Nat.card_Ico] at hc

/-- Held slots are not in the pipeline. -/
theorem Held.not_mem (hh : Held lo hi free held) (h : Ok lo hi free pipe) {i : Nat}
    (hi : i ∈ held) : i ∉ pipe := by
  intro hp
  have hf := hh.free i hi
  rw [(h.used i).mpr hp] at hf
  exact Bool.false_ne_true hf

/-- **Held slots enter.** -/
theorem Ok.enter (h : Ok lo hi free pipe) (hh : Held lo hi free held) :
    Ok lo hi (mark free false held) (pipe ++ held) where
  nodup := h.nodup.append hh.nodup fun _ hp hi => hh.not_mem h hi hp
  range := fun i hi => (List.mem_append.mp hi).elim (h.range i) (hh.range i)
  used := fun i => by
    rw [List.mem_append]
    by_cases hi : i ∈ held
    · rw [mark_of_mem hi]
      exact iff_of_true rfl (.inr hi)
    · rw [mark_of_not_mem hi, h.used]
      exact ⟨.inl, fun ho => ho.resolve_right hi⟩

/-- **Slots leave.** -/
theorem Ok.leave (h : Ok lo hi free (l ++ rest)) : Ok lo hi (mark free true l) rest where
  nodup := h.nodup.of_append_right
  range := fun i hi => h.range i (List.mem_append_right l hi)
  used := fun i => by
    by_cases hi : i ∈ l
    · rw [mark_of_mem hi]
      exact iff_of_false Bool.noConfusion fun hr =>
        List.disjoint_of_nodup_append h.nodup hi hr
    · rw [mark_of_not_mem hi, h.used, List.mem_append]
      exact ⟨fun ho => ho.resolve_left hi, .inr⟩

/-! A pipeline often has three stages: what was submitted, what the other party has taken,
and what it has given back.  Moves within it, into it and out of it: -/

section Stages
variable {submitted taken given new old : List Nat} {x : Nat}

theorem perm_submit :
    (submitted ++ taken ++ given ++ new).Perm (submitted ++ new ++ taken ++ given) := by
  simp only [List.append_assoc]
  refine .append_left _ ?_
  rw [← List.append_assoc]
  exact List.perm_append_comm

theorem perm_take :
    (x :: submitted ++ taken ++ given).Perm (submitted ++ (taken ++ [x]) ++ given) := by
  refine .append_right _ ?_
  rw [← List.append_assoc]
  exact (List.perm_append_singleton _ _).symm

theorem perm_give {l r : List Nat} :
    (submitted ++ (l ++ x :: r) ++ given).Perm (submitted ++ (l ++ r) ++ (given ++ [x])) := by
  simp only [List.append_assoc, List.cons_append]
  refine .append_left _ (.append_left _ ?_)
  rw [← List.append_assoc]
  exact (List.perm_append_singleton _ _).symm

theorem perm_collect :
    (submitted ++ taken ++ (old ++ given)).Perm (old ++ (submitted ++ taken ++ given)) := by
  rw [← List.append_assoc]
  refine (List.perm_append_comm.append_right _).trans ?_
  rw [List.append_assoc]

end Stages

/-- There is room for what is held. -/
theorem Held.room (hh : Held lo hi free held) (h : Ok lo hi free pipe) :
    pipe.length + held.length ≤ hi - lo := by
  have := (h.enter hh).length_le
  rwa [List.length_append] at this

/-! ## What is held stays held -/

theorem Held.nil : Held lo hi free [] where
  nodup := List.nodup_nil
  range := fun _ h => absurd h List.not_mem_nil
  free := fun _ h => absurd h List.not_mem_nil

theorem Held.sublist (hh : Held lo hi free held) (hl : l.Sublist held) : Held lo hi free l where
  nodup := hh.nodup.sublist hl
  range := fun i hi => hh.range i (hl.subset hi)
  free := fun i hi => hh.free i (hl.subset hi)

/-- Slots that leave the pipeline do not disturb what is held. -/
theorem Held.mark_true (hh : Held lo hi free held) : Held lo hi (mark free true l) held where
  nodup := hh.nodup
  range := hh.range
  free := fun i hi => by
    rw [mark_apply]
    split
    · rfl
    · exact hh.free i hi

/-- What a search finds is held. -/
theorem held_firstFree (lo hi : Nat) (free : Nat → Bool) (n : Nat) :
    Held lo hi free (firstFree lo hi free n) where
  nodup := by
    have hr : (List.range' lo (hi - lo)).Nodup := List.nodup_range'
    exact (hr.filter _).sublist (List.take_sublist _ _)
  range := fun i hi => by
    have hm := (List.mem_filter.mp (List.mem_of_mem_take hi)).1
    rw [List.mem_range'_1] at hm
    omega
  free := fun i hi => (List.mem_filter.mp (List.mem_of_mem_take hi)).2

/-- Of two ascending lists the larger one is pointwise smaller. -/
theorem getElem_le_of_subset {l m : List Nat} (hl : l.Pairwise (· < ·)) (hm : m.Pairwise (· < ·))
    (hs : m ⊆ l) {j : Nat} (hj : j < l.length) (hj' : j < m.length) : l[j] ≤ m[j] := by
  induction m generalizing l j with
  | nil => exact absurd hj' (Nat.not_lt_zero j)
  | cons x m ih =>
      cases l with
      | nil => exact absurd hj (Nat.not_lt_zero j)
      | cons y l =>
          rw [List.pairwise_cons] at hl hm
          -- `y` is the smallest element of the larger list
          have hyx : y ≤ x := by
            rcases List.mem_cons.mp (hs List.mem_cons_self) with h | h
            · exact Nat.le_of_eq h.symm
            · exact Nat.le_of_lt (hl.1 x h)
          cases j with
          | zero => exact hyx
          | succ j =>
              refine ih hl.2 hm.2 (fun z hz => ?_) (Nat.lt_of_succ_lt_succ hj)
                (Nat.lt_of_succ_lt_succ hj')
              rcases List.mem_cons.mp (hs (List.mem_cons_of_mem x hz)) with h | h
              · have := hm.1 z hz
                omega
              · exact h

theorem firstFree_ascending (lo hi : Nat) (free : Nat → Bool) (n : Nat) :
    (firstFree lo hi free n).Pairwise (· < ·) := by
  have hr : (List.range' lo (hi - lo)).Pairwise (· < ·) := List.pairwise_lt_range'
  exact (hr.filter _).sublist (List.take_sublist _ _)

/-- A search finds the smallest free slots: those of any other ascending list of free
slots are no smaller. -/
theorem firstFree_le {l : List Nat} (hl : l.Pairwise (· < ·))
    (hfree : ∀ i ∈ l, lo ≤ i ∧ i < hi ∧ free i = true) {j : Nat}
    (hj : j < (firstFree lo hi free n).length) (hj' : j < l.length) :
    (firstFree lo hi free n)[j] ≤ l[j] := by
  have hsub : l ⊆ (List.range' lo (hi - lo)).filter free := by
    intro i hi
    obtain ⟨h1, h2, h3⟩ := hfree i hi
    exact List.mem_filter.mpr ⟨List.mem_range'_1.mpr (by omega), h3⟩
  have hr : (List.range' lo (hi - lo)).Pairwise (· < ·) := List.pairwise_lt_range'
  unfold firstFree at hj ⊢
  rw [List.length_take] at hj
  rw [List.getElem_take]
  exact getElem_le_of_subset (hr.filter _) hl hsub _ hj'

/-! ## How many slots are free -/

/-- The slots of the range that are in use are those of the pipeline. -/
theorem Ok.filter_perm (h : Ok lo hi free pipe) :
    ((List.range' lo (hi - lo)).filter fun i => !free i).Perm pipe := by
  have hr : (List.range' lo (hi - lo)).Nodup := List.nodup_range'
  refine (List.perm_ext_iff_of_nodup (hr.filter _) h.nodup).mpr fun i => ?_
  rw [List.mem_filter, List.mem_range'_1, Bool.not_eq_true', h.used]
  constructor
  · exact fun hi => hi.2
  · intro hi
    have := h.range i hi
    exact ⟨by omega, hi⟩

theorem Ok.length_filter (h : Ok lo hi free pipe) :
    ((List.range' lo (hi - lo)).filter free).length + pipe.length = hi - lo := by
  have hsum := List.length_eq_length_filter_add (l := List.range' lo (hi - lo)) free
  rw [List.length_range', h.filter_perm.length_eq] at hsum
  exact hsum.symm

/-- A search that may return enough finds every free slot. -/
theorem Ok.length_firstFree (h : Ok lo hi free pipe) (hn : hi - lo ≤ n + pipe.length) :
    (firstFree lo hi free n).length + pipe.length = hi - lo := by
  have hsum := h.length_filter
  unfold firstFree
  rw [List.length_take]
  omega

/-- A pipeline as long as the range has every slot in it. -/
theorem Ok.mem_of_full (h : Ok lo hi free pipe) (hl : pipe.length = hi - lo) {i : Nat}
    (h1 : lo ≤ i) (h2 : i < hi) : i ∈ pipe := by
  have hsum := h.length_filter
  have hnil : (List.range' lo (hi - lo)).filter free = [] :=
    List.eq_nil_of_length_eq_zero (by omega)
  have hnot := List.filter_eq_nil_iff.mp hnil i (List.mem_range'_1.mpr (by omega))
  exact (h.used i).mp (Bool.eq_false_iff.mpr hnot)

end SlotLane
