import Mathlib.Logic.Basic

/-!
# Pre- and postconditions for programs that may halt

A program over a state `σ` either returns a value and a new state or halts with
some `ε` (a failed assertion, a loop that was given up on).  `Triple F P c Q`
says that from every state satisfying `P` the program `c` either returns with
`Q`, or halts with a reason that `F` allows.  With `F` nowhere true this is total
correctness, with `F` everywhere true it is partial correctness, and the rules
are the same for both.

Counted loops with an accumulator are a combinator, `forLoop`, so that the
induction over the loop counter is done once, in `Triple.forLoop`.
-/

/-- Programs that read and change a `σ` and may halt with an `ε`. -/
abbrev Prog (ε σ : Type) := StateT σ (Except ε)

namespace Prog
variable {ε σ α β : Type}

/-- Run `body i`, `body (i + 1)`, …, `n` times, threading an accumulator. -/
def forFrom (body : Nat → β → Prog ε σ β) : Nat → Nat → β → Prog ε σ β
  | 0, _, b => pure b
  | n + 1, i, b => body i b >>= forFrom body n (i + 1)

/-- `for (i = 0; i < n; i++)`, with the loop's other variables as accumulator. -/
def forLoop (n : Nat) (body : Nat → β → Prog ε σ β) (b : β) : Prog ε σ β :=
  forFrom body n 0 b

/-- From every state satisfying `P`, `c` returns with `Q` or halts as `F` allows. -/
def Triple (F : ε → Prop) (P : σ → Prop) (c : Prog ε σ α) (Q : α → σ → Prop) : Prop :=
  ∀ s, P s → match c s with
    | .ok (a, s') => Q a s'
    | .error e => F e

theorem bind_ok {c : Prog ε σ α} {f : α → Prog ε σ β} {s s' : σ} {a : α}
    (h : c s = .ok (a, s')) : (c >>= f) s = f a s' := by
  show (c s >>= fun r => f r.1 r.2) = f a s'
  rw [h]
  rfl

namespace Triple
variable {F : ε → Prop} {P P' : σ → Prop} {Q Q' : α → σ → Prop} {R : β → σ → Prop}

theorem conseq {c : Prog ε σ α} (h : Triple F P c Q) (hp : ∀ s, P' s → P s)
    (hq : ∀ a s, Q a s → Q' a s) : Triple F P' c Q' := by
  intro s hs
  have := h s (hp s hs)
  cases hc : c s with
  | error e => rw [hc] at this; exact this
  | ok r => rw [hc] at this; exact hq _ _ this

theorem bind {c : Prog ε σ α} {f : α → Prog ε σ β} (hc : Triple F P c Q)
    (hf : ∀ a, Triple F (Q a) (f a) R) : Triple F P (c >>= f) R := by
  intro s hs
  have := hc s hs
  show match (c s >>= fun r => f r.1 r.2) with
    | .ok (b, s') => R b s'
    | .error e => F e
  cases h : c s with
  | error e => rw [h] at this; exact this
  | ok r => rw [h] at this; exact hf r.1 r.2 this

theorem pure {a : α} (h : ∀ s, P s → Q a s) : Triple F P (pure a : Prog ε σ α) Q := h

theorem modifyGet {f : σ → α × σ} (h : ∀ s, P s → Q (f s).1 (f s).2) :
    Triple F P (modifyGet f : Prog ε σ α) Q := h

theorem modify {f : σ → σ} {Q : PUnit → σ → Prop} (h : ∀ s, P s → Q ⟨⟩ (f s)) :
    Triple F P (MonadState.modifyGet (fun s => (PUnit.unit, f s)) : Prog ε σ PUnit) Q := h

theorem get {Q : σ → σ → Prop} (h : ∀ s, P s → Q s s) : Triple F P (get : Prog ε σ σ) Q := h

theorem throw {e : ε} (h : ∀ s, P s → F e) : Triple F P (throw e : Prog ε σ α) Q := h

theorem ite {b : Prop} [Decidable b] {c d : Prog ε σ α} (hc : b → Triple F P c Q)
    (hd : ¬ b → Triple F P d Q) : Triple F P (if b then c else d) Q := by
  split
  · exact hc ‹_›
  · exact hd ‹_›

/-- Two triples for one program hold together; halts are those of the first. -/
theorem and {F' : ε → Prop} {c : Prog ε σ α} (h : Triple F P c Q) (h' : Triple F' P' c Q') :
    Triple F (fun s => P s ∧ P' s) c (fun a s => Q a s ∧ Q' a s) := by
  intro s hs
  have hq := h s hs.1
  have hq' := h' s hs.2
  cases hc : c s with
  | error e => rw [hc] at hq; exact hq
  | ok r => rw [hc] at hq hq'; exact ⟨hq, hq'⟩

/-- A pure part of the precondition may be assumed. -/
theorem pure_pre {b : Prop} {c : Prog ε σ α} (h : b → Triple F P c Q) :
    Triple F (fun s => b ∧ P s) c Q :=
  fun s hs => h hs.1 s hs.2

/-- A quantified part of the precondition may be opened. -/
theorem exists_pre {ι : Type} {P : ι → σ → Prop} {c : Prog ε σ α}
    (h : ∀ i, Triple F (P i) c Q) : Triple F (fun s => ∃ i, P i s) c Q :=
  fun s ⟨i, hs⟩ => h i s hs

/-- Nothing is claimed. -/
theorem trivial {c : Prog ε σ α} : Triple (fun _ => True) P c (fun _ _ => True) := by
  intro s _
  cases c s with
  | error e => exact True.intro
  | ok r => exact True.intro

/-- **The invariant rule for counted loops.**  `I i b` holds before the `i`-th
round with accumulator `b`. -/
theorem forLoop {I : Nat → β → σ → Prop} {n : Nat} {c : Nat → β → Prog ε σ β}
    (h : ∀ i b, i < n → Triple F (I i b) (c i b) (fun b' => I (i + 1) b')) (b : β) :
    Triple F (I 0 b) (Prog.forLoop n c b) (fun b' => I n b') := by
  suffices key : ∀ k i b, i + k = n → Triple F (I i b) (forFrom c k i b) (fun b' => I n b') from
    key n 0 b (by omega)
  intro k
  induction k with
  | zero =>
      intro i b hi
      obtain rfl : i = n := by omega
      exact Triple.pure fun _ hs => hs
  | succ k ih =>
      intro i b hi
      exact Triple.bind (h i b (by omega)) fun b' => ih (i + 1) b' (by omega)

/-- Total correctness yields the run. -/
theorem exists_ok {c : Prog ε σ α} (h : Triple (fun _ => False) P c Q) {s : σ} (hs : P s) :
    ∃ a s', c s = .ok (a, s') ∧ Q a s' := by
  have := h s hs
  cases hc : c s with
  | error e => rw [hc] at this; exact this.elim
  | ok r => rw [hc] at this; exact ⟨r.1, r.2, rfl, this⟩

/-- A run that returns satisfies the postcondition. -/
theorem of_ok {c : Prog ε σ α} (h : Triple F P c Q) {s s' : σ} {a : α} (hs : P s)
    (hc : c s = .ok (a, s')) : Q a s' := by
  have := h s hs
  rw [hc] at this
  exact this

end Triple
end Prog
