import AfXdpSwitch.ForwardStep

/-!
# The two ports of a Go switch

A switch forwards in both directions between two ports.  Every port is the input of one
direction and the output of the other, and each goroutine works on both ports.
`PortsOk` collects what holds of the ports, given where the refill code, `forwardFrames`
and the completion code are on each side; the lemmas say that a step of any of them, and
of the kernel, keeps it.  They do not depend on which goroutine makes the step.
-/

namespace AfXdpSwitch.Xdp
open SpscRing SlotLane

/-- `inXsk` or `outXsk`. -/
inductive Side
  | inXsk
  | outXsk
deriving DecidableEq

namespace Side

/-- The other side. -/
def other : Side → Side
  | inXsk => outXsk
  | outXsk => inXsk

variable (s : Side)

@[simp] theorem other_other : s.other.other = s := by cases s <;> rfl
@[simp] theorem other_ne : s.other ≠ s := by cases s <;> decide
@[simp] theorem ne_other : s ≠ s.other := by cases s <;> decide

theorem eq_or_other (t : Side) : t = s ∨ t = s.other := by cases s <;> cases t <;> decide

end Side

/-! ## Runs -/

/-- The outcome of `Poll`, or of the test of an event. -/
inductive Answer
  | eintr
  | set
  | clear

/-- The two ports and the control state of a program: where its goroutines are. -/
structure World (σ : Type) where
  port : Side → Port
  ctl : σ

/-- A step of the kernel on one port, or a step `go` of some goroutine. -/
inductive Step {σ : Type} (go : World σ → World σ → Prop) : World σ → World σ → Prop
  | kernel {w p'} (s : Side) (h : KernelStep (w.port s) p') :
      Step go w { w with port := Function.update w.port s p' }
  | go {w w'} (h : go w w') : Step go w w'

/-- The states of all runs, from two new sockets and the control state `init` on. -/
def Reachable {σ : Type} (go : World σ → World σ → Prop) (init : σ) : World σ → Prop :=
  Relation.ReflTransGen (Step go) ⟨fun _ => newPort, init⟩

namespace Reachable
variable {σ : Type} {go : World σ → World σ → Prop} {init : σ} {w w' : World σ}

/-- What holds at the start and is kept by every step holds in every state of every
run. -/
theorem invariant {I : World σ → Prop} (h : Reachable go init w)
    (h0 : I ⟨fun _ => newPort, init⟩)
    (hk : ∀ w s p', I w → KernelStep (w.port s) p' →
      I { w with port := Function.update w.port s p' })
    (hg : ∀ w w', I w → go w w' → I w') : I w := by
  induction h with
  | refl => exact h0
  | tail _ hs ih =>
      cases hs with
      | kernel s h => exact hk _ s _ ih h
      | go h => exact hg _ _ ih h

theorem kernelRun (h : Reachable go init w) {s : Side} {p : Port}
    (hk : Relation.ReflTransGen KernelStep (w.port s) p) :
    Reachable go init { w with port := Function.update w.port s p } := by
  induction hk with
  | refl => rw [Function.update_eq_self]; exact h
  | @tail p p' _ hs ih =>
      have hk : KernelStep (Function.update w.port s p s) p' := by rwa [Function.update_self]
      have hstep : Step go { w with port := Function.update w.port s p } _ := .kernel s hk
      rw [Function.update_idem] at hstep
      exact ih.tail hstep

end Reachable

/-! ## The invariant -/

/-- The ports after a step of `forwardFrames` from side `s`. -/
def forwardPorts (port : Side → Port) (s : Side) (pc : FwdPc) : Side → Port :=
  Function.update (Function.update port s (pc.step (port s) (port s.other)).1) s.other
    (pc.step (port s) (port s.other)).2.1

/-- **Both directions are right**, with the refill code, `forwardFrames` and the completion
code of each side where `fill`, `fwd` and `comp` say. -/
structure PortsOk (port : Side → Port) (fill : Side → FillPc) (fwd : Side → FwdPc)
    (comp : Side → CompletePc) : Prop where
  dir : ∀ s, DirOk (port s) (port s.other) (fwd s)
  filling : ∀ s, FillOk (port s) (fill s)
  completing : ∀ s, CompleteOk (port s) (comp s)

namespace PortsOk
variable {port : Side → Port} {fill : Side → FillPc} {fwd : Side → FwdPc}
  {comp : Side → CompletePc}

theorem start : PortsOk (fun _ => newPort) (fun _ => .numFreeFillSlots) (fun _ => .numReceived)
    (fun _ => .numCompleted) where
  dir := fun _ => {
    rx := RxOk.new
    tx := TxOk.new
    data := ⟨fun _ h => absurd h List.not_mem_nil, fun _ h => absurd h List.not_mem_nil, rfl,
      fun _ h => absurd h List.not_mem_nil⟩
    hand := ⟨fun j _ h => absurd h (Nat.not_lt_zero j), Held.nil,
      fun j h => absurd h (Nat.not_lt_zero j), fun j h => absurd h (Nat.not_lt_zero j), trivial⟩
    chain := List.Sublist.refl _
    calls := fun _ h => absurd h List.not_mem_nil }
  filling := fun _ => trivial
  completing := fun _ => trivial

/-- Changing one port, seen from both directions. -/
theorem set_port (h : PortsOk port fill fwd comp) (s : Side) {p' : Port} {f : FillPc}
    {c : CompletePc} (hin : DirOk p' (port s.other) (fwd s))
    (hout : DirOk (port s.other) p' (fwd s.other)) (hf : FillOk p' f) (hc : CompleteOk p' c) :
    PortsOk (Function.update port s p') (Function.update fill s f) fwd
      (Function.update comp s c) where
  dir := fun t => by
    rcases s.eq_or_other t with rfl | rfl
    · simpa using hin
    · simpa using hout
  filling := fun t => by
    rcases s.eq_or_other t with rfl | rfl
    · simpa using hf
    · simpa using h.filling s.other
  completing := fun t => by
    rcases s.eq_or_other t with rfl | rfl
    · simpa using hc
    · simpa using h.completing s.other

/-- **A kernel step.** -/
theorem kernel (h : PortsOk port fill fwd comp) (s : Side) {p' : Port}
    (hs : KernelStep (port s) p') : PortsOk (Function.update port s p') fill fwd comp := by
  have hin := h.dir s
  have hout := h.dir s.other
  rw [s.other_other] at hout
  have hset : DirOk p' (port s.other) (fwd s) → DirOk (port s.other) p' (fwd s.other) →
      FillOk p' (fill s) → CompleteOk p' (comp s) →
      PortsOk (Function.update port s p') fill fwd comp := fun hin hout hf hc => by
    simpa only [Function.update_eq_self] using h.set_port s hin hout hf hc
  rcases hs with hs | hs
  · have hsame := hs.txSame hin.rx
    exact hset (hin.rxStep hs) (hout.same (RxSame.refl _) hsame) ((h.filling s).rxStep hs)
      ((h.completing s).same hsame.toTxNotes)
  · have hsame := hs.rxSame
    exact hset (hin.same hsame (TxSame.refl _)) (hout.txStep hs) ((h.filling s).same hsame)
      ((h.completing s).txStep hs)

/-- What is in hand on either side stays as it is. -/
theorem handed_kernel (h : PortsOk port fill fwd comp) (t : Side) {p' : Port}
    (hs : KernelStep (port t) p') (s : Side) :
    handed (Function.update port t p' s) (Function.update port t p' s.other) (fwd s) =
      handed (port s) (port s.other) (fwd s) := by
  rcases t.eq_or_other s with rfl | rfl
  · rw [Function.update_self, Function.update_of_ne s.other_ne]
    rcases hs with hs | hs
    · exact (h.dir s).handed_rxStep hs
    · exact (h.dir s).handed_same hs.rxSame (TxSame.refl _)
  · have hdir := h.dir t.other
    rw [t.other_other] at hdir ⊢
    rw [Function.update_self, Function.update_of_ne t.other_ne]
    rcases hs with hs | hs
    · exact hdir.handed_same (RxSame.refl _) (hs.txSame (h.dir t).rx)
    · exact handed_txStep hs

/-- **A step of the refill code**, as long as it spares the frames still to be copied. -/
theorem refill (h : PortsOk port fill fwd comp) (s : Side)
    (hspare : ∀ len, fill s = .fill len → ∀ c ∈ (slice (port s).xsk.getRXDescs len).map
      fun d => chunkOf d.addr, c ∉ toCopy (port s) (fwd s)) :
    PortsOk (Function.update port s ((fill s).step (port s)).1)
      (Function.update fill s (((fill s).step (port s)).2.getD .numFreeFillSlots)) fwd comp := by
  have hin := h.dir s
  have hout := h.dir s.other
  rw [s.other_other] at hout
  have hsame := FillPc.step_txSame (port s) (fill s)
  simpa only [Function.update_eq_self] using h.set_port s (c := comp s)
    (hin.fill (h.filling s) hspare) (hout.same (RxSame.refl _) hsame)
    (FillOk.step (fill s) (port s)) ((h.completing s).same hsame.toTxNotes)

/-- **A step of the completion code.** -/
theorem complete (h : PortsOk port fill fwd comp) (s : Side) :
    PortsOk (Function.update port s ((comp s).step (port s)).1) fill fwd
      (Function.update comp s (((comp s).step (port s)).2.getD .numCompleted)) := by
  have hin := h.dir s
  have hout := h.dir s.other
  rw [s.other_other] at hout
  have hsame := CompletePc.step_rxSame (port s) (comp s)
  simpa only [Function.update_eq_self] using h.set_port s (f := fill s)
    (hin.same hsame (TxSame.refl _)) (hout.complete (h.completing s))
    ((h.filling s).same hsame) (CompleteOk.step (comp s) hout.tx)

/-- **A step of `forwardFrames`.** -/
theorem forward (h : PortsOk port fill fwd comp) (s : Side) :
    PortsOk (forwardPorts port s (fwd s)) fill
      (Function.update fwd s (((fwd s).step (port s) (port s.other)).2.2.getD .numReceived))
      comp where
  dir := fun t => by
    have hin := h.dir s
    have hout := h.dir s.other
    rw [s.other_other] at hout
    rcases s.eq_or_other t with rfl | rfl
    · simpa [forwardPorts] using hin.forward
    · simpa [forwardPorts] using
        hout.same hin.step_rxSame (FwdPc.step_txSame (port s) (port s.other) (fwd s))
  filling := fun t => by
    rcases s.eq_or_other t with rfl | rfl
    · simpa [forwardPorts] using (h.filling t).forward (h.dir t).rx (fwd t) (port t.other)
    · simpa [forwardPorts] using (h.filling s.other).same (h.dir s).step_rxSame
  completing := fun t => by
    rcases s.eq_or_other t with rfl | rfl
    · simpa [forwardPorts] using
        (h.completing t).same (FwdPc.step_txSame (port t) (port t.other) (fwd t)).toTxNotes
    · simpa [forwardPorts] using (h.completing s.other).forward (fwd s) (port s)

end PortsOk

end AfXdpSwitch.Xdp
