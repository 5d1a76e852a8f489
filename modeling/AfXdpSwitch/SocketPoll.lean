import AfXdpSwitch.ForwardStep

/-!
# `Socket.Poll`, and programs with one socket

The example programs of the Go binding open one socket and wait for it with `Poll`, which
also recycles what the kernel has sent.  A program is a state and a step on it and the
port; the kernel steps in between wherever it likes (`Alone.Reachable`).

The rest is what the kernel does, seen from such a program: the stream of delivered
frames only grows at its end, frames in hand and frames waiting are not touched, and the
send pipeline has the length the socket thinks it has (`TxCounts`, the part of `TxOk` that
also holds of a program that sends from the wrong half of the UMEM).
-/

namespace AfXdpSwitch.Xdp
open SpscRing SlotLane

/-! ## `Poll` -/

/-- `unix.POLLIN`. -/
def pollIn : BitVec 16 := 1
/-- `unix.POLLOUT`. -/
def pollOut : BitVec 16 := 4

/-- What `unix.Poll` answers. -/
inductive PollAnswer
  | ready
  | eintr
  | failed

/-- The events `Poll` waits for. -/
def pollEvents (xsk : Socket) : BitVec 16 :=
  (if xsk.numFilled > 0 then pollIn else 0) ||| (if xsk.numTransmitted > 0 then pollOut else 0)

/-- `xsk.Poll(-1)`. -/
inductive PollPc
  | events
  | poll (ev : BitVec 16)
  | numReceived
  | numCompleted (numRx : Nat)
  | complete (numRx numCompl : Nat)
deriving DecidableEq

/-- What comes after a step of `Poll`: more of it, its results, or an error. -/
inductive PollNext
  | goto (pc : PollPc)
  | done (numRx numCompl : Nat)
  | err

/-- One step of `Poll`. -/
def PollPc.step (answer : PollAnswer) (p : Port) : PollPc → Port × PollNext
  | .events =>
      let ev := pollEvents p.xsk
      if ev = 0 then (p, .done 0 0) else (p, .goto (.poll ev))
  | .poll ev =>
      match answer with
      | .ready => (p, .goto .numReceived)
      | .eintr => (p, .goto (.poll ev))
      | .failed => (p, .err)
  | .numReceived => (p, .goto (.numCompleted p.xsk.numReceived))
  | .numCompleted numRx =>
      let n := p.xsk.numCompleted
      if n > 0 then (p, .goto (.complete numRx n)) else (p, .done numRx n)
  | .complete numRx n => (p.setXsk (p.xsk.complete n), .done numRx n)

/-- The completions `Poll` has counted are there. -/
def PollPc.Counted (p : Port) : PollPc → Prop
  | .complete _ n => n ≤ p.xsk.completionRing.count
  | _ => True

/-! ## Runs of a program with one socket -/

namespace Alone

/-- A step of the kernel, or a step `go` of the program. -/
inductive Step {σ : Type} (go : Port × σ → Port × σ → Prop) : Port × σ → Port × σ → Prop
  | kernel {p p' s} (h : KernelStep p p') : Step go (p, s) (p', s)
  | go {w w'} (h : go w w') : Step go w w'

/-- The states of all runs, from a new socket and the control state `init` on. -/
def Reachable {σ : Type} (go : Port × σ → Port × σ → Prop) (init : σ) : Port × σ → Prop :=
  Relation.ReflTransGen (Step go) (newPort, init)

variable {σ : Type} {go : Port × σ → Port × σ → Prop} {init : σ} {w w' : Port × σ}

/-- What holds at the start and is kept by every step holds in every state of every
run. -/
theorem Reachable.invariant {I : Port × σ → Prop} (h : Reachable go init w)
    (h0 : I (newPort, init)) (hk : ∀ p p' s, I (p, s) → KernelStep p p' → I (p', s))
    (hg : ∀ w w', I w → go w w' → I w') : I w := by
  induction h with
  | refl => exact h0
  | tail _ hs ih =>
      cases hs with
      | kernel h => exact hk _ _ _ ih h
      | go h => exact hg _ _ ih h

theorem Reachable.kernelRun {p' : Port} (h : Reachable go init w)
    (hk : Relation.ReflTransGen KernelStep w.1 p') : Reachable go init (p', w.2) := by
  induction hk with
  | refl => exact h
  | tail _ hs ih => exact ih.tail (.kernel hs)

end Alone

variable {p p' : Port} {pc : PollPc}

/-! ## The kernel on the receive side -/

/-- Nothing the program has noted about receiving differs. -/
theorem RxStep.notes (hs : RxStep p p') : p'.xsk.rxDescs = p.xsk.rxDescs ∧
    p'.xsk.freeRXDescs = p.xsk.freeRXDescs ∧ p'.xsk.numFilled = p.xsk.numFilled := by
  cases hs with
  | takeFill | write | deliver => exact ⟨rfl, rfl, rfl⟩

theorem RxOk.length_rxStep (h : RxOk p) (hs : RxStep p p') :
    p'.rxPipe.length = p.rxPipe.length := by
  have h1 := h.num
  have h2 := (h.rxStep hs).num
  rw [hs.notes.2.2] at h2
  omega

/-- A frame in hand is in a chunk that is marked free, and the kernel writes to no such
chunk. -/
theorem RxOk.frame_rxStep (h : RxOk p) (hs : RxStep p p') {d : Desc} (hd : InHand p d) :
    frame p'.xsk.umem d = frame p.xsk.umem d := by
  cases hs with
  | takeFill | deliver => rfl
  | @write a m ha hm =>
      refine frame_congr hd.whole fun x hx => hm x ?_
      rw [hx]
      intro he
      have hf := hd.free
      rw [he, (h.lane.used _).mpr (mem_rxPipe_of_krx ha)] at hf
      exact Bool.false_ne_true hf

/-- **What is delivered is appended to what waits on the Rx ring**, and nothing else
happens to that. -/
theorem RxOk.stream_rxStep (h : RxOk p) (hs : RxStep p p') :
    ∃ new, p'.onRx = p.onRx ++ new ∧ p'.delivered = p.delivered ++ new := by
  cases hs with
  | takeFill => exact ⟨[], (List.append_nil _).symm, (List.append_nil _).symm⟩
  | @write a m ha hm =>
      refine ⟨[], ?_, (List.append_nil _).symm⟩
      rw [List.append_nil]
      refine List.map_congr_left fun d hd => ?_
      -- the chunk written to is with the kernel, so it is not on the Rx ring
      have hdis := List.disjoint_of_nodup_append h.lane.nodup
      have hf : frame m d = frame p.xsk.umem d := by
        refine frame_congr (h.whole d hd) fun x hx => hm x fun he => ?_
        exact hdis (List.mem_append_right _ (List.mem_map_of_mem ha))
          (List.mem_map.mpr ⟨d, hd, hx.symm.trans he⟩)
      show (d, frame m d) = _
      rw [hf]
  | @deliver l a r d hk hd hw room =>
      refine ⟨[(d, frame p.xsk.umem d)], ?_, rfl⟩
      unfold Port.onRx
      simp only [pending_push fits p.xsk.rxRing d room, List.map_append, List.map_cons,
        List.map_nil]

/-! ## The kernel on the send side -/

/-- The lengths of the send pipeline and its rings. -/
structure TxCounts (p : Port) : Prop where
  tx : p.xsk.txRing.count ≤ 64
  comp : p.xsk.completionRing.count ≤ 64
  num : p.xsk.numTransmitted = p.txPipe.length

theorem TxOk.counts (h : TxOk p) : TxCounts p := by
  have hle := h.length_le
  exact ⟨by omega, by omega, h.num⟩

theorem TxCounts.new : TxCounts newPort := TxOk.new.counts

theorem TxCounts.same (h : TxCounts p) (hs : TxNotes p p') : TxCounts p' := by
  refine ⟨?_, ?_, ?_⟩
  · rw [hs.txRing]; exact h.tx
  · rw [hs.completionRing]; exact h.comp
  · rw [hs.numTransmitted, hs.txPipe]; exact h.num

theorem TxStep.perm (hs : TxStep p p') : p.txPipe.Perm p'.txPipe := by
  cases hs with
  | @takeTx d hd =>
      simp only [Port.txPipe, pending_of_head? hd, List.map_append, List.map_cons, List.map_nil]
      exact perm_take
  | @complete l x r hk room =>
      simp only [Port.txPipe, pending_push fits p.xsk.completionRing x.1.addr room, hk,
        List.map_append, List.map_cons, List.map_nil]
      exact perm_give

theorem TxCounts.txStep (h : TxCounts p) (hs : TxStep p p') : TxCounts p' := by
  have hperm := hs.perm
  cases hs with
  | @takeTx d hd =>
      have hlen := congrArg List.length (pending_of_head? hd)
      rw [length_pending, List.length_cons, length_pending] at hlen
      have htx := h.tx
      exact ⟨by dsimp only; omega, h.comp, h.num.trans (congrArg _ hperm.length_eq)⟩
  | @complete l x r hk room =>
      refine ⟨h.tx, ?_, h.num.trans (congrArg _ hperm.length_eq)⟩
      show (p.xsk.completionRing.push 64 _).count ≤ 64
      rw [count_push fits _ _ room]
      omega

/-! ## What `Poll` keeps -/

theorem PollPc.step_rxSame (answer : PollAnswer) (p : Port) (pc : PollPc) :
    RxSame p (pc.step answer p).1 := by
  cases pc with
  | events => unfold step; dsimp only; split <;> exact RxSame.refl p
  | poll => cases answer <;> exact RxSame.refl p
  | numReceived => exact RxSame.refl p
  | numCompleted => unfold step; dsimp only; split <;> exact RxSame.refl p
  | complete numRx n => exact { RxSame.refl p with }

/-- The chunks that `Complete` returns leave the pipeline. -/
theorem complete_perm {n : Nat} (h : p.xsk.completionRing.count ≤ 64)
    (hn : n ≤ p.xsk.completionRing.count) :
    p.txPipe.Perm (((p.xsk.completionRing.pending 64).take n).map chunkOf ++
      (p.setXsk (p.xsk.complete n)).txPipe) := by
  have hp := pending_release_min (r := p.xsk.completionRing) n h
  rw [Nat.min_eq_left hn] at hp
  rw [p.xsk.complete_eq hn]
  simp only [Port.txPipe, hp]
  conv_lhs => rw [← List.take_append_drop n (p.xsk.completionRing.pending 64), List.map_append]
  exact perm_collect

theorem TxCounts.complete (h : TxCounts p) {n : Nat} (hn : n ≤ p.xsk.completionRing.count) :
    TxCounts (p.setXsk (p.xsk.complete n)) := by
  have hlen := (complete_perm h.comp hn).length_eq
  have hc := h.comp
  have hnum := h.num
  rw [List.length_append, List.length_map, List.length_take, length_pending] at hlen
  have hk : (BitVec.ofNat 32 n).toNat = n := by
    rw [BitVec.toNat_ofNat]
    omega
  rw [p.xsk.complete_eq hn] at hlen ⊢
  refine ⟨h.tx, ?_, by dsimp only; omega⟩
  show (p.xsk.completionRing.release _).count ≤ 64
  rw [count_release _ (by rw [hk]; exact hn), hk]
  omega

theorem PollPc.Counted.same (h : pc.Counted p) (hs : TxNotes p p') : pc.Counted p' := by
  cases pc with
  | complete numRx n =>
      show n ≤ p'.xsk.completionRing.count
      rw [hs.completionRing]
      exact h
  | _ => trivial

theorem PollPc.Counted.txStep (h : pc.Counted p) (hs : TxStep p p') : pc.Counted p' := by
  cases pc with
  | complete numRx n =>
      have hok : CompleteOk p (.complete n) := h
      exact hok.txStep hs
  | _ => trivial

/-- **A step of `Poll`**: either it changes nothing about sending, or it completes what it
has counted. -/
theorem PollPc.step_cases (answer : PollAnswer) (p : Port) (pc : PollPc) :
    (pc.step answer p).1 = p ∨
      ∃ numRx n, pc = .complete numRx n ∧
        (pc.step answer p).1 = p.setXsk (p.xsk.complete n) := by
  cases pc with
  | events => left; unfold step; dsimp only; split <;> rfl
  | poll => left; cases answer <;> rfl
  | numReceived => exact .inl rfl
  | numCompleted => left; unfold step; dsimp only; split <;> rfl
  | complete numRx n => exact .inr ⟨numRx, n, rfl, rfl⟩

theorem TxCounts.pollStep (h : TxCounts p) (hc : pc.Counted p) (answer : PollAnswer) :
    TxCounts (pc.step answer p).1 := by
  rcases PollPc.step_cases answer p pc with he | ⟨numRx, n, rfl, he⟩
  · rw [he]
    exact h
  · rw [he]
    exact h.complete hc

/-- What `Poll` counts is there when it comes to completing it. -/
theorem PollPc.Counted.step (h : p.xsk.completionRing.count ≤ 64) {answer : PollAnswer}
    {pc' : PollPc} (hn : (pc.step answer p).2 = .goto pc') : pc'.Counted (pc.step answer p).1 := by
  cases pc with
  | events =>
      unfold PollPc.step at hn ⊢
      dsimp only at hn ⊢
      split at hn
      · cases hn
      · cases hn
        trivial
  | poll ev =>
      cases answer with
      | ready | eintr => cases hn; trivial
      | failed => cases hn
  | numReceived => cases hn; trivial
  | numCompleted numRx =>
      have hcount : p.xsk.numCompleted = p.xsk.completionRing.count := numAvailable_eq h
      unfold PollPc.step at hn ⊢
      dsimp only at hn ⊢
      split at hn
      · cases hn
        rw [if_pos ‹_›]
        exact Nat.le_of_eq hcount
      · cases hn
  | complete numRx n => cases hn

end AfXdpSwitch.Xdp
