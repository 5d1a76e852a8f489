import AfXdpSwitch.TwoPorts

/-!
# `switch_bi.go`: one goroutine for each port

Each goroutine refills its own port, polls, forwards from its own port to the other one if
its port has received something, and collects the completions of its own port.  So the
receive side of a port belongs to one goroutine, but its send side is used by both: the
other goroutine transmits on it and its own goroutine completes on it.

Both goroutines poll through one array `fds`, and each call of `Poll` may overwrite the
events of the other port.  The outcome of every test of an event is therefore left open.
`NumTransmitted`, which only decides which events are asked for, has no effect.
-/

namespace AfXdpSwitch.Xdp
open SpscRing SlotLane

namespace SwitchBi

/-- Where a goroutine is. -/
inductive Pc
  | fill (pc : FillPc)
  | poll
  | forward (pc : FwdPc)
  | testOut
  | complete (pc : CompletePc)

namespace Pc

/-- After a step of the refill code: poll once it is done. -/
def afterFill (next : Option FillPc) : Pc := next.elim poll fill

/-- After a step of `forwardFrames`: test for completions once it has returned. -/
def afterForward (next : Option FwdPc) : Pc := next.elim testOut forward

/-- After a step of the completion code: back to the top of the loop once it is done. -/
def afterComplete (next : Option CompletePc) : Pc := next.elim (fill .numFreeFillSlots) complete

/-- One step of the goroutine with its own port `p` and the other port `q`. -/
def step (p q : Port) (ans : Answer) : Pc → Port × Port × Pc
  | fill pc =>
      let (p, next) := pc.step p
      (p, q, afterFill next)
  | poll =>
      match ans with
      | .eintr => (p, q, fill .numFreeFillSlots)
      | .set => (p, q, forward .numReceived)
      | .clear => (p, q, testOut)
  | forward pc =>
      let (p, q, next) := pc.step p q
      (p, q, afterForward next)
  | testOut =>
      match ans with
      | .set => (p, q, complete .numCompleted)
      | _ => (p, q, fill .numFreeFillSlots)
  | complete pc =>
      let (p, next) := pc.step p
      (p, q, afterComplete next)

end Pc

/-- The goroutine of side `s` makes a step. -/
def goroutine (w : World (Side → Pc)) (s : Side) (ans : Answer) : World (Side → Pc) :=
  let (p, q, pc) := (w.ctl s).step (w.port s) (w.port s.other) ans
  ⟨Function.update (Function.update w.port s p) s.other q, Function.update w.ctl s pc⟩

inductive Go : World (Side → Pc) → World (Side → Pc) → Prop
  | mk {w} (s : Side) (ans : Answer) : Go w (goroutine w s ans)

/-- The states of all runs: both sockets are opened and both goroutines enter their
loop. -/
abbrev Visited : World (Side → Pc) → Prop := Reachable Go fun _ => .fill .numFreeFillSlots

/-! ## The invariant -/

namespace Pc

/-- Where the refill code is; at its beginning when the goroutine is elsewhere. -/
def fillPc : Pc → FillPc
  | fill pc => pc
  | _ => .numFreeFillSlots

def fwdPc : Pc → FwdPc
  | forward pc => pc
  | _ => .numReceived

def compPc : Pc → CompletePc
  | complete pc => pc
  | _ => .numCompleted

@[simp] theorem fillPc_afterFill (r : Option FillPc) :
    (afterFill r).fillPc = r.getD .numFreeFillSlots := by cases r <;> rfl
@[simp] theorem fwdPc_afterFill (r : Option FillPc) : (afterFill r).fwdPc = .numReceived := by
  cases r <;> rfl
@[simp] theorem compPc_afterFill (r : Option FillPc) : (afterFill r).compPc = .numCompleted := by
  cases r <;> rfl
@[simp] theorem fillPc_afterForward (r : Option FwdPc) :
    (afterForward r).fillPc = .numFreeFillSlots := by cases r <;> rfl
@[simp] theorem fwdPc_afterForward (r : Option FwdPc) :
    (afterForward r).fwdPc = r.getD .numReceived := by cases r <;> rfl
@[simp] theorem compPc_afterForward (r : Option FwdPc) :
    (afterForward r).compPc = .numCompleted := by cases r <;> rfl
@[simp] theorem fillPc_afterComplete (r : Option CompletePc) :
    (afterComplete r).fillPc = .numFreeFillSlots := by cases r <;> rfl
@[simp] theorem fwdPc_afterComplete (r : Option CompletePc) :
    (afterComplete r).fwdPc = .numReceived := by cases r <;> rfl
@[simp] theorem compPc_afterComplete (r : Option CompletePc) :
    (afterComplete r).compPc = r.getD .numCompleted := by cases r <;> rfl

end Pc

/-- The invariant of the program. -/
def Ok (w : World (Side → Pc)) : Prop :=
  PortsOk w.port (Pc.fillPc ∘ w.ctl) (Pc.fwdPc ∘ w.ctl) (Pc.compPc ∘ w.ctl)

variable {w : World (Side → Pc)}

/-- A step that moves one program counter. -/
theorem Ok.of_pc {port : Side → Port} {s : Side} {x : Pc}
    (h : PortsOk port (Function.update (Pc.fillPc ∘ w.ctl) s x.fillPc)
      (Function.update (Pc.fwdPc ∘ w.ctl) s x.fwdPc)
      (Function.update (Pc.compPc ∘ w.ctl) s x.compPc)) :
    Ok ⟨port, Function.update w.ctl s x⟩ := by
  unfold Ok
  simpa only [Function.comp_update] using h

/-- The parts of the code a goroutine is not in stay where they are. -/
theorem update_idle {α : Type} {f : Pc → α} {s : Side} {a : α} (h : a = f (w.ctl s)) :
    Function.update (f ∘ w.ctl) s a = f ∘ w.ctl := by
  rw [h]
  exact Function.update_eq_self s (f ∘ w.ctl)

/-- A port that is written back as it was. -/
theorem update_other (f : Side → Port) (s : Side) (p : Port) :
    Function.update (Function.update f s p) s.other (f s.other) = Function.update f s p := by
  rw [Function.update_eq_self_iff, Function.update_of_ne s.other_ne]

/-- **A step of a goroutine.**  A goroutine that refills has no frame in its hands, so it
spares them all. -/
theorem Ok.goroutine (h : Ok w) (s : Side) (ans : Answer) : Ok (goroutine w s ans) := by
  -- A test moves from the beginning of one part of the code to that of another.
  have htest : ∀ x : Pc, x.fillPc = (w.ctl s).fillPc → x.fwdPc = (w.ctl s).fwdPc →
      x.compPc = (w.ctl s).compPc →
      Ok ⟨Function.update (Function.update w.port s (w.port s)) s.other (w.port s.other),
        Function.update w.ctl s x⟩ := by
    intro x hf hw hc
    refine .of_pc ?_
    rw [update_idle hf, update_idle hw, update_idle hc, update_other, Function.update_eq_self]
    exact h
  unfold SwitchBi.goroutine
  cases hpc : w.ctl s with
  | fill pc =>
      have hf : (Pc.fillPc ∘ w.ctl) s = pc := by rw [Function.comp_apply, hpc]; rfl
      have hw : (Pc.fwdPc ∘ w.ctl) s = .numReceived := by rw [Function.comp_apply, hpc]; rfl
      have hstep := h.refill s fun _ _ c _ => by rw [hw]; exact List.not_mem_nil
      rw [hf] at hstep
      refine .of_pc (x := .afterFill (pc.step (w.port s)).2) ?_
      rw [update_other, Pc.fillPc_afterFill, Pc.fwdPc_afterFill, Pc.compPc_afterFill,
        update_idle (f := Pc.fwdPc) (by rw [hpc]; rfl),
        update_idle (f := Pc.compPc) (by rw [hpc]; rfl)]
      exact hstep
  | poll =>
      rw [hpc] at htest
      cases ans with
      | eintr | set | clear => exact htest _ rfl rfl rfl
  | forward pc =>
      have hw : (Pc.fwdPc ∘ w.ctl) s = pc := by rw [Function.comp_apply, hpc]; rfl
      have hstep := h.forward s
      rw [hw] at hstep
      refine .of_pc (x := .afterForward (pc.step (w.port s) (w.port s.other)).2.2) ?_
      rw [Pc.fillPc_afterForward, Pc.fwdPc_afterForward, Pc.compPc_afterForward,
        update_idle (f := Pc.fillPc) (by rw [hpc]; rfl),
        update_idle (f := Pc.compPc) (by rw [hpc]; rfl)]
      exact hstep
  | testOut =>
      rw [hpc] at htest
      cases ans with
      | eintr | set | clear => exact htest _ rfl rfl rfl
  | complete pc =>
      have hc : (Pc.compPc ∘ w.ctl) s = pc := by rw [Function.comp_apply, hpc]; rfl
      have hstep := h.complete s
      rw [hc] at hstep
      refine .of_pc (x := .afterComplete (pc.step (w.port s)).2) ?_
      rw [update_other, Pc.fillPc_afterComplete, Pc.fwdPc_afterComplete, Pc.compPc_afterComplete,
        update_idle (f := Pc.fillPc) (by rw [hpc]; rfl),
        update_idle (f := Pc.fwdPc) (by rw [hpc]; rfl)]
      exact hstep

theorem Visited.ok (h : Visited w) : Ok w := by
  refine h.invariant PortsOk.start (fun w s p' hw hk => PortsOk.kernel hw s hk) ?_
  rintro w _ hw ⟨s, ans⟩
  exact hw.goroutine s ans

/-! ## A run -/

/-- Several steps of one goroutine that finds every event set. -/
def goes (w : World (Side → Pc)) (s : Side) : Nat → World (Side → Pc)
  | 0 => w
  | n + 1 => goes (goroutine w s .set) s n

theorem Visited.goes (h : Visited w) (s : Side) (n : Nat) : Visited (goes w s n) := by
  induction n generalizing w with
  | zero => exact h
  | succ n ih => exact ih (h.tail (.go (.mk s .set)))

/-- `inXsk` is refilled. -/
def refilledWorld : World (Side → Pc) :=
  goes ⟨fun _ => newPort, fun _ => .fill .numFreeFillSlots⟩ .inXsk 3

/-- A packet of three bytes has arrived on `inXsk` and its goroutine has forwarded it. -/
def forwardedWorld : World (Side → Pc) :=
  goes { refilledWorld with
    port := Function.update refilledWorld.port .inXsk
      ((refilledWorld.port .inXsk).arrive 0 [1, 2, 3]) } .inXsk 9

/-- The kernel has taken it from the Tx ring of `outXsk`. -/
theorem exists_sent : ∃ w, Visited w ∧ (w.port .outXsk).taken = [[1, 2, 3]] ∧
    (w.port .outXsk).txPipe = [64] ∧ ((w.port .outXsk).calls.map Call.numBytes) = [3] := by
  have hr : Visited refilledWorld := Visited.goes .refl .inXsk 3
  have hf : Visited forwardedWorld :=
    Visited.goes (hr.kernelRun
      (Port.arrive_run _ (by decide +kernel) (by decide) (by decide +kernel))) .inXsk 9
  have ht : ((forwardedWorld.port .outXsk).xsk.txRing.pending 64).head? =
      some ⟨64 * 2048, 3⟩ := by decide +kernel
  refine ⟨_, hf.tail (.kernel .outXsk (.inr (.takeTx ht))), ?_, ?_, ?_⟩
  all_goals decide +kernel

/-! ## Ownership of chunks -/

/-- **Every chunk of a port is in at most one place of one pipeline, and the socket knows
which.**  In every state of every run: no chunk is twice among the fill ring, the kernel's
receive side and the Rx ring, or twice among the Tx ring, the kernel's send side and the
completion ring; the first half of the UMEM is used for receiving and the second half for
sending, also by the frame copies in between; the two maps mark exactly the chunks in the
two pipelines as used, and the two counters count them. -/
theorem chunk_ownership (h : Visited w) (s : Side) :
    (w.port s).rxPipe.Nodup ∧ (w.port s).txPipe.Nodup ∧
    (∀ c ∈ (w.port s).rxPipe, c < 64) ∧ (∀ c ∈ (w.port s).txPipe, 64 ≤ c ∧ c < 128) ∧
    (∀ len i k out inp, w.ctl s = .forward (.copy len i k out inp) →
      inp.off / 2048 < 64 ∧ 64 ≤ out.off / 2048 ∧ out.off / 2048 < 128) ∧
    (∀ i, i < 64 → ((w.port s).xsk.freeRXDescs i = false ↔ i ∈ (w.port s).rxPipe)) ∧
    (∀ i, 64 ≤ i → i < 128 → ((w.port s).xsk.freeTXDescs i = false ↔ i ∈ (w.port s).txPipe)) ∧
    (w.port s).xsk.numFilled = (w.port s).rxPipe.length ∧
    (w.port s).xsk.numTransmitted = (w.port s).txPipe.length := by
  have hdir := h.ok.dir s
  have hrx := hdir.rx
  have htx := (h.ok.dir s.other).tx
  rw [s.other_other] at htx
  refine ⟨hrx.lane.nodup, htx.lane.nodup, fun c hc => (hrx.lane.range c hc).2, htx.lane.range, ?_,
    fun i _ => hrx.lane.used i, fun i _ _ => htx.lane.used i, hrx.num, htx.num⟩
  intro len i k out inp hpc
  have hw : (Pc.fwdPc ∘ w.ctl) s = .copy len i k out inp := by
    rw [Function.comp_apply, hpc]
    rfl
  have hhand := hdir.hand
  rw [hw] at hhand
  obtain ⟨hi, -, rfl, rfl⟩ := hhand.locals
  exact ⟨(hhand.received i (Nat.le_refl i) hi).range, hhand.held.range _ (mem_slice_map hi)⟩

/-- With one frame sent and not completed. -/
theorem chunk_ownership_sent : ∃ w, Visited w ∧ (w.port .outXsk).txPipe = [64] ∧
    (w.port .outXsk).xsk.freeTXDescs 64 = false ∧ (w.port .outXsk).xsk.numTransmitted = 1 := by
  obtain ⟨w, hw, -, hpipe, -⟩ := exists_sent
  obtain ⟨-, -, -, -, -, -, hfree, -, hnum⟩ := chunk_ownership hw .outXsk
  rw [hpipe] at hfree hnum
  exact ⟨w, hw, hpipe, (hfree 64 (by decide) (by decide)).mpr (List.mem_singleton.mpr rfl), hnum⟩

/-! ## Faithful forwarding -/

/-- **Frames come out as they went in.**  In every state of every run, for each direction:
what the kernel has taken from the Tx ring of the output port is, frame by frame and in
this order, part of what it has delivered on the Rx ring of the input port; a frame the
kernel has taken is still there until its chunk is completed; and every `forwardFrames`
call that has returned counted the frames and the bytes that it put on the Tx ring. -/
theorem forwarding_faithful (h : Visited w) (s : Side) :
    (w.port s.other).taken.Sublist ((w.port s).delivered.map Prod.snd) ∧
    (∀ x ∈ (w.port s.other).ktx, frame (w.port s.other).xsk.umem x.1 = x.2) ∧
    (∀ c ∈ (w.port s.other).calls, c.numFrames = c.placed.length ∧
      c.numBytes = (c.placed.map fun x => x.2.length).sum) := by
  have hdir := h.ok.dir s
  refine ⟨?_, hdir.data.stable, hdir.calls⟩
  have hplaced : (w.port s.other).placed.Sublist (w.port s).delivered := by
    refine List.Sublist.trans ?_ hdir.chain
    rw [List.append_assoc]
    exact List.sublist_append_left _ _
  refine List.Sublist.trans ?_ (hplaced.map Prod.snd)
  rw [← hdir.data.sent]
  exact List.sublist_append_left _ _

/-- With one frame sent: it was delivered, and counted. -/
theorem forwarding_faithful_sent : ∃ w, Visited w ∧ (w.port .outXsk).taken = [[1, 2, 3]] ∧
    [1, 2, 3] ∈ (w.port .inXsk).delivered.map Prod.snd ∧
    (w.port .outXsk).calls ≠ [] ∧ ∀ c ∈ (w.port .outXsk).calls, c.numFrames = c.placed.length := by
  obtain ⟨w, hw, htaken, -, hcalls⟩ := exists_sent
  obtain ⟨hsub, -, hright⟩ := forwarding_faithful hw .inXsk
  refine ⟨w, hw, htaken, hsub.subset ?_, ?_, fun c hc => (hright c hc).1⟩
  · show [1, 2, 3] ∈ (w.port .outXsk).taken
    rw [htaken]
    exact List.mem_singleton.mpr rfl
  · intro he
    rw [he] at hcalls
    cases hcalls

end SwitchBi

end AfXdpSwitch.Xdp
