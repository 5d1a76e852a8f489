import AfXdpSwitch.TwoPorts

/-!
# `switch_bi_original.go`: refilling beside the main loop

One goroutine refills both sockets for ever; the main loop polls both, forwards in both
directions and collects completions.

`Receive` marks a chunk as free as soon as its descriptor has left the Rx ring, before
`forwardFrames` has copied the frame.  The refill goroutine may give such a chunk back to
the kernel, and the next packet then overwrites the frame: `received_frame_overwritten`
is such a run.  Frames are safe as long as every call of `Fill` spares them (`Spares`).
-/

namespace AfXdpSwitch.Xdp
open SpscRing SlotLane

namespace SwitchBiOriginal

/-- Where the main loop is. -/
inductive MainPc
  | poll
  | testIn (s : Side)
  | forward (s : Side) (pc : FwdPc)
  | testOut (s : Side)
  | complete (s : Side) (pc : CompletePc)

namespace MainPc

/-- Where the main loop goes when it is done with side `s`. -/
def afterSide : Side → MainPc
  | .inXsk => testIn .outXsk
  | .outXsk => poll

def afterForward (s : Side) (next : Option FwdPc) : MainPc := next.elim (testOut s) (forward s)

def afterComplete (s : Side) (next : Option CompletePc) : MainPc :=
  next.elim (afterSide s) (complete s)

/-- One step of the main loop. -/
def step (port : Side → Port) (ans : Answer) : MainPc → (Side → Port) × MainPc
  | poll =>
      match ans with
      | .eintr => (port, poll)
      | _ => (port, testIn .inXsk)
  | testIn s =>
      match ans with
      | .set => (port, forward s .numReceived)
      | _ => (port, testOut s)
  | forward s pc =>
      (forwardPorts port s pc, afterForward s (pc.step (port s) (port s.other)).2.2)
  | testOut s =>
      match ans with
      | .set => (port, complete s .numCompleted)
      | _ => (port, afterSide s)
  | complete s pc =>
      (Function.update port s (pc.step (port s)).1, afterComplete s (pc.step (port s)).2)

/-- Where `forwardFrames` is on each side. -/
def fwdPc : MainPc → Side → FwdPc
  | forward s pc => Function.update (fun _ => .numReceived) s pc
  | _ => fun _ => .numReceived

def compPc : MainPc → Side → CompletePc
  | complete s pc => Function.update (fun _ => .numCompleted) s pc
  | _ => fun _ => .numCompleted

end MainPc

/-- The socket the refill goroutine is at, where it is, and where the main loop is. -/
structure Ctl where
  side : Side
  fill : FillPc
  main : MainPc

/-- The refill goroutine makes a step; after `Fill` it turns to the other socket. -/
def refiller (w : World Ctl) : World Ctl :=
  let (p, next) := w.ctl.fill.step (w.port w.ctl.side)
  ⟨Function.update w.port w.ctl.side p, match next with
    | some pc => { w.ctl with fill := pc }
    | none => { w.ctl with side := w.ctl.side.other, fill := .numFreeFillSlots }⟩

/-- The main loop makes a step. -/
def mainLoop (w : World Ctl) (ans : Answer) : World Ctl :=
  let (port, main) := w.ctl.main.step w.port ans
  ⟨port, { w.ctl with main := main }⟩

/-- Steps of the two goroutines, with a condition on those of the refill goroutine. -/
inductive Go (allowed : World Ctl → Prop) : World Ctl → World Ctl → Prop
  | refiller {w} (h : allowed w) : Go allowed w (refiller w)
  | mainLoop {w} (ans : Answer) : Go allowed w (mainLoop w ans)

/-- The states of all runs in which the refill goroutine meets a condition. -/
abbrev Visited (allowed : World Ctl → Prop) : World Ctl → Prop :=
  Reachable (Go allowed) ⟨.inXsk, .numFreeFillSlots, .poll⟩

/-- If the next step of the refill goroutine is a call of `Fill`, then none of the chunks
it is given holds a frame that the main loop has received from the same socket and still
has to copy. -/
def Spares (w : World Ctl) : Prop :=
  ∀ len, w.ctl.fill = .fill len →
    ∀ c ∈ (slice (w.port w.ctl.side).xsk.getRXDescs len).map fun d => chunkOf d.addr,
      c ∉ toCopy (w.port w.ctl.side) (w.ctl.main.fwdPc w.ctl.side)

/-! ## The invariant -/

/-- Where the refill code is on each side. -/
def Ctl.fillPc (c : Ctl) : Side → FillPc := Function.update (fun _ => .numFreeFillSlots) c.side c.fill

def Ok (w : World Ctl) : Prop :=
  PortsOk w.port w.ctl.fillPc w.ctl.main.fwdPc w.ctl.main.compPc

variable {w : World Ctl}

theorem Ok.refiller (h : Ok w) (hs : Spares w) : Ok (refiller w) := by
  have hpc : w.ctl.fillPc w.ctl.side = w.ctl.fill := Function.update_self ..
  have hstep := h.refill w.ctl.side (by rw [hpc]; exact hs)
  rw [hpc] at hstep
  unfold Ctl.fillPc at hstep
  rw [Function.update_idem] at hstep
  unfold SwitchBiOriginal.refiller
  dsimp only
  cases hn : (w.ctl.fill.step (w.port w.ctl.side)).2 with
  | some pc =>
      rw [hn] at hstep
      exact hstep
  | none =>
      rw [hn, Option.getD_none] at hstep
      have hidle : ∀ s : Side, Function.update (fun _ : Side => FillPc.numFreeFillSlots) s
          .numFreeFillSlots = fun _ => .numFreeFillSlots := fun s => Function.update_eq_self s _
      unfold Ok Ctl.fillPc
      dsimp only
      rw [hidle] at hstep ⊢
      exact hstep

theorem MainPc.fwdPc_afterForward (s : Side) (next : Option FwdPc) :
    (afterForward s next).fwdPc = Function.update (fun _ => .numReceived) s
      (next.getD .numReceived) := by
  cases next with
  | none => exact (Function.update_eq_self s _).symm
  | some pc => rfl

theorem MainPc.compPc_afterForward (s : Side) (next : Option FwdPc) :
    (afterForward s next).compPc = fun _ => .numCompleted := by cases next <;> rfl

theorem MainPc.fwdPc_afterSide (s : Side) : (afterSide s).fwdPc = fun _ => .numReceived := by
  cases s <;> rfl

theorem MainPc.compPc_afterSide (s : Side) : (afterSide s).compPc = fun _ => .numCompleted := by
  cases s <;> rfl

theorem MainPc.fwdPc_afterComplete (s : Side) (next : Option CompletePc) :
    (afterComplete s next).fwdPc = fun _ => .numReceived := by
  cases next with
  | none => exact fwdPc_afterSide s
  | some pc => rfl

theorem MainPc.compPc_afterComplete (s : Side) (next : Option CompletePc) :
    (afterComplete s next).compPc = Function.update (fun _ => .numCompleted) s
      (next.getD .numCompleted) := by
  cases next with
  | none => exact (compPc_afterSide s).trans (Function.update_eq_self s _).symm
  | some pc => rfl

theorem Ok.mainLoop (h : Ok w) (ans : Answer) : Ok (mainLoop w ans) := by
  -- A test moves from the beginning of one part of the code to that of another.
  have htest : ∀ x : MainPc, x.fwdPc = w.ctl.main.fwdPc → x.compPc = w.ctl.main.compPc →
      Ok ⟨w.port, { w.ctl with main := x }⟩ := by
    intro x hf hc
    unfold Ok
    dsimp only
    rw [hf, hc]
    exact h
  unfold SwitchBiOriginal.mainLoop
  cases hpc : w.ctl.main with
  | poll =>
      rw [hpc] at htest
      cases ans with
      | eintr | set | clear => exact htest _ rfl rfl
  | testIn s =>
      rw [hpc] at htest
      cases ans with
      | set => exact htest _ (Function.update_eq_self s _) rfl
      | eintr | clear => exact htest _ rfl rfl
  | forward s pc =>
      have hstep := h.forward s
      rw [hpc] at hstep
      simp only [MainPc.fwdPc, Function.update_self, Function.update_idem] at hstep
      unfold Ok
      dsimp only [MainPc.step]
      rw [MainPc.fwdPc_afterForward, MainPc.compPc_afterForward]
      exact hstep
  | testOut s =>
      rw [hpc] at htest
      cases ans with
      | set => exact htest _ rfl (Function.update_eq_self s _)
      | eintr | clear => exact htest _ (MainPc.fwdPc_afterSide s) (MainPc.compPc_afterSide s)
  | complete s pc =>
      have hstep := h.complete s
      rw [hpc] at hstep
      simp only [MainPc.compPc, Function.update_self, Function.update_idem] at hstep
      unfold Ok
      dsimp only [MainPc.step]
      rw [MainPc.fwdPc_afterComplete, MainPc.compPc_afterComplete]
      exact hstep

theorem Visited.ok (h : Visited Spares w) : Ok w := by
  refine h.invariant ?_ (fun w s p' hw hk => PortsOk.kernel hw s hk) ?_
  · show PortsOk _ (Function.update _ _ _) _ _
    rw [Function.update_eq_self_iff.mpr rfl]
    exact PortsOk.start
  · intro w w' hw hg
    cases hg with
    | refiller hs => exact hw.refiller hs
    | mainLoop ans => exact hw.mainLoop ans

/-! ## Two runs -/

variable {allowed : World Ctl → Prop}

/-- Several steps of the refill goroutine. -/
def refills (w : World Ctl) : Nat → World Ctl
  | 0 => w
  | n + 1 => refills (refiller w) n

/-- Several steps of the main loop, with every event set. -/
def loops (w : World Ctl) : Nat → World Ctl
  | 0 => w
  | n + 1 => loops (mainLoop w .set) n

theorem Visited.refills (h : Visited allowed w) (n : Nat)
    (ha : ∀ k, k < n → allowed (SwitchBiOriginal.refills w k)) :
    Visited allowed (SwitchBiOriginal.refills w n) := by
  induction n generalizing w with
  | zero => exact h
  | succ n ih =>
      exact ih (h.tail (.go (.refiller (ha 0 (Nat.succ_pos n)))))
        fun k hk => ha (k + 1) (Nat.succ_lt_succ hk)

theorem Visited.loops (h : Visited allowed w) (n : Nat) : Visited allowed (loops w n) := by
  induction n generalizing w with
  | zero => exact h
  | succ n ih => exact ih (h.tail (.go (.mainLoop .set)))

theorem refills_main (w : World Ctl) (n : Nat) : (refills w n).ctl.main = w.ctl.main := by
  induction n generalizing w with
  | zero => rfl
  | succ n ih =>
      refine (ih (refiller w)).trans ?_
      unfold refiller
      dsimp only
      split <;> rfl

/-- While the main loop has no frame in its hands, all are spared. -/
theorem spares_of_poll (h : w.ctl.main = .poll) : Spares w := by
  intro len _ c _
  rw [h]
  exact List.not_mem_nil

/-- `inXsk` is refilled and a packet has arrived on it. -/
def arrivedWorld : World Ctl :=
  let w := refills ⟨fun _ => newPort, ⟨.inXsk, .numFreeFillSlots, .poll⟩⟩ 3
  { w with port := Function.update w.port .inXsk ((w.port .inXsk).arrive 0 [1, 2, 3]) }

theorem visited_arrivedWorld (h : ∀ w : World Ctl, w.ctl.main = .poll → allowed w) :
    Visited allowed arrivedWorld := by
  have hr : Visited allowed _ := Visited.refills .refl 3 fun k _ => h _ (refills_main _ k)
  exact hr.kernelRun (Port.arrive_run _ (by decide +kernel) (by decide) (by decide +kernel))

/-- The main loop has received the packet and is about to copy it; the refill goroutine has
refilled `outXsk`, and then `inXsk` again, with the chunk of the packet. -/
def refilledWorld : World Ctl := refills (loops arrivedWorld 8) 6

/-- The kernel has taken the whole fill ring and stored another packet in that chunk; the
main loop has forwarded what it finds there. -/
def overwrittenWorld : World Ctl :=
  let p := Port.takeFill^[64] (refilledWorld.port .inXsk)
  let p := { p with xsk.umem := p.xsk.umem.write 0 [4, 5, 6] }
  loops { refilledWorld with port := Function.update refilledWorld.port .inXsk p } 2

theorem visited_overwrittenWorld : Visited (fun _ => True) overwrittenWorld := by
  have hr : Visited (fun _ => True) refilledWorld :=
    Visited.refills (Visited.loops (visited_arrivedWorld fun _ _ => trivial) 8) 6
      fun _ _ => trivial
  have hw : RxStep (Port.takeFill^[64] (refilledWorld.port .inXsk)) _ :=
    .write (a := 0) (ByteMemory.write _ 0 [4, 5, 6]) (by decide +kernel) fun x hx =>
      ByteMemory.write_of_not_mem _ (by
        have : x / 2048 ≠ 0 := hx
        have hl : [4, 5, 6].length = 3 := rfl
        omega)
  exact Visited.loops (hr.kernelRun ((Port.takeFill_run _ 64).tail (.inl hw))) 2

/-- A packet forwarded as it came. -/
theorem exists_forwarded : ∃ w, Visited Spares w ∧
    (w.port .outXsk).placed = [(⟨0, 3⟩, [1, 2, 3])] :=
  ⟨_, Visited.loops (visited_arrivedWorld fun _ => spares_of_poll) 10, by decide +kernel⟩

/-! ## Frames stay intact -/

/-- **Frames that are spared arrive.**  In every state of every run in which every call of
`Fill` spares the frames still to be copied, for each direction: the frames that
`forwardFrames` has put on the Tx ring, each with the descriptor it was received under,
are in this order part of what the kernel delivered under these descriptors. -/
theorem received_frames_intact (h : Visited Spares w) (s : Side) :
    (w.port s.other).placed.Sublist (w.port s).delivered := by
  refine List.Sublist.trans ?_ (h.ok.dir s).chain
  rw [List.append_assoc]
  exact List.sublist_append_left _ _

/-- With one frame forwarded. -/
theorem received_frames_intact_one : ∃ w, Visited Spares w ∧
    (w.port .outXsk).placed = [(⟨0, 3⟩, [1, 2, 3])] ∧
    (⟨0, 3⟩, [1, 2, 3]) ∈ (w.port .inXsk).delivered := by
  obtain ⟨w, hw, hp⟩ := exists_forwarded
  refine ⟨w, hw, hp, (received_frames_intact hw .inXsk).subset ?_⟩
  show _ ∈ (w.port .outXsk).placed
  rw [hp]
  exact List.mem_singleton.mpr rfl

/-- **Frames that are not spared may be overwritten**: a packet is forwarded with the bytes of
another. -/
theorem received_frame_overwritten : Visited (fun _ => True) overwrittenWorld ∧
    (overwrittenWorld.port .inXsk).delivered = [(⟨0, 3⟩, [1, 2, 3])] ∧
    (overwrittenWorld.port .outXsk).placed = [(⟨0, 3⟩, [4, 5, 6])] ∧
    ¬ (overwrittenWorld.port .outXsk).placed.Sublist
      (overwrittenWorld.port .inXsk).delivered := by
  have hdelivered : (overwrittenWorld.port .inXsk).delivered = [(⟨0, 3⟩, [1, 2, 3])] := by
    decide +kernel
  have hplaced : (overwrittenWorld.port .outXsk).placed = [(⟨0, 3⟩, [4, 5, 6])] := by
    decide +kernel
  refine ⟨visited_overwrittenWorld, hdelivered, hplaced, ?_⟩
  rw [hplaced, hdelivered, List.singleton_sublist]
  decide

end SwitchBiOriginal

end AfXdpSwitch.Xdp
