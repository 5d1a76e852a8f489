import AfXdpSwitch.TwoPorts
import AfXdpSwitch.HardwareAddr

/-!
# `switch.go`: one loop, and a new destination address

One goroutine refills both sockets, polls, forwards in both directions and collects
completions.  Between `Receive` and the copies `forwardFrames` calls `replaceDstMac`, which
copies the configured address over the beginning of every received frame.

How many bytes that overwrites depends on the address alone.  An address of 8 or of 20 bytes goes
over the source address, the EtherType and the payload as well.  `forwarded_frame_iff` says which
frames leave with nothing but the destination address replaced.
-/

namespace AfXdpSwitch.Xdp
open SpscRing SlotLane Net

/-! ## The program -/

namespace Switch

/-- `forwardFrames`: the steps it shares with the other switches, and the loop of
`replaceDstMac`. -/
inductive CallPc
  | forward (pc : FwdPc)
  | replaceDstMac (len i : Nat)

/-- One step on the input port `p` and the output port `q`; `none` when the function has
returned. -/
def CallPc.step (dstMac : HardwareAddr) (p q : Port) : CallPc → Port × Port × Option CallPc
  | .replaceDstMac len i =>
      if i < len then
        let umem := copyAddr p.xsk.umem (getFrame (p.xsk.rxDescs i)) dstMac
        (p.setXsk { p.xsk with umem := umem }, q, some (.replaceDstMac len (i + 1)))
      else (p, q, some (.forward (.numFreeTxSlots len)))
  | .forward (.receive num) =>
      let (len, xsk) := p.xsk.receive num
      (p.setXsk xsk, q, some (.replaceDstMac len 0))
  | .forward pc =>
      let (p, q, next) := pc.step p q
      (p, q, next.map .forward)

/-- Where the loop of `launchswitch` is. -/
inductive MainPc
  | fill (s : Side) (pc : FillPc)
  | poll
  | testIn (s : Side)
  | forward (s : Side) (pc : CallPc)
  | testOut (s : Side)
  | complete (s : Side) (pc : CompletePc)

namespace MainPc

def start : MainPc := fill .inXsk .numFreeFillSlots

def afterFill (s : Side) : Option FillPc → MainPc
  | some pc => fill s pc
  | none =>
      match s with
      | .inXsk => fill .outXsk .numFreeFillSlots
      | .outXsk => poll

/-- Where the loop goes when it is done with side `s`. -/
def afterSide : Side → MainPc
  | .inXsk => testIn .outXsk
  | .outXsk => start

def afterForward (s : Side) (next : Option CallPc) : MainPc := next.elim (testOut s) (forward s)

def afterComplete (s : Side) (next : Option CompletePc) : MainPc :=
  next.elim (afterSide s) (complete s)

end MainPc

/-- A frame that `forwardFrames` has put on a Tx ring, with the frame it received at the same
position, if there is one. -/
structure Sent where
  received : Option Frame
  sent : Frame
deriving DecidableEq

/-- What goes to the history when these frames are put on the Tx ring. -/
def entries (batch frames : List Frame) : List Sent := frames.mapIdx fun i f => ⟨batch[i]?, f⟩

/-- Where the loop is.  The rest is history: the frames of the last call of `Receive`, as they
were when it returned, and the frames that were sent from each side to the other. -/
structure Ctl where
  main : MainPc
  batch : List Frame
  sent : Side → List Sent

/-- The ports after a step of `forwardFrames` from side `s`. -/
def callPorts (dstMac : HardwareAddr) (port : Side → Port) (s : Side) (pc : CallPc) : Side → Port :=
  Function.update (Function.update port s (pc.step dstMac (port s) (port s.other)).1) s.other
    (pc.step dstMac (port s) (port s.other)).2.1

/-- The frames that a step has received, if it was a call of `Receive`. -/
def received (p : Port) (batch : List Frame) : CallPc → List Frame
  | .forward (.receive num) =>
      (slice (p.xsk.receive num).2.rxDescs (p.xsk.receive num).1).map (frame p.xsk.umem)
  | _ => batch

/-- A step of `forwardFrames` in the loop.  Everything that it has put on the Tx ring goes to the
history. -/
def forward (dst : Side → HardwareAddr) (w : World Ctl) (s : Side) (pc : CallPc) : World Ctl :=
  let (_, q, next) := pc.step (dst s) (w.port s) (w.port s.other)
  ⟨callPorts (dst s) w.port s pc, {
    main := .afterForward s next
    batch := received (w.port s) w.ctl.batch pc
    sent := Function.update w.ctl.sent s
      (w.ctl.sent s ++ entries w.ctl.batch (appended (w.port s.other) q)) }⟩

/-- The loop makes a step.  `dst` is `inLinkDst` for `inXsk` and `outLinkDst` for `outXsk`. -/
def mainLoop (dst : Side → HardwareAddr) (w : World Ctl) (ans : Answer) : World Ctl :=
  match w.ctl.main with
  | .fill s pc =>
      let (p, next) := pc.step (w.port s)
      ⟨Function.update w.port s p, { w.ctl with main := .afterFill s next }⟩
  | .poll =>
      match ans with
      | .eintr => { w with ctl.main := .start }
      | _ => { w with ctl.main := .testIn .inXsk }
  | .testIn s =>
      match ans with
      | .set => { w with ctl.main := .forward s (.forward .numReceived) }
      | _ => { w with ctl.main := .testOut s }
  | .forward s pc => forward dst w s pc
  | .testOut s =>
      match ans with
      | .set => { w with ctl.main := .complete s .numCompleted }
      | _ => { w with ctl.main := .afterSide s }
  | .complete s pc =>
      let (p, next) := pc.step (w.port s)
      ⟨Function.update w.port s p, { w.ctl with main := .afterComplete s next }⟩

/-- The only goroutine that touches the sockets. -/
inductive Go (dst : Side → HardwareAddr) : World Ctl → World Ctl → Prop
  | mainLoop {w} (ans : Answer) : Go dst w (mainLoop dst w ans)

/-- The states of all runs with these addresses. -/
abbrev Visited (dst : Side → HardwareAddr) : World Ctl → Prop :=
  Reachable (Go dst) ⟨.start, [], fun _ => []⟩

/-! ## Both directions are right

`PortsOk` compares the frames in hand with those that were delivered.  Here they change on the
way, so it holds with another record of the deliveries in the ports, which no code reads. -/

/-- The ports with another record of the deliveries. -/
def logged (log : Side → List (Desc × Frame)) (port : Side → Port) : Side → Port :=
  fun s => { port s with delivered := log s }

section Logged
variable (log : Side → List (Desc × Frame)) (port : Side → Port) (s : Side)

theorem update_logged (p : Port) (l : List (Desc × Frame)) :
    Function.update (logged log port) s { p with delivered := l } =
      logged (Function.update log s l) (Function.update port s p) := by
  funext t
  unfold logged
  by_cases ht : t = s
  · subst ht
    simp only [Function.update_self]
  · simp only [Function.update_of_ne ht]

theorem update_logged_self (p : Port) :
    Function.update (logged log port) s { p with delivered := log s } =
      logged log (Function.update port s p) := by
  rw [update_logged, Function.update_eq_self]

theorem fill_logged (pc : FillPc) :
    Function.update (logged log port) s (pc.step (logged log port s)).1 =
        logged log (Function.update port s (pc.step (port s)).1) ∧
      (pc.step (logged log port s)).2 = (pc.step (port s)).2 := by
  rw [← update_logged_self]
  cases pc with
  | numFreeFillSlots | getDescs | fill => exact ⟨rfl, rfl⟩

theorem complete_logged (pc : CompletePc) :
    Function.update (logged log port) s (pc.step (logged log port s)).1 =
        logged log (Function.update port s (pc.step (port s)).1) ∧
      (pc.step (logged log port s)).2 = (pc.step (port s)).2 := by
  rw [← update_logged_self]
  cases pc with
  | numCompleted | complete => exact ⟨rfl, rfl⟩

theorem forward_logged (pc : FwdPc) :
    forwardPorts (logged log port) s pc = logged log (forwardPorts port s pc) ∧
      (pc.step (logged log port s) (logged log port s.other)).2.2 =
        (pc.step (port s) (port s.other)).2.2 := by
  unfold forwardPorts
  rw [← update_logged_self, ← update_logged_self]
  cases pc with
  | _ => exact ⟨rfl, rfl⟩

theorem call_logged (dstMac : HardwareAddr) (pc : CallPc) :
    (pc.step dstMac (logged log port s) (logged log port s.other)).1 =
        { (pc.step dstMac (port s) (port s.other)).1 with delivered := log s } ∧
      (pc.step dstMac (logged log port s) (logged log port s.other)).2.1 =
        { (pc.step dstMac (port s) (port s.other)).2.1 with delivered := log s.other } ∧
      (pc.step dstMac (logged log port s) (logged log port s.other)).2.2 =
        (pc.step dstMac (port s) (port s.other)).2.2 := by
  cases pc with
  | replaceDstMac len i =>
      unfold CallPc.step
      dsimp only
      split
      · exact ⟨rfl, rfl, rfl⟩
      · exact ⟨rfl, rfl, rfl⟩
  | forward pc =>
      cases pc with
      | _ => exact ⟨rfl, rfl, rfl⟩

theorem kernel_logged {p : Port} (h : KernelStep (port s) p) :
    ∃ l, KernelStep (logged log port s) { p with delivered := l } := by
  rcases h with h | h
  · cases h with
    | takeFill ha => exact ⟨_, .inl (.takeFill (p := logged log port s) ha)⟩
    | write m ha hm => exact ⟨_, .inl (.write (p := logged log port s) m ha hm)⟩
    | deliver d hk hd hw room =>
        exact ⟨_, .inl (.deliver (p := logged log port s) d hk hd hw room)⟩
  · cases h with
    | takeTx hd => exact ⟨_, .inr (.takeTx (p := logged log port s) hd)⟩
    | complete hk room => exact ⟨_, .inr (.complete (p := logged log port s) hk room)⟩

end Logged

/-- Other bytes in the first half of the UMEM, where received frames lie. -/
theorem rewritten {port : Side → Port} {fill : Side → FillPc} {fwd : Side → FwdPc}
    {comp : Side → CompletePc} (h : PortsOk port fill fwd comp) (s : Side) {m : ByteMemory}
    (hm : ∀ x, 64 ≤ x / 2048 → m x = (port s).xsk.umem x) :
    ∃ l, PortsOk (Function.update port s { port s with xsk.umem := m, delivered := l })
      fill fwd comp := by
  have hin := h.dir s
  have hout := h.dir s.other
  rw [s.other_other] at hout
  obtain ⟨p, hp⟩ : ∃ p : Port, p = { port s with xsk.umem := m } := ⟨_, rfl⟩
  refine ⟨(port s.other).placed ++ handed p (port s.other) (fwd s) ++ p.onRx, ?_⟩
  have hin' : DirOk { p with
      delivered := (port s.other).placed ++ handed p (port s.other) (fwd s) ++ p.onRx }
      (port s.other) (fwd s) := by
    subst hp
    exact {
      rx := { hin.rx with }
      tx := hin.tx
      data := hin.data
      hand := hin.hand.same rfl rfl rfl rfl
      chain := List.Sublist.refl _
      calls := hin.calls }
  subst hp
  have hset := h.set_port s (f := fill s) (c := comp s) hin'
    (hout.same (RxSame.refl _) { TxSame.refl _ with umem := hm })
    (show FillOk _ _ from h.filling s) (show CompleteOk _ _ from h.completing s)
  simpa only [Function.update_eq_self] using hset

/-! ## The invariant -/

/-- During `replaceDstMac` the call is past `Receive`. -/
def CallPc.fwdPc : CallPc → FwdPc
  | .forward pc => pc
  | .replaceDstMac len _ => .numFreeTxSlots len

/-- Where the refill code, `forwardFrames` and the completion code are on each side. -/
def MainPc.fillPc : MainPc → Side → FillPc
  | .fill s pc => Function.update (fun _ => .numFreeFillSlots) s pc
  | _ => fun _ => .numFreeFillSlots

def MainPc.fwdPc : MainPc → Side → FwdPc
  | .forward s pc => Function.update (fun _ => .numReceived) s pc.fwdPc
  | _ => fun _ => .numReceived

def MainPc.compPc : MainPc → Side → CompletePc
  | .complete s pc => Function.update (fun _ => .numCompleted) s pc
  | _ => fun _ => .numCompleted

/-- The frames in hand are those received, with the address copied over those that
`replaceDstMac` has reached. -/
def CallPc.Holds (dstMac : HardwareAddr) (p q : Port) (batch : List Frame) : CallPc → Prop
  | .forward pc => (handed p q pc).map Prod.snd = (batch.map (overwrite dstMac)).take pc.len
  | .replaceDstMac len i =>
      ((slice p.xsk.rxDescs len).map fun d => chunkOf d.addr).Nodup ∧
        (handed p q (.numFreeTxSlots len)).map Prod.snd =
          batch.mapIdx fun j f => if j < i then overwrite dstMac f else f

structure Ok (dst : Side → HardwareAddr) (w : World Ctl) : Prop where
  ports : ∃ log, PortsOk (logged log w.port) w.ctl.main.fillPc w.ctl.main.fwdPc w.ctl.main.compPc
  call : ∀ s pc, w.ctl.main = .forward s pc →
    pc.Holds (dst s) (w.port s) (w.port s.other) w.ctl.batch
  sent : ∀ s, ∀ x ∈ w.ctl.sent s, ∃ f, x.received = some f ∧ x.sent = overwrite (dst s) f

section
variable {p p' q q' : Port} {pc pc' : CallPc} {dstMac : HardwareAddr} {batch : List Frame}

theorem rxDescs_kernel (h : KernelStep p p') : p'.xsk.rxDescs = p.xsk.rxDescs := by
  rcases h with h | h
  · cases h with
    | takeFill | write | deliver => rfl
  · cases h with
    | takeTx | complete => rfl

/-- The loop of `replaceDstMac`, -/
theorem CallPc.step_of_lt {len i : Nat} (hi : i < len) :
    (replaceDstMac len i).step dstMac p q = (p.setXsk { p.xsk with
      umem := copyAddr p.xsk.umem (getFrame (p.xsk.rxDescs i)) dstMac }, q,
      some (replaceDstMac len (i + 1))) := if_pos hi

/-- its end, -/
theorem CallPc.step_of_not_lt {len i : Nat} (hi : ¬ i < len) :
    (replaceDstMac len i).step dstMac p q = (p, q, some (forward (.numFreeTxSlots len))) :=
  if_neg hi

/-- and the steps that the other switches have as well. -/
theorem CallPc.step_forward (pc : FwdPc) (hr : ∀ num, pc ≠ .receive num) :
    (forward pc).step dstMac p q =
      ((pc.step p q).1, (pc.step p q).2.1, (pc.step p q).2.2.map forward) := by
  cases pc with
  | receive num => exact absurd rfl (hr num)
  | _ => rfl

/-- `Holds` speaks of the frames in hand and of the buffer of `Receive`. -/
theorem CallPc.Holds.congr (h : pc.Holds dstMac p q batch)
    (hrx : p'.xsk.rxDescs = p.xsk.rxDescs) (hh : handed p' q' pc.fwdPc = handed p q pc.fwdPc) :
    pc.Holds dstMac p' q' batch := by
  cases pc with
  | forward pc =>
      show (handed p' q' pc).map Prod.snd = _
      rw [show handed p' q' pc = handed p q pc from hh]
      exact h
  | replaceDstMac len i =>
      refine ⟨hrx ▸ h.1, ?_⟩
      rw [show handed p' q' (.numFreeTxSlots len) = handed p q (.numFreeTxSlots len) from hh]
      exact h.2

/-- The received frames lie in different chunks. -/
theorem nodup_received (h : RxOk p) (num : Nat) :
    ((slice (p.xsk.receive num).2.rxDescs (p.xsk.receive num).1).map
      fun d => chunkOf d.addr).Nodup := by
  have hle := h.length_le
  have hlen : ((p.xsk.rxRing.pending 64).take num).length = min num p.xsk.rxRing.count := by
    rw [List.length_take, length_pending]
  rw [p.xsk.receive_eq num (by omega)]
  dsimp only
  rw [← hlen, slice_refilled, List.map_take]
  exact (List.nodup_append.mp h.lane.nodup).2.1.sublist (List.take_sublist _ _)

/-- Before the copies, the frames in hand are in the UMEM of the input port. -/
theorem handed_received (p q : Port) (len : Nat) :
    (handed p q (.numFreeTxSlots len)).map Prod.snd =
      (slice p.xsk.rxDescs len).map (frame p.xsk.umem) := by
  unfold handed slice
  rw [List.map_map, List.map_map]
  rfl

theorem getElem?_slice (buf : Nat → Desc) {len j : Nat} (h : j < len) :
    (slice buf len)[j]? = some (buf j) := by simp [slice, h]

/-- `Receive` has just returned. -/
theorem holds_receive (h : RxOk p) (num : Nat) :
    (CallPc.replaceDstMac (p.xsk.receive num).1 0).Holds dstMac (p.setXsk (p.xsk.receive num).2) q
      (received p batch (.forward (.receive num))) := by
  refine ⟨nodup_received h num, ?_⟩
  rw [handed_received]
  refine (List.mapIdx_eq_iff.mpr fun j => ?_).symm
  simp only [Nat.not_lt_zero, if_false, Option.map_id']
  rfl

/-- **One frame rewritten.** -/
theorem holds_replaceDstMac {len i : Nat} (h : (CallPc.replaceDstMac len i).Holds dstMac p q batch)
    (hand : HandOk p q (.numFreeTxSlots len)) (hi : i < len) :
    (CallPc.replaceDstMac len (i + 1)).Holds dstMac (p.setXsk { p.xsk with
      umem := copyAddr p.xsk.umem (getFrame (p.xsk.rxDescs i)) dstMac }) q batch := by
  obtain ⟨hnodup, hframes⟩ := h
  have hwhole : ∀ j, j < len → (p.xsk.rxDescs j).Whole := fun j hj =>
    (hand.received j (Nat.zero_le j) hj).whole
  refine ⟨hnodup, ?_⟩
  rw [handed_received] at hframes ⊢
  refine (List.mapIdx_eq_iff.mpr fun j => ?_).symm
  have hbefore := List.mapIdx_eq_iff.mp hframes.symm j
  rw [List.getElem?_map] at hbefore ⊢
  by_cases hj : j < len
  · rw [getElem?_slice _ hj, Option.map_some] at hbefore ⊢
    obtain ⟨f, hf, hframe⟩ := Option.map_eq_some_iff.mp hbefore.symm
    rw [hf, Option.map_some]
    congr 1
    dsimp only
    rcases Nat.lt_trichotomy j i with hji | rfl | hji
    · rw [frame_copyAddr_other _ (hwhole i hi) (hwhole j hj)
        (slice_chunk_ne hnodup hj hi (Nat.ne_of_lt hji)), ← hframe, if_pos hji, if_pos (by omega)]
    · rw [frame_copyAddr_self, ← hframe, if_neg (Nat.lt_irrefl j), if_pos (Nat.lt_succ_self j)]
    · rw [frame_copyAddr_other _ (hwhole i hi) (hwhole j hj)
        (slice_chunk_ne hnodup hj hi (Nat.ne_of_gt hji)), ← hframe, if_neg (by omega),
        if_neg (by omega)]
  · have hnone : (slice p.xsk.rxDescs len)[j]? = none :=
      List.getElem?_eq_none (by rw [length_slice]; omega)
    rw [hnone, Option.map_none] at hbefore
    show Option.map _ (slice p.xsk.rxDescs len)[j]? = _
    rw [hnone, Option.map_eq_none_iff.mp hbefore.symm]
    rfl

/-- All frames are rewritten. -/
theorem holds_replaced {len i : Nat} (h : (CallPc.replaceDstMac len i).Holds dstMac p q batch)
    (hi : ¬ i < len) :
    (CallPc.forward (.numFreeTxSlots len)).Holds dstMac p q batch := by
  obtain ⟨-, hframes⟩ := h
  have hlen : batch.length = len := by
    have hlen := congrArg List.length hframes
    rw [handed_received, List.length_map, length_slice, List.length_mapIdx] at hlen
    exact hlen.symm
  refine hframes.trans ?_
  show _ = (batch.map (overwrite dstMac)).take len
  rw [List.take_of_length_le (by rw [List.length_map]; omega)]
  refine List.mapIdx_eq_iff.mpr fun j => ?_
  rw [List.getElem?_map]
  by_cases hj : j < batch.length
  · simp only [if_pos (show j < i by omega)]
  · rw [List.getElem?_eq_none (by omega)]
    rfl

/-- **Within a call the frames in hand are the rewritten ones.** -/
theorem holds_step (h : pc.Holds dstMac p q batch) (hdir : DirOk p q pc.fwdPc)
    (hnext : (pc.step dstMac p q).2.2 = some pc') :
    pc'.Holds dstMac (pc.step dstMac p q).1 (pc.step dstMac p q).2.1 (received p batch pc) := by
  cases pc with
  | replaceDstMac len i =>
      by_cases hi : i < len
      · rw [CallPc.step_of_lt hi] at hnext ⊢
        obtain rfl := Option.some.inj hnext
        exact holds_replaceDstMac h hdir.hand hi
      · rw [CallPc.step_of_not_lt hi] at hnext ⊢
        obtain rfl := Option.some.inj hnext
        exact holds_replaced h hi
  | forward pc =>
      by_cases hr : ∃ num, pc = .receive num
      · obtain ⟨num, rfl⟩ := hr
        obtain rfl := Option.some.inj hnext
        exact holds_receive hdir.rx num
      · have hr : ∀ num, pc ≠ .receive num := fun num he => hr ⟨num, he⟩
        have hbatch : received p batch (.forward pc) = batch := by
          cases pc with
          | receive num => exact absurd rfl (hr num)
          | _ => rfl
        rw [CallPc.step_forward pc hr] at hnext ⊢
        obtain ⟨next, hn, rfl⟩ := Option.map_eq_some_iff.mp hnext
        have hdir : DirOk p q pc := hdir
        obtain ⟨hle, hhand⟩ := hdir.handed_forward hr hn
        have h : (handed p q pc).map Prod.snd = (batch.map (overwrite dstMac)).take pc.len := h
        rw [hbatch]
        show (handed (pc.step p q).1 (pc.step p q).2.1 next).map Prod.snd =
          (batch.map (overwrite dstMac)).take next.len
        rw [hhand, List.map_take, h, List.take_take, Nat.min_eq_left hle]

/-- What a step puts on the Tx ring is what it has rewritten. -/
theorem sent_step (h : pc.Holds dstMac p q batch) (hdir : DirOk p q pc.fwdPc) :
    ∀ x ∈ entries batch (appended q (pc.step dstMac p q).2.1),
      ∃ f, x.received = some f ∧ x.sent = overwrite dstMac f := by
  intro x hx
  by_cases ht : ∃ len k, pc = .forward (.transmit len k)
  · obtain ⟨len, k, rfl⟩ := ht
    have happ : appended q ((CallPc.forward (.transmit len k)).step dstMac p q).2.1 =
        (batch.map (overwrite dstMac)).take len := (hdir.appended_transmit).trans h
    rw [happ] at hx
    obtain ⟨i, hi, rfl⟩ := List.mem_mapIdx.mp hx
    have hbatch : i < batch.length := by
      rw [List.length_take, List.length_map] at hi
      omega
    refine ⟨batch[i], List.getElem?_eq_getElem hbatch, ?_⟩
    rw [List.getElem_take, List.getElem_map]
  · have happ : appended q (pc.step dstMac p q).2.1 = [] := by
      cases pc with
      | replaceDstMac len i =>
          have hq : ((CallPc.replaceDstMac len i).step dstMac p q).2.1 = q := by
            unfold CallPc.step
            dsimp only
            split <;> rfl
          rw [hq]
          have happ : appended q (FwdPc.numReceived.step p q).2.1 = [] :=
            appended_step fun _ _ he => by cases he
          exact happ
      | forward pc =>
          have hq : ((CallPc.forward pc).step dstMac p q).2.1 = (pc.step p q).2.1 := by
            cases pc with
            | _ => rfl
          rw [hq]
          exact appended_step fun len k he => ht ⟨len, k, by rw [he]⟩
    rw [happ] at hx
    cases hx

end

variable {dst : Side → HardwareAddr} {w : World Ctl}

theorem Ok.start (dst : Side → HardwareAddr) :
    Ok dst ⟨fun _ => newPort, ⟨.start, [], fun _ => []⟩⟩ where
  ports := by
    refine ⟨fun _ => [], ?_⟩
    show PortsOk _ (Function.update _ _ _) _ _
    rw [Function.update_eq_self_iff.mpr rfl]
    exact PortsOk.start
  call := fun _ _ he => by cases he
  sent := fun _ _ hx => absurd hx List.not_mem_nil

/-- **A kernel step.** -/
theorem Ok.kernel (h : Ok dst w) (s : Side) {p : Port} (hk : KernelStep (w.port s) p) :
    Ok dst { w with port := Function.update w.port s p } := by
  obtain ⟨log, hp⟩ := h.ports
  obtain ⟨l, hl⟩ := kernel_logged log w.port s hk
  refine ⟨⟨Function.update log s l, ?_⟩, fun t pc hpc => ?_, h.sent⟩
  · rw [← update_logged]
    exact hp.kernel s hl
  · have hh := hp.handed_kernel s hl t
    have hfwd : w.ctl.main.fwdPc t = pc.fwdPc := by
      rw [show w.ctl.main = .forward t pc from hpc, MainPc.fwdPc, Function.update_self]
    rw [update_logged, hfwd] at hh
    refine (h.call t pc hpc).congr ?_ hh
    dsimp only
    by_cases ht : t = s
    · subst ht
      rw [Function.update_self]
      exact rxDescs_kernel hk
    · rw [Function.update_of_ne ht]

/-- A step that only moves the program counter, to the beginning of something. -/
theorem Ok.goto (h : Ok dst w) {x : MainPc} (hfill : x.fillPc = w.ctl.main.fillPc)
    (hfwd : x.fwdPc = w.ctl.main.fwdPc) (hcomp : x.compPc = w.ctl.main.compPc)
    (hcall : ∀ s pc, x = .forward s pc → pc = .forward .numReceived) :
    Ok dst { w with ctl.main := x } where
  ports := by
    dsimp only
    rw [hfill, hfwd, hcomp]
    exact h.ports
  call := fun s pc he => by
    rw [hcall s pc he]
    rfl
  sent := h.sent

/-! ### The loop -/

theorem update_const {α : Type} (s : Side) (a : α) :
    Function.update (fun _ : Side => a) s a = fun _ => a := Function.update_eq_self s _

theorem MainPc.afterFill_pcs (s : Side) (next : Option FillPc) :
    (afterFill s next).fillPc = Function.update (fun _ => .numFreeFillSlots) s
        (next.getD .numFreeFillSlots) ∧
      (afterFill s next).fwdPc = (fun _ => .numReceived) ∧
      (afterFill s next).compPc = (fun _ => .numCompleted) ∧
      ∀ t pc, afterFill s next ≠ .forward t pc := by
  cases next with
  | some pc => exact ⟨rfl, rfl, rfl, fun _ _ he => by cases he⟩
  | none =>
      rw [Option.getD_none, update_const]
      cases s with
      | inXsk => exact ⟨update_const .., rfl, rfl, fun _ _ he => by cases he⟩
      | outXsk => exact ⟨rfl, rfl, rfl, fun _ _ he => by cases he⟩

theorem MainPc.afterSide_pcs (s : Side) :
    (afterSide s).fillPc = (fun _ => .numFreeFillSlots) ∧
      (afterSide s).fwdPc = (fun _ => .numReceived) ∧
      (afterSide s).compPc = (fun _ => .numCompleted) ∧ ∀ t pc, afterSide s ≠ .forward t pc := by
  cases s with
  | inXsk => exact ⟨rfl, rfl, rfl, fun _ _ he => by cases he⟩
  | outXsk => exact ⟨update_const .., rfl, rfl, fun _ _ he => by cases he⟩

theorem MainPc.afterComplete_pcs (s : Side) (next : Option CompletePc) :
    (afterComplete s next).fillPc = (fun _ => .numFreeFillSlots) ∧
      (afterComplete s next).fwdPc = (fun _ => .numReceived) ∧
      (afterComplete s next).compPc = Function.update (fun _ => .numCompleted) s
        (next.getD .numCompleted) ∧
      ∀ t pc, afterComplete s next ≠ .forward t pc := by
  cases next with
  | some pc => exact ⟨rfl, rfl, rfl, fun _ _ he => by cases he⟩
  | none =>
      rw [Option.getD_none, update_const]
      exact afterSide_pcs s

theorem MainPc.afterForward_pcs (s : Side) (next : Option CallPc) :
    (afterForward s next).fillPc = (fun _ => .numFreeFillSlots) ∧
      (afterForward s next).fwdPc = Function.update (fun _ => .numReceived) s
        ((next.map CallPc.fwdPc).getD .numReceived) ∧
      (afterForward s next).compPc = (fun _ => .numCompleted) := by
  cases next with
  | some pc => exact ⟨rfl, rfl, rfl⟩
  | none => exact ⟨rfl, (update_const ..).symm, rfl⟩

theorem MainPc.afterForward_eq_forward {s t : Side} {next : Option CallPc} {pc : CallPc}
    (h : afterForward s next = .forward t pc) : t = s ∧ next = some pc := by
  cases next with
  | none => cases h
  | some pc => cases h; exact ⟨rfl, rfl⟩

/-- The refill code does not run while frames are in hand. -/
theorem Ok.fill (h : Ok dst w) {s : Side} {pc : FillPc} (hpc : w.ctl.main = .fill s pc) :
    Ok dst ⟨Function.update w.port s (pc.step (w.port s)).1,
      { w.ctl with main := .afterFill s (pc.step (w.port s)).2 }⟩ := by
  obtain ⟨log, hp⟩ := h.ports
  obtain ⟨hports, hnext⟩ := fill_logged log w.port s pc
  obtain ⟨hfill, hfwd, hcomp, hnot⟩ := MainPc.afterFill_pcs s (pc.step (w.port s)).2
  rw [hpc] at hp
  have hstep := hp.refill s fun _ _ _ _ => List.not_mem_nil
  simp only [MainPc.fillPc, Function.update_self, Function.update_idem] at hstep
  rw [hports, hnext] at hstep
  refine ⟨⟨log, ?_⟩, fun t pc he => absurd he (hnot t pc), h.sent⟩
  dsimp only
  rw [hfill, hfwd, hcomp]
  exact hstep

theorem Ok.complete (h : Ok dst w) {s : Side} {pc : CompletePc}
    (hpc : w.ctl.main = .complete s pc) :
    Ok dst ⟨Function.update w.port s (pc.step (w.port s)).1,
      { w.ctl with main := .afterComplete s (pc.step (w.port s)).2 }⟩ := by
  obtain ⟨log, hp⟩ := h.ports
  obtain ⟨hports, hnext⟩ := complete_logged log w.port s pc
  obtain ⟨hfill, hfwd, hcomp, hnot⟩ := MainPc.afterComplete_pcs s (pc.step (w.port s)).2
  rw [hpc] at hp
  have hstep := hp.complete s
  simp only [MainPc.compPc, Function.update_self, Function.update_idem] at hstep
  rw [hports, hnext] at hstep
  refine ⟨⟨log, ?_⟩, fun t pc he => absurd he (hnot t pc), h.sent⟩
  dsimp only
  rw [hfill, hfwd, hcomp]
  exact hstep

/-- `replaceDstMac` writes to its input port, and there to the first half only. -/
theorem copyAddr_second_half {d : Desc} (hw : d.Whole) (hr : chunkOf d.addr < 64) (m : ByteMemory)
    (dstMac : HardwareAddr) (x : Nat) (hx : 64 ≤ x / 2048) :
    copyAddr m (getFrame d) dstMac x = m x := by
  have htake : (dstMac.take d.len.toNat).length ≤ d.len.toNat := List.length_take_le ..
  unfold Desc.Whole at hw
  unfold chunkOf at hr
  rw [options_frameSize] at hr
  refine ByteMemory.write_of_not_mem _ ?_
  show x < d.addr.toNat ∨ d.addr.toNat + (dstMac.take d.len.toNat).length ≤ x
  omega

section
variable {port : Side → Port} {s : Side} {dstMac : HardwareAddr} {len i : Nat}

theorem callPorts_of_lt (hi : i < len) : callPorts dstMac port s (.replaceDstMac len i) =
    Function.update port s { port s with
      xsk.umem := copyAddr (port s).xsk.umem (getFrame ((port s).xsk.rxDescs i)) dstMac } := by
  unfold callPorts
  rw [CallPc.step_of_lt hi]
  refine Function.update_eq_self_iff.mpr ?_
  rw [Function.update_of_ne s.other_ne]

theorem callPorts_of_not_lt (hi : ¬ i < len) :
    callPorts dstMac port s (.replaceDstMac len i) = port := by
  unfold callPorts
  rw [CallPc.step_of_not_lt hi, Function.update_eq_self, Function.update_eq_self]

end

/-- The ports stay right when `forwardFrames` makes a step. -/
theorem Ok.callPorts (h : Ok dst w) {s : Side} {pc : CallPc} (hpc : w.ctl.main = .forward s pc)
    {next : Option CallPc} (hnext : next = (pc.step (dst s) (w.port s) (w.port s.other)).2.2) :
    ∃ log, PortsOk (logged log (callPorts (dst s) w.port s pc))
      (MainPc.afterForward s next).fillPc (MainPc.afterForward s next).fwdPc
      (MainPc.afterForward s next).compPc := by
  obtain ⟨log, hp⟩ := h.ports
  obtain ⟨hfill, hfwd, hcomp⟩ := MainPc.afterForward_pcs s next
  rw [hfill, hfwd, hcomp]
  rw [hpc] at hp
  subst hnext
  cases pc with
  | forward pc =>
      obtain ⟨hports, hsame⟩ := forward_logged log w.port s pc
      have hcall : Switch.callPorts (dst s) w.port s (.forward pc) = forwardPorts w.port s pc := by
        cases pc with
        | _ => rfl
      have hmap : ((CallPc.forward pc).step (dst s) (w.port s) (w.port s.other)).2.2.map
          CallPc.fwdPc = (pc.step (w.port s) (w.port s.other)).2.2 := by
        cases pc with
        | _ => rfl
      have hstep := hp.forward s
      simp only [MainPc.fwdPc, CallPc.fwdPc, Function.update_self, Function.update_idem] at hstep
      rw [hports, hsame] at hstep
      rw [hcall, hmap]
      exact ⟨log, hstep⟩
  | replaceDstMac len i =>
      have hfwd : (MainPc.forward s (.replaceDstMac len i)).fwdPc s = .numFreeTxSlots len := by
        rw [MainPc.fwdPc, Function.update_self]
        rfl
      by_cases hi : i < len
      · have hin := (hp.dir s).hand.received i (by rw [hfwd]; exact Nat.zero_le i)
          (by rw [hfwd]; exact hi)
        obtain ⟨l, hrew⟩ := rewritten hp s (copyAddr_second_half hin.whole hin.range _ (dst s))
        rw [callPorts_of_lt hi, CallPc.step_of_lt hi]
        refine ⟨Function.update log s l, ?_⟩
        rw [← update_logged]
        exact hrew
      · rw [callPorts_of_not_lt hi, CallPc.step_of_not_lt hi]
        exact ⟨log, hp⟩

theorem callPorts_self (dstMac : HardwareAddr) (port : Side → Port) (s : Side) (pc : CallPc) :
    callPorts dstMac port s pc s = (pc.step dstMac (port s) (port s.other)).1 := by
  unfold callPorts
  rw [Function.update_of_ne s.ne_other, Function.update_self]

theorem callPorts_other (dstMac : HardwareAddr) (port : Side → Port) (s : Side) (pc : CallPc) :
    callPorts dstMac port s pc s.other = (pc.step dstMac (port s) (port s.other)).2.1 := by
  unfold callPorts
  rw [Function.update_self]

theorem forward_eq (dst : Side → HardwareAddr) (w : World Ctl) (s : Side) (pc : CallPc) :
    forward dst w s pc = ⟨callPorts (dst s) w.port s pc, {
      main := .afterForward s (pc.step (dst s) (w.port s) (w.port s.other)).2.2
      batch := received (w.port s) w.ctl.batch pc
      sent := Function.update w.ctl.sent s (w.ctl.sent s ++ entries w.ctl.batch
        (appended (w.port s.other) (pc.step (dst s) (w.port s) (w.port s.other)).2.1)) }⟩ := rfl

/-- **A step of `forwardFrames`.** -/
theorem Ok.forward (h : Ok dst w) {s : Side} {pc : CallPc} (hpc : w.ctl.main = .forward s pc) :
    Ok dst (forward dst w s pc) := by
  have hcall := h.call s pc hpc
  obtain ⟨log, hp⟩ := h.ports
  have hdir : DirOk (logged log w.port s) (logged log w.port s.other) pc.fwdPc := by
    have hdir := hp.dir s
    rw [hpc, MainPc.fwdPc, Function.update_self] at hdir
    exact hdir
  obtain ⟨hp', hq', hnext⟩ := call_logged log w.port s (dst s) pc
  have hcall : pc.Holds (dst s) (logged log w.port s) (logged log w.port s.other) w.ctl.batch :=
    hcall.congr rfl rfl
  rw [forward_eq]
  refine ⟨h.callPorts hpc rfl, fun t pc' he => ?_, fun t x hx => ?_⟩
  · obtain ⟨rfl, he⟩ := MainPc.afterForward_eq_forward he
    have hholds := holds_step hcall hdir (hnext.trans he)
    rw [hp', hq'] at hholds
    dsimp only
    rw [callPorts_self, callPorts_other]
    exact hholds.congr rfl rfl
  · dsimp only at hx
    by_cases ht : t = s
    · subst ht
      rw [Function.update_self, List.mem_append] at hx
      rcases hx with hx | hx
      · exact h.sent t x hx
      · have hsent := sent_step hcall hdir
        rw [hq'] at hsent
        exact hsent x hx
    · rw [Function.update_of_ne ht] at hx
      exact h.sent t x hx

/-- **Every step of the loop.** -/
theorem Ok.mainLoop (h : Ok dst w) (ans : Answer) : Ok dst (mainLoop dst w ans) := by
  have hnot : ∀ {x : MainPc}, (∀ s pc, x ≠ .forward s pc) →
      ∀ s pc, x = .forward s pc → pc = CallPc.forward .numReceived := fun hx s pc he =>
    absurd he (hx s pc)
  unfold Switch.mainLoop
  cases hpc : w.ctl.main with
  | fill s pc => exact h.fill hpc
  | poll =>
      cases ans with
      | eintr =>
          refine h.goto ?_ ?_ ?_ (hnot fun _ _ he => by cases he) <;> rw [hpc]
          · exact update_const ..
          · rfl
          · rfl
      | set | clear =>
          refine h.goto ?_ ?_ ?_ (hnot fun _ _ he => by cases he) <;> rw [hpc] <;> rfl
  | testIn s =>
      cases ans with
      | set =>
          refine h.goto ?_ ?_ ?_ (fun t pc he => by cases he; rfl) <;> rw [hpc]
          · rfl
          · exact update_const ..
          · rfl
      | eintr | clear =>
          refine h.goto ?_ ?_ ?_ (hnot fun _ _ he => by cases he) <;> rw [hpc] <;> rfl
  | forward s pc => exact h.forward hpc
  | testOut s =>
      obtain ⟨hfill, hfwd, hcomp, hside⟩ := MainPc.afterSide_pcs s
      cases ans with
      | set =>
          refine h.goto ?_ ?_ ?_ (hnot fun _ _ he => by cases he) <;> rw [hpc]
          · rfl
          · rfl
          · exact update_const ..
      | eintr | clear =>
          refine h.goto ?_ ?_ ?_ (hnot hside) <;> rw [hpc]
          · exact hfill
          · exact hfwd
          · exact hcomp
  | complete s pc => exact h.complete hpc

theorem Visited.ok (h : Visited dst w) : Ok dst w := by
  refine h.invariant (Ok.start dst) (fun w s p hw hk => hw.kernel s hk) ?_
  intro w w' hw hg
  cases hg with
  | mainLoop ans => exact hw.mainLoop ans

/-! ## Two runs -/

/-- Several steps of the loop, with every event set. -/
def loops (dst : Side → HardwareAddr) (w : World Ctl) : Nat → World Ctl
  | 0 => w
  | n + 1 => loops dst (mainLoop dst w .set) n

theorem Visited.loops (h : Visited dst w) (n : Nat) : Visited dst (loops dst w n) := by
  induction n generalizing w with
  | zero => exact h
  | succ n ih => exact ih (h.tail (.go (.mainLoop .set)))

/-- A frame to everyone, with an empty payload. -/
def broadcast : Frame :=
  [0xff, 0xff, 0xff, 0xff, 0xff, 0xff, 0x02, 0x00, 0x00, 0x00, 0x00, 0x01, 0x08, 0x00]

/-- Both sockets are refilled. -/
def refilledWorld (dst : Side → HardwareAddr) : World Ctl :=
  loops dst ⟨fun _ => newPort, ⟨.start, [], fun _ => []⟩⟩ 6

/-- A frame has arrived on `inXsk`, and it has been forwarded. -/
def forwardedWorld (dst : Side → HardwareAddr) : World Ctl :=
  let port := (refilledWorld dst).port
  loops dst { refilledWorld dst with
    port := Function.update port .inXsk ((port .inXsk).arrive 0 broadcast) } 12

theorem visited_forwardedWorld
    (hfill : (((refilledWorld dst).port .inXsk).xsk.fillRing.pending 64).head? = some 0)
    (hroom : ((refilledWorld dst).port .inXsk).xsk.rxRing.count < 64) :
    Visited dst (forwardedWorld dst) := by
  have hr : Visited dst (refilledWorld dst) := Visited.loops .refl 6
  exact Visited.loops (hr.kernelRun (Port.arrive_run broadcast hfill (by decide) hroom)) 12

/-! ## What leaves the switch -/

/-- Of `f`, bytes 0 to 5 are replaced by the address; every other byte and the length are as they
were. -/
def DstReplaced (dstMac : HardwareAddr) (f sent : Frame) : Prop :=
  sent.length = f.length ∧ (∀ i, i < 6 → sent[i]? = dstMac[i]?) ∧ ∀ i, 6 ≤ i → sent[i]? = f[i]?

/-- What the address has after its sixth byte is in the frame already. -/
def CarriesRest (dstMac : HardwareAddr) (f : Frame) : Prop :=
  ∀ i, 6 ≤ i → i < dstMac.length → i < f.length → f[i]? = dstMac[i]?

theorem dstReplaced_iff {dstMac : HardwareAddr} {f : Frame} (hdst : 6 ≤ dstMac.length)
    (hlen : 6 ≤ f.length) :
    DstReplaced dstMac f (overwrite dstMac f) ↔ CarriesRest dstMac f := by
  constructor
  · rintro ⟨-, -, hrest⟩ i hi hid hif
    rw [← hrest i hi, getElem?_overwrite _ _ hif, if_pos hid]
  · intro hrest
    have hsame := length_overwrite dstMac f
    refine ⟨hsame, fun i hi => ?_, fun i hi => ?_⟩
    · rw [getElem?_overwrite _ _ (by omega), if_pos (by omega)]
    · by_cases hif : i < f.length
      · rw [getElem?_overwrite _ _ hif]
        split
        · exact (hrest i hi ‹_› hif).symm
        · rfl
      · rw [List.getElem?_eq_none (by omega), List.getElem?_eq_none (by omega)]

/-- **What the address decides.**  In every state of every run, for either direction: every frame
that `forwardFrames` has put on the Tx ring stands for a frame that it has received.  If that has a
whole Ethernet header, it is sent with the destination address replaced and nothing else if and only
if the address has six bytes, or the frame happens to carry the rest of the address where it goes. -/
theorem forwarded_frame_iff {strs : Side → List Char}
    (hstrs : ∀ s, parseMAC (strs s) = some (dst s)) (h : Visited dst w) (s : Side) {x : Sent}
    (hx : x ∈ w.ctl.sent s) :
    ∃ f, x.received = some f ∧ (14 ≤ f.length →
      (DstReplaced (dst s) f x.sent ↔ (dst s).length = 6 ∨ CarriesRest (dst s) f)) := by
  have haddr := length_parseMAC (hstrs s)
  obtain ⟨f, hf, hsent⟩ := h.ok.sent s x hx
  refine ⟨f, hf, fun hlen => ?_⟩
  rw [hsent, dstReplaced_iff (by omega) (by omega)]
  constructor
  · exact Or.inr
  · rintro (hsix | hrest)
    · intro i hi hid
      omega
    · exact hrest

/-- With an address of six bytes. -/
theorem forwarded_frame_iff_six : ∃ (strs : Side → List Char) (dst : Side → HardwareAddr)
    (w : World Ctl), (∀ s, parseMAC (strs s) = some (dst s)) ∧ Visited dst w ∧
      ∃ x ∈ w.ctl.sent .inXsk, ∃ f, x.received = some f ∧ 14 ≤ f.length ∧
        DstReplaced (dst .inXsk) f x.sent := by
  have hparse : ∀ _ : Side, parseMAC "02:00:00:00:00:09".toList = some [2, 0, 0, 0, 0, 9] :=
    fun _ => by decide
  have hw : Visited (fun _ => [2, 0, 0, 0, 0, 9]) (forwardedWorld fun _ => [2, 0, 0, 0, 0, 9]) :=
    visited_forwardedWorld (by decide +kernel) (by decide +kernel)
  have hx : (⟨some broadcast, overwrite [2, 0, 0, 0, 0, 9] broadcast⟩ : Sent) ∈
      (forwardedWorld fun _ => [2, 0, 0, 0, 0, 9]).ctl.sent .inXsk := by decide +kernel
  obtain ⟨f, hf, hiff⟩ := forwarded_frame_iff hparse hw .inXsk hx
  obtain rfl : broadcast = f := Option.some.inj hf
  exact ⟨_, _, _, hparse, hw, _, hx, broadcast, hf, by decide, (hiff (by decide)).mpr (.inl rfl)⟩

/-- The address of `02:00:00:00:00:09:aa:bb`. -/
def longAddr : HardwareAddr := [2, 0, 0, 0, 0, 9, 0xaa, 0xbb]

/-- **An address of eight bytes goes over the source address.**  The frame is received and put on the
Tx ring, with two bytes of it replaced that are not the destination address. -/
theorem forwarded_frame_source_overwritten :
    parseMAC "02:00:00:00:00:09:aa:bb".toList = some longAddr ∧
    Visited (fun _ => longAddr) (forwardedWorld fun _ => longAddr) ∧
    ⟨some broadcast, overwrite longAddr broadcast⟩ ∈
      (forwardedWorld fun _ => longAddr).ctl.sent .inXsk ∧
    14 ≤ broadcast.length ∧ ¬ DstReplaced longAddr broadcast (overwrite longAddr broadcast) := by
  refine ⟨by decide, visited_forwardedWorld (by decide +kernel) (by decide +kernel),
    by decide +kernel, by decide, ?_⟩
  rintro ⟨-, -, hrest⟩
  exact absurd (hrest 6 (Nat.le_refl 6)) (by decide)

end Switch

end AfXdpSwitch.Xdp
