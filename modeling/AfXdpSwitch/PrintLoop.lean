import AfXdpSwitch.SocketPoll

/-!
# `dumpframes` and `rebroadcast`

Both programs run one loop over one socket: give every free chunk of the first half to the
kernel, wait in `Poll`, take what has been received and print it.  `rebroadcast` also
overwrites the destination address of each frame it has printed and hands the received
descriptors to `Transmit` as they are.

Received chunks are marked free at once, and the next round gives all of them back to the
kernel.  For printing this is harmless, since the frames are printed before (`LoopOk`).  For
`rebroadcast` it means that a frame waits to be sent in a chunk the kernel may receive
into; what is sent is what was printed as long as the Tx ring is empty at every
`Fill` (`Echo`).
-/

namespace AfXdpSwitch.Xdp
open SpscRing SlotLane

deriving instance DecidableEq for FillPc

inductive Printer
  | dumpframes
  | rebroadcast
deriving DecidableEq

/-- The loop of either program; `len` is the length of `rxDescs`, `i` the loop variable
over it and `k` the one over the bytes of the address. -/
inductive LoopPc
  | fill (pc : FillPc)
  | poll (pc : PollPc)
  | receive (numRx : Nat)
  | print (len i : Nat)
  | edit (len i k : Nat)
  | transmit (len : Nat)
  | failed
  | panicked (len i k : Nat)
deriving DecidableEq

structure LoopState where
  pc : LoopPc
  /-- The frames that were printed, oldest first. -/
  shown : List (Desc × Frame)

namespace LoopPc

/-- `if n := xsk.NumFreeFillSlots(); n > 0`. -/
def filled : Option FillPc → LoopPc
  | some (.getDescs n) => if n > 0 then .fill (.getDescs n) else .poll .events
  | some pc => .fill pc
  | none => .poll .events

/-- `if numRx > 0`. -/
def polled : PollNext → LoopPc
  | .goto pc => .poll pc
  | .done numRx _ => if numRx > 0 then .receive numRx else .fill .numFreeFillSlots
  | .err => .failed

/-- After the frames: `rebroadcast` sends them. -/
def printed (prog : Printer) (len : Nat) : LoopPc :=
  match prog with
  | .dumpframes => .fill .numFreeFillSlots
  | .rebroadcast => .transmit len

/-- How many received frames are in hand. -/
def len : LoopPc → Nat
  | print len _ | edit len _ _ | transmit len | panicked len _ _ => len
  | _ => 0

/-- How many of them are printed. -/
def next : LoopPc → Nat
  | print _ i => i
  | edit _ i _ | panicked _ i _ => i + 1
  | transmit len => len
  | _ => 0

end LoopPc

/-- One step; only `unix.Poll` depends on the answer. -/
def loopStep (prog : Printer) (answer : PollAnswer) (p : Port) (s : LoopState) :
    Port × LoopState :=
  match s.pc with
  | .fill pc => ((pc.step p).1, { s with pc := .filled (pc.step p).2 })
  | .poll pc => ((pc.step answer p).1, { s with pc := .polled (pc.step answer p).2 })
  | .receive numRx =>
      let (len, xsk) := p.xsk.receive numRx
      (p.setXsk xsk, { s with pc := .print len 0 })
  | .print len i =>
      if i < len then
        let d := p.xsk.rxDescs i
        (p, {
          pc := match prog with
            | .dumpframes => .print len (i + 1)
            | .rebroadcast => .edit len i 0
          shown := s.shown ++ [(d, frame p.xsk.umem d)] })
      else (p, { s with pc := .printed prog len })
  | .edit len i k =>
      let pktData := getFrame (p.xsk.rxDescs i)
      if k < 6 then
        -- an index past the end of the slice is a run-time panic
        if k < pktData.len then
          (p.setXsk { p.xsk with umem := p.xsk.umem.write (pktData.off + k) [0xff] },
            { s with pc := .edit len i (k + 1) })
        else (p, { s with pc := .panicked len i k })
      else (p, { s with pc := .print len (i + 1) })
  | .transmit len =>
      (p.setXsk (p.xsk.transmit (slice p.xsk.rxDescs len)).2,
        { s with pc := .fill .numFreeFillSlots })
  | .failed | .panicked _ _ _ => (p, s)

/-- The steps of a program. -/
def Loop (prog : Printer) (w w' : Port × LoopState) : Prop :=
  ∃ answer, w' = loopStep prog answer w.1 w.2

def loopStart : LoopState := ⟨.fill .numFreeFillSlots, []⟩

/-! ## The invariant -/

/-- The received frames in hand: distinct free chunks. -/
structure RxHand (p : Port) (len : Nat) : Prop where
  held : Held 0 64 p.xsk.freeRXDescs ((slice p.xsk.rxDescs len).map fun d => chunkOf d.addr)
  whole : ∀ j, j < len → (p.xsk.rxDescs j).Whole

/-- The frames in hand from number `i` on. -/
def unshown (p : Port) (len i : Nat) : List (Desc × Frame) :=
  ((slice p.xsk.rxDescs len).drop i).map fun d => (d, frame p.xsk.umem d)

/-- What is known between the steps of a round. -/
def LoopPc.Local (p : Port) : LoopPc → Prop
  | fill (.getDescs n) => 64 ≤ n + p.rxPipe.length
  | fill (.fill len) => FillOk p (.fill len) ∧ len + p.rxPipe.length = 64
  | poll pc => p.rxPipe.length = 64 ∧ pc.Counted p
  | receive _ => p.rxPipe.length = 64
  | print len i => i ≤ len
  | edit len i k | panicked len i k => i < len ∧ k ≤ 6
  | _ => True

structure LoopOk (p : Port) (s : LoopState) : Prop where
  rx : RxOk p
  tx : TxCounts p
  range : ∀ c ∈ p.txPipe, c < 64
  hand : RxHand p s.pc.len
  locals : s.pc.Local p
  chain : s.shown ++ unshown p s.pc.len s.pc.next ++ p.onRx = p.delivered

variable {p p' : Port} {s : LoopState} {len i j k num : Nat}

theorem RxHand.nil (p : Port) : RxHand p 0 :=
  ⟨Held.nil, fun j hj => absurd hj (Nat.not_lt_zero j)⟩

theorem RxHand.inHand (h : RxHand p len) (hj : j < len) : InHand p (p.xsk.rxDescs j) where
  whole := h.whole j hj
  range := (h.held.range _ (mem_slice_map hj)).2
  free := h.held.free _ (mem_slice_map hj)

theorem RxHand.congr (h : RxHand p len) (hrx : p'.xsk.rxDescs = p.xsk.rxDescs)
    (hfree : p'.xsk.freeRXDescs = p.xsk.freeRXDescs) : RxHand p' len := by
  refine ⟨?_, ?_⟩
  · rw [hrx, hfree]; exact h.held
  · rw [hrx]; exact h.whole

@[simp] theorem unshown_zero (p : Port) (i : Nat) : unshown p 0 i = [] := by
  simp [unshown, slice]

theorem unshown_congr (hrx : p'.xsk.rxDescs = p.xsk.rxDescs)
    (h : ∀ j, i ≤ j → j < len →
      frame p'.xsk.umem (p.xsk.rxDescs j) = frame p.xsk.umem (p.xsk.rxDescs j)) :
    unshown p' len i = unshown p len i := by
  unfold unshown
  rw [hrx]
  refine List.map_congr_left fun d hd => ?_
  obtain ⟨j, hj, rfl⟩ := List.getElem_of_mem hd
  rw [List.length_drop, length_slice] at hj
  simp only [slice, List.getElem_drop, List.getElem_map, List.getElem_range]
  rw [h (i + j) (by omega) (by omega)]

theorem unshown_cons (h : i < len) : unshown p len i =
    (p.xsk.rxDescs i, frame p.xsk.umem (p.xsk.rxDescs i)) :: unshown p len (i + 1) := by
  unfold unshown
  rw [List.drop_eq_getElem_cons (by rwa [length_slice]), List.map_cons]
  simp [slice]

theorem unshown_nil (h : len ≤ i) : unshown p len i = [] := by
  unfold unshown
  rw [List.drop_eq_nil_of_le (by rwa [length_slice]), List.map_nil]

/-! ## The steps of others -/

theorem FillOk.held {n : Nat} (h : FillOk p (.fill n)) : Held 0 64 p.xsk.freeRXDescs
    ((slice p.xsk.getRXDescs n).map fun d => chunkOf d.addr) := h

theorem LoopPc.Local.congr {pc : LoopPc} (h : pc.Local p)
    (hpipe : p'.rxPipe.length = p.rxPipe.length) (hfill : ∀ f, FillOk p f → FillOk p' f)
    (hpoll : ∀ q : PollPc, q.Counted p → q.Counted p') : pc.Local p' := by
  cases pc with
  | fill f =>
      cases f with
      | numFreeFillSlots => trivial
      | getDescs n =>
          show 64 ≤ n + p'.rxPipe.length
          rw [hpipe]
          exact h
      | fill n =>
          refine ⟨hfill _ h.1, ?_⟩
          rw [hpipe]
          exact h.2
  | poll q =>
      refine ⟨?_, hpoll q h.2⟩
      rw [hpipe]
      exact h.1
  | receive n =>
      show p'.rxPipe.length = 64
      rw [hpipe]
      exact h
  | print | edit | panicked => exact h
  | transmit | failed => trivial

/-- **A kernel step** keeps what holds between the steps of the program. -/
theorem LoopOk.kernel (h : LoopOk p s) (hs : KernelStep p p') : LoopOk p' s := by
  rcases hs with hs | hs
  · obtain ⟨hrx, hfree, -⟩ := hs.notes
    obtain ⟨new, hon, hdel⟩ := h.rx.stream_rxStep hs
    have hun : unshown p' s.pc.len s.pc.next = unshown p s.pc.len s.pc.next :=
      unshown_congr hrx fun j _ hj => h.rx.frame_rxStep hs (h.hand.inHand hj)
    refine ⟨h.rx.rxStep hs, h.tx.same hs.txNotes, ?_, h.hand.congr hrx hfree, ?_, ?_⟩
    · rw [hs.txNotes.txPipe]; exact h.range
    · exact h.locals.congr (h.rx.length_rxStep hs) (fun f hf => hf.rxStep hs)
        fun q hq => hq.same hs.txNotes
    · rw [hun, hon, hdel, ← List.append_assoc, h.chain]
  · have hsame := hs.rxSame
    refine ⟨h.rx.same hsame, h.tx.txStep hs, ?_, ?_, ?_, ?_⟩
    · exact fun c hc => h.range c (hs.perm.mem_iff.mpr hc)
    · exact h.hand.congr hsame.rxDescs hsame.freeRXDescs
    · exact h.locals.congr (congrArg _ hsame.rxPipe) (fun f hf => hf.same hsame)
        fun q hq => hq.txStep hs
    · rw [unshown_congr hsame.rxDescs fun j _ hj =>
        hsame.frame (h.hand.inHand hj).whole (h.hand.inHand hj).range, hsame.onRx h.rx,
        hsame.delivered]
      exact h.chain

/-! ## The steps of the program -/

/-- Outside the part of the round that has frames in hand. -/
theorem LoopOk.between {pc : LoopPc} (h : LoopOk p s) (hl : s.pc.len = 0) (hl' : pc.len = 0)
    (hrx : RxOk p') (htx : TxCounts p') (hrange : ∀ c ∈ p'.txPipe, c < 64)
    (hlocal : pc.Local p') (hon : p'.onRx = p.onRx) (hdel : p'.delivered = p.delivered) :
    LoopOk p' { s with pc := pc } := by
  refine ⟨hrx, htx, hrange, ?_, hlocal, ?_⟩
  · show RxHand p' pc.len
    rw [hl']
    exact RxHand.nil p'
  · show s.shown ++ unshown p' pc.len pc.next ++ p'.onRx = _
    rw [hl', unshown_zero, hon, hdel, ← h.chain, hl, unshown_zero]

theorem filled_getDescs (h : RxOk p) :
    (LoopPc.filled (some (.getDescs p.xsk.numFreeFillSlots))).Local p := by
  have hle := h.length_le
  have hlen := length_rxPipe p
  have hn : p.xsk.numFreeFillSlots = 64 - p.xsk.fillRing.count := numFreeSlots_eq (by omega)
  unfold LoopPc.filled
  dsimp only
  split
  · show 64 ≤ p.xsk.numFreeFillSlots + p.rxPipe.length
    omega
  · exact ⟨by omega, trivial⟩

/-- **The refill gives every free chunk to the kernel.** -/
theorem LoopOk.fill {f : FillPc} (h : LoopOk p ⟨.fill f, s.shown⟩) :
    LoopOk (f.step p).1 ⟨.filled (f.step p).2, s.shown⟩ := by
  have htx := (f.step_txSame p).toTxNotes
  have hrange : ∀ c ∈ (f.step p).1.txPipe, c < 64 := by
    rw [htx.txPipe]
    exact h.range
  cases f with
  | numFreeFillSlots =>
      have hlen : (LoopPc.filled (some (.getDescs p.xsk.numFreeFillSlots))).len = 0 := by
        unfold LoopPc.filled
        dsimp only
        split <;> rfl
      exact h.between rfl hlen h.rx h.tx h.range (filled_getDescs h.rx) rfl rfl
  | getDescs n =>
      have hok : FillOk _ (.fill (p.xsk.getDescs n true).1) := FillOk.step (.getDescs n) p
      have hn : 64 ≤ n + p.rxPipe.length := h.locals
      have hle := h.rx.lane.length_le
      have hfree := h.rx.lane.length_firstFree (n := min n 64) (by omega)
      have heq := p.xsk.getDescs_rx n
      have hrx : RxOk (p.setXsk (p.xsk.getDescs n true).2) := by
        rw [heq]
        exact { h.rx with }
      refine h.between rfl rfl hrx (h.tx.same htx) hrange ⟨hok, ?_⟩ ?_ rfl
      · show (p.xsk.getDescs n true).1 + (p.setXsk (p.xsk.getDescs n true).2).rxPipe.length = 64
        rw [heq]
        exact hfree
      · show Port.onRx (p.setXsk (p.xsk.getDescs n true).2) = _
        rw [heq]
        rfl
  | fill n =>
      obtain ⟨hok, hn⟩ := h.locals
      have hroom := hok.held.room h.rx.lane
      have hlen := length_rxPipe p
      rw [List.length_map, length_slice] at hroom
      have hrx := h.rx.fill hok.held
      have hfits : p.xsk.fillRing.count + (slice p.xsk.getRXDescs n).length ≤ 64 := by
        rw [length_slice]
        omega
      have heq := p.xsk.fill_eq hfits
      have hnum := h.rx.num
      have hnum' : (p.xsk.fill (slice p.xsk.getRXDescs n)).2.numFilled = _ := hrx.num
      have hfilled : (p.xsk.fill (slice p.xsk.getRXDescs n)).2.numFilled =
          p.xsk.numFilled + n := by rw [heq, length_slice]
      refine h.between rfl rfl hrx (h.tx.same htx) hrange ⟨?_, trivial⟩ ?_ rfl
      · show (p.setXsk (p.xsk.fill (slice p.xsk.getRXDescs n)).2).rxPipe.length = 64
        omega
      · show Port.onRx (p.setXsk (p.xsk.fill (slice p.xsk.getRXDescs n)).2) = _
        rw [heq]
        rfl

/-- `Poll` does not touch the receive side. -/
theorem LoopOk.poll {q : PollPc} (h : LoopOk p ⟨.poll q, s.shown⟩) (answer : PollAnswer) :
    LoopOk (q.step answer p).1 ⟨.polled (q.step answer p).2, s.shown⟩ := by
  obtain ⟨hfull, hcount⟩ := h.locals
  have hsame := q.step_rxSame answer p
  have htx := h.tx.pollStep hcount answer
  have hrange : ∀ c ∈ (q.step answer p).1.txPipe, c < 64 := by
    rcases PollPc.step_cases answer p q with he | ⟨numRx, n, rfl, he⟩
    · rw [he]
      exact h.range
    · rw [he]
      exact fun c hc => h.range c
        ((complete_perm h.tx.comp hcount).mem_iff.mpr (List.mem_append_right _ hc))
  have hfull' : (q.step answer p).1.rxPipe.length = 64 := by rw [hsame.rxPipe, hfull]
  have hnext : ∀ pc : LoopPc, pc.len = 0 → pc.Local (q.step answer p).1 →
      LoopOk (q.step answer p).1 ⟨pc, s.shown⟩ := fun pc hl hlocal =>
    h.between rfl hl (h.rx.same hsame) htx hrange hlocal (hsame.onRx h.rx) hsame.delivered
  unfold LoopPc.polled
  split
  · rename_i q' hq
    exact hnext _ rfl ⟨hfull', PollPc.Counted.step h.tx.comp hq⟩
  · split
    · exact hnext _ rfl hfull'
    · exact hnext _ rfl trivial
  · exact hnext _ rfl trivial

/-- **What `Receive` takes off the Rx ring is in hand.** -/
theorem RxOk.receive_hand (h : RxOk p) (num : Nat) :
    RxHand (p.setXsk (p.xsk.receive num).2) (p.xsk.receive num).1 ∧
      unshown (p.setXsk (p.xsk.receive num).2) (p.xsk.receive num).1 0 ++
        (p.setXsk (p.xsk.receive num).2).onRx = p.onRx := by
  have hle := h.length_le
  have hc : p.xsk.rxRing.count ≤ 64 := by omega
  have hdrop := pending_release_min num hc
  obtain ⟨got, hgot⟩ : ∃ got, got = (p.xsk.rxRing.pending 64).take num := ⟨_, rfl⟩
  have hlen : got.length = min num p.xsk.rxRing.count := by
    rw [hgot, List.length_take, length_pending]
  have hmem : ∀ d ∈ got, d ∈ p.xsk.rxRing.pending 64 := fun d hd =>
    List.mem_of_mem_take (hgot ▸ hd)
  rw [p.xsk.receive_eq num hc, ← hgot, ← hlen]
  rw [← hlen] at hdrop
  refine ⟨⟨?_, ?_⟩, ?_⟩
  · show Held 0 64 (mark _ true _) (List.map _ (slice (refilled _ got) got.length))
    rw [slice_refilled]
    have hsub : (got.map fun d => chunkOf d.addr).Sublist p.rxPipe := by
      refine List.Sublist.trans (List.Sublist.map _ ?_) (List.sublist_append_right _ _)
      rw [hgot]
      exact List.take_sublist _ _
    exact ⟨h.lane.nodup.sublist hsub, fun c hc => h.lane.range c (hsub.subset hc),
      fun c hc => mark_of_mem hc⟩
  · intro j hj
    show (refilled p.xsk.rxDescs got j).Whole
    rw [refilled_of_lt _ hj]
    exact h.whole _ (hmem _ (List.getElem_mem hj))
  · show (List.drop 0 (slice (refilled _ got) got.length)).map _ ++ List.map _ _ = _
    rw [List.drop_zero, slice_refilled, hdrop, hgot, ← List.map_append, List.take_append_drop]
    rfl

theorem LoopOk.receive (h : LoopOk p ⟨.receive num, s.shown⟩) :
    LoopOk (p.setXsk (p.xsk.receive num).2) ⟨.print (p.xsk.receive num).1 0, s.shown⟩ := by
  obtain ⟨hhand, hsplit⟩ := h.rx.receive_hand num
  have hchain := h.chain
  refine ⟨h.rx.receive num, h.tx.same ⟨rfl, rfl, rfl, rfl, rfl, rfl⟩, h.range, hhand,
    Nat.zero_le _, ?_⟩
  show s.shown ++ unshown _ (p.xsk.receive num).1 0 ++ _ = p.delivered
  rw [List.append_assoc, hsplit, ← hchain]
  show _ = s.shown ++ unshown p 0 0 ++ p.onRx
  rw [unshown_zero, List.append_nil]

/-- A byte of a frame is in the chunk of the frame. -/
theorem frame_write_byte {m : ByteMemory} {d e : Desc} {b : BitVec 8} (hd : d.Whole)
    (hk : k < d.len.toNat) (he : e.Whole) (hne : chunkOf e.addr ≠ chunkOf d.addr) :
    frame (m.write (d.addr.toNat + k) [b]) e = frame m e := by
  refine frame_congr he fun x hx => ByteMemory.write_of_not_mem m ?_
  unfold Desc.Whole at hd
  unfold chunkOf at hx hne
  rw [options_frameSize] at hx hne
  rw [List.length_singleton]
  omega

/-- The port after one byte of frame `i` in hand is overwritten. -/
abbrev Port.setByte (p : Port) (i k : Nat) : Port :=
  p.setXsk { p.xsk with umem := p.xsk.umem.write ((p.xsk.rxDescs i).addr.toNat + k) [0xff] }

/-- Overwriting a frame in hand leaves the others in hand alone, -/
theorem RxHand.frame_setByte (h : RxHand p len) (hi : i < len) (hj : j < len) (hij : j ≠ i)
    (hk : k < (p.xsk.rxDescs i).len.toNat) :
    frame (p.setByte i k).xsk.umem (p.xsk.rxDescs j) = frame p.xsk.umem (p.xsk.rxDescs j) :=
  frame_write_byte (h.whole i hi) hk (h.whole j hj) (slice_chunk_ne h.held.nodup hj hi hij)

/-- and those that wait on the Rx ring. -/
theorem RxHand.onRx_setByte (h : RxHand p len) (hrx : RxOk p) (hi : i < len)
    (hk : k < (p.xsk.rxDescs i).len.toNat) : (p.setByte i k).onRx = p.onRx := by
  refine List.map_congr_left fun d hd => ?_
  have hne : chunkOf d.addr ≠ chunkOf (p.xsk.rxDescs i).addr := fun he =>
    h.held.not_mem hrx.lane (mem_slice_map hi) (he ▸ mem_rxPipe_of_rx hd)
  have hf : frame (p.setByte i k).xsk.umem d = frame p.xsk.umem d :=
    frame_write_byte (h.whole i hi) hk (hrx.whole d hd) hne
  show (d, frame (p.setByte i k).xsk.umem d) = _
  rw [hf]

theorem LoopOk.print (h : LoopOk p ⟨.print len i, s.shown⟩) (prog : Printer)
    (answer : PollAnswer) :
    LoopOk (loopStep prog answer p ⟨.print len i, s.shown⟩).1
      (loopStep prog answer p ⟨.print len i, s.shown⟩).2 := by
  have hi : i ≤ len := h.locals
  have hchain : s.shown ++ unshown p len i ++ p.onRx = p.delivered := h.chain
  simp only [loopStep]
  split
  · rename_i hlt
    -- the frame leaves the hand and is printed
    rw [unshown_cons hlt] at hchain
    have hmove : s.shown ++ [(p.xsk.rxDescs i, frame p.xsk.umem (p.xsk.rxDescs i))] ++
        unshown p len (i + 1) ++ p.onRx = p.delivered := by
      rw [← hchain]
      simp only [List.append_assoc, List.cons_append, List.nil_append]
    cases prog with
    | dumpframes => exact ⟨h.rx, h.tx, h.range, h.hand, hlt, hmove⟩
    | rebroadcast => exact ⟨h.rx, h.tx, h.range, h.hand, ⟨hlt, Nat.zero_le 6⟩, hmove⟩
  · rename_i hlt
    rw [unshown_nil (by omega)] at hchain
    cases prog with
    | dumpframes =>
        refine ⟨h.rx, h.tx, h.range, RxHand.nil p, trivial, ?_⟩
        show s.shown ++ unshown p 0 0 ++ p.onRx = _
        rw [unshown_zero]
        exact hchain
    | rebroadcast =>
        refine ⟨h.rx, h.tx, h.range, h.hand, trivial, ?_⟩
        show s.shown ++ unshown p len len ++ p.onRx = _
        rw [unshown_nil (Nat.le_refl len)]
        exact hchain

theorem LoopOk.edit (h : LoopOk p ⟨.edit len i k, s.shown⟩) (prog : Printer)
    (answer : PollAnswer) :
    LoopOk (loopStep prog answer p ⟨.edit len i k, s.shown⟩).1
      (loopStep prog answer p ⟨.edit len i k, s.shown⟩).2 := by
  obtain ⟨hi, hk6⟩ : i < len ∧ k ≤ 6 := h.locals
  have hchain : s.shown ++ unshown p len (i + 1) ++ p.onRx = p.delivered := h.chain
  simp only [loopStep]
  split
  · split
    · rename_i hlt hk
      have hk : k < (p.xsk.rxDescs i).len.toNat := hk
      have hun : unshown (p.setByte i k) len (i + 1) = unshown p len (i + 1) :=
        unshown_congr rfl fun j hj hl => h.hand.frame_setByte hi hl (by omega) hk
      refine ⟨{ h.rx with }, { h.tx with }, h.range, h.hand.congr rfl rfl, ⟨hi, hlt⟩, ?_⟩
      show s.shown ++ unshown (p.setByte i k) len (i + 1) ++ (p.setByte i k).onRx = _
      rw [hun, h.hand.onRx_setByte h.rx hi hk]
      exact hchain
    · exact ⟨h.rx, h.tx, h.range, h.hand, ⟨hi, hk6⟩, hchain⟩
  · exact ⟨h.rx, h.tx, h.range, h.hand, hi, hchain⟩

/-! ### `Transmit` -/

/-- **`Transmit` with any descriptors**: those that find room on the Tx ring go there. -/
theorem transmit_take (h : p.xsk.txRing.count ≤ 64) (descs : List Desc) :
    p.xsk.transmit descs = p.xsk.transmit (descs.take (64 - p.xsk.txRing.count)) := by
  have hn : p.xsk.numFreeTxSlots = 64 - p.xsk.txRing.count := numFreeSlots_eq h
  have hcut : ∀ l : List Desc, (if l.length > 64 - p.xsk.txRing.count then
      l.take (64 - p.xsk.txRing.count) else l) = l.take (64 - p.xsk.txRing.count) := by
    intro l
    split
    · rfl
    · rw [List.take_of_length_le (by omega)]
  unfold Socket.transmit
  rw [hn, hcut, hcut, List.take_take, Nat.min_self]

theorem TxCounts.transmit (h : TxCounts p) (descs : List Desc) :
    TxCounts (p.setXsk (p.xsk.transmit descs).2) ∧
      (p.txPipe ++ (descs.take (64 - p.xsk.txRing.count)).map fun d => chunkOf d.addr).Perm
        (p.setXsk (p.xsk.transmit descs).2).txPipe := by
  have htx := h.tx
  have hnum := h.num
  obtain ⟨sent, hsent⟩ : ∃ sent, sent = descs.take (64 - p.xsk.txRing.count) := ⟨_, rfl⟩
  have hlen : sent.length ≤ 64 - p.xsk.txRing.count := by
    rw [hsent]
    exact List.length_take_le _ _
  have hc : p.xsk.txRing.count + sent.length ≤ 64 := by omega
  have hp := pending_pushAll fits p.xsk.txRing sent hc
  rw [transmit_take htx, ← hsent]
  have hperm : (p.txPipe ++ sent.map fun d => chunkOf d.addr).Perm
      (p.setXsk (p.xsk.transmit sent).2).txPipe := by
    rw [p.xsk.transmit_eq hc]
    simp only [Port.txPipe, hp, List.map_append]
    exact perm_submit
  refine ⟨?_, hperm⟩
  have hl := hperm.length_eq
  rw [List.length_append, List.length_map] at hl
  rw [p.xsk.transmit_eq hc] at hl ⊢
  dsimp only at hl
  refine ⟨?_, h.comp, by dsimp only; omega⟩
  show (p.xsk.txRing.pushAll 64 sent).count ≤ 64
  rw [← length_pending (n := 64), hp, List.length_append, length_pending]
  exact hc

theorem LoopOk.transmit (h : LoopOk p ⟨.transmit len, s.shown⟩) :
    LoopOk (p.setXsk (p.xsk.transmit (slice p.xsk.rxDescs len)).2)
      ⟨.fill .numFreeFillSlots, s.shown⟩ := by
  obtain ⟨htx, hperm⟩ := h.tx.transmit (slice p.xsk.rxDescs len)
  have hsame : RxSame p (p.setXsk (p.xsk.transmit (slice p.xsk.rxDescs len)).2) :=
    { RxSame.refl p with }
  have hchain : s.shown ++ unshown p len len ++ p.onRx = p.delivered := h.chain
  rw [unshown_nil (Nat.le_refl len)] at hchain
  refine ⟨h.rx.same hsame, htx, ?_, RxHand.nil _, trivial, ?_⟩
  · intro c hc
    rcases List.mem_append.mp (hperm.mem_iff.mpr hc) with hc | hc
    · exact h.range c hc
    · obtain ⟨d, hd, rfl⟩ := List.mem_map.mp hc
      obtain ⟨j, hj, rfl⟩ := List.mem_map.mp (List.mem_of_mem_take hd)
      exact (h.hand.inHand (List.mem_range.mp hj)).range
  · show s.shown ++ unshown _ 0 0 ++ _ = _
    rw [unshown_zero, hsame.onRx h.rx]
    exact hchain

/-! ## Whole runs -/

theorem LoopOk.start : LoopOk newPort loopStart :=
  ⟨RxOk.new, TxCounts.new, fun _ hc => absurd hc List.not_mem_nil, RxHand.nil _, trivial, rfl⟩

/-- **Every step of either program keeps `LoopOk`.** -/
theorem LoopOk.step (h : LoopOk p s) (prog : Printer) (answer : PollAnswer) :
    LoopOk (loopStep prog answer p s).1 (loopStep prog answer p s).2 := by
  obtain ⟨pc, shown⟩ := s
  cases pc with
  | fill f => exact LoopOk.fill (s := ⟨.failed, shown⟩) h
  | poll q => exact LoopOk.poll (s := ⟨.failed, shown⟩) h answer
  | receive n => exact LoopOk.receive (s := ⟨.failed, shown⟩) h
  | print len i => exact LoopOk.print (s := ⟨.failed, shown⟩) h prog answer
  | edit len i k => exact LoopOk.edit (s := ⟨.failed, shown⟩) h prog answer
  | transmit len => exact LoopOk.transmit (s := ⟨.failed, shown⟩) h
  | failed | panicked => exact h

theorem LoopOk.of_reachable {prog : Printer} {w : Port × LoopState}
    (h : Alone.Reachable (Loop prog) loopStart w) : LoopOk w.1 w.2 := by
  refine h.invariant (I := fun w => LoopOk w.1 w.2) LoopOk.start ?_ ?_
  · exact fun p p' s h hs => h.kernel hs
  · rintro w w' h ⟨answer, rfl⟩
    exact h.step prog answer

/-- `n` steps of the program, with `unix.Poll` ready whenever it is asked. -/
def loopRun (prog : Printer) (n : Nat) (w : Port × LoopState) : Port × LoopState :=
  (fun w => loopStep prog .ready w.1 w.2)^[n] w

theorem loopRun_reachable {prog : Printer} {go : Port × LoopState → Port × LoopState → Prop}
    {w : Port × LoopState} (h : Alone.Reachable go loopStart w) (n : Nat)
    (hgo : ∀ i, i < n → go (loopRun prog i w) (loopRun prog (i + 1) w)) :
    Alone.Reachable go loopStart (loopRun prog n w) := by
  induction n with
  | zero => exact h
  | succ n ih => exact (ih fun i hi => hgo i (by omega)).tail (.go (hgo n (Nat.lt_succ_self n)))

theorem loop_loopRun (prog : Printer) (i : Nat) (w : Port × LoopState) :
    Loop prog (loopRun prog i w) (loopRun prog (i + 1) w) := by
  refine ⟨.ready, ?_⟩
  unfold loopRun
  rw [Function.iterate_succ_apply']

/-- A run in which a frame of seven bytes arrives while `rebroadcast` is in its first
`Poll`, and the program then makes `n` steps. -/
def arrivedLoop (n : Nat) : Port × LoopState :=
  let w := loopRun .rebroadcast 3 (newPort, loopStart)
  loopRun .rebroadcast n (w.1.arrive 0 [1, 2, 3, 4, 5, 6, 7], w.2)

theorem arrivedLoop_reachable {go : Port × LoopState → Port × LoopState → Prop} (n : Nat)
    (h0 : ∀ i, i < 3 → go (loopRun .rebroadcast i (newPort, loopStart))
      (loopRun .rebroadcast (i + 1) (newPort, loopStart)))
    (h : ∀ i, i < n → go (arrivedLoop i) (arrivedLoop (i + 1))) :
    Alone.Reachable go loopStart (arrivedLoop n) := by
  have hr : Alone.Reachable go loopStart (loopRun .rebroadcast 3 (newPort, loopStart)) :=
    loopRun_reachable .refl 3 h0
  refine loopRun_reachable (hr.kernelRun (Port.arrive_run _ ?_ (by decide) ?_)) n h
  · decide +kernel
  · decide +kernel

/-- **Every delivered frame is printed once, in order, and as it was delivered**: what was
printed, what is in hand and what waits on the Rx ring is all that was delivered. -/
theorem printed_delivered {prog : Printer} {w : Port × LoopState}
    (h : Alone.Reachable (Loop prog) loopStart w) :
    RxOk w.1 ∧ w.2.shown ++ unshown w.1 w.2.pc.len w.2.pc.next ++ w.1.onRx = w.1.delivered := by
  have hok := LoopOk.of_reachable h
  exact ⟨hok.rx, hok.chain⟩

theorem printed_delivered_one : (arrivedLoop 6).2.shown = [(⟨0, 7⟩, [1, 2, 3, 4, 5, 6, 7])] ∧
    (arrivedLoop 6).2.shown ++ unshown (arrivedLoop 6).1 1 1 ++ (arrivedLoop 6).1.onRx =
      (arrivedLoop 6).1.delivered := by
  refine ⟨by decide +kernel, ?_⟩
  have hr : Alone.Reachable (Loop .rebroadcast) loopStart (arrivedLoop 6) :=
    arrivedLoop_reachable 6 (fun i _ => loop_loopRun _ i _) fun i _ => loop_loopRun _ i _
  have h := printed_delivered hr
  have hpc : (arrivedLoop 6).2.pc.len = 1 ∧ (arrivedLoop 6).2.pc.next = 1 := by decide +kernel
  rw [hpc.1, hpc.2] at h
  exact h.2

/-- **Whenever the program is in `Poll`, the kernel has all chunks of the first half**, so it
waits for `POLLIN`; and all that waits to be sent lies in these chunks. -/
theorem unsent_in_rxPipe {prog : Printer} {w : Port × LoopState} {pc : PollPc}
    (h : Alone.Reachable (Loop prog) loopStart w) (hpc : w.2.pc = .poll pc) :
    (∀ c, c < 64 → c ∈ w.1.rxPipe) ∧ (∀ c ∈ w.1.txPipe, c ∈ w.1.rxPipe) ∧
      pollEvents w.1.xsk &&& pollIn = pollIn := by
  have hok := LoopOk.of_reachable h
  have hlocal := hok.locals
  rw [hpc] at hlocal
  have hfull : w.1.rxPipe.length = 64 := hlocal.1
  have hmem : ∀ c, c < 64 → c ∈ w.1.rxPipe := fun c hc =>
    hok.rx.lane.mem_of_full hfull (Nat.zero_le c) hc
  refine ⟨hmem, fun c hc => hmem c (hok.range c hc), ?_⟩
  have hnum := hok.rx.num
  unfold pollEvents
  rw [if_pos (by omega)]
  split <;> decide

/-- The frame in chunk 0 is still to be sent when `rebroadcast` waits again. -/
theorem unsent_in_rxPipe_one : 0 ∈ (arrivedLoop 18).1.txPipe ∧ 0 ∈ (arrivedLoop 18).1.rxPipe := by
  have h0 : 0 ∈ (arrivedLoop 18).1.txPipe := by decide +kernel
  have hpc : (arrivedLoop 18).2.pc = .poll .events := by decide +kernel
  have hr : Alone.Reachable (Loop .rebroadcast) loopStart (arrivedLoop 18) :=
    arrivedLoop_reachable 18 (fun i _ => loop_loopRun _ i _) fun i _ => loop_loopRun _ i _
  exact ⟨h0, (unsent_in_rxPipe hr hpc).2.1 0 h0⟩

end AfXdpSwitch.Xdp
