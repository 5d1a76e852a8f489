import AfXdpSwitch.XdpPort

/-!
# `forwardFrames`, refilling and completing, step by step

The Go switches are made of three pieces of code, each a sequence of method calls:
`Fill(GetDescs(NumFreeFillSlots(), true))`, `Complete(NumCompleted())` and
`forwardFrames(input, output)`.  A program counter says which call comes next and holds
the local variables; a step is one method call or one frame copy.

`DirOk` is what holds of one direction, from the input port to the output port, whatever
else goes on: the two pipelines are right, the frames in the hands of `forwardFrames`
are intact, and what was placed, what is in hand and what waits on the Rx ring is, in
this order, part of what the kernel delivered.  Steps of the other direction do not
touch it.
-/

namespace AfXdpSwitch.Xdp
open SpscRing SlotLane

/-! ## Program counters -/

/-- `xsk.Fill(xsk.GetDescs(xsk.NumFreeFillSlots(), true))`. -/
inductive FillPc
  | numFreeFillSlots
  | getDescs (n : Nat)
  | fill (len : Nat)

def FillPc.step (p : Port) : FillPc → Port × Option FillPc
  | .numFreeFillSlots => (p, some (.getDescs p.xsk.numFreeFillSlots))
  | .getDescs n =>
      let (len, xsk) := p.xsk.getDescs n true
      (p.setXsk xsk, some (.fill len))
  | .fill len => (p.setXsk (p.xsk.fill (slice p.xsk.getRXDescs len)).2, none)

/-- `xsk.Complete(xsk.NumCompleted())`. -/
inductive CompletePc
  | numCompleted
  | complete (n : Nat)
deriving DecidableEq

def CompletePc.step (p : Port) : CompletePc → Port × Option CompletePc
  | .numCompleted => (p, some (.complete p.xsk.numCompleted))
  | .complete n => (p.setXsk (p.xsk.complete n), none)

/-- `forwardFrames`.  `len` is the length of `inDescs`, and from the loop on also that of
`outDescs`; `i` and `numBytes` are the variables of the loop. -/
inductive FwdPc
  | numReceived
  | receive (num : Nat)
  | numFreeTxSlots (len : Nat)
  | getDescs (len n : Nat)
  | outFrame (len i numBytes : Nat)
  | inFrame (len i numBytes : Nat) (out : ByteSlice)
  | copy (len i numBytes : Nat) (out inp : ByteSlice)
  | transmit (len numBytes : Nat)
deriving DecidableEq

namespace FwdPc

/-- The head of the loop. -/
def loop (len i numBytes : Nat) : FwdPc :=
  if i < len then outFrame len i numBytes else transmit len numBytes

/-- One step on the input port `p` and the output port `q`; `none` when the function has
returned. -/
def step (p q : Port) : FwdPc → Port × Port × Option FwdPc
  | numReceived => (p, q, some (receive p.xsk.numReceived))
  | receive num =>
      let (len, xsk) := p.xsk.receive num
      (p.setXsk xsk, q, some (numFreeTxSlots len))
  | numFreeTxSlots len => (p, q, some (getDescs len q.xsk.numFreeTxSlots))
  | getDescs len n =>
      let (outLen, xsk) := q.xsk.getDescs n false
      let len := if len > outLen then outLen else len
      (p, q.setXsk xsk, some (loop len 0 0))
  | outFrame len i numBytes =>
      (p, q, some (inFrame len i numBytes (getFrame (q.xsk.getTXDescs i))))
  | inFrame len i numBytes out =>
      let inp := getFrame (p.xsk.rxDescs i)
      (p, q, some (copy len i (numBytes + inp.len) out inp))
  | copy len i numBytes out inp =>
      let (n, umem) := copyFrame q.xsk.umem p.xsk.umem out inp
      let d := { q.xsk.getTXDescs i with len := BitVec.ofNat 32 n }
      (p, { q with
        xsk.umem := umem
        xsk.getTXDescs := Function.update q.xsk.getTXDescs i d }, some (loop len (i + 1) numBytes))
  | transmit len numBytes =>
      let xsk := (q.xsk.transmit (slice q.xsk.getTXDescs len)).2
      -- The log entry is read off the ring, not off the arguments of `Transmit`.
      let frames := ((xsk.txRing.pending 64).drop q.xsk.txRing.count).map (frame xsk.umem)
      let call := ⟨numBytes, len, (slice p.xsk.rxDescs len).zip frames⟩
      (p, { q with xsk := xsk, calls := q.calls ++ [call] }, none)

/-- How many received frames are in hand. -/
def len : FwdPc → Nat
  | numReceived | receive _ => 0
  | numFreeTxSlots len | getDescs len _ | outFrame len _ _ | inFrame len _ _ _
  | copy len _ _ _ _ | transmit len _ => len

/-- How many of them are copied. -/
def done : FwdPc → Nat
  | outFrame _ i _ | inFrame _ i _ _ | copy _ i _ _ _ => i
  | transmit len _ => len
  | _ => 0

/-- How many chunks to send from are in hand. -/
def outLen : FwdPc → Nat
  | outFrame len _ _ | inFrame len _ _ _ | copy len _ _ _ _ | transmit len _ => len
  | _ => 0

variable {n i k : Nat}

@[simp] theorem len_loop : (loop n i k).len = n := by unfold loop; split <;> rfl

@[simp] theorem outLen_loop : (loop n i k).outLen = n := by unfold loop; split <;> rfl

theorem done_loop (h : i ≤ n) : (loop n i k).done = i := by
  unfold loop
  split
  · rfl
  · show n = i
    omega

end FwdPc

/-! ## The invariant of one direction -/

/-- The total length of the first `i` received frames. -/
def bytes (p : Port) (i : Nat) : Nat := ((slice p.xsk.rxDescs i).map fun d => d.len.toNat).sum

/-- The local variables of `forwardFrames` are what they are meant to be. -/
def FwdPc.Locals (p q : Port) : FwdPc → Prop
  | outFrame len i numBytes => i < len ∧ numBytes = bytes p i
  | inFrame len i numBytes out =>
      i < len ∧ numBytes = bytes p i ∧ out = getFrame (q.xsk.getTXDescs i)
  | copy len i numBytes out inp =>
      i < len ∧ numBytes = bytes p (i + 1) ∧ out = getFrame (q.xsk.getTXDescs i) ∧
        inp = getFrame (p.xsk.rxDescs i)
  | transmit len numBytes => numBytes = bytes p len
  | _ => True

/-- A received frame that is still to be copied: its chunk is marked free already. -/
structure InHand (p : Port) (d : Desc) : Prop where
  whole : d.Whole
  range : chunkOf d.addr < 64
  free : p.xsk.freeRXDescs (chunkOf d.addr) = true

/-- A chunk to send from, filled with a frame of length `n`. -/
structure Target (d : Desc) (n : Nat) : Prop where
  start : d.addr.toNat = chunkOf d.addr * 2048
  len : d.len.toNat = n

/-- What `forwardFrames` has in its hands. -/
structure HandOk (p q : Port) (pc : FwdPc) : Prop where
  received : ∀ j, pc.done ≤ j → j < pc.len → InHand p (p.xsk.rxDescs j)
  held : Held 64 128 q.xsk.freeTXDescs
    ((slice q.xsk.getTXDescs pc.outLen).map fun d => chunkOf d.addr)
  target : ∀ j, j < pc.outLen → Target (q.xsk.getTXDescs j)
    (if j < pc.done then (p.xsk.rxDescs j).len.toNat else 2048)
  small : ∀ j, j < pc.done → (p.xsk.rxDescs j).len.toNat ≤ 2048
  locals : pc.Locals p q

/-- The frames in hand, copied or not. -/
def handed (p q : Port) (pc : FwdPc) : List (Desc × Frame) :=
  (List.range pc.len).map fun j => (p.xsk.rxDescs j,
    if j < pc.done then frame q.xsk.umem (q.xsk.getTXDescs j)
    else frame p.xsk.umem (p.xsk.rxDescs j))

/-- The chunks in hand that are still to be copied. -/
def toCopy (p : Port) (pc : FwdPc) : List Nat :=
  (List.range' pc.done (pc.len - pc.done)).map fun j => chunkOf (p.xsk.rxDescs j).addr

/-- The counts a call returned are those of what it put on the Tx ring. -/
def Call.Right (c : Call) : Prop :=
  c.numFrames = c.placed.length ∧ c.numBytes = (c.placed.map fun x => x.2.length).sum

/-- **One direction**, with `forwardFrames` at `pc`. -/
structure DirOk (p q : Port) (pc : FwdPc) : Prop where
  rx : RxOk p
  tx : TxOk q
  data : TxData q
  hand : HandOk p q pc
  chain : (q.placed ++ handed p q pc ++ p.onRx).Sublist p.delivered
  calls : ∀ c ∈ q.calls, c.Right

/-- What the refill code has in its hands. -/
def FillOk (p : Port) : FillPc → Prop
  | .fill len => Held 0 64 p.xsk.freeRXDescs
      ((slice p.xsk.getRXDescs len).map fun d => chunkOf d.addr)
  | _ => True

/-- The completions that were counted are there. -/
def CompleteOk (p : Port) : CompletePc → Prop
  | .complete n => n ≤ p.xsk.completionRing.count
  | .numCompleted => True

variable {p p' q q' : Port} {pc : FwdPc}

/-! ## What is in hand -/

theorem mem_slice_map {buf : Nat → Desc} {n j : Nat} (h : j < n) :
    chunkOf (buf j).addr ∈ (slice buf n).map fun d => chunkOf d.addr := by
  refine List.mem_map_of_mem (f := fun d : Desc => chunkOf d.addr) ?_
  exact List.mem_map_of_mem (List.mem_range.mpr h)

/-- Distinct positions in a slice of distinct chunks. -/
theorem slice_chunk_ne {buf : Nat → Desc} {n i j : Nat}
    (h : ((slice buf n).map fun d => chunkOf d.addr).Nodup) (hi : i < n) (hj : j < n)
    (hij : i ≠ j) : chunkOf (buf i).addr ≠ chunkOf (buf j).addr := by
  unfold slice at h
  rw [List.map_map] at h
  intro he
  exact hij (List.inj_on_of_nodup_map h (List.mem_range.mpr hi) (List.mem_range.mpr hj) he)

theorem Target.whole {d : Desc} {n : Nat} (h : Target d n) (hn : n ≤ 2048) : d.Whole := by
  have hs := h.start
  have hl := h.len
  unfold Desc.Whole
  omega

theorem HandOk.done_le_outLen (h : HandOk p q pc) : pc.done ≤ pc.outLen := by
  have hl := h.locals
  cases pc with
  | outFrame | inFrame | copy => exact Nat.le_of_lt hl.1
  | _ => exact Nat.le_refl _

theorem HandOk.target_whole (h : HandOk p q pc) {j : Nat} (hj : j < pc.outLen) :
    (q.xsk.getTXDescs j).Whole := by
  refine (h.target j hj).whole ?_
  split
  · exact h.small j ‹_›
  · exact Nat.le_refl _

theorem HandOk.target_range (h : HandOk p q pc) {j : Nat} (hj : j < pc.outLen) :
    64 ≤ chunkOf (q.xsk.getTXDescs j).addr := (h.held.range _ (mem_slice_map hj)).1

theorem mem_toCopy {c : Nat} : c ∈ toCopy p pc ↔
    ∃ j, pc.done ≤ j ∧ j < pc.len ∧ chunkOf (p.xsk.rxDescs j).addr = c := by
  unfold toCopy
  simp only [List.mem_map, List.mem_range'_1]
  constructor
  · rintro ⟨j, hj, hc⟩
    exact ⟨j, hj.1, by omega, hc⟩
  · rintro ⟨j, hd, hl, hc⟩
    exact ⟨j, by omega, hc⟩

/-- The frames in hand depend on their chunks only. -/
theorem handed_congr (hrx : p'.xsk.rxDescs = p.xsk.rxDescs)
    (htx : q'.xsk.getTXDescs = q.xsk.getTXDescs)
    (hin : ∀ j, pc.done ≤ j → j < pc.len →
      frame p'.xsk.umem (p.xsk.rxDescs j) = frame p.xsk.umem (p.xsk.rxDescs j))
    (hout : ∀ j, j < pc.done →
      frame q'.xsk.umem (q.xsk.getTXDescs j) = frame q.xsk.umem (q.xsk.getTXDescs j)) :
    handed p' q' pc = handed p q pc := by
  refine List.map_congr_left fun j hj => ?_
  have hj := List.mem_range.mp hj
  rw [hrx, htx]
  by_cases hd : j < pc.done
  · rw [if_pos hd, if_pos hd, hout j hd]
  · rw [if_neg hd, if_neg hd, hin j (by omega) hj]

theorem FwdPc.Locals.congr (h : pc.Locals p q) (hrx : p'.xsk.rxDescs = p.xsk.rxDescs)
    (htx : q'.xsk.getTXDescs = q.xsk.getTXDescs) : pc.Locals p' q' := by
  have hb : ∀ i, bytes p' i = bytes p i := fun i => by unfold bytes; rw [hrx]
  cases pc with
  | outFrame | inFrame | copy | transmit =>
      simp only [Locals, hb, hrx, htx] at h ⊢
      exact h
  | _ => trivial

/-- What is in hand stays there as long as nobody puts these chunks in use. -/
theorem HandOk.congr (h : HandOk p q pc) (hrx : p'.xsk.rxDescs = p.xsk.rxDescs)
    (htx : q'.xsk.getTXDescs = q.xsk.getTXDescs)
    (hfree : ∀ j, pc.done ≤ j → j < pc.len →
      p'.xsk.freeRXDescs (chunkOf (p.xsk.rxDescs j).addr) = true)
    (hheld : Held 64 128 q'.xsk.freeTXDescs
      ((slice q.xsk.getTXDescs pc.outLen).map fun d => chunkOf d.addr)) : HandOk p' q' pc where
  received := fun j hd hl => by
    rw [hrx]
    exact { h.received j hd hl with free := hfree j hd hl }
  held := by rw [htx]; exact hheld
  target := by rw [htx, hrx]; exact h.target
  small := by rw [hrx]; exact h.small
  locals := h.locals.congr hrx htx

/-- What is in hand only depends on the two buffers and the two maps. -/
theorem HandOk.same (h : HandOk p q pc) (hrx : p'.xsk.rxDescs = p.xsk.rxDescs)
    (htx : q'.xsk.getTXDescs = q.xsk.getTXDescs) (hrf : p'.xsk.freeRXDescs = p.xsk.freeRXDescs)
    (htf : q'.xsk.freeTXDescs = q.xsk.freeTXDescs) : HandOk p' q' pc := by
  refine h.congr hrx htx (fun j hd hl => ?_) ?_
  · rw [hrf]
    exact (h.received j hd hl).free
  · rw [htf]
    exact h.held

/-! ## Steps of others -/

/-- Steps of the other direction leave what is in hand as it is, -/
theorem DirOk.handed_same (h : DirOk p q pc) (hp : RxSame p p') (hq : TxSame q q') :
    handed p' q' pc = handed p q pc := by
  refine handed_congr hp.rxDescs hq.getTXDescs (fun j hd hl => ?_) fun j hd => ?_
  · have hj := h.hand.received j hd hl
    exact hp.frame hj.whole hj.range
  · have hj := Nat.lt_of_lt_of_le hd h.hand.done_le_outLen
    exact hq.frame (h.hand.target_whole hj) (h.hand.target_range hj)

/-- and so does the kernel: the chunks in hand are marked free, those it may write to are
not. -/
theorem DirOk.handed_rxStep (h : DirOk p q pc) (hs : RxStep p p') :
    handed p' q pc = handed p q pc := by
  cases hs with
  | takeFill | deliver => rfl
  | @write a m ha hm =>
      refine handed_congr rfl rfl (fun j hd hl => ?_) fun j hd => rfl
      have hj := h.hand.received j hd hl
      refine frame_congr hj.whole fun x hx => hm x ?_
      rw [hx]
      intro he
      have hf := hj.free
      rw [he, (h.rx.lane.used _).mpr (mem_rxPipe_of_krx ha)] at hf
      exact Bool.false_ne_true hf

theorem handed_txStep (hs : TxStep q q') : handed p q' pc = handed p q pc := by
  cases hs with
  | takeTx | complete => rfl

/-- **Steps of the other direction do not touch this one.** -/
theorem DirOk.same (h : DirOk p q pc) (hp : RxSame p p') (hq : TxSame q q') : DirOk p' q' pc where
  rx := h.rx.same hp
  tx := h.tx.same hq.toTxNotes
  data := h.data.same h.tx hq
  hand := h.hand.same hp.rxDescs hq.getTXDescs hp.freeRXDescs hq.freeTXDescs
  chain := by
    have hplaced : q'.placed = q.placed := by unfold Port.placed; rw [hq.calls]
    rw [h.handed_same hp hq, hplaced, hp.onRx h.rx, hp.delivered]
    exact h.chain
  calls := by rw [hq.calls]; exact h.calls

/-- **The kernel on the receive side of the input port.**  It writes only into chunks of
the pipeline, and neither the frames on the Rx ring nor those in hand are in one of
them. -/
theorem DirOk.rxStep (h : DirOk p q pc) (hs : RxStep p p') : DirOk p' q pc := by
  have hrx := h.rx.rxStep hs
  have hhand := h.handed_rxStep hs
  cases hs with
  | takeFill ha =>
      exact { h with
        rx := hrx
        hand := h.hand.same rfl rfl rfl rfl }
  | @write a m ha hm =>
      -- the chunk written to is with the kernel, so it is not on the Rx ring
      have hon : Port.onRx { p with xsk.umem := m } = p.onRx := by
        refine List.map_congr_left fun d hd => ?_
        have hdis := List.disjoint_of_nodup_append h.rx.lane.nodup
        have hf : frame m d = frame p.xsk.umem d := by
          refine frame_congr (h.rx.whole d hd) fun x hx => hm x fun he => ?_
          exact hdis (List.mem_append_right _ (List.mem_map_of_mem ha))
            (List.mem_map.mpr ⟨d, hd, hx.symm.trans he⟩)
        rw [hf]
      refine { h with
        rx := hrx
        hand := h.hand.same rfl rfl rfl rfl
        chain := ?_ }
      rw [hon, hhand]
      exact h.chain
  | @deliver l a r d hk hd hw room =>
      have hon : Port.onRx { p with
          krx := l ++ r
          xsk.rxRing := p.xsk.rxRing.push 64 d
          delivered := p.delivered ++ [(d, frame p.xsk.umem d)] } =
          p.onRx ++ [(d, frame p.xsk.umem d)] := by
        unfold Port.onRx
        simp only [pending_push fits p.xsk.rxRing d room, List.map_append, List.map_cons,
          List.map_nil]
      refine { h with
        rx := hrx
        hand := h.hand.same rfl rfl rfl rfl
        chain := ?_ }
      rw [hon, ← List.append_assoc]
      exact h.chain.append (List.Sublist.refl _)

/-- **The kernel on the send side of the output port.** -/
theorem DirOk.txStep (h : DirOk p q pc) (hs : TxStep q q') : DirOk p q' pc := by
  have htx := h.tx.txStep hs
  have hdata := h.data.txStep hs
  cases hs with
  | takeTx hd =>
      exact { h with
        tx := htx
        data := hdata
        hand := h.hand.same rfl rfl rfl rfl }
  | complete hk room =>
      exact { h with
        tx := htx
        data := hdata
        hand := h.hand.same rfl rfl rfl rfl }

/-- **Refilling the input port** does no harm if it spares the frames still to be
copied. -/
theorem DirOk.fill (h : DirOk p q pc) {fpc : FillPc} (hf : FillOk p fpc)
    (hspare : ∀ len, fpc = .fill len →
      ∀ c ∈ (slice p.xsk.getRXDescs len).map fun d => chunkOf d.addr, c ∉ toCopy p pc) :
    DirOk (fpc.step p).1 q pc := by
  cases fpc with
  | numFreeFillSlots => exact h
  | getDescs n =>
      show DirOk (p.setXsk (p.xsk.getDescs n true).2) q pc
      rw [p.xsk.getDescs_rx n]
      exact { h with
        rx := { h.rx with }
        hand := h.hand.same rfl rfl rfl rfl }
  | fill len =>
      have hf : Held 0 64 p.xsk.freeRXDescs
          ((slice p.xsk.getRXDescs len).map fun d => chunkOf d.addr) := hf
      have hrx := h.rx.fill hf
      have hle := hf.room h.rx.lane
      rw [length_rxPipe, List.length_map] at hle
      show DirOk (p.setXsk (p.xsk.fill (slice p.xsk.getRXDescs len)).2) q pc
      rw [p.xsk.fill_eq (by omega)] at hrx ⊢
      refine { h with
        rx := hrx
        hand := h.hand.congr rfl rfl (fun j hd hl => ?_) h.hand.held }
      -- `Fill` marks the chunks it is given as used, which none of those in hand may be
      have hnot : chunkOf (p.xsk.rxDescs j).addr ∉
          (slice p.xsk.getRXDescs len).map fun d => chunkOf d.addr :=
        fun hm => hspare len rfl _ hm (mem_toCopy.mpr ⟨j, hd, hl, rfl⟩)
      show mark _ _ _ _ = true
      rw [mark_of_not_mem hnot]
      exact (h.hand.received j hd hl).free

/-- **Completing on the output port.** -/
theorem DirOk.complete (h : DirOk p q pc) {cpc : CompletePc} (hc : CompleteOk q cpc) :
    DirOk p (cpc.step q).1 pc := by
  cases cpc with
  | numCompleted => exact h
  | complete n =>
      have htx := h.tx.complete hc
      show DirOk p (q.setXsk (q.xsk.complete n)) pc
      rw [q.xsk.complete_eq hc] at htx ⊢
      exact { h with
        tx := htx
        data := { h.data with }
        hand := h.hand.congr rfl rfl (fun j hd hl => (h.hand.received j hd hl).free)
          h.hand.held.mark_true }

end AfXdpSwitch.Xdp
