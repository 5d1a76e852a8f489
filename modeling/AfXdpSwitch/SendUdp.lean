import AfXdpSwitch.SocketPoll

/-!
# `sendudp`

The program writes one packet into every chunk of the second half of the UMEM and then
submits all chunks that are free, round after round, waiting in `Poll` in between.  It gives
the kernel no chunk to receive into, so nobody writes to the UMEM any more: what the kernel
takes is always this packet, cut to the size of a chunk.
-/

namespace AfXdpSwitch.Xdp
open SpscRing SlotLane

/-- `len` is the length of `descs` and `i` the loop variable over it. -/
inductive SendPc
  | getAll
  | prepare (len i : Nat)
  | numFreeTxSlots
  | getDescs (n : Nat)
  | setLen (len i : Nat)
  | transmit (len : Nat)
  | poll (pc : PollPc)
  | panicked
deriving DecidableEq

structure SendState where
  pc : SendPc
  frameLen : Nat

/-- `math.MaxInt32`. -/
def maxInt32 : Nat := 2147483647

/-- What follows a step of `Poll`. -/
def SendPc.polled : PollNext → SendPc
  | .goto pc => .poll pc
  | .done _ _ => .numFreeTxSlots
  | .err => .panicked

/-- One step; `packet` is `buf.Bytes()`, and only `unix.Poll` depends on the answer. -/
def sendStep (packet : Frame) (answer : PollAnswer) (p : Port) (s : SendState) :
    Port × SendState :=
  match s.pc with
  | .getAll =>
      let (len, xsk) := p.xsk.getDescs maxInt32 false
      (p.setXsk xsk, { s with pc := .prepare len 0 })
  | .prepare len i =>
      if i < len then
        let dst := getFrame (p.xsk.getTXDescs i)
        let n := min dst.len packet.length
        (p.setXsk { p.xsk with umem := p.xsk.umem.write dst.off (packet.take n) },
          { pc := .prepare len (i + 1), frameLen := n })
      else (p, { s with pc := .numFreeTxSlots })
  | .numFreeTxSlots => (p, { s with pc := .getDescs p.xsk.numFreeTxSlots })
  | .getDescs n =>
      let (len, xsk) := p.xsk.getDescs n false
      (p.setXsk xsk, { s with pc := .setLen len 0 })
  | .setLen len i =>
      if i < len then
        let d := { p.xsk.getTXDescs i with len := BitVec.ofNat 32 s.frameLen }
        (p.setXsk { p.xsk with getTXDescs := Function.update p.xsk.getTXDescs i d },
          { s with pc := .setLen len (i + 1) })
      else (p, { s with pc := .transmit len })
  | .transmit len =>
      (p.setXsk (p.xsk.transmit (slice p.xsk.getTXDescs len)).2, { s with pc := .poll .events })
  | .poll pc => ((pc.step answer p).1, { s with pc := .polled (pc.step answer p).2 })
  | .panicked => (p, s)

/-- The steps of the program. -/
def SendLoop (packet : Frame) (w w' : Port × SendState) : Prop :=
  ∃ answer, w' = sendStep packet answer w.1 w.2

def sendStart (packet : Frame) : SendState := ⟨.getAll, packet.length⟩

/-! ## The invariant -/

namespace SendPc

/-- How many chunks to send from are in hand. -/
def len : SendPc → Nat
  | prepare len _ | setLen len _ | transmit len => len
  | _ => 0

/-- How many of them have the length of the packet. -/
def lenSet : SendPc → Nat
  | setLen _ i => i
  | transmit len => len
  | _ => 0

/-- How many chunks hold the packet. -/
def prepared : SendPc → Nat
  | getAll => 0
  | prepare _ i => i
  | _ => 64

end SendPc

/-- What is known between the steps of a round. -/
def SendPc.Local (p : Port) : SendPc → Prop
  | getAll => p.txPipe = []
  | prepare len i => len = 64 ∧ i ≤ 64 ∧ p.txPipe = [] ∧
      ∀ j, j < 64 → chunkOf (p.xsk.getTXDescs j).addr = 64 + j
  | getDescs n => 64 ≤ n + p.txPipe.length
  | setLen len i => i ≤ len ∧ len + p.txPipe.length = 64
  | transmit len => len + p.txPipe.length = 64
  | poll pc => p.txPipe.length = 64 ∧ pc.Counted p
  | _ => True

/-- The kernel has nothing to receive into. -/
structure Silent (p : Port) : Prop where
  krx : p.krx = []
  fill : p.xsk.fillRing.count = 0
  numFilled : p.xsk.numFilled = 0

structure SendOk (packet : Frame) (p : Port) (s : SendState) : Prop where
  silent : Silent p
  tx : TxOk p
  frameLen : 0 < s.pc.prepared → s.frameLen = min 2048 packet.length
  ready : ∀ j, j < s.pc.prepared →
    p.xsk.umem.read ((64 + j) * 2048) (min 2048 packet.length) = packet.take 2048
  held : Held 64 128 p.xsk.freeTXDescs
    ((slice p.xsk.getTXDescs s.pc.len).map fun d => chunkOf d.addr)
  target : ∀ j, j < s.pc.len → Target (p.xsk.getTXDescs j)
    (if j < s.pc.lenSet then min 2048 packet.length else 2048)
  placed : ∀ d ∈ p.xsk.txRing.pending 64, Target d (min 2048 packet.length)
  taken : ∀ f ∈ p.taken, f = packet.take 2048
  locals : s.pc.Local p

variable {packet : Frame} {p p' : Port} {s : SendState} {len i n : Nat}

/-- A submitted descriptor shows the packet. -/
theorem SendOk.frame_eq (h : SendOk packet p s) (hpre : s.pc.prepared = 64) {d : Desc}
    (hd : Target d (min 2048 packet.length)) (h1 : 64 ≤ chunkOf d.addr) (h2 : chunkOf d.addr < 128) :
    frame p.xsk.umem d = packet.take 2048 := by
  have hr := h.ready (chunkOf d.addr - 64) (by omega)
  rw [show 64 + (chunkOf d.addr - 64) = chunkOf d.addr by omega, ← hd.start, ← hd.len] at hr
  exact hr

/-- Nothing is on the Tx ring before all chunks are prepared. -/
theorem SendOk.prepared_of_pending (h : SendOk packet p s) {d : Desc}
    (hd : d ∈ p.xsk.txRing.pending 64) : s.pc.prepared = 64 := by
  have hm := mem_txPipe_of_tx hd
  have hl := h.locals
  obtain ⟨pc, frameLen⟩ := s
  cases pc with
  | getAll =>
      rw [show p.txPipe = [] from hl] at hm
      exact absurd hm List.not_mem_nil
  | prepare len i =>
      rw [show p.txPipe = [] from hl.2.2.1] at hm
      exact absurd hm List.not_mem_nil
  | _ => rfl

/-! ## Kernel steps -/

theorem Silent.not_rxStep (h : Silent p) : ¬ RxStep p p' := by
  intro hs
  cases hs with
  | takeFill ha =>
      have hnil : p.xsk.fillRing.pending 64 = [] :=
        List.eq_nil_of_length_eq_zero (by rw [length_pending, h.fill])
      rw [hnil] at ha
      cases ha
  | write m ha hm =>
      rw [h.krx] at ha
      exact List.not_mem_nil ha
  | deliver d hk hd hw room =>
      rw [h.krx] at hk
      cases List.append_eq_nil_iff.mp hk.symm |>.2

theorem SendPc.Local.txStep {pc : SendPc} (h : pc.Local p) (hs : TxStep p p') : pc.Local p' := by
  have hperm := hs.perm
  have hlen := hperm.length_eq
  have hbuf : p'.xsk.getTXDescs = p.xsk.getTXDescs := by
    cases hs with
    | takeTx | complete => rfl
  have hnil : p.txPipe = [] → p'.txPipe = [] := fun he =>
    List.eq_nil_of_length_eq_zero (by rw [← hlen, he]; rfl)
  cases pc with
  | getAll => exact hnil h
  | prepare len i =>
      obtain ⟨h1, h2, h3, h4⟩ := h
      exact ⟨h1, h2, hnil h3, by rw [hbuf]; exact h4⟩
  | getDescs n =>
      show 64 ≤ n + p'.txPipe.length
      rw [← hlen]
      exact h
  | setLen len i => exact ⟨h.1, hlen ▸ h.2⟩
  | transmit len =>
      show len + p'.txPipe.length = 64
      rw [← hlen]
      exact h
  | poll pc => exact ⟨hlen ▸ h.1, h.2.txStep hs⟩
  | numFreeTxSlots | panicked => trivial

theorem SendOk.kernel (h : SendOk packet p s) (hs : KernelStep p p') : SendOk packet p' s := by
  rcases hs with hs | hs
  · exact absurd hs h.silent.not_rxStep
  have htx := h.tx.txStep hs
  have hlocal := h.locals.txStep hs
  cases hs with
  | @takeTx d hd =>
      have hp := pending_of_head? hd
      have hmem : d ∈ p.xsk.txRing.pending 64 := hp ▸ List.mem_cons_self
      have hrange := h.tx.lane.range _ (mem_txPipe_of_tx hmem)
      have hframe := h.frame_eq (h.prepared_of_pending hmem) (h.placed d hmem) hrange.1 hrange.2
      refine ⟨{ h.silent with }, htx, h.frameLen, h.ready, h.held, h.target, ?_, ?_,
        hlocal⟩
      · exact fun d' hd' => h.placed d' (hp ▸ List.mem_cons_of_mem _ hd')
      · intro f hf
        rcases List.mem_append.mp hf with hf | hf
        · exact h.taken f hf
        · rw [List.mem_singleton.mp hf]
          exact hframe
  | complete hk room =>
      exact ⟨{ h.silent with }, htx, h.frameLen, h.ready, h.held, h.target, h.placed,
        h.taken, hlocal⟩

/-! ## Program steps -/

/-- With an empty pipeline every chunk is found. -/
theorem TxOk.freeTx_all (h : TxOk p) (hnil : p.txPipe = []) (hn : 64 ≤ n) :
    p.xsk.freeTx n = List.range' 64 64 := by
  have hfree : ∀ c ∈ List.range' 64 64, p.xsk.freeTXDescs c = true := by
    intro c _
    rw [← Bool.not_eq_false, h.lane.used, hnil]
    exact List.not_mem_nil
  unfold Socket.freeTx firstFree
  rw [List.filter_eq_self.mpr hfree, Nat.min_eq_right hn]
  rfl

/-- The chunks `GetDescs` has found are in hand. -/
theorem held_getDescs (p : Port) (n : Nat) :
    Held 64 128 (p.xsk.getDescs n false).2.freeTXDescs
      ((slice (p.xsk.getDescs n false).2.getTXDescs (p.xsk.getDescs n false).1).map
        fun d => chunkOf d.addr) ∧
    ∀ j, j < (p.xsk.getDescs n false).1 →
      Target ((p.xsk.getDescs n false).2.getTXDescs j) 2048 := by
  rw [p.xsk.getDescs_tx n]
  constructor
  · show Held 64 128 _ (List.map _ (slice (refilled _ _) _))
    rw [slice_chunkDesc _ freeTx_lt (Nat.le_refl _), List.take_length]
    exact held_freeTx p.xsk n
  · exact fun j hj => target_chunkDesc _ freeTx_lt hj

/-- `GetDescs` changes nothing but its buffer. -/
theorem SendOk.getBuffer {pc : SendPc} (h : SendOk packet p s) (n : Nat)
    (hpre : pc.prepared = s.pc.prepared) (hlen : pc.len = (p.xsk.getDescs n false).1)
    (hset : pc.lenSet = 0) (hlocal : pc.Local (p.setXsk (p.xsk.getDescs n false).2)) :
    SendOk packet (p.setXsk (p.xsk.getDescs n false).2) { s with pc := pc } := by
  obtain ⟨hheld, htarget⟩ := held_getDescs p n
  refine ⟨?_, ?_, ?_, ?_, ?_, ?_, ?_, h.taken, hlocal⟩
  · rw [p.xsk.getDescs_tx n]
    exact { h.silent with }
  · rw [p.xsk.getDescs_tx n]
    exact { h.tx with }
  · show 0 < pc.prepared → _
    rw [hpre]
    exact h.frameLen
  · show ∀ j, j < pc.prepared → _
    rw [hpre, p.xsk.getDescs_tx n]
    exact h.ready
  · show Held 64 128 _ ((slice _ pc.len).map _)
    rw [hlen]
    exact hheld
  · show ∀ j, j < pc.len → Target _ (if j < pc.lenSet then _ else _)
    rw [hlen, hset]
    exact fun j hj => by
      rw [if_neg (Nat.not_lt_zero j)]
      exact htarget j hj
  · rw [p.xsk.getDescs_tx n]
    exact h.placed

theorem SendOk.getAll {k : Nat} (h : SendOk packet p ⟨.getAll, k⟩) :
    SendOk packet (p.setXsk (p.xsk.getDescs maxInt32 false).2)
      ⟨.prepare (p.xsk.getDescs maxInt32 false).1 0, k⟩ := by
  have hnil : p.txPipe = [] := h.locals
  have hall := h.tx.freeTx_all hnil (n := maxInt32) (by decide)
  have heq := p.xsk.getDescs_tx maxInt32
  refine h.getBuffer maxInt32 rfl rfl rfl ⟨?_, Nat.zero_le _, ?_, ?_⟩
  · rw [heq, hall]
    rfl
  · rw [heq]
    exact hnil
  · intro j hj
    have hjl : j < (p.xsk.freeTx maxInt32).length := by rwa [hall, List.length_range']
    rw [heq]
    show chunkOf (refilled p.xsk.getTXDescs _ j).addr = _
    rw [chunkOf_refilled _ freeTx_lt hjl]
    simp only [hall, List.getElem_range']
    omega

theorem take_min (packet : Frame) : packet.take (min 2048 packet.length) = packet.take 2048 := by
  rw [← List.take_take, List.take_length]

/-- **The packet is written into the next chunk.** -/
theorem SendOk.prepare {k : Nat} (h : SendOk packet p ⟨.prepare len i, k⟩) (answer : PollAnswer) :
    SendOk packet (sendStep packet answer p ⟨.prepare len i, k⟩).1
      (sendStep packet answer p ⟨.prepare len i, k⟩).2 := by
  obtain ⟨rfl, hi, hnil, hchunk⟩ := h.locals
  simp only [sendStep]
  split
  · rename_i hlt
    have ht : Target (p.xsk.getTXDescs i) 2048 := h.target i hlt
    have hoff : (getFrame (p.xsk.getTXDescs i)).off = (64 + i) * 2048 := by
      rw [← hchunk i hlt]
      exact ht.start
    have hlen : (getFrame (p.xsk.getTXDescs i)).len = 2048 := ht.len
    have hbs : (packet.take 2048).length = min 2048 packet.length := List.length_take
    rw [hoff, hlen, take_min]
    refine ⟨{ h.silent with }, { h.tx with }, fun _ => rfl, ?_, h.held, h.target, ?_,
      h.taken, rfl, hlt, hnil, hchunk⟩
    · intro j hj
      have hj : j < i + 1 := hj
      show (p.xsk.umem.write _ _).read _ _ = _
      by_cases hji : j = i
      · subst hji
        rw [← hbs]
        exact ByteMemory.read_write_self _
      · rw [ByteMemory.read_write_of_disjoint _ (by rw [hbs]; omega)]
        exact h.ready j (show j < i by omega)
    · exact h.placed
  · rename_i hlt
    obtain rfl : i = 64 := by omega
    exact ⟨h.silent, h.tx, h.frameLen, h.ready, Held.nil,
      fun j hj => absurd hj (Nat.not_lt_zero j), h.placed, h.taken, trivial⟩

theorem SendOk.getDescs {k : Nat} (h : SendOk packet p ⟨.getDescs n, k⟩) :
    SendOk packet (p.setXsk (p.xsk.getDescs n false).2)
      ⟨.setLen (p.xsk.getDescs n false).1 0, k⟩ := by
  have hn : 64 ≤ n + p.txPipe.length := h.locals
  have hle := h.tx.lane.length_le
  have hfree := h.tx.lane.length_firstFree (n := min n 64) (by omega)
  refine h.getBuffer n rfl rfl rfl ⟨Nat.zero_le _, ?_⟩
  rw [p.xsk.getDescs_tx n]
  exact hfree

/-- **`descs[i].Len = uint32(frameLen)`.** -/
theorem SendOk.setLen {k : Nat} (h : SendOk packet p ⟨.setLen len i, k⟩) (answer : PollAnswer) :
    SendOk packet (sendStep packet answer p ⟨.setLen len i, k⟩).1
      (sendStep packet answer p ⟨.setLen len i, k⟩).2 := by
  obtain ⟨hi, hfull⟩ : i ≤ len ∧ len + p.txPipe.length = 64 := h.locals
  obtain rfl : k = min 2048 packet.length := h.frameLen (by decide : 0 < 64)
  simp only [sendStep]
  split
  · rename_i hlt
    have hlen : (BitVec.ofNat 32 (min 2048 packet.length)).toNat = min 2048 packet.length := by
      rw [BitVec.toNat_ofNat]
      omega
    obtain ⟨buf, hbuf⟩ : ∃ buf, buf = Function.update p.xsk.getTXDescs i
        { p.xsk.getTXDescs i with len := BitVec.ofNat 32 (min 2048 packet.length) } := ⟨_, rfl⟩
    have haddr : ∀ j, (buf j).addr = (p.xsk.getTXDescs j).addr := by
      intro j
      by_cases hj : j = i
      · rw [hbuf, hj, Function.update_self]
      · rw [hbuf, Function.update_of_ne hj]
    have hs : ((slice buf len).map fun d => chunkOf d.addr) =
        (slice p.xsk.getTXDescs len).map fun d => chunkOf d.addr := by
      simp only [slice, List.map_map, Function.comp_def, haddr]
    rw [← hbuf]
    refine ⟨{ h.silent with }, { h.tx with }, h.frameLen, h.ready, hs ▸ h.held, ?_,
      h.placed, h.taken, hlt, hfull⟩
    intro j hj
    have ht : Target (p.xsk.getTXDescs j) (if j < i then _ else _) := h.target j hj
    show Target (buf j) (if j < i + 1 then _ else _)
    by_cases hji : j = i
    · subst hji
      rw [if_pos (Nat.lt_succ_self j)]
      refine ⟨?_, ?_⟩
      · rw [haddr]
        exact ht.start
      · rw [hbuf, Function.update_self]
        exact hlen
    · rw [if_congr (show j < i + 1 ↔ j < i by omega) rfl rfl, hbuf, Function.update_of_ne hji]
      exact ht
  · obtain rfl : i = len := by omega
    exact ⟨h.silent, h.tx, h.frameLen, h.ready, h.held, h.target, h.placed, h.taken, hfull⟩

/-- **All that is in hand is submitted.** -/
theorem SendOk.transmit {k : Nat} (h : SendOk packet p ⟨.transmit len, k⟩) :
    SendOk packet (p.setXsk (p.xsk.transmit (slice p.xsk.getTXDescs len)).2)
      ⟨.poll .events, k⟩ := by
  have hfull : len + p.txPipe.length = 64 := h.locals
  have hheld : Held 64 128 p.xsk.freeTXDescs
      ((slice p.xsk.getTXDescs len).map fun d => chunkOf d.addr) := h.held
  obtain ⟨hc, htx⟩ := h.tx.transmit hheld
  have heq := p.xsk.transmit_eq hc
  have hp := pending_pushAll fits p.xsk.txRing _ hc
  have hnum := h.tx.num
  have hnum' : (p.xsk.transmit (slice p.xsk.getTXDescs len)).2.numTransmitted = _ := htx.num
  have hsent : (p.xsk.transmit (slice p.xsk.getTXDescs len)).2.numTransmitted =
      p.xsk.numTransmitted + len := by rw [heq, length_slice]
  refine ⟨{ h.silent with }, htx, h.frameLen, h.ready, Held.nil,
    fun j hj => absurd hj (Nat.not_lt_zero j), ?_, h.taken, ?_, trivial⟩
  · rw [heq]
    show ∀ d ∈ (p.xsk.txRing.pushAll 64 _).pending 64, _
    rw [hp]
    intro d hd
    rcases List.mem_append.mp hd with hd | hd
    · exact h.placed d hd
    · obtain ⟨j, hj, rfl⟩ := List.mem_map.mp hd
      have hj : j < len := List.mem_range.mp hj
      have ht : Target (p.xsk.getTXDescs j) (if j < len then _ else _) := h.target j hj
      rwa [if_pos hj] at ht
  · show (p.setXsk (p.xsk.transmit (slice p.xsk.getTXDescs len)).2).txPipe.length = 64
    omega

theorem SendOk.poll {k : Nat} {q : PollPc} (h : SendOk packet p ⟨.poll q, k⟩)
    (answer : PollAnswer) :
    SendOk packet (q.step answer p).1 ⟨.polled (q.step answer p).2, k⟩ := by
  obtain ⟨hfull, hcount⟩ := h.locals
  have hsame := q.step_rxSame answer p
  have hpre : (SendPc.polled (q.step answer p).2).prepared = 64 ∧
      (SendPc.polled (q.step answer p).2).len = 0 := by
    cases (q.step answer p).2 <;> exact ⟨rfl, rfl⟩
  have hsilent : Silent (q.step answer p).1 :=
    ⟨hsame.krx.trans h.silent.krx, hsame.fillRing ▸ h.silent.fill,
      hsame.numFilled.trans h.silent.numFilled⟩
  have hlocal : TxOk (q.step answer p).1 → (SendPc.polled (q.step answer p).2).Local
      (q.step answer p).1 := by
    intro htx
    cases hq : (q.step answer p).2 with
    | goto q' =>
        have hle := h.tx.length_le
        refine ⟨?_, PollPc.Counted.step (by omega) hq⟩
        -- only the last step of `Poll` takes anything out of the pipeline
        rcases PollPc.step_cases answer p q with he | ⟨numRx, m, rfl, he⟩
        · rw [he]
          exact hfull
        · cases hq
    | done => trivial
    | err => trivial
  have hrest : ∀ p', (q.step answer p).1 = p' → TxOk p' → p'.xsk.umem = p.xsk.umem →
      p'.xsk.txRing = p.xsk.txRing → p'.taken = p.taken →
      SendOk packet p' ⟨.polled (q.step answer p).2, k⟩ := by
    rintro p' rfl htx humem hring htaken
    refine ⟨hsilent, htx, fun _ => h.frameLen (by decide : 0 < 64), ?_, ?_, ?_, ?_, ?_,
      hlocal htx⟩
    · show ∀ j, j < (SendPc.polled _).prepared → _
      rw [hpre.1, humem]
      exact h.ready
    · show Held 64 128 _ ((slice _ (SendPc.polled _).len).map _)
      rw [hpre.2]
      exact Held.nil
    · show ∀ j, j < (SendPc.polled _).len → _
      rw [hpre.2]
      exact fun j hj => absurd hj (Nat.not_lt_zero j)
    · rw [hring]
      exact h.placed
    · rw [htaken]
      exact h.taken
  rcases PollPc.step_cases answer p q with he | ⟨numRx, m, rfl, he⟩
  · exact hrest _ rfl (by rw [he]; exact h.tx) (by rw [he]) (by rw [he]) (by rw [he])
  · exact hrest _ rfl (h.tx.complete hcount) rfl rfl rfl

/-! ## Whole runs -/

theorem SendOk.start (packet : Frame) : SendOk packet newPort (sendStart packet) where
  silent := ⟨rfl, rfl, rfl⟩
  tx := TxOk.new
  frameLen := fun h => absurd h (Nat.lt_irrefl 0)
  ready := fun j hj => absurd hj (Nat.not_lt_zero j)
  held := Held.nil
  target := fun j hj => absurd hj (Nat.not_lt_zero j)
  placed := fun _ h => absurd h List.not_mem_nil
  taken := fun _ h => absurd h List.not_mem_nil
  locals := rfl

theorem SendOk.step (h : SendOk packet p s) (answer : PollAnswer) :
    SendOk packet (sendStep packet answer p s).1 (sendStep packet answer p s).2 := by
  obtain ⟨pc, k⟩ := s
  cases pc with
  | getAll => exact h.getAll
  | prepare len i => exact h.prepare answer
  | numFreeTxSlots =>
      have hle := h.tx.length_le
      have hlen := length_txPipe p
      have hn : p.xsk.numFreeTxSlots = 64 - p.xsk.txRing.count := numFreeSlots_eq (by omega)
      refine ⟨h.silent, h.tx, h.frameLen, h.ready, h.held, h.target, h.placed, h.taken, ?_⟩
      show 64 ≤ p.xsk.numFreeTxSlots + p.txPipe.length
      omega
  | getDescs n => exact h.getDescs
  | setLen len i => exact h.setLen answer
  | transmit len => exact h.transmit
  | poll q => exact h.poll answer
  | panicked => exact h

theorem SendOk.of_reachable {w : Port × SendState}
    (h : Alone.Reachable (SendLoop packet) (sendStart packet) w) : SendOk packet w.1 w.2 := by
  refine h.invariant (I := fun w => SendOk packet w.1 w.2) (SendOk.start packet) ?_ ?_
  · exact fun p p' s h hs => h.kernel hs
  · rintro w w' h ⟨answer, rfl⟩
    exact h.step answer

/-- **Every frame `sendudp` sends is the packet, cut to 2048 bytes**, and whenever it is in
`Poll` all chunks of the second half are submitted, so it waits for `POLLOUT`. -/
theorem sendudp_sends_packet {packet : Frame} {w : Port × SendState}
    (h : Alone.Reachable (SendLoop packet) (sendStart packet) w) :
    TxOk w.1 ∧ (∀ f ∈ w.1.taken ++ w.1.onTx, f = packet.take 2048) ∧
      ∀ pc, w.2.pc = .poll pc →
        (∀ c, 64 ≤ c → c < 128 → c ∈ w.1.txPipe) ∧ pollEvents w.1.xsk = pollOut := by
  have hok := SendOk.of_reachable h
  refine ⟨hok.tx, ?_, ?_⟩
  · intro f hf
    rcases List.mem_append.mp hf with hf | hf
    · exact hok.taken f hf
    · obtain ⟨d, hd, rfl⟩ := List.mem_map.mp hf
      have hrange := hok.tx.lane.range _ (mem_txPipe_of_tx hd)
      exact hok.frame_eq (hok.prepared_of_pending hd) (hok.placed d hd) hrange.1 hrange.2
  · intro pc hpc
    have hlocal := hok.locals
    rw [hpc] at hlocal
    have hfull : w.1.txPipe.length = 64 := hlocal.1
    refine ⟨fun c h1 h2 => hok.tx.lane.mem_of_full hfull h1 h2, ?_⟩
    have hnum := hok.tx.num
    have hsilent := hok.silent.numFilled
    unfold pollEvents
    rw [if_neg (by omega), if_pos (by omega)]
    rfl

/-- `n` steps of the program. -/
def sendRun (packet : Frame) (n : Nat) : Port × SendState :=
  (fun w => sendStep packet .ready w.1 w.2)^[n] (newPort, sendStart packet)

theorem sendRun_reachable (packet : Frame) (n : Nat) :
    Alone.Reachable (SendLoop packet) (sendStart packet) (sendRun packet n) := by
  induction n with
  | zero => exact .refl
  | succ n ih =>
      refine ih.tail (.go ⟨.ready, ?_⟩)
      unfold sendRun
      rw [Function.iterate_succ_apply']

theorem sendudp_sends_packet_short : (sendRun [1, 2, 3] 134).1.onTx.length = 64 ∧
    ∀ f ∈ (sendRun [1, 2, 3] 134).1.onTx, f = [1, 2, 3] := by
  refine ⟨by decide +kernel, fun f hf => ?_⟩
  exact (sendudp_sends_packet (sendRun_reachable [1, 2, 3] 134)).2.1 f
    (List.mem_append_right _ hf)

end AfXdpSwitch.Xdp
