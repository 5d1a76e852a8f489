import AfXdpSwitch.XdpSocket
import Mathlib.Logic.Relation

/-!
# A socket and its kernel

A `Port` is an `xdp.Socket` together with what the kernel holds of it and what the kernel
has done so far.  `RxStep` and `TxStep` are all that is assumed of the kernel.  It takes
fill entries in order, writes packets only into chunks it took that way, and returns each of
them on the Rx ring, once, with a descriptor in the same chunk; it takes Tx descriptors
in order and returns their addresses on the completion ring, once each.  It never
overfills a ring.

The chunks of a port go through two pipelines, one for each direction.  `RxOk` and `TxOk`
say that the socket's own notes about them are right; they share nothing, and each is
about half of the socket and half of the UMEM (`RxSame`, `TxSame`).
-/

namespace AfXdpSwitch.Xdp
open SpscRing SlotLane

/-- The descriptor stays in the chunk its address lies in. -/
def Desc.Whole (d : Desc) : Prop := d.addr.toNat % 2048 + d.len.toNat ≤ 2048

/-- A `forwardFrames` call that returned: its results, and the frames it put on the Tx
ring, each with the descriptor it was received under. -/
structure Call where
  numBytes : Nat
  numFrames : Nat
  placed : List (Desc × Frame)

structure Port where
  xsk : Socket
  /-- The fill entries the kernel has taken and not returned. -/
  krx : List (BitVec 64)
  /-- The Tx descriptors the kernel has taken and not returned, each with the frame it
  found there. -/
  ktx : List (Desc × Frame)
  /-- What the kernel has put on the Rx ring, oldest first. -/
  delivered : List (Desc × Frame)
  /-- What the kernel has taken from the Tx ring, oldest first. -/
  taken : List Frame
  /-- The calls that have sent through this port, oldest first. -/
  calls : List Call

/-- A port right after `NewSocket`. -/
def newPort : Port := ⟨newSocket, [], [], [], [], []⟩

/-- What the kernel does on the receive side. -/
inductive RxStep : Port → Port → Prop
  | takeFill {p a} (h : (p.xsk.fillRing.pending 64).head? = some a) :
      RxStep p { p with xsk.fillRing := p.xsk.fillRing.release 1, krx := p.krx ++ [a] }
  | write {p a} (m : ByteMemory) (ha : a ∈ p.krx)
      (hm : ∀ x, x / 2048 ≠ chunkOf a → m x = p.xsk.umem x) :
      RxStep p { p with xsk.umem := m }
  | deliver {p l a r} (d : Desc) (h : p.krx = l ++ a :: r) (hd : chunkOf d.addr = chunkOf a)
      (hw : d.Whole) (room : p.xsk.rxRing.count < 64) :
      RxStep p { p with
        krx := l ++ r
        xsk.rxRing := p.xsk.rxRing.push 64 d
        delivered := p.delivered ++ [(d, frame p.xsk.umem d)] }

/-- What the kernel does on the send side. -/
inductive TxStep : Port → Port → Prop
  | takeTx {p d} (h : (p.xsk.txRing.pending 64).head? = some d) :
      TxStep p { p with
        xsk.txRing := p.xsk.txRing.release 1
        ktx := p.ktx ++ [(d, frame p.xsk.umem d)]
        taken := p.taken ++ [frame p.xsk.umem d] }
  | complete {p l x r} (h : p.ktx = l ++ x :: r) (room : p.xsk.completionRing.count < 64) :
      TxStep p { p with
        ktx := l ++ r
        xsk.completionRing := p.xsk.completionRing.push 64 x.1.addr }

/-- A step of the kernel. -/
def KernelStep (p p' : Port) : Prop := RxStep p p' ∨ TxStep p p'

namespace Port

/-- The chunks on the fill ring, with the kernel, and on the Rx ring. -/
def rxPipe (p : Port) : List Nat :=
  (p.xsk.fillRing.pending 64).map chunkOf ++ p.krx.map chunkOf ++
    (p.xsk.rxRing.pending 64).map fun d => chunkOf d.addr

/-- The chunks on the Tx ring, with the kernel, and on the completion ring. -/
def txPipe (p : Port) : List Nat :=
  ((p.xsk.txRing.pending 64).map fun d => chunkOf d.addr) ++
    (p.ktx.map fun x => chunkOf x.1.addr) ++ (p.xsk.completionRing.pending 64).map chunkOf

/-- The frames waiting on the Rx ring, with their descriptors. -/
def onRx (p : Port) : List (Desc × Frame) :=
  (p.xsk.rxRing.pending 64).map fun d => (d, frame p.xsk.umem d)

/-- The frames waiting on the Tx ring. -/
def onTx (p : Port) : List Frame := (p.xsk.txRing.pending 64).map (frame p.xsk.umem)

/-- All frames ever put on the Tx ring, with the descriptors they were received under. -/
def placed (p : Port) : List (Desc × Frame) := p.calls.flatMap Call.placed

end Port

/-- The socket's notes about its receive pipeline are right. -/
structure RxOk (p : Port) : Prop where
  lane : Ok 0 64 p.xsk.freeRXDescs p.rxPipe
  num : p.xsk.numFilled = p.rxPipe.length
  whole : ∀ d ∈ p.xsk.rxRing.pending 64, d.Whole

/-- The socket's notes about its send pipeline are right. -/
structure TxOk (p : Port) : Prop where
  lane : Ok 64 128 p.xsk.freeTXDescs p.txPipe
  num : p.xsk.numTransmitted = p.txPipe.length

/-- What the calls put on the Tx ring is what the kernel takes and what stays in the UMEM
until it is completed. -/
structure TxData (p : Port) : Prop where
  whole : ∀ d ∈ p.xsk.txRing.pending 64, d.Whole
  kwhole : ∀ x ∈ p.ktx, x.1.Whole
  sent : p.taken ++ p.onTx = p.placed.map Prod.snd
  stable : ∀ x ∈ p.ktx, frame p.xsk.umem x.1 = x.2

theorem RxOk.new : RxOk newPort := ⟨Ok.empty 0 64, rfl, fun _ h => absurd h List.not_mem_nil⟩

theorem TxOk.new : TxOk newPort := ⟨Ok.empty 64 128, rfl⟩

/-- Nothing about receiving differs. -/
structure RxSame (p p' : Port) : Prop where
  fillRing : p'.xsk.fillRing = p.xsk.fillRing
  rxRing : p'.xsk.rxRing = p.xsk.rxRing
  krx : p'.krx = p.krx
  freeRXDescs : p'.xsk.freeRXDescs = p.xsk.freeRXDescs
  numFilled : p'.xsk.numFilled = p.xsk.numFilled
  rxDescs : p'.xsk.rxDescs = p.xsk.rxDescs
  getRXDescs : p'.xsk.getRXDescs = p.xsk.getRXDescs
  delivered : p'.delivered = p.delivered
  umem : ∀ x, x / 2048 < 64 → p'.xsk.umem x = p.xsk.umem x

/-- The send pipeline and the notes about it are the same. -/
structure TxNotes (p p' : Port) : Prop where
  txRing : p'.xsk.txRing = p.xsk.txRing
  completionRing : p'.xsk.completionRing = p.xsk.completionRing
  ktx : p'.ktx = p.ktx
  freeTXDescs : p'.xsk.freeTXDescs = p.xsk.freeTXDescs
  numTransmitted : p'.xsk.numTransmitted = p.xsk.numTransmitted
  getTXDescs : p'.xsk.getTXDescs = p.xsk.getTXDescs

/-- Nothing about sending differs. -/
structure TxSame (p p' : Port) : Prop extends TxNotes p p' where
  taken : p'.taken = p.taken
  calls : p'.calls = p.calls
  umem : ∀ x, 64 ≤ x / 2048 → p'.xsk.umem x = p.xsk.umem x

/-! ## Frames and chunks -/

/-- A frame only depends on the bytes of its chunk. -/
theorem frame_congr {m m' : ByteMemory} {d : Desc} (hw : d.Whole)
    (h : ∀ x, x / 2048 = chunkOf d.addr → m' x = m x) : frame m' d = frame m d := by
  refine List.map_congr_left fun i hi => h _ ?_
  have hi := List.mem_range.mp hi
  unfold Desc.Whole at hw
  unfold chunkOf
  rw [options_frameSize]
  omega

/-- Writing inside one chunk leaves the frames of the others alone. -/
theorem frame_write {m : ByteMemory} {d : Desc} {c off : Nat} {bs : List (BitVec 8)}
    (hw : d.Whole) (hoff : off = c * 2048) (hl : bs.length ≤ 2048) (hc : chunkOf d.addr ≠ c) :
    frame (m.write off bs) d = frame m d := by
  refine frame_congr hw fun x hx => ByteMemory.write_of_not_mem m ?_
  omega

theorem frame_write_self {m : ByteMemory} {d : Desc} {off : Nat} {bs : List (BitVec 8)}
    (hoff : d.addr.toNat = off) (hl : d.len.toNat = bs.length) : frame (m.write off bs) d = bs := by
  unfold frame
  rw [hl, hoff]
  exact ByteMemory.read_write_self m

variable {p p' q : Port}

theorem mem_rxPipe_of_rx {d : Desc} (h : d ∈ p.xsk.rxRing.pending 64) :
    chunkOf d.addr ∈ p.rxPipe :=
  List.mem_append_right _ (List.mem_map.mpr ⟨d, h, rfl⟩)

theorem mem_rxPipe_of_krx {a : BitVec 64} (h : a ∈ p.krx) : chunkOf a ∈ p.rxPipe :=
  List.mem_append_left _ (List.mem_append_right _ (List.mem_map_of_mem h))

theorem mem_txPipe_of_tx {d : Desc} (h : d ∈ p.xsk.txRing.pending 64) :
    chunkOf d.addr ∈ p.txPipe :=
  List.mem_append_left _ (List.mem_append_left _ (List.mem_map.mpr ⟨d, h, rfl⟩))

theorem mem_txPipe_of_ktx {x : Desc × Frame} (h : x ∈ p.ktx) : chunkOf x.1.addr ∈ p.txPipe :=
  List.mem_append_left _ (List.mem_append_right _ (List.mem_map.mpr ⟨x, h, rfl⟩))

theorem length_rxPipe (p : Port) : p.rxPipe.length =
    p.xsk.fillRing.count + p.krx.length + p.xsk.rxRing.count := by
  simp only [Port.rxPipe, List.length_append, List.length_map, length_pending]

theorem length_txPipe (p : Port) : p.txPipe.length =
    p.xsk.txRing.count + p.ktx.length + p.xsk.completionRing.count := by
  simp only [Port.txPipe, List.length_append, List.length_map, length_pending]

/-- A pipeline is no longer than its half of the UMEM, so no ring of it is overfull. -/
theorem RxOk.length_le (h : RxOk p) :
    p.xsk.fillRing.count + p.krx.length + p.xsk.rxRing.count ≤ 64 :=
  length_rxPipe p ▸ h.lane.length_le

theorem TxOk.length_le (h : TxOk p) :
    p.xsk.txRing.count + p.ktx.length + p.xsk.completionRing.count ≤ 64 :=
  length_txPipe p ▸ h.lane.length_le

/-! ## Frame conditions -/

theorem RxSame.refl (p : Port) : RxSame p p :=
  ⟨rfl, rfl, rfl, rfl, rfl, rfl, rfl, rfl, fun _ _ => rfl⟩

theorem TxNotes.refl (p : Port) : TxNotes p p := ⟨rfl, rfl, rfl, rfl, rfl, rfl⟩

theorem TxSame.refl (p : Port) : TxSame p p := ⟨TxNotes.refl p, rfl, rfl, fun _ _ => rfl⟩

theorem RxSame.rxPipe (hs : RxSame p p') : p'.rxPipe = p.rxPipe := by
  unfold Port.rxPipe
  rw [hs.fillRing, hs.krx, hs.rxRing]

theorem TxNotes.txPipe (hs : TxNotes p p') : p'.txPipe = p.txPipe := by
  unfold Port.txPipe
  rw [hs.txRing, hs.ktx, hs.completionRing]

theorem RxOk.same (h : RxOk p) (hs : RxSame p p') : RxOk p' where
  lane := by rw [hs.freeRXDescs, hs.rxPipe]; exact h.lane
  num := by rw [hs.numFilled, hs.rxPipe]; exact h.num
  whole := by rw [hs.rxRing]; exact h.whole

theorem TxOk.same (h : TxOk p) (hs : TxNotes p p') : TxOk p' where
  lane := by rw [hs.freeTXDescs, hs.txPipe]; exact h.lane
  num := by rw [hs.numTransmitted, hs.txPipe]; exact h.num

theorem RxSame.frame (hs : RxSame p p') {d : Desc} (hw : d.Whole) (hc : chunkOf d.addr < 64) :
    frame p'.xsk.umem d = frame p.xsk.umem d :=
  frame_congr hw fun x hx => hs.umem x (hx ▸ hc)

theorem TxSame.frame (hs : TxSame p p') {d : Desc} (hw : d.Whole) (hc : 64 ≤ chunkOf d.addr) :
    frame p'.xsk.umem d = frame p.xsk.umem d :=
  frame_congr hw fun x hx => hs.umem x (hx ▸ hc)

theorem RxSame.onRx (hs : RxSame p p') (h : RxOk p) : p'.onRx = p.onRx := by
  unfold Port.onRx
  rw [hs.rxRing]
  refine List.map_congr_left fun d hd => ?_
  rw [hs.frame (h.whole d hd) (h.lane.range _ (mem_rxPipe_of_rx hd)).2]

theorem TxData.same (h : TxData p) (ht : TxOk p) (hs : TxSame p p') : TxData p' where
  whole := by rw [hs.txRing]; exact h.whole
  kwhole := by rw [hs.ktx]; exact h.kwhole
  sent := by
    have ho : p'.onTx = p.onTx := by
      unfold Port.onTx
      rw [hs.txRing]
      exact List.map_congr_left fun d hd =>
        hs.frame (h.whole d hd) (ht.lane.range _ (mem_txPipe_of_tx hd)).1
    unfold Port.placed
    rw [ho, hs.taken, hs.calls]
    exact h.sent
  stable := fun x hx => by
    rw [hs.ktx] at hx
    rw [hs.frame (h.kwhole x hx) (ht.lane.range _ (mem_txPipe_of_ktx hx)).1]
    exact h.stable x hx

/-! ## What the methods preserve -/

/-- A port whose socket is in another state. -/
abbrev Port.setXsk (p : Port) (xsk : Socket) : Port := { p with xsk := xsk }

/-- **`Fill` keeps the receive pipeline right** if it is given distinct free chunks. -/
theorem RxOk.fill (h : RxOk p) {descs : List Desc}
    (hh : Held 0 64 p.xsk.freeRXDescs (descs.map fun d => chunkOf d.addr)) :
    RxOk (p.setXsk (p.xsk.fill descs).2) := by
  have hl := length_rxPipe p
  have hr := hh.room h.lane
  rw [List.length_map] at hr
  have hc : p.xsk.fillRing.count + descs.length ≤ 64 := by omega
  have hp : (p.xsk.fillRing.pushAll 64 (descs.map Desc.addr)).pending 64 =
      p.xsk.fillRing.pending 64 ++ descs.map Desc.addr :=
    pending_pushAll fits _ _ (by rwa [List.length_map])
  have hperm : (p.rxPipe ++ descs.map fun d => chunkOf d.addr).Perm
      (p.setXsk (p.xsk.fill descs).2).rxPipe := by
    rw [p.xsk.fill_eq hc]
    simp only [Port.rxPipe, hp, List.map_append, List.map_map]
    exact perm_submit
  have hlen := hperm.length_eq
  rw [List.length_append, List.length_map] at hlen
  have hlane := (h.lane.enter hh).perm hperm
  have hnum := h.num
  rw [p.xsk.fill_eq hc] at hlane hlen ⊢
  refine ⟨hlane, ?_, h.whole⟩
  dsimp only at hlen ⊢
  omega

/-- **`Receive` keeps the receive pipeline right.** -/
theorem RxOk.receive (h : RxOk p) (num : Nat) : RxOk (p.setXsk (p.xsk.receive num).2) := by
  have hle := h.length_le
  have hc : p.xsk.rxRing.count ≤ 64 := by omega
  have hp := pending_release_min num hc
  have hperm : p.rxPipe.Perm ((((p.xsk.rxRing.pending 64).take num).map fun d => chunkOf d.addr) ++
      (p.setXsk (p.xsk.receive num).2).rxPipe) := by
    rw [p.xsk.receive_eq num hc]
    simp only [Port.rxPipe, hp]
    conv_lhs => rw [← List.take_append_drop num (p.xsk.rxRing.pending 64), List.map_append]
    exact perm_collect
  have hlen := hperm.length_eq
  rw [List.length_append, List.length_map, List.length_take, length_pending] at hlen
  have hlane := (h.lane.perm hperm).leave
  have hnum := h.num
  rw [p.xsk.receive_eq num hc] at hlane hlen ⊢
  dsimp only at hlen
  refine ⟨hlane, by dsimp only; omega, ?_⟩
  simp only [hp]
  exact fun d hd => h.whole d (List.mem_of_mem_drop hd)

/-- **`Transmit` keeps the send pipeline right** if it is given distinct free chunks. -/
theorem TxOk.transmit (h : TxOk p) {descs : List Desc}
    (hh : Held 64 128 p.xsk.freeTXDescs (descs.map fun d => chunkOf d.addr)) :
    p.xsk.txRing.count + descs.length ≤ 64 ∧ TxOk (p.setXsk (p.xsk.transmit descs).2) := by
  have hl := length_txPipe p
  have hr := hh.room h.lane
  rw [List.length_map] at hr
  have hc : p.xsk.txRing.count + descs.length ≤ 64 := by omega
  have hp := pending_pushAll fits p.xsk.txRing descs hc
  have hperm : (p.txPipe ++ descs.map fun d => chunkOf d.addr).Perm
      (p.setXsk (p.xsk.transmit descs).2).txPipe := by
    rw [p.xsk.transmit_eq hc]
    simp only [Port.txPipe, hp, List.map_append]
    exact perm_submit
  have hlen := hperm.length_eq
  rw [List.length_append, List.length_map] at hlen
  have hlane := (h.lane.enter hh).perm hperm
  have hnum := h.num
  rw [p.xsk.transmit_eq hc] at hlane hlen ⊢
  dsimp only at hlen
  exact ⟨hc, hlane, by dsimp only; omega⟩

/-- **`Complete` keeps the send pipeline right** if so many completions are there. -/
theorem TxOk.complete (h : TxOk p) {n : Nat} (hn : n ≤ p.xsk.completionRing.count) :
    TxOk (p.setXsk (p.xsk.complete n)) := by
  have hle := h.length_le
  have hp := pending_release_min (r := p.xsk.completionRing) n (by omega)
  rw [Nat.min_eq_left hn] at hp
  have hperm : p.txPipe.Perm (((p.xsk.completionRing.pending 64).take n).map chunkOf ++
      (p.setXsk (p.xsk.complete n)).txPipe) := by
    rw [p.xsk.complete_eq hn]
    simp only [Port.txPipe, hp]
    conv_lhs => rw [← List.take_append_drop n (p.xsk.completionRing.pending 64), List.map_append]
    exact perm_collect
  have hlen := hperm.length_eq
  rw [List.length_append, List.length_map, List.length_take, length_pending] at hlen
  have hlane := (h.lane.perm hperm).leave
  have hnum := h.num
  rw [p.xsk.complete_eq hn] at hlane hlen ⊢
  exact ⟨hlane, by dsimp only; omega⟩

/-! ## What the kernel preserves -/

theorem pending_of_head? {α : Type} {r : SpscRing α 32} {x : α}
    (h : (r.pending 64).head? = some x) : r.pending 64 = x :: (r.release 1).pending 64 := by
  obtain ⟨xs, hxs⟩ := List.head?_eq_some_iff.mp h
  have hc : 0 < r.count := by
    rw [← length_pending (n := 64), hxs]
    exact Nat.succ_pos _
  rw [pending_release_one (by decide) r hc, hxs, List.tail_cons]

theorem RxOk.rxStep (h : RxOk p) (hs : RxStep p p') : RxOk p' := by
  obtain ⟨hlane, hnum, hwhole⟩ := h
  cases hs with
  | @takeFill a ha =>
      have hp := pending_of_head? ha
      have hperm : p.rxPipe.Perm (Port.rxPipe { p with
          xsk.fillRing := p.xsk.fillRing.release 1, krx := p.krx ++ [a] }) := by
        simp only [Port.rxPipe, hp, List.map_append, List.map_cons, List.map_nil]
        exact perm_take
      exact ⟨hlane.perm hperm, by rw [← hperm.length_eq]; exact hnum, hwhole⟩
  | write m ha hm => exact ⟨hlane, hnum, hwhole⟩
  | @deliver l a r d hk hd hw room =>
      have hp := pending_push fits p.xsk.rxRing d room
      have hperm : p.rxPipe.Perm (Port.rxPipe { p with
          krx := l ++ r
          xsk.rxRing := p.xsk.rxRing.push 64 d
          delivered := p.delivered ++ [(d, frame p.xsk.umem d)] }) := by
        simp only [Port.rxPipe, hp, hk, List.map_append, List.map_cons, List.map_nil, hd]
        exact perm_give
      refine ⟨hlane.perm hperm, by rw [← hperm.length_eq]; exact hnum, ?_⟩
      intro d' hd'
      simp only [hp, List.mem_append, List.mem_singleton] at hd'
      exact hd'.elim (hwhole d') fun he => he ▸ hw

theorem TxOk.txStep (h : TxOk p) (hs : TxStep p p') : TxOk p' := by
  obtain ⟨hlane, hnum⟩ := h
  cases hs with
  | @takeTx d hd =>
      have hp := pending_of_head? hd
      have hperm : p.txPipe.Perm (Port.txPipe { p with
          xsk.txRing := p.xsk.txRing.release 1
          ktx := p.ktx ++ [(d, frame p.xsk.umem d)]
          taken := p.taken ++ [frame p.xsk.umem d] }) := by
        simp only [Port.txPipe, hp, List.map_append, List.map_cons, List.map_nil]
        exact perm_take
      exact ⟨hlane.perm hperm, by rw [← hperm.length_eq]; exact hnum⟩
  | @complete l x r hk room =>
      have hp := pending_push fits p.xsk.completionRing x.1.addr room
      have hperm : p.txPipe.Perm (Port.txPipe { p with
          ktx := l ++ r
          xsk.completionRing := p.xsk.completionRing.push 64 x.1.addr }) := by
        simp only [Port.txPipe, hp, hk, List.map_append, List.map_cons, List.map_nil]
        exact perm_give
      exact ⟨hlane.perm hperm, by rw [← hperm.length_eq]; exact hnum⟩

theorem TxData.txStep (h : TxData p) (hs : TxStep p p') : TxData p' := by
  cases hs with
  | @takeTx d hd =>
      have hp := pending_of_head? hd
      have hon : p.onTx = frame p.xsk.umem d ::
          ((p.xsk.txRing.release 1).pending 64).map (frame p.xsk.umem) := by
        unfold Port.onTx
        rw [hp, List.map_cons]
      refine ⟨fun d' hd' => h.whole d' (hp ▸ List.mem_cons_of_mem _ hd'), ?_, ?_, ?_⟩
      · intro x hx
        rcases List.mem_append.mp hx with hx | hx
        · exact h.kwhole x hx
        · rw [List.mem_singleton.mp hx]
          exact h.whole d (hp ▸ List.mem_cons_self)
      · show p.taken ++ [frame p.xsk.umem d] ++
          ((p.xsk.txRing.release 1).pending 64).map (frame p.xsk.umem) = p.placed.map Prod.snd
        rw [← h.sent, hon, List.append_assoc]
        rfl
      · intro x hx
        rcases List.mem_append.mp hx with hx | hx
        · exact h.stable x hx
        · rw [List.mem_singleton.mp hx]
  | @complete l x r hk room =>
      have hsub : ∀ y ∈ l ++ r, y ∈ p.ktx := by
        intro y hy
        rw [hk]
        exact ((List.sublist_cons_self x r).append_left l).subset hy
      exact ⟨h.whole, fun y hy => h.kwhole y (hsub y hy), h.sent, fun y hy => h.stable y (hsub y hy)⟩

theorem RxStep.txNotes (hs : RxStep p p') : TxNotes p p' := by
  cases hs with
  | takeFill | write | deliver => exact { TxNotes.refl p with }

/-- The send side does not see the receive side: the kernel writes to chunks of the first
half only. -/
theorem RxStep.txSame (hs : RxStep p p') (h : RxOk p) : TxSame p p' := by
  have hn := hs.txNotes
  cases hs with
  | takeFill ha => exact { TxSame.refl p with }
  | write m ha hm =>
      refine { TxSame.refl p with toTxNotes := hn, umem := fun x hx => hm x ?_ }
      have := (h.lane.range _ (mem_rxPipe_of_krx ha)).2
      omega
  | deliver d hk hd hw room => exact { TxSame.refl p with }

theorem TxStep.rxSame (hs : TxStep p p') : RxSame p p' := by
  cases hs with
  | takeTx hd => exact { RxSame.refl p with }
  | complete hk room => exact { RxSame.refl p with }

/-! ## Kernel runs -/

/-- The port after the kernel has taken the next fill entry, if there is one. -/
def Port.takeFill (p : Port) : Port :=
  match (p.xsk.fillRing.pending 64).head? with
  | some a => { p with xsk.fillRing := p.xsk.fillRing.release 1, krx := p.krx ++ [a] }
  | none => p

theorem Port.takeFill_run (p : Port) (n : Nat) :
    Relation.ReflTransGen KernelStep p (Port.takeFill^[n] p) := by
  induction n generalizing p with
  | zero => exact .refl
  | succ n ih =>
      refine .trans ?_ (ih p.takeFill)
      unfold Port.takeFill
      split
      · exact .single (.inl (.takeFill ‹_›))
      · exact .refl

/-- The port after the kernel has taken the next fill entry `a`, stored a packet at that
address and delivered it. -/
def Port.arrive (p : Port) (a : BitVec 64) (bs : Frame) : Port :=
  let umem := p.xsk.umem.write a.toNat bs
  let d : Desc := ⟨a, BitVec.ofNat 32 bs.length⟩
  { p with
    xsk.fillRing := p.xsk.fillRing.release 1
    xsk.umem := umem
    xsk.rxRing := p.xsk.rxRing.push 64 d
    delivered := p.delivered ++ [(d, frame umem d)] }

theorem Port.arrive_run {a : BitVec 64} (bs : Frame)
    (ha : (p.xsk.fillRing.pending 64).head? = some a) (hl : a.toNat % 2048 + bs.length ≤ 2048)
    (room : p.xsk.rxRing.count < 64) : Relation.ReflTransGen KernelStep p (p.arrive a bs) := by
  have htake : KernelStep p _ := .inl (.takeFill ha)
  have hwrite : KernelStep { p with
      xsk.fillRing := p.xsk.fillRing.release 1, krx := p.krx ++ [a] } { p with
      xsk.fillRing := p.xsk.fillRing.release 1
      xsk.umem := p.xsk.umem.write a.toNat bs
      krx := p.krx ++ [a] } := by
    refine .inl (.write (p.xsk.umem.write a.toNat bs) (List.mem_append_right _
      (List.mem_singleton.mpr rfl)) fun x hx => ByteMemory.write_of_not_mem _ ?_)
    -- the packet does not leave its chunk
    unfold chunkOf at hx
    rw [options_frameSize] at hx
    omega
  have hdeliver : KernelStep { p with
      xsk.fillRing := p.xsk.fillRing.release 1
      xsk.umem := p.xsk.umem.write a.toNat bs
      krx := p.krx ++ [a] } (p.arrive a bs) := by
    have hw : Desc.Whole ⟨a, BitVec.ofNat 32 bs.length⟩ := by
      show a.toNat % 2048 + (BitVec.ofNat 32 bs.length).toNat ≤ 2048
      rw [BitVec.toNat_ofNat]
      omega
    have hd := RxStep.deliver (p := { p with
      xsk.fillRing := p.xsk.fillRing.release 1
      xsk.umem := p.xsk.umem.write a.toNat bs
      krx := p.krx ++ [a] }) _ rfl rfl hw room
    rw [List.append_nil] at hd
    exact .inl hd
  exact .tail (.tail (.tail .refl htake) hwrite) hdeliver

end AfXdpSwitch.Xdp
