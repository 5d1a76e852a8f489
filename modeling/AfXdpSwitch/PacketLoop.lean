import AfXdpSwitch.Refill

/-!
# The packet loop

`process_packet` moves the packet at hand to the TX ring or leaves it alone, and the
loop frees the frames it left alone.  The view after the loop is known up to the
free stack, which depends on the packets.
-/

namespace AfXdpSwitch
open SpscRing Prog

variable {env : Env} {v : View} {w : World}

theorem drop_of_getElem? {α : Type} {l : List α} {i : Nat} {x : α} (h : l[i]? = some x) :
    l.drop i = x :: l.drop (i + 1) := by
  obtain ⟨hi, hx⟩ := List.getElem?_eq_some_iff.mp h
  rw [List.drop_eq_getElem_cons hi, hx]

/-- The frame that is being dealt with is the head of the pool's RX queue. -/
theorem Consistent.pool_rx (h : Consistent v w) {d : XdpDesc} (hd : v.current = some d) :
    (w.pool v).rx = d.addr ::
      ((w.rx.shared.pending defaultNumDescs).drop (v.done + 1)).map XdpDesc.addr := by
  show ((w.rx.shared.pending defaultNumDescs).drop v.done).map XdpDesc.addr = _
  rw [drop_of_getElem? (h.rings.current d hd), List.map_cons]

theorem Consistent.outstanding_lt (h : Consistent v w) : w.outstandingTx.toNat < 2 ^ 32 - 1 := by
  have hout := h.accounted.outstanding
  have htx := h.rings.txOk.room
  have hcq := h.rings.cqOk.bound
  have hsolid := h.conserved.length_solid_le
  simp only [FramePool.solid, List.length_append, World.pool] at hsolid
  simp only [numFrames, defaultNumDescs] at *
  omega

/-- A frame that is still on the RX or the completion ring is not on the stack, which
therefore has room: the assertion of `xsk_free_umem_frame` holds. -/
theorem Consistent.free_lt (h : Consistent v w)
    (hpos : 0 < (w.pool v).rx.length + (w.pool v).comp.length) :
    w.umemFrameFree.toNat < numFrames := by
  have hsolid := h.conserved.length_solid_le
  have hst : (w.pool v).stack.length = w.umemFrameFree.toNat := by
    rw [← length_freeStack, h.stack]
    rfl
  simp only [FramePool.solid, List.length_append] at hsolid
  omega

/-- The view once the current packet is on the TX ring. -/
def View.sent (v : View) : View := { v with done := v.done + 1, current := none }

/-- The view once the current packet is dropped and its frame is free. -/
def View.dropped (v : View) (d : XdpDesc) : View :=
  { v with done := v.done + 1, current := none, stack := v.stack ++ [d.addr] }

/-- The end of `process_packet`: the descriptor is submitted and counted. -/
theorem submitTx_consistent {d : XdpDesc} (hd : v.current = some d) (hdone : v.done < v.peeked)
    (hres : v.txReserved = 1) (hst : v.txStaged = [d]) :
    Triple never (Consistent v)
      (do
        modify fun w : World =>
          { w with hist.submitted := w.hist.submitted ++ [w.tx.read w.tx.shared.producer] }
        onTx fun r => ((), r.xskRingProdSubmit 1)
        modify fun w : World => { w with
          outstandingTx := w.outstandingTx + 1
          stats.txBytes := w.stats.txBytes + d.len.setWidth 64
          stats.txPackets := w.stats.txPackets + 1 }
        return true)
      (fun b w => b = true ∧ Consistent { v.sent with txReserved := 0, txStaged := [] } w) := by
  intro w h
  have hr := h.rings
  obtain ⟨hok, hpend⟩ := hr.txOk.submit (c := 1) (by rw [hres]; rfl)
  have hwin : window defaultNumDescs w.tx.shared.desc w.tx.shared.producer 1 = [d] := by
    have := hr.txStaged
    rwa [hst] at this
  have hpend' : (w.tx.xskRingProdSubmit 1).shared.pending defaultNumDescs =
      w.tx.shared.pending defaultNumDescs ++ [d] := by rw [← hwin]; exact hpend
  have hcount : (w.tx.xskRingProdSubmit 1).shared.count = w.tx.shared.count + 1 := by
    simpa using congrArg List.length hpend'
  have hlt := h.outstanding_lt
  -- fewer frames are outstanding than there are, so the counter does not wrap
  have hsucc : (w.outstandingTx + 1).toNat = w.outstandingTx.toNat + 1 := by bv_omega
  refine ⟨rfl, { hr with
    done_le := hdone, current := by simp [View.sent]
    txOk := by rw [hres] at hok; exact hok
    txStaged_le := Nat.le_refl 0, txStaged := rfl },
    h.stack, h.free_le, h.invalid, ?_, ⟨?_, ?_, h.accounted.log⟩, h.filled, h.fill_suffix⟩
  · have hstep : FramePool.Step numFrames chunkOf _ _ := .send (h.pool_rx hd)
    refine (hstep.conserved h.conserved).of_eq
      (FramePool.ext rfl rfl rfl rfl rfl ?_ rfl rfl rfl)
    exact (congrArg (List.map XdpDesc.addr) hpend').trans (List.map_append ..)
  · have := h.accounted.outstanding
    show (w.outstandingTx + 1).toNat =
      (w.tx.xskRingProdSubmit 1).shared.count + w.ktx.length + w.cq.shared.count
    omega
  · show w.stats.txPackets + 1 = BitVec.ofNat 64 ((w.outstandingTx + 1).toNat + w.hist.completed)
    rw [h.accounted.packets, hsucc, Nat.add_right_comm, BitVec.ofNat_add _ 1]
    rfl

/-- **`process_packet`** either puts the current packet on the TX ring or leaves it to
the caller. -/
theorem processPacket_consistent (hc : env.Conforming) (i : Nat) {d : XdpDesc}
    (hd : v.current = some d) (hdone : v.done < v.peeked) (hres : v.txReserved = 0)
    (hst : v.txStaged = []) :
    Triple never (Consistent v) (processPacket env i d.addr d.len)
      (fun b => Consistent (if b then v.sent else v)) := by
  refine Triple.bind (Triple.get fun w hw => hw) fun w0 => ?_
  refine Triple.ite (fun _ => Triple.pure fun w hw => hw) (fun _ => ?_)
  refine Triple.bind (Q := fun _ => Consistent v) (Triple.modify fun w hw => { hw with }) fun _ => ?_
  refine Triple.bind (at_consistent hc _) fun _ => ?_
  refine Triple.bind (Q := fun r w => (r.1 = 0 ∧ Consistent v w) ∨
    (r.1 = 1 ∧ r.2 = w.tx.shared.producer ∧ Consistent { v with txReserved := 1 } w)) ?_ ?_
  · intro w h
    have hr := h.rings
    have hv : ({ v with txReserved := 0 } : View) = v := by rw [← hres]
    rcases hr.txOk.reserve 1 0 with ⟨r', heq, -, hok, hsh⟩ | ⟨r', heq, hok, hsh⟩
    -- no room on the TX ring: the packet stays with the caller
    · rw [onTx_eq heq]
      rw [hres] at hok
      exact .inl ⟨rfl, hv ▸ h.withTx hsh hok (by rw [hst]; exact Nat.le_refl 0)⟩
    · rw [onTx_eq heq]
      rw [hres] at hok
      refine .inr ⟨rfl, ?_, h.withTx hsh hok (by rw [hst]; exact Nat.zero_le 1)⟩
      show w.tx.cachedProd = r'.shared.producer
      rw [hr.txOk.cachedProd, hres, hsh]
      simp
  rintro ⟨ret, txIdx⟩
  refine Triple.ite (fun hne => Triple.pure fun w hw => ?_) (fun heq => ?_)
  · rcases hw with ⟨-, h⟩ | ⟨h1, -, -⟩
    · exact h
    · exact absurd (by rw [show ret = 1 from h1]; rfl) hne
  refine Triple.bind (Q := fun _ => Consistent { v with txReserved := 1, txStaged := [d] }) ?_ ?_
  · rintro w (⟨h0, -⟩ | ⟨-, rfl, h⟩)
    · exact absurd (show ret.setWidth 32 ≠ 1 by rw [show ret = 0 from h0]; decide) heq
    have hr := h.rings
    obtain ⟨hok, hpend, hwin⟩ := hr.txOk.store (j := 0) Nat.one_pos d
    rw [show w.tx.shared.producer + BitVec.ofNat 32 0 = w.tx.shared.producer by simp] at hok hpend hwin
    refine { h with
      rings := { hr with txOk := hok, txStaged_le := Nat.le_refl 1, txStaged := hwin }
      conserved := h.conserved.of_eq
        (FramePool.ext rfl rfl rfl rfl rfl (congrArg (List.map XdpDesc.addr) hpend) rfl rfl rfl) }
  intro _
  refine Triple.bind (at_consistent hc _) fun _ => ?_
  refine (submitTx_consistent (v := { v with txReserved := 1, txStaged := [d] }) hd hdone rfl
    rfl).conseq (fun _ hw => hw) ?_
  rintro b w ⟨rfl, hw⟩
  have hv : ({ View.sent { v with txReserved := 1, txStaged := [d] } with
      txReserved := 0, txStaged := [] } : View) = v.sent := by
    simp [View.sent, hres, hst]
  exact hv ▸ hw

/-- The frame of a packet that was not sent goes back on the stack. -/
theorem freePacket_consistent {d : XdpDesc} (hd : v.current = some d) (hdone : v.done < v.peeked) :
    Triple never (Consistent v) (xskFreeUmemFrame d.addr) (fun _ => Consistent (v.dropped d)) := by
  intro w h
  have hr := h.rings
  have hlt := h.free_lt (by rw [h.pool_rx hd, List.length_cons]; omega)
  obtain ⟨addr, free, heq, hstack, hle, hinv⟩ := xskFreeUmemFrame_eq d.addr hlt h.invalid
  rw [heq]
  rw [h.stack] at hstack
  refine ⟨{ hr with done_le := hdone, current := by simp [View.dropped] }, hstack, hle, hinv, ?_,
    h.accounted, h.filled, h.fill_suffix⟩
  have hstep : FramePool.Step numFrames chunkOf _ _ := .drop (h.pool_rx hd)
  exact (hstep.conserved h.conserved).of_eq (FramePool.ext rfl rfl rfl rfl rfl rfl rfl rfl rfl)

theorem handlePacket_consistent (hc : env.Conforming) (i : Nat) {d : XdpDesc}
    (hd : v.current = some d) (hdone : v.done < v.peeked) (hres : v.txReserved = 0)
    (hst : v.txStaged = []) :
    Triple never (Consistent v) (handlePacket env i d)
      (fun _ w => Consistent v.sent w ∨ Consistent (v.dropped d) w) := by
  refine Triple.bind (processPacket_consistent hc i hd hdone hres hst) fun sent => ?_
  have htail : Triple never (fun w => Consistent v.sent w ∨ Consistent (v.dropped d) w)
      (modify fun w : World => { w with
        hist.handled := w.hist.handled ++ [(d, sent)]
        stats.rxBytes := w.stats.rxBytes + d.len.setWidth 64 } : Xsk Unit)
      (fun _ w => Consistent v.sent w ∨ Consistent (v.dropped d) w) := by
    refine Triple.modify fun w hw => ?_
    rcases hw with hw | hw
    · exact .inl { hw with }
    · exact .inr { hw with }
  cases sent with
  | true => exact htail.conseq (fun w hw => .inl hw) (fun _ _ hw => hw)
  | false =>
      exact Triple.bind (freePacket_consistent hd hdone) fun _ =>
        htail.conseq (fun w hw => .inr hw) (fun _ _ hw => hw)

/-- Reading a peeked descriptor tells which packet is next. -/
theorem Consistent.setCurrent (h : Consistent v w) (hdone : v.done < v.peeked) :
    Consistent
      { v with current := some (w.rx.read (v.rxAt + BitVec.ofNat 32 v.done)) } w := by
  have hr := h.rings
  refine { h with rings := { hr with current := fun d hd => ?_ } }
  obtain rfl := Option.mem_some_iff.mp hd
  rw [← hr.rxAt]
  exact hr.rxOk.read hdone

/-- The view after `i` packets, with `stack` on the free stack. -/
def View.after (v : View) (i : Nat) (stack : List (BitVec 64)) : View :=
  { v with done := i, stack := stack }

/-- **The packet loop** deals with every peeked packet. -/
theorem processPackets_consistent (hc : env.Conforming) {rcvd idxRx : BitVec 32}
    (hp : v.peeked = rcvd.toNat) (hdone : v.done = 0) (hcur : v.current = none)
    (hres : v.txReserved = 0) (hst : v.txStaged = []) (hidx : idxRx = v.rxAt) :
    Triple never (Consistent v) (processPackets env rcvd idxRx)
      (fun _ w => ∃ stack, Consistent (v.after rcvd.toNat stack) w) := by
  have hloop := Triple.forLoop (F := never) (n := rcvd.toNat)
    (I := fun i (idx : BitVec 32) w =>
      idx = v.rxAt + BitVec.ofNat 32 i ∧ ∃ stack, Consistent (v.after i stack) w)
    (c := fun i (idxRx : BitVec 32) => (do
      env.at (.packet i)
      let w ← get
      handlePacket env i (w.rx.read idxRx)
      return idxRx + 1 : Xsk (BitVec 32))) ?_ idxRx
  · refine hloop.conseq (fun w hw => ⟨by simp [hidx], v.stack, ?_⟩) (fun _ _ hw => hw.2)
    have : v.after 0 v.stack = v := by rw [View.after, ← hdone]
    exact this ▸ hw
  · intro i idx hi
    refine Triple.pure_pre ?_
    rintro rfl
    refine Triple.exists_pre fun stack => ?_
    refine Triple.bind (at_consistent hc _) fun _ => ?_
    have hlt : (v.after i stack).done < (v.after i stack).peeked := by
      rw [show (v.after i stack).peeked = rcvd.toNat from hp]; exact hi
    refine Triple.bind (Q := fun s w => Consistent { v.after i stack with
        current := some (s.rx.read (v.rxAt + BitVec.ofNat 32 i)) } w)
      (Triple.get fun w hw => hw.setCurrent hlt) fun s => ?_
    generalize s.rx.read (v.rxAt + BitVec.ofNat 32 i) = d
    refine Triple.bind (handlePacket_consistent hc i rfl hlt hres hst) fun _ => ?_
    refine Triple.pure fun w hw => ⟨?_, ?_⟩
    · rw [BitVec.add_assoc, BitVec.ofNat_add]
      rfl
    rcases hw with hw | hw
    · have hv : View.sent { v.after i stack with current := some d } = v.after (i + 1) stack := by
        simp [View.sent, View.after, hcur]
      exact ⟨stack, hv ▸ hw⟩
    · have hv : View.dropped { v.after i stack with current := some d } d =
          v.after (i + 1) (stack ++ [d.addr]) := by
        simp [View.dropped, View.after, hcur]
      exact ⟨_, hv ▸ hw⟩

end AfXdpSwitch
