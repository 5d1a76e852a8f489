import AfXdpSwitch.ForwardFrames

/-!
# `forwardFrames` keeps its direction right

One lemma for each method call of `forwardFrames` that changes a socket, and one for the
frame copy.  `DirOk.forward` puts them together, and `FwdPc.step_txSame` and
`FwdPc.step_rxSame` say that the other direction does not notice.
-/

namespace AfXdpSwitch.Xdp
open SpscRing SlotLane

variable {p p' q q' : Port} {pc pc' : FwdPc} {num len n i k : Nat}

/-- A step that only moves the program counter. -/
theorem DirOk.goto (h : DirOk p q pc) (hlen : pc'.len = pc.len) (hdone : pc'.done = pc.done)
    (hout : pc'.outLen = pc.outLen) (hl : pc'.Locals p q) : DirOk p q pc' := by
  have hhand : handed p q pc' = handed p q pc := by unfold handed; rw [hlen, hdone]
  refine { h with
    hand := ⟨?_, ?_, ?_, ?_, hl⟩
    chain := by rw [hhand]; exact h.chain }
  · rw [hlen, hdone]; exact h.hand.received
  · rw [hout]; exact h.hand.held
  · rw [hout, hdone]; exact h.hand.target
  · rw [hdone]; exact h.hand.small

/-! ## Receiving -/

/-- The frames that `Receive` takes off the Rx ring are in hand afterwards. -/
theorem DirOk.receive (h : DirOk p q (.receive num)) :
    DirOk (p.setXsk (p.xsk.receive num).2) q (.numFreeTxSlots (p.xsk.receive num).1) := by
  have hle := h.rx.length_le
  have hc : p.xsk.rxRing.count ≤ 64 := by omega
  have hrx := h.rx.receive num
  rw [p.xsk.receive_eq num hc] at hrx ⊢
  have hdrop := pending_release_min num hc
  obtain ⟨got, hgot⟩ : ∃ got, got = (p.xsk.rxRing.pending 64).take num := ⟨_, rfl⟩
  have hlen : got.length = min num p.xsk.rxRing.count := by
    rw [hgot, List.length_take, length_pending]
  have hmem : ∀ d ∈ got, d ∈ p.xsk.rxRing.pending 64 := fun d hd =>
    List.mem_of_mem_take (hgot ▸ hd)
  rw [← hgot, ← hlen] at hrx ⊢
  rw [← hlen] at hdrop
  refine { h with rx := hrx, hand := ⟨?_, Held.nil, ?_, ?_, trivial⟩, chain := ?_ }
  · intro j _ hj
    have hj : j < got.length := hj
    have hm := hmem _ (List.getElem_mem hj)
    have hd : refilled p.xsk.rxDescs got j = got[j] := refilled_of_lt _ hj
    show InHand _ (refilled p.xsk.rxDescs got j)
    rw [hd]
    exact ⟨h.rx.whole _ hm, (h.rx.lane.range _ (mem_rxPipe_of_rx hm)).2,
      mark_of_mem (List.mem_map_of_mem (f := fun d : Desc => chunkOf d.addr)
        (List.getElem_mem hj))⟩
  · exact fun j hj => absurd hj (Nat.not_lt_zero j)
  · exact fun j hj => absurd hj (Nat.not_lt_zero j)
  · -- What was taken and what is left make up the Rx ring of before.
    have hhand : (List.range got.length).map (fun j => (refilled p.xsk.rxDescs got j,
        frame p.xsk.umem (refilled p.xsk.rxDescs got j))) =
        got.map fun d => (d, frame p.xsk.umem d) := by
      conv_rhs => rw [← slice_refilled p.xsk.rxDescs got]
      unfold slice
      rw [List.map_map]
      rfl
    have hon : p.onRx = got.map (fun d => (d, frame p.xsk.umem d)) ++
        ((p.xsk.rxRing.pending 64).drop num).map (fun d => (d, frame p.xsk.umem d)) := by
      rw [hgot, ← List.map_append, List.take_append_drop]
      rfl
    have hchain := h.chain
    rw [hon, ← hdrop] at hchain
    rw [← hhand] at hchain
    simpa only [handed, Port.onRx, FwdPc.len, List.range_zero, List.map_nil, List.append_nil, FwdPc.done,
      Nat.not_lt_zero, if_false, List.append_assoc] using hchain

/-! ## Chunks to send from -/

/-- The chunks in a buffer that `GetDescs` has filled. -/
theorem chunkOf_refilled (buf : Nat → Desc) {l : List Nat} (hl : ∀ i ∈ l, i < 128)
    (hn : n < l.length) : chunkOf (refilled buf (l.map Socket.chunkDesc) n).addr = l[n] := by
  rw [refilled_of_lt _ (by rwa [List.length_map]), List.getElem_map]
  exact Socket.chunkOf_chunkDesc (hl _ (List.getElem_mem hn))

theorem slice_chunkDesc (buf : Nat → Desc) {l : List Nat} (hl : ∀ i ∈ l, i < 128)
    (hn : n ≤ l.length) :
    ((slice (refilled buf (l.map Socket.chunkDesc)) n).map fun d => chunkOf d.addr) =
      l.take n := by
  refine List.ext_getElem (by simp [hn]) fun j h _ => ?_
  have hj : j < n := by simpa using h
  simp only [slice, List.getElem_map, List.getElem_range, List.getElem_take]
  exact chunkOf_refilled buf hl (Nat.lt_of_lt_of_le hj hn)

/-- A fresh descriptor covers its chunk. -/
theorem target_chunkDesc (buf : Nat → Desc) {l : List Nat} (hl : ∀ i ∈ l, i < 128)
    (hn : n < l.length) : Target (refilled buf (l.map Socket.chunkDesc) n) 2048 := by
  have hm := hl _ (List.getElem_mem hn)
  rw [refilled_of_lt _ (by rwa [List.length_map]), List.getElem_map]
  exact ⟨by rw [Socket.chunkOf_chunkDesc hm, Socket.toNat_chunkDesc_addr hm],
    Socket.toNat_chunkDesc_len _⟩

theorem held_freeTx (s : Socket) (n : Nat) : Held 64 128 s.freeTXDescs (s.freeTx n) :=
  held_firstFree ..

theorem freeTx_lt {s : Socket} : ∀ i ∈ s.freeTx n, i < 128 := fun i hi =>
  ((held_freeTx s n).range i hi).2

theorem locals_loop (hi : i ≤ len) (hk : k = bytes p i) : (FwdPc.loop len i k).Locals p q := by
  unfold FwdPc.loop
  split
  · exact ⟨‹_›, hk⟩
  · obtain rfl : i = len := by omega
    exact hk

/-- The frames kept are a prefix of those in hand. -/
theorem handed_getDescs (p q q' : Port) (hk : k ≤ len) :
    handed p q' (.loop k 0 0) = (handed p q (.getDescs len n)).take k := by
  have hmin : min k (FwdPc.getDescs len n).len = k := Nat.min_eq_left hk
  unfold handed
  rw [FwdPc.len_loop, FwdPc.done_loop (Nat.zero_le k), ← List.map_take, List.take_range, hmin]
  rfl

/-- Frames for which there is no chunk to send from are dropped. -/
theorem DirOk.getDescs (h : DirOk p q (.getDescs len n)) (hk : k = min len (q.xsk.freeTx n).length) :
    DirOk p (q.setXsk (q.xsk.getDescs n false).2) (.loop k 0 0) := by
  have hdone : (FwdPc.loop k 0 0).done = 0 := FwdPc.done_loop (Nat.zero_le k)
  rw [q.xsk.getDescs_tx n]
  refine { h with
    tx := { h.tx with }
    data := { h.data with }
    hand := ⟨?_, ?_, ?_, ?_, locals_loop (Nat.zero_le k) rfl⟩
    chain := ?_ }
  · intro j _ hj
    rw [FwdPc.len_loop] at hj
    exact h.hand.received j (Nat.zero_le j) (Nat.lt_of_lt_of_le hj (by
      show k ≤ len
      omega))
  · rw [FwdPc.outLen_loop]
    show Held _ _ _ (((slice (refilled _ _) k)).map _)
    rw [slice_chunkDesc _ freeTx_lt (by omega)]
    exact (held_freeTx q.xsk n).sublist (List.take_sublist _ _)
  · intro j hj
    rw [FwdPc.outLen_loop] at hj
    rw [hdone, if_neg (Nat.not_lt_zero j)]
    exact target_chunkDesc _ freeTx_lt (by omega)
  · intro j hj
    rw [hdone] at hj
    exact absurd hj (Nat.not_lt_zero j)
  · rw [handed_getDescs p q _ (show k ≤ len by omega)]
    exact ((List.Sublist.refl q.placed).append (List.take_sublist _ _)).append
      (List.Sublist.refl _) |>.trans h.chain

/-! ## Copying -/

/-- Writing a chunk that is not in the send pipeline does not disturb what is sent. -/
theorem TxData.write (h : TxData q) {c off : Nat} {bs : List (BitVec 8)} (hoff : off = c * 2048)
    (hl : bs.length ≤ 2048) (hc : c ∉ q.txPipe) (buf : Nat → Desc) :
    TxData { q with xsk.umem := q.xsk.umem.write off bs, xsk.getTXDescs := buf } where
  whole := h.whole
  kwhole := h.kwhole
  sent := by
    have hon : (q.xsk.txRing.pending 64).map (frame (q.xsk.umem.write off bs)) = q.onTx :=
      List.map_congr_left fun d hd => frame_write (h.whole d hd) hoff hl fun he =>
        hc (he ▸ mem_txPipe_of_tx hd)
    show q.taken ++ _ = _
    rw [Port.onTx, hon]
    exact h.sent
  stable := fun x hx =>
    (frame_write (h.kwhole x hx) hoff hl fun he => hc (he ▸ mem_txPipe_of_ktx hx)).trans
      (h.stable x hx)

/-- The next frame in hand fits, and the whole of it is copied. -/
theorem DirOk.copyFrame (h : DirOk p q (.copy len i k out inp)) :
    copyFrame q.xsk.umem p.xsk.umem out inp = ((p.xsk.rxDescs i).len.toNat,
      q.xsk.umem.write (chunkOf (q.xsk.getTXDescs i).addr * 2048)
        (frame p.xsk.umem (p.xsk.rxDescs i))) ∧
      (p.xsk.rxDescs i).len.toNat ≤ 2048 := by
  obtain ⟨hi, -, rfl, rfl⟩ := h.hand.locals
  have hin := h.hand.received i (Nat.le_refl i) hi
  have ht : Target (q.xsk.getTXDescs i) 2048 := by
    simpa only [FwdPc.done, Nat.lt_irrefl, if_false] using h.hand.target i hi
  have hw := hin.whole
  unfold Desc.Whole at hw
  have hle : (p.xsk.rxDescs i).len.toNat ≤ 2048 := by omega
  have hm : min (q.xsk.getTXDescs i).len.toNat (p.xsk.rxDescs i).len.toNat =
      (p.xsk.rxDescs i).len.toNat := by
    rw [ht.len]
    omega
  refine ⟨?_, hle⟩
  unfold Xdp.copyFrame getFrame
  dsimp only
  rw [hm, ht.start]
  rfl

/-- What is in hand does not change when a frame is copied: it is under the next descriptor
to send from now. -/
theorem handed_copied (h : HandOk p q (.copy len i k out inp)) (hi : i < len)
    (hle : (p.xsk.rxDescs i).len.toNat ≤ 2048) {buf : Nat → Desc}
    (hself : buf i =
      { q.xsk.getTXDescs i with len := BitVec.ofNat 32 (p.xsk.rxDescs i).len.toNat })
    (hother : ∀ j, j ≠ i → buf j = q.xsk.getTXDescs j) :
    handed p { q with
      xsk.umem := q.xsk.umem.write (chunkOf (q.xsk.getTXDescs i).addr * 2048)
        (frame p.xsk.umem (p.xsk.rxDescs i))
      xsk.getTXDescs := buf } (.loop len (i + 1) k) = handed p q (.copy len i k out inp) := by
  have hlen : (BitVec.ofNat 32 (p.xsk.rxDescs i).len.toNat).toNat = (p.xsk.rxDescs i).len.toNat := by
    rw [BitVec.toNat_ofNat]
    omega
  unfold handed
  rw [FwdPc.len_loop, FwdPc.done_loop hi]
  refine List.map_congr_left fun j hj => ?_
  have hj : j < len := List.mem_range.mp hj
  show (_, if j < i + 1 then frame _ (buf j) else _) = (_, if j < i then _ else _)
  congr 1
  -- frames copied before lie in other chunks, this one is now under its descriptor, and
  -- those after it are still read from the input port
  rcases Nat.lt_trichotomy j i with hji | hji | hji
  · have hw := h.target_whole (j := j) hj
    have hne := slice_chunk_ne h.held.nodup hj hi (Nat.ne_of_lt hji)
    rw [if_pos (by omega), if_pos hji, hother j (by omega),
      frame_write hw rfl (by simpa [frame] using hle) hne]
  · subst hji
    rw [if_pos (Nat.lt_succ_self j), if_neg (Nat.lt_irrefl j), hself]
    exact frame_write_self (h.target j hj).start (hlen.trans (ByteMemory.length_read ..).symm)
  · rw [if_neg (by omega), if_neg (by omega)]

/-- **One frame copied.** -/
theorem DirOk.copy (h : DirOk p q (.copy len i k out inp)) {r : Nat × ByteMemory}
    (hr : r = Xdp.copyFrame q.xsk.umem p.xsk.umem out inp) :
    DirOk p { q with
      xsk.umem := r.2
      xsk.getTXDescs := Function.update q.xsk.getTXDescs i
        { q.xsk.getTXDescs i with len := BitVec.ofNat 32 r.1 } } (.loop len (i + 1) k) := by
  obtain ⟨hcopy, hle⟩ := h.copyFrame
  obtain ⟨hi, hk, -, -⟩ := h.hand.locals
  rw [hr, hcopy]
  clear hr hcopy
  have hdone : (FwdPc.loop len (i + 1) k).done = i + 1 := FwdPc.done_loop hi
  have ht := h.hand.target i hi
  have hlen : (BitVec.ofNat 32 (p.xsk.rxDescs i).len.toNat).toNat = (p.xsk.rxDescs i).len.toNat := by
    rw [BitVec.toNat_ofNat]
    omega
  -- the copy changes the length of one descriptor, and no address
  obtain ⟨buf, hbuf⟩ : ∃ buf, buf = Function.update q.xsk.getTXDescs i
      { q.xsk.getTXDescs i with len := BitVec.ofNat 32 (p.xsk.rxDescs i).len.toNat } := ⟨_, rfl⟩
  have hself : buf i =
      { q.xsk.getTXDescs i with len := BitVec.ofNat 32 (p.xsk.rxDescs i).len.toNat } := by
    rw [hbuf, Function.update_self]
  have hother : ∀ j, j ≠ i → buf j = q.xsk.getTXDescs j := fun j hj => by
    rw [hbuf, Function.update_of_ne hj]
  have haddr : ∀ j, (buf j).addr = (q.xsk.getTXDescs j).addr := by
    intro j
    by_cases hj : j = i
    · rw [hj, hself]
    · rw [hother j hj]
  rw [← hbuf]
  clear hbuf
  refine { h with
    tx := { h.tx with }
    data := h.data.write rfl (by simpa [frame] using hle)
      (h.hand.held.not_mem h.tx.lane (mem_slice_map hi)) buf
    hand := ⟨?_, ?_, ?_, ?_, locals_loop hi hk⟩
    chain := ?_ }
  · intro j hd hl
    rw [hdone] at hd
    rw [FwdPc.len_loop] at hl
    exact h.hand.received j (Nat.le_of_succ_le hd) hl
  · have hs : ((slice buf len).map fun d => chunkOf d.addr) =
        (slice q.xsk.getTXDescs len).map fun d => chunkOf d.addr := by
      simp only [slice, List.map_map, Function.comp_def, haddr]
    rw [FwdPc.outLen_loop]
    exact hs ▸ h.hand.held
  · intro j hj
    rw [FwdPc.outLen_loop] at hj
    show Target (buf j) _
    rw [hdone]
    by_cases hji : j = i
    · subst hji
      rw [hself, if_pos (Nat.lt_succ_self j)]
      exact ⟨ht.start, hlen⟩
    · have htj := h.hand.target j hj
      rw [hother j hji, if_congr (show j < i + 1 ↔ j < i by omega) rfl rfl]
      exact htj
  · intro j hj
    rw [hdone] at hj
    by_cases hji : j = i
    · exact hji ▸ hle
    · exact h.hand.small j (show j < i by omega)
  · rw [handed_copied h.hand hi hle hself hother]
    exact h.chain

/-! ## Sending -/

/-- The copied frames in hand are those under the descriptors handed to `Transmit`. -/
theorem handed_transmit (p q : Port) (len k : Nat) : handed p q (.transmit len k) =
    (slice p.xsk.rxDescs len).zip ((slice q.xsk.getTXDescs len).map (frame q.xsk.umem)) := by
  refine List.ext_getElem (by simp [handed, FwdPc.len]) fun j h _ => ?_
  have hj : j < len := by simpa [handed, FwdPc.len] using h
  simp [handed, slice, FwdPc.done, hj]

/-- The counts of a call that is about to return. -/
theorem HandOk.right (h : HandOk p q (.transmit len k)) :
    Call.Right ⟨k, len, handed p q (.transmit len k)⟩ := by
  refine ⟨by simp [handed, FwdPc.len], ?_⟩
  refine (h.locals : k = bytes p len).trans ?_
  unfold bytes slice handed
  rw [List.map_map, List.map_map]
  refine congrArg List.sum (List.map_congr_left fun j hj => ?_)
  have hj : j < len := List.mem_range.mp hj
  have ht : (q.xsk.getTXDescs j).len.toNat = (p.xsk.rxDescs j).len.toNat :=
    (h.target j hj).len.trans (if_pos hj)
  show (p.xsk.rxDescs j).len.toNat =
    (if j < len then frame q.xsk.umem (q.xsk.getTXDescs j) else _).length
  rw [if_pos hj, frame, ByteMemory.length_read, ht]

/-- What a step has put on a Tx ring, read off the ring and the UMEM after it. -/
def appended (q q' : Port) : List Frame :=
  ((q'.xsk.txRing.pending 64).drop q.xsk.txRing.count).map (frame q'.xsk.umem)

theorem DirOk.appended_transmit (h : DirOk p q (.transmit len k)) :
    appended q (FwdPc.step p q (.transmit len k)).2.1 =
      (handed p q (.transmit len k)).map Prod.snd := by
  have hheld : Held 64 128 q.xsk.freeTXDescs
      ((slice q.xsk.getTXDescs len).map fun d => chunkOf d.addr) := h.hand.held
  obtain ⟨hc, -⟩ := h.tx.transmit hheld
  have hdrop : (q.xsk.txRing.pending 64 ++ slice q.xsk.getTXDescs len).drop q.xsk.txRing.count =
      slice q.xsk.getTXDescs len := List.drop_left' (length_pending _)
  unfold appended FwdPc.step
  dsimp only
  rw [q.xsk.transmit_eq hc]
  dsimp only
  rw [pending_pushAll fits q.xsk.txRing _ hc, hdrop, handed_transmit, List.map_snd_zip (by simp)]

/-- Only `Transmit` puts anything there. -/
theorem appended_step (hpc : ∀ len k, pc ≠ .transmit len k) :
    appended q (pc.step p q).2.1 = [] := by
  have hring : (pc.step p q).2.1.xsk.txRing = q.xsk.txRing := by
    cases pc with
    | transmit len k => exact absurd rfl (hpc len k)
    | getDescs len n =>
        show (q.xsk.getDescs n false).2.txRing = _
        rw [q.xsk.getDescs_tx n]
    | _ => rfl
  unfold appended
  rw [hring, List.drop_eq_nil_of_le (Nat.le_of_eq (length_pending _)), List.map_nil]

/-- **`Transmit` truncates nothing**: everything in hand goes on the Tx ring. -/
theorem DirOk.transmit (h : DirOk p q (.transmit len k)) :
    DirOk p (FwdPc.step p q (.transmit len k)).2.1 .numReceived := by
  have hheld : Held 64 128 q.xsk.freeTXDescs
      ((slice q.xsk.getTXDescs len).map fun d => chunkOf d.addr) := h.hand.held
  obtain ⟨hc, htx⟩ := h.tx.transmit hheld
  have hp := pending_pushAll fits q.xsk.txRing (slice q.xsk.getTXDescs len) hc
  -- what this call appended to the Tx ring is all that it was given
  have hdrop : (q.xsk.txRing.pending 64 ++ slice q.xsk.getTXDescs len).drop q.xsk.txRing.count =
      slice q.xsk.getTXDescs len := List.drop_left' (length_pending _)
  have hright := h.hand.right
  have hchain := h.chain
  unfold FwdPc.step
  dsimp only
  rw [q.xsk.transmit_eq hc] at htx ⊢
  dsimp only at htx ⊢
  rw [hp, hdrop, ← handed_transmit p q len k]
  obtain ⟨call, hcall⟩ : ∃ call : Call, call = ⟨k, len, handed p q (.transmit len k)⟩ := ⟨_, rfl⟩
  have hplaced : call.placed = handed p q (.transmit len k) := by rw [hcall]
  rw [← hcall] at hright ⊢
  have hflat : (q.calls ++ [call]).flatMap Call.placed =
      q.placed ++ handed p q (.transmit len k) := by
    rw [List.flatMap_append, List.flatMap_cons, List.flatMap_nil, List.append_nil, hplaced]
    rfl
  have hnil : ∀ p' q', handed p' q' .numReceived = [] := fun _ _ => rfl
  refine {
    rx := h.rx
    tx := { htx with }
    data := ⟨?_, h.data.kwhole, ?_, h.data.stable⟩
    hand := ⟨?_, Held.nil, ?_, ?_, trivial⟩
    chain := ?_
    calls := ?_ }
  · intro d hd
    simp only [hp, List.mem_append] at hd
    rcases hd with hd | hd
    · exact h.data.whole d hd
    · obtain ⟨j, hj, rfl⟩ := List.mem_map.mp hd
      exact h.hand.target_whole (List.mem_range.mp hj)
  · show q.taken ++ (List.map (frame q.xsk.umem) _) = List.map Prod.snd (List.flatMap _ _)
    rw [hp, hflat, List.map_append, List.map_append, ← h.data.sent, List.append_assoc,
      handed_transmit, List.map_snd_zip (by simp)]
    rfl
  · exact fun j _ hj => absurd hj (Nat.not_lt_zero j)
  · exact fun j hj => absurd hj (Nat.not_lt_zero j)
  · exact fun j hj => absurd hj (Nat.not_lt_zero j)
  · show (List.flatMap _ _ ++ _ ++ p.onRx).Sublist _
    rw [hflat, hnil, List.append_nil]
    exact hchain
  · intro c hcm
    rcases List.mem_append.mp hcm with hcm | hcm
    · exact h.calls c hcm
    · rw [List.mem_singleton.mp hcm]
      exact hright

/-! ## Any step -/

theorem bytes_succ (p : Port) (i : Nat) :
    bytes p (i + 1) = bytes p i + (p.xsk.rxDescs i).len.toNat := by
  simp [bytes, slice, List.range_succ]

/-- **Every step of `forwardFrames` keeps its direction right.**  A call that has returned
is like one that has not begun. -/
theorem DirOk.forward (h : DirOk p q pc) :
    DirOk (pc.step p q).1 (pc.step p q).2.1 ((pc.step p q).2.2.getD .numReceived) := by
  cases pc with
  | numReceived => exact h.goto rfl rfl rfl trivial
  | receive num => exact h.receive
  | numFreeTxSlots len => exact h.goto rfl rfl rfl trivial
  | getDescs len n =>
      refine h.getDescs ?_
      show (if len > (q.xsk.getDescs n false).1 then (q.xsk.getDescs n false).1 else len) = _
      rw [Socket.clamp, q.xsk.getDescs_tx n]
  | outFrame len i k =>
      obtain ⟨hi, hk⟩ := h.hand.locals
      exact h.goto rfl rfl rfl ⟨hi, hk, rfl⟩
  | inFrame len i k out =>
      obtain ⟨hi, hk, ho⟩ := h.hand.locals
      exact h.goto rfl rfl rfl ⟨hi, by rw [bytes_succ, hk]; rfl, ho, rfl⟩
  | copy len i k out inp => exact h.copy rfl
  | transmit len k => exact h.transmit

/-- Within a call, what is in hand is what was in hand before, unless the rest was dropped. -/
theorem DirOk.handed_forward (h : DirOk p q pc) (hr : ∀ num, pc ≠ .receive num)
    (hnext : (pc.step p q).2.2 = some pc') : pc'.len ≤ pc.len ∧
      handed (pc.step p q).1 (pc.step p q).2.1 pc' = (handed p q pc).take pc'.len := by
  have hlen : (handed p q pc).length = pc.len := by simp [handed]
  -- all of it is taken when the number of frames stays
  have hall : pc'.len = pc.len → handed (pc.step p q).1 (pc.step p q).2.1 pc' = handed p q pc →
      pc'.len ≤ pc.len ∧
        handed (pc.step p q).1 (pc.step p q).2.1 pc' = (handed p q pc).take pc'.len := by
    intro he hh
    refine ⟨Nat.le_of_eq he, ?_⟩
    rw [hh, he, ← hlen, List.take_length]
  cases pc with
  | receive num => exact absurd rfl (hr num)
  | numReceived | numFreeTxSlots | outFrame | inFrame =>
      obtain rfl := Option.some.inj hnext
      exact hall rfl rfl
  | getDescs len n =>
      obtain rfl := Option.some.inj hnext
      rw [FwdPc.len_loop]
      have hk : (if len > (q.xsk.getDescs n false).1 then (q.xsk.getDescs n false).1 else len) ≤
          len := by split <;> omega
      exact ⟨hk, handed_getDescs _ _ _ hk⟩
  | copy len i k out inp =>
      obtain rfl := Option.some.inj hnext
      refine hall FwdPc.len_loop ?_
      obtain ⟨hcopy, hle⟩ := h.copyFrame
      obtain ⟨hi, -⟩ := h.hand.locals
      unfold FwdPc.step
      dsimp only
      rw [hcopy]
      exact handed_copied h.hand hi hle (Function.update_self ..) fun j hj =>
        Function.update_of_ne hj ..
  | transmit len k => cases hnext

/-- `forwardFrames` does nothing about sending on its input port, -/
theorem FwdPc.step_txSame (p q : Port) (pc : FwdPc) : TxSame p (pc.step p q).1 := by
  cases pc with
  | receive num => exact { TxSame.refl p with }
  | _ => exact TxSame.refl p

/-- and nothing about receiving on its output port: it copies to chunks of the second
half only. -/
theorem DirOk.step_rxSame (h : DirOk p q pc) : RxSame q (pc.step p q).2.1 := by
  cases pc with
  | getDescs len n =>
      show RxSame q (q.setXsk (q.xsk.getDescs n false).2)
      rw [q.xsk.getDescs_tx n]
      exact { RxSame.refl q with }
  | copy len i k out inp =>
      obtain ⟨hcopy, hle⟩ := h.copyFrame
      obtain ⟨hi, -⟩ := h.hand.locals
      refine { RxSame.refl q with umem := fun x hx => ?_ }
      show (Xdp.copyFrame q.xsk.umem p.xsk.umem out inp).2 x = _
      have hr := h.hand.target_range hi
      have hl : (frame p.xsk.umem (p.xsk.rxDescs i)).length ≤ 2048 := by
        simpa [frame] using hle
      rw [hcopy]
      exact ByteMemory.write_of_not_mem _ (by omega)
  | transmit len k => exact { RxSame.refl q with }
  | _ => exact RxSame.refl q

/-! ## Refilling and completing -/

theorem FillOk.same {fpc : FillPc} (h : FillOk p fpc) (hs : RxSame p p') : FillOk p' fpc := by
  cases fpc with
  | fill len =>
      show Held _ _ _ _
      rw [hs.freeRXDescs, hs.getRXDescs]
      exact h
  | _ => trivial

theorem FillOk.rxStep {fpc : FillPc} (h : FillOk p fpc) (hs : RxStep p p') : FillOk p' fpc := by
  cases fpc with
  | fill len =>
      cases hs with
      | takeFill | write | deliver => exact h
  | _ => trivial

/-- `forwardFrames` on this input port only sets flags that the refill code wants set. -/
theorem FillOk.forward {fpc : FillPc} (h : FillOk p fpc) (hrx : RxOk p) (pc : FwdPc) (q : Port) :
    FillOk (pc.step p q).1 fpc := by
  have hle := hrx.length_le
  cases pc with
  | receive num =>
      cases fpc with
      | fill len =>
          show FillOk (p.setXsk (p.xsk.receive num).2) _
          rw [p.xsk.receive_eq num (by omega)]
          exact Held.mark_true h
      | _ => trivial
  | _ => exact h

theorem FillOk.step (fpc : FillPc) (p : Port) :
    FillOk (fpc.step p).1 ((fpc.step p).2.getD .numFreeFillSlots) := by
  cases fpc with
  | getDescs n =>
      have hh : Held 0 64 p.xsk.freeRXDescs (p.xsk.freeRx n) := held_firstFree ..
      show FillOk (p.setXsk (p.xsk.getDescs n true).2) (.fill (p.xsk.getDescs n true).1)
      rw [p.xsk.getDescs_rx n]
      show Held _ _ _ (List.map _ (slice (refilled _ _) _))
      rw [slice_chunkDesc _ (fun i hi => Nat.lt_trans (hh.range i hi).2 (by decide))
        (Nat.le_refl _), List.take_length]
      exact hh
  | _ => trivial

theorem FillPc.step_txSame (p : Port) (fpc : FillPc) : TxSame p (fpc.step p).1 := by
  cases fpc with
  | numFreeFillSlots => exact TxSame.refl p
  | getDescs n =>
      show TxSame p (p.setXsk (p.xsk.getDescs n true).2)
      rw [p.xsk.getDescs_rx n]
      exact { TxSame.refl p with }
  | fill len => exact { TxSame.refl p with }

theorem CompleteOk.same {cpc : CompletePc} (h : CompleteOk p cpc) (hs : TxNotes p p') :
    CompleteOk p' cpc := by
  cases cpc with
  | complete n =>
      show n ≤ p'.xsk.completionRing.count
      rw [hs.completionRing]
      exact h
  | numCompleted => trivial

theorem CompleteOk.txStep {cpc : CompletePc} (h : CompleteOk p cpc) (hs : TxStep p p') :
    CompleteOk p' cpc := by
  cases cpc with
  | complete n =>
      cases hs with
      | takeTx hd => exact h
      | complete hk room =>
          show n ≤ (p.xsk.completionRing.push 64 _).count
          rw [count_push fits _ _ room]
          exact Nat.le_succ_of_le h
  | numCompleted => trivial

/-- `forwardFrames` does not touch the completion ring of its output port. -/
theorem CompleteOk.forward {cpc : CompletePc} (h : CompleteOk q cpc) (pc : FwdPc) (p : Port) :
    CompleteOk (pc.step p q).2.1 cpc := by
  cases cpc with
  | complete n =>
      cases pc with
      | getDescs len m =>
          show CompleteOk (q.setXsk (q.xsk.getDescs m false).2) _
          rw [q.xsk.getDescs_tx m]
          exact h
      | _ => exact h
  | numCompleted => trivial

theorem CompleteOk.step (cpc : CompletePc) (htx : TxOk p) :
    CompleteOk (cpc.step p).1 ((cpc.step p).2.getD .numCompleted) := by
  have hle := htx.length_le
  cases cpc with
  | numCompleted =>
      have hn : p.xsk.numCompleted = p.xsk.completionRing.count := numAvailable_eq (by omega)
      exact Nat.le_of_eq hn
  | complete n => trivial

theorem CompletePc.step_rxSame (p : Port) (cpc : CompletePc) : RxSame p (cpc.step p).1 := by
  cases cpc with
  | numCompleted => exact RxSame.refl p
  | complete n => exact { RxSame.refl p with }

end AfXdpSwitch.Xdp
