import AfXdpSwitch.PrintLoop

/-!
# What `rebroadcast` sends

`rebroadcast` sends each frame from the chunk it was received in, and that chunk is given
back to the kernel in the next round.  As long as the Tx ring is empty whenever `Fill` is
called, the kernel has read every frame before anybody may write to its chunk again, and it
takes exactly the printed frames, in order, with the destination address overwritten.

`Echo` says so between any two steps: what is on the Tx ring lies in chunks that are marked
free, nothing is on it from `Fill` to `Transmit`, and of the frames in hand those printed
are edited up to the byte the program is at.
-/

namespace AfXdpSwitch.Xdp
open SpscRing SlotLane

/-- The first `k` bytes set to `ff`. -/
def overwritten (k : Nat) (f : Frame) : Frame := List.replicate k 0xff ++ f.drop k

/-- The frame with the destination address `ff:ff:ff:ff:ff:ff`. -/
def toBroadcast (f : Frame) : Frame := overwritten 6 f

/-- If `Fill` is next, the Tx ring is empty. -/
def Drained (w : Port × LoopState) : Prop :=
  match w.2.pc with
  | .fill (.fill _) => w.1.xsk.txRing.count = 0
  | _ => True

instance (w : Port × LoopState) : Decidable (Drained w) := by
  unfold Drained
  split <;> infer_instance

/-- The steps of `rebroadcast` when the kernel is quick enough. -/
def DrainedLoop (w w' : Port × LoopState) : Prop := Drained w ∧ Loop .rebroadcast w w'

/-- The part of the round from the loop head to `Fill`. -/
def LoopPc.Refilling : LoopPc → Prop
  | .fill _ => True
  | _ => False

/-- How many bytes of frame `j` in hand are overwritten. -/
def LoopPc.bytesSet (j : Nat) : LoopPc → Nat
  | .edit _ i k | .panicked _ i k => if j = i then k else 6
  | _ => 6

/-- The printed frames of this round and what has become of them. -/
structure Edited (p : Port) (pc : LoopPc) (batch : List (Desc × Frame)) : Prop where
  len : batch.length = pc.next
  frames : ∀ j (hj : j < batch.length),
    frame p.xsk.umem (p.xsk.rxDescs j) = overwritten (pc.bytesSet j) batch[j].2

/-- The printed frames of earlier rounds are what was put on the Tx ring. -/
def Sent (p : Port) (s : LoopState) : Prop :=
  ∃ sent batch, s.shown = sent ++ batch ∧
    p.taken ++ p.onTx = sent.map (fun x => toBroadcast x.2) ∧ Edited p s.pc batch

structure Echo (p : Port) (s : LoopState) : Prop where
  waiting : ∀ d ∈ p.xsk.txRing.pending 64, InHand p d
  empty : ¬ s.pc.Refilling → p.xsk.txRing.count = 0
  sent : Sent p s

variable {p p' : Port} {s : LoopState} {len i j k num : Nat} {f : Frame}
  {batch : List (Desc × Frame)}

/-! ## Frames -/

theorem overwritten_zero (f : Frame) : overwritten 0 f = f := rfl

/-- **One more byte overwritten.** -/
theorem read_overwritten {m : ByteMemory} {a n : Nat} (hk : k < n)
    (h : m.read a n = overwritten k f) :
    (m.write (a + k) [0xff]).read a n = overwritten (k + 1) f := by
  have hlen : n = k + (f.length - k) := by
    have := congrArg List.length h
    simpa [overwritten] using this
  have hbyte : ∀ j, j < n → some (m (a + j)) = (overwritten k f)[j]? := by
    intro j hj
    rw [← h, ByteMemory.getElem?_read _ hj]
  refine List.ext_getElem? fun j => ?_
  rcases Nat.lt_or_ge j n with hj | hj
  · rw [ByteMemory.getElem?_read _ hj]
    rcases Nat.lt_trichotomy j k with hjk | rfl | hjk
    · rw [ByteMemory.write_of_not_mem _ (.inl (by omega)), hbyte j hj]
      simp [overwritten, List.getElem?_append, hjk, Nat.lt_succ_of_lt hjk]
    · rw [ByteMemory.write_singleton]
      simp [overwritten, List.getElem?_append]
    · rw [ByteMemory.write_of_not_mem _ (.inr (by rw [List.length_singleton]; omega)), hbyte j hj]
      simp only [overwritten, List.getElem?_append, List.length_replicate, List.getElem?_drop]
      rw [if_neg (by omega), if_neg (by omega)]
      congr 1
      omega
  · rw [List.getElem?_eq_none (by simpa using hj),
      List.getElem?_eq_none (by simp [overwritten]; omega)]

theorem pending_of_empty (h : p.xsk.txRing.count = 0) : p.xsk.txRing.pending 64 = [] :=
  List.eq_nil_of_length_eq_zero (by rw [length_pending, h])

theorem onTx_of_empty (h : p.xsk.txRing.count = 0) : p.onTx = [] := by
  unfold Port.onTx
  rw [pending_of_empty h, List.map_nil]

theorem waiting_of_empty (h : p.xsk.txRing.count = 0) :
    ∀ d ∈ p.xsk.txRing.pending 64, InHand p d := by
  rw [pending_of_empty h]
  exact fun d hd => absurd hd List.not_mem_nil

/-! ## Kernel steps -/

theorem LoopOk.next_le (h : LoopOk p s) : s.pc.next ≤ s.pc.len := by
  have hl := h.locals
  obtain ⟨pc, shown⟩ := s
  cases pc with
  | print len i => exact hl
  | edit len i k => exact hl.1
  | panicked len i k => exact hl.1
  | _ => exact Nat.le_refl _

theorem Edited.congr {pc : LoopPc} (h : Edited p pc batch) (hrx : p'.xsk.rxDescs = p.xsk.rxDescs)
    (hf : ∀ j, j < pc.next →
      frame p'.xsk.umem (p.xsk.rxDescs j) = frame p.xsk.umem (p.xsk.rxDescs j)) :
    Edited p' pc batch := by
  refine ⟨h.len, fun j hj => ?_⟩
  rw [hrx, hf j (h.len ▸ hj)]
  exact h.frames j hj

/-- What the kernel takes leaves the Tx ring. -/
theorem TxStep.taken_onTx (hs : TxStep p p') : p'.taken ++ p'.onTx = p.taken ++ p.onTx := by
  cases hs with
  | @takeTx d hd =>
      have hon : p.onTx = frame p.xsk.umem d ::
          ((p.xsk.txRing.release 1).pending 64).map (frame p.xsk.umem) := by
        unfold Port.onTx
        rw [pending_of_head? hd, List.map_cons]
      rw [hon]
      exact List.append_assoc _ _ _
  | complete => rfl

theorem TxStep.pending_sublist (hs : TxStep p p') :
    (p'.xsk.txRing.pending 64).Sublist (p.xsk.txRing.pending 64) := by
  cases hs with
  | takeTx hd =>
      rw [pending_of_head? hd]
      exact List.sublist_cons_self _ _
  | complete => exact List.Sublist.refl _

theorem Echo.kernel (h : Echo p s) (hl : LoopOk p s) (hs : KernelStep p p') : Echo p' s := by
  obtain ⟨sent, batch, hshown, htaken, hed⟩ := h.sent
  rcases hs with hs | hs
  · obtain ⟨hrx, hfree, -⟩ := hs.notes
    have htx := hs.txSame hl.rx
    have hon : p'.onTx = p.onTx := by
      unfold Port.onTx
      rw [htx.txRing]
      exact List.map_congr_left fun d hd => hl.rx.frame_rxStep hs (h.waiting d hd)
    refine ⟨?_, ?_, sent, batch, hshown, ?_, ?_⟩
    · intro d hd
      rw [htx.txRing] at hd
      have hd := h.waiting d hd
      exact { hd with free := hfree ▸ hd.free }
    · rw [htx.txRing]
      exact h.empty
    · rw [htx.taken, hon]
      exact htaken
    · refine hed.congr hrx fun j hj => hl.rx.frame_rxStep hs (hl.hand.inHand ?_)
      exact Nat.lt_of_lt_of_le hj hl.next_le
  · have hsame := hs.rxSame
    have hsub := hs.pending_sublist
    refine ⟨?_, ?_, sent, batch, hshown, ?_, ?_⟩
    · intro d hd
      have hd := h.waiting d (hsub.subset hd)
      exact { hd with free := hsame.freeRXDescs ▸ hd.free }
    · intro hpc
      have hle := hsub.length_le
      rw [length_pending, length_pending, h.empty hpc] at hle
      omega
    · rw [hs.taken_onTx]
      exact htaken
    · refine hed.congr hsame.rxDescs fun j hj => ?_
      have hj := hl.hand.inHand (Nat.lt_of_lt_of_le hj hl.next_le)
      exact hsame.frame hj.whole hj.range

/-! ## Program steps -/

/-- A full receive pipeline leaves nothing on the Tx ring. -/
theorem Echo.empty_of_full (h : Echo p s) (hrx : RxOk p) (hfull : p.rxPipe.length = 64) :
    p.xsk.txRing.count = 0 := by
  rw [← length_pending (n := 64), List.length_eq_zero_iff]
  refine List.eq_nil_iff_forall_not_mem.mpr fun d hd => ?_
  have hd := h.waiting d hd
  have hm := hrx.lane.mem_of_full hfull (Nat.zero_le _) hd.range
  have hf := hd.free
  rw [(hrx.lane.used _).mpr hm] at hf
  exact Bool.false_ne_true hf

/-- Between the rounds all that was printed is sent. -/
theorem Sent.between {pc : LoopPc} (h : Sent p s) (hn : s.pc.next = 0) (hn' : pc.next = 0)
    (htaken : p'.taken = p.taken) (hon : p'.onTx = p.onTx) : Sent p' { s with pc := pc } := by
  obtain ⟨sent, batch, hshown, hsent, hed⟩ := h
  have hnil : batch = [] := List.eq_nil_of_length_eq_zero (hed.len.trans hn)
  subst hnil
  refine ⟨sent, [], hshown, ?_, hn'.symm, fun j hj => absurd hj (Nat.not_lt_zero j)⟩
  rw [htaken, hon]
  exact hsent

theorem Echo.fill {g : FillPc} (h : Echo p ⟨.fill g, s.shown⟩) (hl : LoopOk p ⟨.fill g, s.shown⟩)
    (hd : Drained (p, ⟨.fill g, s.shown⟩)) :
    Echo (g.step p).1 ⟨.filled (g.step p).2, s.shown⟩ := by
  cases g with
  | numFreeFillSlots =>
      have hlocal := (LoopOk.fill (s := ⟨.failed, s.shown⟩) hl).locals
      have hsent : ∀ pc : LoopPc, pc.next = 0 → Sent p ⟨pc, s.shown⟩ := fun pc hn =>
        h.sent.between rfl hn rfl rfl
      show Echo p ⟨.filled (some (.getDescs p.xsk.numFreeFillSlots)), s.shown⟩
      have hlocal : (LoopPc.filled (some (.getDescs p.xsk.numFreeFillSlots))).Local p := hlocal
      unfold LoopPc.filled at hlocal ⊢
      dsimp only at hlocal ⊢
      split
      · exact ⟨h.waiting, fun hn => absurd trivial hn, hsent _ rfl⟩
      · rw [if_neg ‹_›] at hlocal
        exact ⟨h.waiting, fun _ => h.empty_of_full hl.rx hlocal.1, hsent _ rfl⟩
  | getDescs n =>
      have heq := p.xsk.getDescs_rx n
      refine ⟨?_, fun hn => absurd trivial hn, h.sent.between rfl rfl rfl ?_⟩
      · show ∀ d ∈ (p.xsk.getDescs n true).2.txRing.pending 64,
          InHand (p.setXsk (p.xsk.getDescs n true).2) d
        rw [heq]
        exact fun d hd => { h.waiting d hd with }
      · show Port.onTx (p.setXsk (p.xsk.getDescs n true).2) = _
        rw [heq]
        rfl
  | fill n =>
      have hempty : p.xsk.txRing.count = 0 := hd
      exact ⟨waiting_of_empty hempty, fun _ => hempty, h.sent.between rfl rfl rfl rfl⟩

theorem Echo.poll {q : PollPc} (h : Echo p ⟨.poll q, s.shown⟩) (answer : PollAnswer) :
    Echo (q.step answer p).1 ⟨.polled (q.step answer p).2, s.shown⟩ := by
  have hempty : (q.step answer p).1.xsk.txRing.count = 0 ∧
      (q.step answer p).1.taken = p.taken := by
    rcases PollPc.step_cases answer p q with he | ⟨numRx, n, rfl, he⟩
    · rw [he]
      exact ⟨h.empty id, rfl⟩
    · rw [he]
      exact ⟨h.empty id, rfl⟩
  have hnext : (LoopPc.polled (q.step answer p).2).next = 0 := by
    unfold LoopPc.polled
    split
    · rfl
    · split <;> rfl
    · rfl
  refine ⟨waiting_of_empty hempty.1, fun _ => hempty.1, h.sent.between rfl hnext hempty.2 ?_⟩
  rw [onTx_of_empty hempty.1, onTx_of_empty (h.empty id)]

theorem Echo.receive (h : Echo p ⟨.receive num, s.shown⟩) :
    Echo (p.setXsk (p.xsk.receive num).2) ⟨.print (p.xsk.receive num).1 0, s.shown⟩ := by
  have hempty : (p.setXsk (p.xsk.receive num).2).xsk.txRing.count = 0 := h.empty id
  exact ⟨waiting_of_empty hempty, fun _ => hempty, h.sent.between rfl rfl rfl rfl⟩

theorem Echo.print (h : Echo p ⟨.print len i, s.shown⟩) (answer : PollAnswer)
    (hi : i ≤ len) :
    Echo (loopStep .rebroadcast answer p ⟨.print len i, s.shown⟩).1
      (loopStep .rebroadcast answer p ⟨.print len i, s.shown⟩).2 := by
  have hempty : p.xsk.txRing.count = 0 := h.empty id
  obtain ⟨sent, batch, hshown, hsent, hed⟩ := h.sent
  have hlen : batch.length = i := hed.len
  simp only [loopStep]
  split
  · -- the printed frame joins the batch, with nothing overwritten yet
    refine ⟨waiting_of_empty hempty, fun _ => hempty, sent,
      batch ++ [(p.xsk.rxDescs i, frame p.xsk.umem (p.xsk.rxDescs i))], ?_, hsent, ?_, ?_⟩
    · show s.shown ++ _ = _
      rw [← List.append_assoc, ← hshown]
    · rw [List.length_append, hlen]
      rfl
    · intro j hj
      show _ = overwritten (if j = i then 0 else 6) _
      rcases Nat.lt_or_ge j batch.length with hjb | hjb
      · rw [if_neg (by omega), List.getElem_append_left hjb]
        exact hed.frames j hjb
      · rw [List.length_append, List.length_singleton] at hj
        obtain rfl : j = i := by omega
        rw [if_pos rfl, overwritten_zero, List.getElem_append_right hjb]
        simp
  · obtain rfl : i = len := by omega
    exact ⟨waiting_of_empty hempty, fun _ => hempty, sent, batch, hshown, hsent, hlen, hed.frames⟩

theorem Echo.edit (h : Echo p ⟨.edit len i k, s.shown⟩) (hl : LoopOk p ⟨.edit len i k, s.shown⟩)
    (answer : PollAnswer) :
    Echo (loopStep .rebroadcast answer p ⟨.edit len i k, s.shown⟩).1
      (loopStep .rebroadcast answer p ⟨.edit len i k, s.shown⟩).2 := by
  have hempty : p.xsk.txRing.count = 0 := h.empty id
  obtain ⟨hi, hk6⟩ : i < len ∧ k ≤ 6 := hl.locals
  obtain ⟨sent, batch, hshown, hsent, hed⟩ := h.sent
  have hlen : batch.length = i + 1 := hed.len
  simp only [loopStep]
  split
  · split
    · rename_i hk
      have hk : k < (p.xsk.rxDescs i).len.toNat := hk
      refine ⟨waiting_of_empty (p := p.setByte i k) hempty, fun _ => hempty, sent, batch, hshown,
        ?_, hlen, ?_⟩
      · have hon : (p.setByte i k).onTx = p.onTx := by
          rw [onTx_of_empty (p := p.setByte i k) hempty, onTx_of_empty hempty]
        show p.taken ++ (p.setByte i k).onTx = _
        rw [hon]
        exact hsent
      · intro j hj
        have hf := hed.frames j hj
        show frame (p.setByte i k).xsk.umem (p.xsk.rxDescs j) = overwritten (if j = i then k + 1 else 6) _
        by_cases hji : j = i
        · subst hji
          rw [if_pos rfl]
          refine read_overwritten hk (hf.trans ?_)
          show overwritten (if j = j then k else 6) _ = _
          rw [if_pos rfl]
        · have hhand : RxHand p len := hl.hand
          rw [if_neg hji, hhand.frame_setByte hi (by omega) hji hk]
          refine hf.trans ?_
          show overwritten (if j = i then k else 6) _ = _
          rw [if_neg hji]
    · exact ⟨waiting_of_empty hempty, fun _ => hempty, sent, batch, hshown, hsent, hlen, hed.frames⟩
  · obtain rfl : k = 6 := by omega
    refine ⟨waiting_of_empty hempty, fun _ => hempty, sent, batch, hshown, hsent, hlen, ?_⟩
    intro j hj
    refine (hed.frames j hj).trans ?_
    show overwritten (if j = i then 6 else 6) _ = _
    rw [ite_self]
    rfl

/-- **`Transmit` truncates nothing and puts the edited frames on the Tx ring.** -/
theorem Echo.transmit (h : Echo p ⟨.transmit len, s.shown⟩)
    (hl : LoopOk p ⟨.transmit len, s.shown⟩) :
    Echo (p.setXsk (p.xsk.transmit (slice p.xsk.rxDescs len)).2)
      ⟨.fill .numFreeFillSlots, s.shown⟩ := by
  have hempty : p.xsk.txRing.count = 0 := h.empty id
  obtain ⟨sent, batch, hshown, hsent, hed⟩ := h.sent
  have hlen : batch.length = len := hed.len
  have hroom := hl.hand.held.room hl.rx.lane
  rw [List.length_map] at hroom
  have hc : p.xsk.txRing.count + (slice p.xsk.rxDescs len).length ≤ 64 := by
    have : (slice p.xsk.rxDescs len).length ≤ 64 := by
      refine Nat.le_trans ?_ hroom
      exact Nat.le_add_left _ _
    omega
  have hp := pending_pushAll fits p.xsk.txRing (slice p.xsk.rxDescs len) hc
  rw [pending_of_empty hempty, List.nil_append] at hp
  rw [p.xsk.transmit_eq hc]
  refine ⟨?_, fun hn => absurd trivial hn, sent ++ batch, [], ?_, ?_, rfl, ?_⟩
  · show ∀ d ∈ (p.xsk.txRing.pushAll 64 (slice p.xsk.rxDescs len)).pending 64, _
    rw [hp]
    intro d hd
    obtain ⟨j, hj, rfl⟩ := List.mem_map.mp hd
    exact { hl.hand.inHand (List.mem_range.mp hj) with }
  · rw [List.append_nil]
    exact hshown
  · show p.taken ++ ((p.xsk.txRing.pushAll 64 (slice p.xsk.rxDescs len)).pending 64).map
      (frame p.xsk.umem) = _
    have hframes : (slice p.xsk.rxDescs len).map (frame p.xsk.umem) =
        batch.map fun x => toBroadcast x.2 := by
      refine List.ext_getElem (by simp [hlen]) fun j hj hj' => ?_
      simp only [List.length_map] at hj'
      simp only [slice, List.getElem_map, List.getElem_range]
      exact hed.frames j hj'
    rw [onTx_of_empty hempty, List.append_nil] at hsent
    rw [hp, hsent, hframes, List.map_append]
  · exact fun j hj => absurd hj (Nat.not_lt_zero j)

/-! ## Whole runs -/

theorem Echo.start : Echo newPort loopStart :=
  ⟨fun _ hd => absurd hd List.not_mem_nil, fun _ => rfl, [], [], rfl, rfl, rfl,
    fun j hj => absurd hj (Nat.not_lt_zero j)⟩

theorem Echo.step (h : Echo p s) (hl : LoopOk p s) (hd : Drained (p, s)) (answer : PollAnswer) :
    Echo (loopStep .rebroadcast answer p s).1 (loopStep .rebroadcast answer p s).2 := by
  obtain ⟨pc, shown⟩ := s
  cases pc with
  | fill g => exact Echo.fill (s := ⟨.failed, shown⟩) h hl hd
  | poll q => exact Echo.poll (s := ⟨.failed, shown⟩) h answer
  | receive n => exact Echo.receive (s := ⟨.failed, shown⟩) h
  | print len i => exact Echo.print (s := ⟨.failed, shown⟩) h answer hl.locals
  | edit len i k => exact Echo.edit (s := ⟨.failed, shown⟩) h hl answer
  | transmit len => exact Echo.transmit (s := ⟨.failed, shown⟩) h hl
  | failed | panicked => exact h

theorem Echo.of_reachable {w : Port × LoopState} (h : Alone.Reachable DrainedLoop loopStart w) :
    Echo w.1 w.2 := by
  refine (h.invariant (I := fun w => LoopOk w.1 w.2 ∧ Echo w.1 w.2) ⟨LoopOk.start, Echo.start⟩
    ?_ ?_).2
  · exact fun p p' s h hs => ⟨h.1.kernel hs, h.2.kernel h.1 hs⟩
  · rintro w w' h ⟨hd, answer, rfl⟩
    exact ⟨h.1.step .rebroadcast answer, h.2.step h.1 hd answer⟩

/-- **If `Fill` always finds the Tx ring empty, the kernel takes from it exactly the printed
frames, in order, readdressed to broadcast**; only the printed frames of the current round
are not on it yet. -/
theorem rebroadcast_sends_printed {w : Port × LoopState}
    (h : Alone.Reachable DrainedLoop loopStart w) :
    ∃ sent batch, w.2.shown = sent ++ batch ∧ batch.length = w.2.pc.next ∧
      w.1.taken ++ w.1.onTx = sent.map fun x => toBroadcast x.2 := by
  obtain ⟨sent, batch, hshown, hsent, hed⟩ := (Echo.of_reachable h).sent
  exact ⟨sent, batch, hshown, hed.len, hsent⟩

theorem rebroadcast_sends_printed_one :
    (arrivedLoop 15).1.onTx = [[0xff, 0xff, 0xff, 0xff, 0xff, 0xff, 7]] ∧
      ∃ sent, (arrivedLoop 15).2.shown = sent ∧
        (arrivedLoop 15).1.taken ++ (arrivedLoop 15).1.onTx =
          sent.map fun x => toBroadcast x.2 := by
  have hdrained : ∀ i, i < 15 → Drained (arrivedLoop i) := by decide +kernel
  have hdrained0 : ∀ i, i < 3 → Drained (loopRun .rebroadcast i (newPort, loopStart)) := by
    decide +kernel
  have hr : Alone.Reachable DrainedLoop loopStart (arrivedLoop 15) :=
    arrivedLoop_reachable 15 (fun i hi => ⟨hdrained0 i hi, loop_loopRun _ i _⟩)
      fun i hi => ⟨hdrained i hi, loop_loopRun _ i _⟩
  obtain ⟨sent, batch, hshown, hlen, hsent⟩ := rebroadcast_sends_printed hr
  have hnext : (arrivedLoop 15).2.pc.next = 0 := by decide +kernel
  have hnil : batch = [] := List.eq_nil_of_length_eq_zero (hlen.trans hnext)
  subst hnil
  exact ⟨by decide +kernel, sent, by rw [hshown, List.append_nil], hsent⟩

/-- Without that the frame may be another one: the kernel has the chunk of an unsent frame
back, receives into it, and takes what is there now. -/
theorem rebroadcast_overwritten : ∃ w, Alone.Reachable (Loop .rebroadcast) loopStart w ∧
    ∃ f ∈ w.1.taken, ∀ x ∈ w.2.shown, f ≠ toBroadcast x.2 := by
  have hwait : Alone.Reachable (Loop .rebroadcast) loopStart (arrivedLoop 18) :=
    arrivedLoop_reachable 18 (fun i _ => loop_loopRun _ i _) fun i _ => loop_loopRun _ i _
  have hr := hwait.kernelRun (Port.takeFill_run (arrivedLoop 18).1 64)
  obtain ⟨p, hp⟩ : ∃ p, p = Port.takeFill^[64] (arrivedLoop 18).1 := ⟨_, rfl⟩
  have hwrite : KernelStep p { p with xsk.umem := p.xsk.umem.write 0 [9] } := by
    refine .inl (.write (a := 0) _ ?_ fun x hx => ByteMemory.write_of_not_mem _ (.inr ?_))
    · rw [hp]
      decide +kernel
    · have h0 : x / 2048 ≠ 0 := hx
      rw [List.length_singleton]
      omega
  have htake : KernelStep { p with xsk.umem := p.xsk.umem.write 0 [9] } _ :=
    .inr (.takeTx (d := ⟨0, 7⟩) (by rw [hp]; decide +kernel))
  have hshown : ∀ x ∈ (arrivedLoop 18).2.shown,
      ([9, 0xff, 0xff, 0xff, 0xff, 0xff, 7] : Frame) ≠ toBroadcast x.2 := by decide +kernel
  have hframe : [9, 0xff, 0xff, 0xff, 0xff, 0xff, 7] =
      frame (p.xsk.umem.write 0 [9]) ⟨0, 7⟩ := by
    rw [hp]
    decide +kernel
  generalize (arrivedLoop 18).2 = s at hr hshown
  rw [← hp] at hr
  exact ⟨_, (hr.tail (.kernel hwrite)).tail (.kernel htake), _,
    List.mem_append_right _ (List.mem_singleton.mpr hframe), hshown⟩

end AfXdpSwitch.Xdp
