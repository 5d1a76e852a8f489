import AfXdpSwitch.PacketLoop

/-!
# One call of `handle_receive_packets`

The release of the RX ring, `complete_tx`, and the whole call.  Between calls user
space is idle: nothing is reserved or peeked, and the fill ring believes nothing
free.  A call leads from an idle view to an idle view, and what it submits on the
fill ring is `callFills`, a function of the two worlds in which it looks at the RX
ring and at the fill ring.
-/

namespace AfXdpSwitch
open SpscRing Prog

variable {env : Env} {v : View} {w : World}

/-- Every peeked RX entry has been dealt with, so all are released. -/
theorem releaseRx_consistent {rcvd : BitVec 32} (hp : v.peeked = rcvd.toNat)
    (hdone : v.done = rcvd.toNat) (hcur : v.current = none) :
    Triple never (Consistent v) (releaseRx rcvd) (fun _ => Consistent
      { v with peeked := 0, done := 0, rxAt := v.rxAt + rcvd }) := by
  intro w h
  have hr := h.rings
  obtain ⟨hok, hpend⟩ := hr.rxOk.release (c := rcvd) (Nat.le_of_eq hp.symm)
  rw [hp, Nat.sub_self] at hok
  refine ⟨{ hr with
    rxOk := hok, rxAt := ?_, done_le := Nat.le_refl 0
    current := fun d hd => absurd hd (by rw [hcur]; exact Option.not_mem_none d) },
    h.stack, h.free_le, h.invalid, ?_, h.accounted, h.filled, h.fill_suffix⟩
  · show w.rx.shared.consumer + (rcvd.setWidth 64).setWidth 32 = v.rxAt + rcvd
    rw [hr.rxAt]
    simp
  · refine h.conserved.of_eq (FramePool.ext rfl rfl rfl rfl ?_ rfl rfl rfl rfl)
    show (((w.rx.xskRingConsRelease (rcvd.setWidth 64)).shared.pending defaultNumDescs).drop 0).map
      XdpDesc.addr = ((w.rx.shared.pending defaultNumDescs).drop v.done).map XdpDesc.addr
    rw [hpend, hdone, List.drop_zero]

/-! ## `complete_tx` -/

/-- The view after `i` completions, with `stack` on the free stack. -/
def View.recycled (v : View) (i : Nat) (stack : List (BitVec 64)) : View :=
  { v with freed := i, stack := stack }

theorem freeRound_consistent {i : Nat} {stack : List (BitVec 64)} (hi : i < v.cpeeked) :
    Triple never (Consistent (v.recycled i stack))
      (do
        let w ← get
        xskFreeUmemFrame (w.cq.read (v.cqAt + BitVec.ofNat 32 i))
        return v.cqAt + BitVec.ofNat 32 i + 1 : Xsk (BitVec 32))
      (fun idx w => idx = v.cqAt + BitVec.ofNat 32 (i + 1) ∧
        ∃ stack', Consistent (v.recycled (i + 1) stack') w) := by
  intro w h
  have hr := h.rings
  have hread : (w.cq.shared.pending defaultNumDescs)[i]? =
      some (w.cq.read (v.cqAt + BitVec.ofNat 32 i)) := by
    rw [show v.cqAt = w.cq.shared.consumer from hr.cqAt.symm]
    exact hr.cqOk.read hi
  have hcomp := drop_of_getElem? hread
  generalize hx : w.cq.read (v.cqAt + BitVec.ofNat 32 i) = x at hcomp
  have hlt := h.free_lt (by
    show 0 < _ + ((w.cq.shared.pending defaultNumDescs).drop i).length
    rw [hcomp, List.length_cons]
    omega)
  obtain ⟨addr, free, heq, hstack, hle, hinv⟩ := xskFreeUmemFrame_eq x hlt h.invalid
  have hget : (get : Xsk World) w = .ok (w, w) := rfl
  rw [bind_ok hget, hx, bind_ok heq]
  rw [h.stack] at hstack
  refine ⟨?_, stack ++ [x], { hr with freed_le := hi }, hstack, hle, hinv, ?_, h.accounted,
    h.filled, h.fill_suffix⟩
  · rw [BitVec.add_assoc, BitVec.ofNat_add]
    rfl
  · have hstep : FramePool.Step numFrames chunkOf _ _ := .recycle
      (p := w.pool (v.recycled i stack)) hcomp
    exact (hstep.conserved h.conserved).of_eq (FramePool.ext rfl rfl rfl rfl rfl rfl rfl rfl rfl)

theorem freeCompleted_consistent {n idx : BitVec 32} (hp : v.cpeeked = n.toNat)
    (hfreed : v.freed = 0) (hidx : idx = v.cqAt) :
    Triple never (Consistent v) (freeCompleted n idx)
      (fun _ w => ∃ stack, Consistent (v.recycled n.toNat stack) w) := by
  have hloop := Triple.forLoop (F := never) (n := n.toNat)
    (I := fun i (idx : BitVec 32) w =>
      idx = v.cqAt + BitVec.ofNat 32 i ∧ ∃ stack, Consistent (v.recycled i stack) w)
    (c := fun _ (idxCq : BitVec 32) => (do
      let w ← get
      xskFreeUmemFrame (w.cq.read idxCq)
      return idxCq + 1 : Xsk (BitVec 32))) ?_ idx
  · refine hloop.conseq (fun w hw => ⟨by simp [hidx], v.stack, ?_⟩) (fun _ _ hw => hw.2)
    have : v.recycled 0 v.stack = v := by rw [View.recycled, ← hfreed]
    exact this ▸ hw
  · intro i idx hi
    refine Triple.pure_pre ?_
    rintro rfl
    exact Triple.exists_pre fun stack => freeRound_consistent (by omega)

/-- The clamp subtracts `completed`: there are at least as many outstanding. -/
theorem releaseCompleted_consistent {completed : BitVec 32} (hp : v.cpeeked = completed.toNat)
    (hfreed : v.freed = completed.toNat) :
    Triple never (Consistent v) (releaseCompleted completed) (fun _ => Consistent
      { v with cpeeked := 0, freed := 0, cqAt := v.cqAt + completed }) := by
  intro w h
  have hr := h.rings
  have ha := h.accounted
  obtain ⟨hok, hpend⟩ := hr.cqOk.release (c := completed) (Nat.le_of_eq hp.symm)
  rw [hp, Nat.sub_self] at hok
  have havail := hr.cqOk.avail
  have hcount : (w.cq.xskRingConsRelease (completed.setWidth 64)).shared.count =
      w.cq.shared.count - completed.toNat := by
    simpa using congrArg List.length hpend
  have hle : completed.toNat ≤ w.outstandingTx.toNat := by have := ha.outstanding; omega
  -- both arms of the clamp subtract `completed`: the second is taken only when they are equal
  have hsub : (w.outstandingTx - if completed < w.outstandingTx then completed
      else w.outstandingTx).toNat = w.outstandingTx.toNat - completed.toNat := by
    split <;> bv_omega
  refine ⟨{ hr with cqOk := hok, cqAt := ?_, freed_le := Nat.le_refl 0 },
    h.stack, h.free_le, h.invalid, ?_, ⟨?_, ?_, ?_⟩, h.filled, h.fill_suffix⟩
  · show w.cq.shared.consumer + (completed.setWidth 64).setWidth 32 = v.cqAt + completed
    rw [hr.cqAt]
    simp
  · refine h.conserved.of_eq (FramePool.ext rfl rfl rfl rfl rfl rfl rfl ?_ rfl)
    show ((w.cq.xskRingConsRelease (completed.setWidth 64)).shared.pending defaultNumDescs).drop 0 =
      (w.cq.shared.pending defaultNumDescs).drop v.freed
    rw [hpend, hfreed, List.drop_zero]
  · show (w.outstandingTx - if completed < w.outstandingTx then completed
        else w.outstandingTx).toNat =
      w.tx.shared.count + w.ktx.length +
        (w.cq.xskRingConsRelease (completed.setWidth 64)).shared.count
    have := ha.outstanding
    omega
  · show w.stats.txPackets = BitVec.ofNat 64 ((w.outstandingTx - if completed < w.outstandingTx
      then completed else w.outstandingTx).toNat + (w.hist.completed + completed.toNat))
    rw [ha.packets, hsub]
    congr 1
    omega
  · show ∀ e ∈ w.hist.completeTx ++ [CompleteTx.clamp completed w.outstandingTx], e.Sound
    rw [List.forall_mem_append, List.forall_mem_singleton]
    exact ⟨ha.log, hle⟩

/-- Nothing is reserved, peeked or under way. -/
structure View.Idle (v : View) : Prop where
  peeked : v.peeked = 0
  done : v.done = 0
  current : v.current = none
  fqFree : v.fqFree = 0
  reserved : v.reserved = 0
  staged : v.staged = []
  txReserved : v.txReserved = 0
  txStaged : v.txStaged = []
  cpeeked : v.cpeeked = 0
  freed : v.freed = 0

/-- Without outstanding frames the completion ring is empty. -/
theorem completeTx_early (h : Consistent v w) (h0 : w.outstandingTx = 0) :
    Consistent v { w with
      hist.completeTx := w.hist.completeTx ++ [.early w.cq.shared.count] } := by
  have ha := h.accounted
  have hout := ha.outstanding
  have hcq : w.cq.shared.count = 0 := by rw [h0] at hout; simp at hout; omega
  refine { h with accounted := { ha with log := ?_ } }
  show ∀ e ∈ w.hist.completeTx ++ [CompleteTx.early w.cq.shared.count], e.Sound
  rw [List.forall_mem_append, List.forall_mem_singleton]
  exact ⟨ha.log, hcq⟩

/-- What an idle `complete_tx` may change of a view. -/
def View.completed (v : View) (stack : List (BitVec 64)) (cqAt : BitVec 32) : View :=
  { v with stack := stack, cqAt := cqAt }

theorem completeTx_consistent (hc : env.Conforming) (hi : v.Idle) :
    Triple never (Consistent v) (completeTx env)
      (fun _ w => ∃ stack cqAt, Consistent (v.completed stack cqAt) w) := by
  refine Triple.bind (Q := fun s w => s = w ∧ Consistent v w) (Triple.get fun w hw => ⟨rfl, hw⟩)
    fun s => ?_
  refine Triple.ite (fun h0 => ?_) (fun _ => ?_)
  · refine Triple.bind (Q := fun _ w => ∃ stack cqAt, Consistent (v.completed stack cqAt) w)
      (Triple.modify ?_) fun _ => Triple.pure fun _ hw => hw
    rintro w ⟨rfl, hw⟩
    exact ⟨v.stack, v.cqAt, completeTx_early hw h0⟩
  refine Triple.conseq (P := Consistent v) ?_ (fun w hw => hw.2) (fun _ _ hw => hw)
  refine Triple.bind (at_consistent hc _) fun _ => ?_
  refine Triple.bind (at_consistent hc _) fun _ => ?_
  refine Triple.bind (Q := fun r w => ∃ k : BitVec 32, (r.1 = k.setWidth 64 ∧
    (k ≠ 0 → r.2 = v.cqAt)) ∧ Consistent { v with cpeeked := k.toNat } w) ?_ ?_
  · intro w h
    have hr := h.rings
    obtain ⟨k, idx, r', heq, hok, hsh, -, hidx, -⟩ :=
      hr.cqOk.peek (c := BitVec.ofNat 32 defaultNumDescs) (by decide) 0
    rw [hi.cpeeked, Nat.zero_add] at hok
    rw [onCq_eq heq]
    refine ⟨k, ⟨rfl, fun hne => ?_⟩, h.withCq hsh hok (by rw [hi.freed]; exact Nat.zero_le _)⟩
    show idx = v.cqAt
    rw [hidx hne, hr.cqOk.cachedCons, hr.cqAt, hi.cpeeked]
    simp
  rintro ⟨ret, idx⟩
  refine Triple.exists_pre fun k => Triple.pure_pre ?_
  rintro ⟨rfl, hidx⟩
  have hk : (k.setWidth 64).setWidth 32 = k := by simp
  simp only [hk]
  refine Triple.ite (fun hpos => ?_) (fun hz => ?_)
  · have hne : k ≠ 0 := by rintro rfl; exact absurd hpos (by decide)
    refine Triple.bind (freeCompleted_consistent rfl hi.freed (hidx hne)) fun _ => ?_
    refine Triple.exists_pre fun stack => ?_
    refine Triple.bind (at_consistent hc _) fun _ => ?_
    refine (releaseCompleted_consistent rfl rfl).conseq (fun _ hw => hw) fun _ w hw =>
      ⟨stack, v.cqAt + k, ?_⟩
    have hv : ({ View.recycled { v with cpeeked := k.toNat } k.toNat stack with
        cpeeked := 0, freed := 0, cqAt := v.cqAt + k } : View) = v.completed stack (v.cqAt + k) := by
      simp [View.recycled, View.completed, hi.cpeeked, hi.freed]
    exact hv ▸ hw
  · have hz : k.toNat = 0 := Nat.eq_zero_of_not_pos hz
    refine Triple.pure fun w hw => ⟨v.stack, v.cqAt, ?_⟩
    rw [hz, ← hi.cpeeked] at hw
    exact hw

/-! ## The call -/

/-- The world in which a call looks at the RX ring. -/
def atPeek (env : Env) (w : World) : World := env.kernel .peekRx w

/-- The world in which a call that found packets looks at the fill ring. -/
def atStock (env : Env) (w : World) : World :=
  env.kernel .stock { atPeek env w with
    rx := ((atPeek env w).rx.xskRingConsPeek (rxBatchSize.setWidth 64) 0).2 }

/-- How many fill entries a call refills. -/
def callStock (env : Env) (w : World) : Nat :=
  if (atPeek env w).rx.shared.count = 0 then 0
  else stock w.freeStack (atStock env w).fq.shared.count

/-- What a call submits on the fill ring. -/
def callFills (env : Env) (w : World) : List (BitVec 64) :=
  refillValues w.freeStack (callStock env w)

/-- Peeking at the RX ring. -/
theorem peekRx_consistent (hi : v.Idle) (h : Consistent v w) :
    ∃ (k idx : BitVec 32) (r : XskRing XdpDesc),
      w.rx.xskRingConsPeek (rxBatchSize.setWidth 64) 0 = ((k.setWidth 64, idx), r) ∧
      r.shared = w.rx.shared ∧ (k ≠ 0 → idx = v.rxAt) ∧ (k = 0 ↔ w.rx.shared.count = 0) ∧
      Consistent { v with peeked := k.toNat } { w with rx := r } := by
  have hr := h.rings
  obtain ⟨k, idx, r, heq, hok, hsh, -, hidx, hz⟩ := hr.rxOk.peek (c := rxBatchSize) (by decide) 0
  rw [hi.peeked] at hz hok
  rw [Nat.zero_add] at hok
  refine ⟨k, idx, r, heq, hsh, fun hne => ?_, hz, h.withRx hsh hok (by rw [hi.done]; exact Nat.zero_le _)⟩
  rw [hidx hne, hr.rxOk.cachedCons, hr.rxAt, hi.peeked]
  simp

theorem atPeek_consistent (hc : env.Conforming) (h : Consistent v w) :
    Consistent v (atPeek env w) :=
  KernelRun.consistent (hc .peekRx w) h

/-- When a call looks at the fill ring, some packets are peeked. -/
theorem atStock_consistent (hc : env.Conforming) (hi : v.Idle) (h : Consistent v w) :
    ∃ k, Consistent { v with peeked := k } (atStock env w) := by
  obtain ⟨k, idx, r, heq, -, -, -, hcon⟩ := peekRx_consistent hi (atPeek_consistent hc h)
  rw [atStock, heq]
  exact ⟨k.toNat, KernelRun.consistent (hc .stock _) hcon⟩

/-- **The first half of a call**, common to both programs: the packets are peeked and
the fill ring is refilled.  `c` is what the program does with the packets, and `R`
anything else that is known after the refill. -/
theorem receive_consistent (hc : env.Conforming) (hi : v.Idle) (h : Consistent v w)
    {c : BitVec 32 → BitVec 32 → Xsk Unit} {Q R : World → Prop}
    (hR : ∀ k, Triple always (fun s => s = atStock env w) (refill env k) (fun _ => R))
    (hnone : (atPeek env w).rx.shared.count = 0 → ∀ w', Consistent v w' → Q w')
    (hrest : ∀ k : BitVec 32, k ≠ 0 → (atPeek env w).rx.shared.count ≠ 0 →
      Triple never
        (fun s => Consistent { v.refilled (callStock env w) with peeked := k.toNat } s ∧ R s)
        (c k v.rxAt) (fun _ => Q)) :
    Triple never (fun s => s = w)
      (do
        env.at .peekRx
        let (rcvd, idxRx) ← onRx (·.xskRingConsPeek (rxBatchSize.setWidth 64) 0)
        let rcvd := rcvd.setWidth 32
        if rcvd = 0 then return
        env.at .stock
        refill env rcvd
        c rcvd idxRx)
      (fun _ => Q) := by
  obtain ⟨k, idx, r, heq, -, hidx, hz, hcon⟩ := peekRx_consistent hi (atPeek_consistent hc h)
  refine Triple.bind (Q := fun _ s => s = atPeek env w) (Triple.modify ?_) fun _ => ?_
  · rintro s rfl
    rfl
  refine Triple.bind (Q := fun x s => x = (k.setWidth 64, idx) ∧ s = { atPeek env w with rx := r })
    ?_ ?_
  · rintro s rfl
    rw [onRx_eq heq]
    exact ⟨rfl, rfl⟩
  rintro ⟨ret, i⟩
  refine Triple.pure_pre fun hx => ?_
  obtain ⟨rfl, rfl⟩ := Prod.mk.inj hx
  have hk : (k.setWidth 64).setWidth 32 = k := by simp
  simp only [hk]
  refine Triple.ite (fun h0 => ?_) (fun hne => ?_)
  · refine Triple.pure ?_
    rintro s rfl
    refine hnone (hz.mp h0) _ ?_
    rw [h0, show (0 : BitVec 32).toNat = 0 from rfl, ← hi.peeked] at hcon
    exact hcon
  · have hcount : (atPeek env w).rx.shared.count ≠ 0 := fun h0 => hne (hz.mpr h0)
    have hst : atStock env w = env.kernel .stock { atPeek env w with rx := r } := by
      rw [atStock, heq]
    have hcs : callStock env w = stock v.stack (atStock env w).fq.shared.count := by
      rw [callStock, if_neg hcount, h.stack]
    refine Triple.bind (Q := fun _ s => s = atStock env w) (Triple.modify ?_) fun _ => ?_
    · rintro s rfl
      exact hst.symm
    -- the stack is as it was at the start of the call: peeking and the kernel do not touch it
    have hrefill := refill_consistent (v := { v with peeked := k.toNat }) hc k hi.reserved
      hi.staged hi.fqFree (hst ▸ KernelRun.consistent (hc .stock _) hcon)
    refine Triple.bind ((hrefill.and (hR k)).conseq (fun s hs => ⟨hs, hs⟩) (fun _ _ hs => hs))
      fun _ => ?_
    rw [hidx hne]
    refine (hrest k hne hcount).conseq (fun w' hw' => ⟨?_, hw'.2⟩) (fun _ _ hw => hw)
    rw [hcs]
    exact hw'.1

/-- The view after the call: idle, with what was submitted on the fill ring recorded and
nothing lost. -/
structure View.CallFrom (v v' : View) (fills lost : List (BitVec 64)) : Prop where
  idle : v'.Idle
  filled : v'.filled = v.filled ++ fills
  lost : v'.lost = v.lost ++ lost

/-- **One call**: from an idle view to an idle view, without halting. -/
theorem handleReceivePackets_consistent (hc : env.Conforming) (hi : v.Idle) (h : Consistent v w) :
    Triple never (fun s => s = w) (handleReceivePackets env)
      (fun _ w' => ∃ v', v.CallFrom v' (callFills env w) [] ∧ Consistent v' w') := by
  refine receive_consistent hc hi h
    (c := fun k idx => do
      let _ ← processPackets env k idx
      env.at .release
      releaseRx k
      completeTx env) (fun _ => Triple.trivial) ?_ ?_
  · intro h0 w' hw'
    have hf : callFills env w = [] := by rw [callFills, callStock, if_pos h0]; rfl
    exact ⟨v, ⟨hi, by rw [hf, List.append_nil], by rw [List.append_nil]⟩, hw'⟩
  · intro k _ _
    refine Triple.conseq ?_ (fun s hs => hs.1) (fun _ _ hs => hs)
    refine Triple.bind (processPackets_consistent hc rfl hi.done hi.current hi.txReserved
      hi.txStaged rfl) fun _ => ?_
    refine Triple.exists_pre fun stack => ?_
    refine Triple.bind (at_consistent hc _) fun _ => ?_
    refine Triple.bind (releaseRx_consistent rfl rfl hi.current) fun _ => ?_
    -- what is left of the call is the release and `complete_tx`, from an idle view
    have hidle : View.Idle { ({ v.refilled (callStock env w) with
        peeked := k.toNat }.after k.toNat stack) with
        peeked := 0, done := 0, rxAt := v.rxAt + k } :=
      { hi with peeked := rfl, done := rfl }
    refine (completeTx_consistent hc hidle).conseq (fun _ hw => hw) ?_
    rintro _ w' ⟨stack', cqAt, hw'⟩
    refine ⟨View.completed _ stack' cqAt, ⟨?_, ?_, ?_⟩, hw'⟩
    · exact { hidle with }
    · show v.filled ++ refillValues v.stack (callStock env w) = v.filled ++ callFills env w
      rw [callFills, h.stack]
    · exact (List.append_nil _).symm

end AfXdpSwitch
