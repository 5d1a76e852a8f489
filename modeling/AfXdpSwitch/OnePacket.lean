import AfXdpSwitch.ConfigureSocket

/-!
# A call that finds one packet

What `handle_receive_packets` does, exactly, when a single packet waits and the
kernel keeps still until it is woken up: an echo request is put on the TX ring, any
other packet is dropped and its frame goes on top of the free stack.
-/

namespace AfXdpSwitch
open SpscRing Prog

variable {env : Env} {v : View} {w : World}

/-- The kernel keeps still until the `sendto` of `complete_tx`. -/
def Env.Still (env : Env) : Prop := ∀ a w, a ≠ .sendto → env.kernel a w = w

/-- What the refill leaves alone. -/
def World.outside (w : World) :=
  (w.rx, w.tx, w.cq, w.buffer, w.krx, w.ktx, w.hist.handled)

section Refill
variable {x : XskRing XdpDesc × XskRing XdpDesc × XskRing (BitVec 64) × ByteMemory ×
  List (BitVec 64) × List (BitVec 64) × List (XdpDesc × Bool)}

theorem at_outside (hq : env.Still) {a : Access} (ha : a ≠ .sendto) :
    Triple always (fun s => s.outside = x) (env.at a) (fun _ s => s.outside = x) :=
  Triple.modify fun s hs => by rw [hq a s ha]; exact hs

theorem onFq_outside {β : Type} (f : XskRing (BitVec 64) → β × XskRing (BitVec 64)) :
    Triple always (fun s => s.outside = x) (onFq f) (fun _ s => s.outside = x) :=
  Triple.modifyGet fun _ hs => hs

theorem retryReserve_outside (hq : env.Still) (k rcvd : BitVec 32) (fuel : Nat) :
    ∀ ret idx, Triple always (fun s => s.outside = x) (retryReserve env k rcvd fuel ret idx)
      (fun _ s => s.outside = x) := by
  induction fuel with
  | zero =>
      intro ret idx
      exact Triple.ite (fun _ => Triple.pure fun _ hs => hs) (fun _ => Triple.throw fun _ _ => trivial)
  | succ fuel ih =>
      intro ret idx
      refine Triple.ite (fun _ => Triple.pure fun _ hs => hs) (fun _ => ?_)
      refine Triple.bind (at_outside hq nofun) fun _ => ?_
      exact Triple.bind (onFq_outside _) fun r => ih _ _

theorem stageFrames_outside (n : Nat) (idx : BitVec 32) :
    Triple always (fun s => s.outside = x) (stageFrames n idx) (fun _ s => s.outside = x) := by
  unfold stageFrames
  refine Triple.forLoop (I := fun _ _ s => World.outside s = x) (fun i idx _ => ?_) idx
  refine Triple.bind (Q := fun _ s => s.outside = x) (Triple.modifyGet fun s hs => ?_) fun _ => ?_
  · split
    · exact hs
    · exact hs
  · exact Triple.bind (onFq_outside _) fun _ => Triple.pure fun _ hs => hs

theorem refill_outside (hq : env.Still) (rcvd : BitVec 32) :
    Triple always (fun s => s.outside = x) (refill env rcvd) (fun _ s => s.outside = x) := by
  refine Triple.bind (Q := fun _ s => s.outside = x) (Triple.bind (Triple.get fun _ hs => hs)
    fun _ => Triple.pure fun _ hs => hs) fun frames => ?_
  refine Triple.bind (onFq_outside _) fun k => ?_
  refine Triple.ite (fun _ => ?_) (fun _ => Triple.pure fun _ hs => hs)
  refine Triple.bind (at_outside hq nofun) fun _ => ?_
  refine Triple.bind (onFq_outside _) fun r => ?_
  refine Triple.bind (retryReserve_outside hq _ _ _ _ _) fun idx => ?_
  refine Triple.bind (stageFrames_outside _ _) fun _ => ?_
  refine Triple.bind (at_outside hq nofun) fun _ => ?_
  exact Triple.bind (Triple.modify fun _ hs => hs) fun _ => onFq_outside _

end Refill

/-! ## The packet -/

/-- A packet that is no echo request is left alone. -/
theorem processPacket_drops (env : Env) (i : Nat) {addr : BitVec 64} {len : BitVec 32}
    (h : isEchoRequest w.buffer addr.toNat len = false) :
    processPacket env i addr len w = .ok (false, w) := by
  have hget : (get : Xsk World) w = .ok (w, w) := rfl
  unfold processPacket
  rw [bind_ok hget, h]
  rfl

/-- An echo request is sent if the TX ring has room. -/
theorem processPacket_sends (hq : env.Still) (i : Nat) {d : XdpDesc} (h : Consistent v w)
    (hres : v.txReserved = 0) (hroom : w.tx.shared.count < defaultNumDescs)
    (hecho : isEchoRequest w.buffer d.addr.toNat d.len = true) :
    ∃ w', processPacket env i d.addr d.len w = .ok (true, w') ∧
      w'.tx.shared.count = w.tx.shared.count + 1 ∧ w'.ktx = w.ktx ∧ w'.cq = w.cq ∧
      w'.hist.handled = w.hist.handled := by
  have hok := h.rings.txOk
  rw [hres] at hok
  obtain ⟨r, heq, hok', hsh⟩ := hok.reserve_room (c := 1)
    (show 1 + 0 + w.tx.shared.count ≤ defaultNumDescs by omega) 0
  -- at every other access than the wake-up the kernel keeps still
  have hat : ∀ (a : Access) (t : XskRing XdpDesc), a ≠ .sendto →
      Triple never (fun s => s.tx = t ∧ s.ktx = w.ktx ∧ s.cq = w.cq ∧
          s.hist.handled = w.hist.handled) (env.at a)
        (fun _ s => s.tx = t ∧ s.ktx = w.ktx ∧ s.cq = w.cq ∧ s.hist.handled = w.hist.handled) :=
    fun a t ha => Triple.modify fun s hs => by rw [hq a s ha]; exact hs
  have htriple : Triple never (fun s => s = w) (processPacket env i d.addr d.len) (fun b s =>
      b = true ∧ s.tx.shared.count = w.tx.shared.count + 1 ∧ s.ktx = w.ktx ∧ s.cq = w.cq ∧
        s.hist.handled = w.hist.handled) := by
    refine Triple.bind (Q := fun s₀ s => s₀ = w ∧ s = w) (Triple.get fun s hs => ⟨hs, hs⟩) ?_
    intro s₀
    refine Triple.pure_pre ?_
    rintro rfl
    refine Triple.ite (fun hne => absurd hne (by rw [hecho]; decide)) (fun _ => ?_)
    refine Triple.bind (Q := fun _ s => s.tx = s₀.tx ∧ s.ktx = s₀.ktx ∧ s.cq = s₀.cq ∧
      s.hist.handled = s₀.hist.handled) (Triple.modify ?_) fun _ => ?_
    · rintro s rfl
      exact ⟨rfl, rfl, rfl, rfl⟩
    refine Triple.bind (hat _ _ nofun) fun _ => ?_
    refine Triple.bind (Q := fun x s => x.1 = 1 ∧ s.tx = r ∧ s.ktx = s₀.ktx ∧ s.cq = s₀.cq ∧
      s.hist.handled = s₀.hist.handled) ?_ ?_
    · rintro s ⟨htx, hsame⟩
      rw [← htx] at heq
      rw [onTx_eq heq]
      exact ⟨rfl, rfl, hsame⟩
    rintro ⟨ret, idx⟩
    refine Triple.pure_pre fun hret => ?_
    obtain rfl : ret = 1 := hret
    refine Triple.ite (fun hne => absurd rfl hne) (fun _ => ?_)
    refine Triple.bind (Q := fun _ s => s.tx = r.store idx d ∧ s.ktx = s₀.ktx ∧ s.cq = s₀.cq ∧
      s.hist.handled = s₀.hist.handled) ?_ ?_
    · rintro s ⟨htx, hsame⟩
      exact ⟨congrArg (·.store idx d) htx, hsame⟩
    intro _
    refine Triple.bind (hat _ _ nofun) fun _ => ?_
    rintro s ⟨htx, hsame⟩
    refine ⟨rfl, ?_, hsame⟩
    show (s.tx.xskRingProdSubmit 1).shared.count = s₀.tx.shared.count + 1
    have hcount : (r.store idx d).shared.count = s₀.tx.shared.count := by
      rw [← hsh]
      rfl
    have hlt : s₀.tx.shared.count + 1 < 2 ^ 32 := by
      have : defaultNumDescs < 2 ^ 31 := by decide
      omega
    rw [htx, ← hcount]
    exact count_publish _ (by rw [hcount]; exact hlt)
  obtain ⟨b, w', heq', rfl, hrest⟩ := htriple.exists_ok rfl
  exact ⟨w', heq', hrest⟩

/-- The loop run on the only packet. -/
theorem processPackets_one (hq : env.Still) {d : XdpDesc} (h : Consistent v w)
    (hpend : w.rx.shared.pending defaultNumDescs = [d]) (hp : v.peeked = 1) (hdone : v.done = 0)
    {Q : World → Prop}
    (hpacket : Consistent { v with current := some d } w →
      Triple never (fun s => s = w) (handlePacket env 0 d) (fun _ => Q)) :
    Triple never (fun s => s = w) (processPackets env 1 v.rxAt) (fun _ => Q) := by
  have hread : w.rx.read v.rxAt = d := by
    have := h.rings.rxOk.read (j := 0) (by rw [hp]; exact Nat.one_pos)
    rw [hpend, h.rings.rxAt] at this
    simpa using this.symm
  have hcur := h.setCurrent (by rw [hp, hdone]; exact Nat.one_pos)
  simp only [hdone, show v.rxAt + BitVec.ofNat 32 0 = v.rxAt by simp, hread] at hcur
  simp only [← hdone] at hcur
  refine Triple.bind (Q := fun _ => Q) ?_ fun _ => Triple.pure fun _ hs => hs
  refine Triple.bind (Q := fun _ s => s = w) (Triple.modify ?_) fun _ => ?_
  · rintro s rfl
    exact hq _ _ nofun
  refine Triple.bind (Q := fun s₀ s => s₀ = w ∧ s = w) (Triple.get fun s hs => ⟨hs, hs⟩) ?_
  intro s₀
  refine Triple.pure_pre ?_
  rintro rfl
  rw [hread]
  exact Triple.bind (hpacket hcur) fun _ => Triple.pure fun _ hs => hs

/-! ## The call -/

/-- After the refill the call is left with its packet. -/
theorem one_packet (hc : env.Conforming) (hq : env.Still) (hi : v.Idle) (h : Consistent v w)
    {d : XdpDesc} (hpend : w.rx.shared.pending defaultNumDescs = [d]) {Q : World → Prop}
    (hrest : ∀ s, Consistent { v.refilled (callStock env w) with peeked := 1 } s →
      s.rx.shared.pending defaultNumDescs = [d] →
      (s.tx, s.cq, s.buffer, s.krx, s.ktx, s.hist.handled) =
        (w.tx, w.cq, w.buffer, w.krx, w.ktx, w.hist.handled) →
      Triple never (fun s' => s' = s)
        (do
          let _ ← processPackets env 1 v.rxAt
          env.at .release
          releaseRx 1
          completeTx env)
        (fun _ => Q)) :
    Triple never (fun s => s = w) (handleReceivePackets env) (fun _ => Q) := by
  have hpeek : atPeek env w = w := hq _ _ (by simp)
  have hcount : w.rx.shared.count = 1 := by
    rw [← length_pending (n := defaultNumDescs), hpend]
    rfl
  obtain ⟨k₀, idx, r, heq, hsh, -, -, -⟩ := peekRx_consistent hi h
  have hstock : (atStock env w).outside =
      (r, w.tx, w.cq, w.buffer, w.krx, w.ktx, w.hist.handled) := by
    rw [atStock, hq .stock _ (by simp), hpeek, heq]
    rfl
  refine receive_consistent hc hi h
    (c := fun k idx => do
      let _ ← processPackets env k idx
      env.at .release
      releaseRx k
      completeTx env)
    (R := fun s => s.outside = (r, w.tx, w.cq, w.buffer, w.krx, w.ktx, w.hist.handled))
    (fun k => (refill_outside hq k).conseq (fun s hs => by rw [hs, hstock]) fun _ _ hs => hs) ?_ ?_
  · intro h0
    rw [hpeek] at h0
    omega
  · rintro k hne - s ⟨hs, hout⟩
    simp only [World.outside, Prod.mk.injEq] at hout
    obtain ⟨hrx, htx, hcq, hbuf, hkrx, hktx, hhandled⟩ := hout
    -- the peek took at least one and there is only one
    have hk : k.toNat = 1 := by
      have havail := hs.rings.rxOk.avail
      rw [hrx, hsh, hcount] at havail
      have : k.toNat ≠ 0 := fun h0 => hne (BitVec.eq_of_toNat_eq h0)
      simp only at havail
      omega
    obtain rfl : k = 1 := BitVec.eq_of_toNat_eq hk
    exact hrest s hs (by rw [hrx, hsh, hpend]) (by rw [htx, hcq, hbuf, hkrx, hktx, hhandled])
      s rfl

/-- Freeing a frame changes the free stack only. -/
theorem xskFreeUmemFrame_frame (frame : BitVec 64) {R : World → Prop}
    (hR : ∀ s addr free, R s → R { s with umemFrameAddr := addr, umemFrameFree := free }) :
    Triple always R (xskFreeUmemFrame frame) (fun _ => R) := by
  refine Triple.bind (Q := fun s₀ s => s₀ = s ∧ R s) (Triple.get fun s hs => ⟨rfl, hs⟩) fun s₀ => ?_
  refine Triple.ite (fun _ => ?_) (fun _ => Triple.throw fun _ _ => True.intro)
  rintro s ⟨rfl, hs⟩
  exact hR s₀ _ _ hs

/-- Nothing is outstanding if nothing is anywhere on the way. -/
theorem Consistent.outstanding_eq_zero (h : Consistent v w) (htx : w.tx.shared.count = 0)
    (hktx : w.ktx = []) (hcq : w.cq.shared.count = 0) : w.outstandingTx = 0 := by
  have hout := h.accounted.outstanding
  rw [htx, hktx, hcq] at hout
  exact BitVec.eq_of_toNat_eq hout

/-- Without outstanding frames `complete_tx` does nothing. -/
theorem completeTx_zero (env : Env) (v : View) (krx : List (BitVec 64)) :
    Triple never (fun s => Consistent v s ∧ s.outstandingTx = 0 ∧ s.krx = krx) (completeTx env)
      (fun _ s => Consistent v s ∧ s.krx = krx) := by
  refine Triple.bind (Q := fun s₀ s => s₀ = s ∧ Consistent v s ∧ s.outstandingTx = 0 ∧ s.krx = krx)
    (Triple.get fun s hs => ⟨rfl, hs⟩) fun s₀ => ?_
  refine Triple.ite (fun h0 => ?_) (fun hne => ?_)
  · refine Triple.bind (Q := fun _ s => Consistent v s ∧ s.krx = krx) (Triple.modify ?_)
      fun _ => Triple.pure fun _ hs => hs
    rintro s ⟨rfl, hs, -, hkrx⟩
    exact ⟨completeTx_early hs h0, hkrx⟩
  · rintro s ⟨rfl, -, h0, -⟩
    exact absurd h0 hne

/-- The view before and after the release of the packet, with `stack` on the free
stack. -/
def View.handledOne (v : View) (k : Nat) (stack : List (BitVec 64)) : View :=
  { v.refilled k with stack := stack, peeked := 1, done := 1 }

@[inherit_doc View.handledOne]
def View.releasedOne (v : View) (k : Nat) (stack : List (BitVec 64)) : View :=
  { v.refilled k with stack := stack, rxAt := v.rxAt + 1 }

theorem View.releasedOne_idle (hi : v.Idle) (k : Nat) (stack : List (BitVec 64)) :
    (v.releasedOne k stack).Idle := { hi with }

/-- The release, with the kernel still. -/
theorem releaseOne_consistent (hq : env.Still) (hi : v.Idle) (k : Nat) (stack : List (BitVec 64))
    {R : World → Prop} (hR : ∀ s s', R s → s'.tx = s.tx → s'.cq = s.cq → s'.krx = s.krx →
      s'.ktx = s.ktx → s'.outstandingTx = s.outstandingTx →
      s'.hist.handled = s.hist.handled → R s') {Q : World → Prop}
    (hrest : Triple never (fun s => Consistent (v.releasedOne k stack) s ∧ R s) (completeTx env)
      (fun _ => Q)) :
    Triple never (fun s => Consistent (v.handledOne k stack) s ∧ R s)
      (do
        env.at .release
        releaseRx 1
        completeTx env)
      (fun _ => Q) := by
  refine Triple.bind (Q := fun _ s => Consistent (v.handledOne k stack) s ∧ R s)
    (Triple.modify fun s hs => ?_) fun _ => ?_
  · rw [hq .release s nofun]
    exact hs
  have hrelease : Triple always R (releaseRx 1) (fun _ => R) := by
    refine Triple.bind (Q := fun _ => R) (Triple.modifyGet fun s hs => ?_) fun _ =>
      Triple.modify fun s hs => ?_
    · exact hR s { s with rx := s.rx.xskRingConsRelease 1 } hs rfl rfl rfl rfl rfl rfl
    · refine hR s _ hs ?_ ?_ ?_ ?_ ?_ ?_ <;> rfl
  refine Triple.bind ((releaseRx_consistent (v := v.handledOne k stack) rfl rfl hi.current).and
    hrelease) fun _ => ?_
  have hv : ({ v.handledOne k stack with peeked := 0, done := 0, rxAt := v.rxAt + 1 } : View) =
      v.releasedOne k stack := by
    simp [View.handledOne, View.releasedOne, View.refilled, hi.peeked, hi.done]
  exact hrest.conseq (fun s hs => ⟨hv ▸ hs.1, hs.2⟩) (fun _ _ hs => hs)

/-- **A packet that is no echo request** ends up on top of the free stack. -/
theorem one_packet_dropped (hc : env.Conforming) (hq : env.Still) (hi : v.Idle)
    (h : Consistent v w) {d : XdpDesc} (hpend : w.rx.shared.pending defaultNumDescs = [d])
    (hecho : isEchoRequest w.buffer d.addr.toNat d.len = false)
    (htx : w.tx.shared.count = 0) (hktx : w.ktx = []) (hcq : w.cq.shared.count = 0) :
    ∃ w', handleReceivePackets env w = .ok ((), w') ∧ w'.krx = w.krx ∧ Consistent
      (v.releasedOne (callStock env w) (popped v.stack (callStock env w) ++ [d.addr])) w' := by
  have htriple : Triple never (fun s => s = w) (handleReceivePackets env) (fun _ s => Consistent
      (v.releasedOne (callStock env w) (popped v.stack (callStock env w) ++ [d.addr])) s ∧
      s.krx = w.krx) := by
    refine one_packet hc hq hi h hpend fun s hs hpend' hsame => ?_
    simp only [Prod.mk.injEq] at hsame
    obtain ⟨htx', hcq', hbuf', hkrx', hktx', -⟩ := hsame
    have hout : s.outstandingTx = 0 :=
      hs.outstanding_eq_zero (by rw [htx', htx]) (by rw [hktx', hktx]) (by rw [hcq', hcq])
    refine Triple.bind (processPackets_one hq hs hpend' rfl hi.done fun hcur => ?_) fun _ =>
      releaseOne_consistent hq hi _ _ (R := fun s => s.outstandingTx = 0 ∧ s.krx = w.krx)
        (fun s s' hs' _ _ h1 _ h2 _ => by rw [h1, h2]; exact hs') (completeTx_zero env _ _)
    refine Triple.bind (Q := fun b s' => b = false ∧ s' = s) ?_ fun sent => ?_
    · rintro s' rfl
      rw [processPacket_drops env 0 (by rw [hbuf', hecho])]
      exact ⟨rfl, rfl⟩
    refine Triple.pure_pre ?_
    rintro rfl
    have hfree := (freePacket_consistent (v := { v.refilled (callStock env w) with
      peeked := 1, current := some d }) rfl
      (show v.done < 1 by rw [hi.done]; exact Nat.one_pos)).and
      (xskFreeUmemFrame_frame d.addr (R := fun s => s.outstandingTx = 0 ∧ s.krx = w.krx)
        fun _ _ _ hs => hs)
    refine Triple.bind (hfree.conseq (fun s' (hs' : s' = s) => ?_) (fun _ _ hs' => hs')) fun _ => ?_
    · rw [hs']
      exact ⟨hcur, hout, hkrx'⟩
    refine Triple.modify fun s' hs' => ⟨?_, hs'.2⟩
    have hv : View.dropped { v.refilled (callStock env w) with
        peeked := 1, current := some d } d =
        v.handledOne (callStock env w) (popped v.stack (callStock env w) ++ [d.addr]) := by
      simp [View.dropped, View.handledOne, View.refilled, hi.done, hi.current]
    exact { hv ▸ hs'.1 with }
  obtain ⟨⟨⟩, w', heq, hw', hkrx⟩ := htriple.exists_ok rfl
  exact ⟨w', heq, hkrx, hw'⟩

/-- **An echo request** is on the TX ring when `complete_tx` is called. -/
theorem one_packet_sent (hc : env.Conforming) (hq : env.Still) (hi : v.Idle)
    (h : Consistent v w) {d : XdpDesc} (hpend : w.rx.shared.pending defaultNumDescs = [d])
    (hecho : isEchoRequest w.buffer d.addr.toNat d.len = true)
    (htx : w.tx.shared.count = 0) {Q : World → Prop}
    (hrest : ∀ v' : View, v'.Idle → Triple never (fun s => Consistent v' s ∧
      s.tx.shared.count = 1 ∧ s.ktx = w.ktx ∧ s.cq = w.cq ∧
      s.hist.handled = w.hist.handled ++ [(d, true)]) (completeTx env) (fun _ => Q)) :
    Triple never (fun s => s = w) (handleReceivePackets env) (fun _ => Q) := by
  refine one_packet hc hq hi h hpend fun s hs hpend' hsame => ?_
  simp only [Prod.mk.injEq] at hsame
  obtain ⟨htx', hcq', hbuf', -, hktx', hhandled'⟩ := hsame
  refine Triple.bind (processPackets_one hq hs hpend' rfl hi.done fun hcur => ?_) fun _ =>
    releaseOne_consistent hq hi (callStock env w) (popped v.stack (callStock env w))
      (R := fun s => s.tx.shared.count = 1 ∧ s.ktx = w.ktx ∧ s.cq = w.cq ∧
        s.hist.handled = w.hist.handled ++ [(d, true)])
      (fun s s' hs' h1 h2 _ h3 _ h4 => by rw [h1, h2, h3, h4]; exact hs')
      (hrest _ (View.releasedOne_idle hi _ _))
  obtain ⟨s₁, heq, htx₁, hktx₁, hcq₁, hhandled₁⟩ := processPacket_sends hq 0 hs hi.txReserved
    (by rw [htx', htx]; decide) (d := d) (by rw [hbuf', hecho])
  have hsent := processPacket_consistent (v := { v.refilled (callStock env w) with
    peeked := 1, current := some d }) hc 0 rfl (show v.done < 1 by rw [hi.done]; exact Nat.one_pos)
    hi.txReserved hi.txStaged s hcur
  rw [heq] at hsent
  refine Triple.bind (Q := fun b s' => b = true ∧ s' = s₁) ?_ fun sent => ?_
  · rintro s' rfl
    rw [heq]
    exact ⟨rfl, rfl⟩
  refine Triple.pure_pre ?_
  rintro rfl
  refine Triple.modify ?_
  rintro s' rfl
  have hv : View.sent { v.refilled (callStock env w) with peeked := 1, current := some d } =
      v.handledOne (callStock env w) (popped v.stack (callStock env w)) := by
    simp [View.sent, View.handledOne, View.refilled, hi.done, hi.current]
  refine ⟨{ hv ▸ hsent with }, ?_, ?_, ?_, ?_⟩
  · rw [htx', htx] at htx₁
    exact htx₁
  · exact hktx₁.trans hktx'
  · exact hcq₁.trans hcq'
  · show s'.hist.handled ++ [(d, true)] = _
    rw [hhandled₁, hhandled']

/-- After the set-up the kernel can deliver any packet. -/
theorem Configured.deliver_one (h : Configured w) (packet : Nat → ByteMemory) (len : BitVec 32) :
    ∃ w' d, KernelRun w w' ∧ w'.rx.shared.pending defaultNumDescs = [d] ∧ d.len = len ∧
      w'.buffer = packet d.addr.toNat ∧ w'.tx = w.tx ∧ w'.ktx = w.ktx ∧ w'.cq = w.cq ∧
      w'.hist.handled = w.hist.handled := by
  have hlen : 0 < (w.fq.shared.pending defaultNumDescs).length := by
    rw [h.fill, length_refillValues]
    decide
  obtain ⟨a, rest, ha⟩ := List.exists_cons_of_length_pos hlen
  have hframe : a.toNat < numFrames * frameSize :=
    (chunkOf_lt_iff a).mp (h.fill_frames a (by rw [ha]; exact List.mem_cons_self))
  have room : w.rx.shared.count < defaultNumDescs := by rw [h.rx]; decide
  have hnil : w.rx.shared.pending defaultNumDescs = [] := by
    rw [← List.length_eq_zero_iff, length_pending, h.rx]
  have hkrx : w.krx ++ [a] = [] ++ a :: [] := by rw [h.krx]
  refine ⟨_, ⟨a, len⟩, .tail (.tail (.single (.takeFill (a := a) (by rw [ha]; rfl) hframe))
    (.write (packet a.toNat))) (.deliver ⟨a, len⟩ hkrx rfl room), ?_, rfl, rfl, rfl, rfl, rfl, rfl⟩
  show (w.rx.shared.push defaultNumDescs ⟨a, len⟩).pending defaultNumDescs = [⟨a, len⟩]
  rw [pending_push fits_default _ _ room, hnil, List.nil_append]

end AfXdpSwitch
