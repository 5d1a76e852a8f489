import AfXdpSwitch.TransmitAccounting

/-!
# Packets are processed once, in order

This holds for a much weaker kernel than that of `KernelStep`: all `RxStep` asks of
it is that it appends to the RX ring without overfilling it.  It may move the other
indices it owns anywhere, invent completions and write anything into the UMEM.
Then a frame may be freed twice and the assertion of `xsk_free_umem_frame` may stop
the program, but the packets are still passed to `process_packet` one by one.
-/

namespace AfXdpSwitch
open SpscRing Prog

/-- A kernel that is trusted with the RX ring only. -/
inductive RxStep : World → World → Prop
  | deliver {w} (d : XdpDesc) (room : w.rx.shared.count < defaultNumDescs) :
      RxStep w { w with
        rx.shared := w.rx.shared.push defaultNumDescs d
        hist.delivered := w.hist.delivered ++ [d] }
  | other {w} (fqConsumer txConsumer cqProducer : BitVec 32) (cqDesc : Nat → BitVec 64)
      (buffer : ByteMemory) (krx ktx : List (BitVec 64)) :
      RxStep w { w with
        fq.shared.consumer := fqConsumer
        tx.shared.consumer := txConsumer
        cq.shared.producer := cqProducer
        cq.shared.desc := cqDesc
        buffer := buffer
        krx := krx
        ktx := ktx }

/-- Only a failed assertion may stop a call. -/
def assertOnly : Halt → Prop := fun e => e = .assertFailed

/-- How far a call has got with the RX and TX rings: the RX consumer index, the entries
peeked and not released, how many of them are handled and the one that is being
handled; the TX entries reserved and not submitted, the value written to the first,
what is submitted on behalf of the packet that is being handled; and how many fill
entries the private copies promise. -/
structure Progress where
  rxAt : BitVec 32 := 0
  current : Option XdpDesc := none
  peeked : Nat := 0
  done : Nat := 0
  reserved : Nat := 0
  staged : Option XdpDesc := none
  extra : List XdpDesc := []
  promised : Option (BitVec 32) := none

/-- The history is that of an in-order receiver. -/
structure InOrder (p : Progress) (w : World) : Prop where
  rxOk : w.rx.ConsOk defaultNumDescs p.peeked
  done_le : p.done ≤ p.peeked
  consumer : w.rx.shared.consumer = p.rxAt
  released : p.rxAt = BitVec.ofNat 32 w.hist.released
  current : ∀ d ∈ p.current, (w.rx.shared.pending defaultNumDescs)[p.done]? = some d
  delivered : w.hist.delivered =
    w.hist.handled.map Prod.fst ++ (w.rx.shared.pending defaultNumDescs).drop p.done
  length : w.hist.handled.length = w.hist.released + p.done
  txAt : w.tx.cachedProd = w.tx.shared.producer + BitVec.ofNat 32 p.reserved
  staged : ∀ d ∈ p.staged, w.tx.read w.tx.shared.producer = d
  submitted : w.hist.submitted = (w.hist.handled.filter Prod.snd).map Prod.fst ++ p.extra
  promised : ∀ k ∈ p.promised, w.fq.cachedCons - w.fq.cachedProd = k
  rxPackets : w.stats.rxPackets = BitVec.ofNat 64 w.hist.released
  rxBytes : w.stats.rxBytes =
    BitVec.ofNat 64 (w.hist.handled.map fun h => h.1.len.toNat).sum

variable {env : Env} {p : Progress} {w w' : World}

theorem RxStep.inOrder (hs : RxStep w w') (h : InOrder p w) : InOrder p w' := by
  cases hs with
  | deliver d room =>
      refine { h with
        rxOk := h.rxOk.produce d room, current := fun x hx => ?_, delivered := ?_ }
      · have hx' := h.current x hx
        show ((w.rx.shared.push defaultNumDescs d).pending defaultNumDescs)[p.done]? = some x
        rw [pending_push fits_default _ _ room, List.getElem?_append_left, hx']
        exact (List.getElem?_eq_some_iff.mp hx').1
      have hlen : p.done ≤ (w.rx.shared.pending defaultNumDescs).length := by
        have := h.rxOk.avail; have := h.done_le; rw [length_pending]; omega
      show w.hist.delivered ++ [d] = w.hist.handled.map Prod.fst ++
        ((w.rx.shared.push defaultNumDescs d).pending defaultNumDescs).drop p.done
      rw [pending_push fits_default _ _ room, List.drop_append_of_le_length hlen, h.delivered,
        List.append_assoc]
  | other => exact { h with }

theorem at_inOrder (hc : env.Follows RxStep) (a : Access) :
    Triple assertOnly (InOrder p) (env.at a) (fun _ => InOrder p) := by
  refine Triple.modify fun w hw => ?_
  have key : ∀ w', Relation.ReflTransGen RxStep w w' → InOrder p w' := by
    intro w' hrun
    induction hrun with
    | refl => exact hw
    | tail _ hs ih => exact hs.inOrder ih
  exact key _ (hc a w)

/-! ## The functions that leave RX and TX alone -/

theorem onFq_inOrder {β : Type} (f : XskRing (BitVec 64) → β × XskRing (BitVec 64)) :
    Triple assertOnly (InOrder p) (onFq f) (fun _ => InOrder { p with promised := none }) :=
  Triple.modifyGet fun _ hw => { hw with promised := fun _ hk => absurd hk (Option.not_mem_none _) }

theorem onCq_inOrder {β : Type} (f : XskRing (BitVec 64) → β × XskRing (BitVec 64)) :
    Triple assertOnly (InOrder p) (onCq f) (fun _ => InOrder p) :=
  Triple.modifyGet fun _ hw => { hw with }

theorem xskAllocUmemFrame_inOrder :
    Triple assertOnly (InOrder p) xskAllocUmemFrame (fun _ => InOrder p) := by
  refine Triple.modifyGet fun w hw => ?_
  by_cases h0 : w.umemFrameFree = 0
  · rw [if_pos h0]
    exact hw
  · rw [if_neg h0]
    exact { hw with }

/-- The only place where a call may stop. -/
theorem xskFreeUmemFrame_inOrder (frame : BitVec 64) :
    Triple assertOnly (InOrder p) (xskFreeUmemFrame frame) (fun _ => InOrder p) := by
  refine Triple.bind (Q := fun s w => s = w ∧ InOrder p w) (Triple.get fun w hw => ⟨rfl, hw⟩) ?_
  intro s
  refine Triple.ite (fun _ => ?_) (fun _ => Triple.throw fun _ _ => rfl)
  rintro w ⟨rfl, hw⟩
  exact { hw with }

theorem stageFrames_inOrder (n : Nat) (idx : BitVec 32) :
    Triple assertOnly (InOrder { p with promised := none }) (stageFrames n idx)
      (fun _ => InOrder { p with promised := none }) := by
  unfold stageFrames
  refine Triple.forLoop (I := fun _ _ => InOrder { p with promised := none }) (fun i idx _ => ?_) idx
  refine Triple.bind xskAllocUmemFrame_inOrder fun frame => ?_
  exact Triple.bind (onFq_inOrder _) fun _ => Triple.pure fun _ hw => hw

theorem submitFill_inOrder (k : BitVec 32) :
    Triple assertOnly (InOrder p) (submitFill k) (fun _ => InOrder { p with promised := none }) :=
  Triple.bind (Q := fun _ => InOrder p) (Triple.modify fun _ hw => { hw with })
    fun _ => onFq_inOrder _

/-- The refill.  It returns whatever the consumer index does: the first reservation
asks for no more than the private copies promise. -/
theorem refill_inOrder (hc : env.Follows RxStep) (rcvd : BitVec 32) :
    Triple assertOnly (InOrder p) (refill env rcvd)
      (fun _ => InOrder { p with promised := none }) := by
  refine Triple.bind (Q := fun _ => InOrder p) (Triple.bind (Triple.get fun _ hw => hw)
    fun _ => Triple.pure fun _ hw => hw) fun frames => ?_
  refine Triple.bind (Q := fun k => InOrder { p with promised := some k }) ?_ fun k => ?_
  · intro w hw
    -- nothing is known of the consumer index, but the result is what the private copies say
    obtain ⟨hk, -, -⟩ := w.fq.xskProdNbFree_cached (frames.setWidth 32)
    refine { hw with promised := fun k hmem => ?_ }
    obtain rfl := Option.mem_some_iff.mp hmem
    exact hk.symm
  refine Triple.ite (fun _ => ?_) (fun _ => ?_)
  · refine Triple.bind (at_inOrder hc _) fun _ => ?_
    refine Triple.bind (Q := fun r w => r.1 = k.setWidth 64 ∧ InOrder { p with promised := none } w)
      ?_ ?_
    · intro w hw
      have heq := XskRing.xskRingProdReserve_cached (hw.promised k rfl) 0
      rw [onFq_eq heq]
      exact ⟨rfl, { hw with promised := fun _ hk => absurd hk (Option.not_mem_none _) }⟩
    rintro ⟨ret, idx⟩
    refine Triple.pure_pre fun hret => ?_
    obtain rfl : ret = k.setWidth 64 := hret
    show Triple assertOnly _ (retryReserve env k rcvd env.retries ((k.setWidth 64).setWidth 32) idx
      >>= _) _
    rw [show (k.setWidth 64).setWidth 32 = k by simp, retryReserve_self, pure_bind]
    refine Triple.bind (stageFrames_inOrder _ _) fun _ => ?_
    refine Triple.bind (at_inOrder hc _) fun _ => ?_
    exact submitFill_inOrder k
  · exact Triple.pure fun w hw =>
      { hw with promised := fun _ hk => absurd hk (Option.not_mem_none _) }

theorem completeTx_inOrder (hc : env.Follows RxStep) :
    Triple assertOnly (InOrder p) (completeTx env) (fun _ => InOrder p) := by
  refine Triple.bind (Q := fun _ => InOrder p) (Triple.get fun _ hw => hw) fun s => ?_
  refine Triple.ite (fun _ => ?_) (fun _ => ?_)
  · exact Triple.bind (Q := fun _ => InOrder p) (Triple.modify fun _ hw => { hw with })
      fun _ => Triple.pure fun _ hw => hw
  refine Triple.bind (at_inOrder hc _) fun _ => ?_
  refine Triple.bind (at_inOrder hc _) fun _ => ?_
  refine Triple.bind (onCq_inOrder _) ?_
  rintro ⟨ret, idx⟩
  refine Triple.ite (fun _ => ?_) (fun _ => Triple.pure fun _ hw => hw)
  refine Triple.bind (Q := fun _ => InOrder p) ?_ fun _ => ?_
  · refine Triple.forLoop (I := fun _ _ => InOrder p) (fun i idx _ => ?_) idx
    refine Triple.bind (Q := fun _ => InOrder p) (Triple.get fun _ hw => hw) fun s => ?_
    exact Triple.bind (xskFreeUmemFrame_inOrder _) fun _ => Triple.pure fun _ hw => hw
  · refine Triple.bind (at_inOrder hc _) fun _ => ?_
    exact Triple.bind (onCq_inOrder _) fun _ => Triple.modify fun _ hw => { hw with }

/-! ## The packets -/

/-- `process_packet` submits the descriptor it was given, or nothing. -/
theorem processPacket_inOrder (hc : env.Follows RxStep) (i : Nat) (d : XdpDesc)
    (hr : p.reserved = 0) (hs : p.staged = none) (he : p.extra = []) :
    Triple assertOnly (InOrder p) (processPacket env i d.addr d.len)
      (fun b => InOrder { p with extra := if b then [d] else [] }) := by
  have hp : ({ p with extra := [] } : Progress) = p := by rw [← he]
  refine Triple.bind (Q := fun _ => InOrder p) (Triple.get fun _ hw => hw) fun s => ?_
  refine Triple.ite (fun _ => Triple.pure fun _ hw => hp.symm ▸ hw) (fun _ => ?_)
  refine Triple.bind (Q := fun _ => InOrder p) (Triple.modify fun _ hw => { hw with }) fun _ => ?_
  refine Triple.bind (at_inOrder hc _) fun _ => ?_
  refine Triple.bind (Q := fun r w => (r.1 = 0 ∧ InOrder p w) ∨
    (r.1 = 1 ∧ r.2 = w.tx.shared.producer ∧ InOrder { p with reserved := 1 } w)) ?_ ?_
  · intro w h
    rcases w.tx.xskRingProdReserve_cases 1 0 with ⟨r, heq, -, hsh, hcp⟩ | ⟨r, heq, hsh, hcp⟩
    · rw [onTx_eq heq]
      refine .inl ⟨rfl, { h with txAt := ?_, staged := by simp [hs] }⟩
      show r.cachedProd = r.shared.producer + _
      rw [hcp, hsh, h.txAt]
    · rw [onTx_eq heq]
      refine .inr ⟨rfl, ?_, { h with txAt := ?_, staged := by simp [hs] }⟩
      · show w.tx.cachedProd = r.shared.producer
        rw [h.txAt, hsh, hr]
        simp
      · show r.cachedProd = r.shared.producer + _
        rw [hcp, hsh, h.txAt, hr]
        simp
  rintro ⟨ret, txIdx⟩
  refine Triple.ite (fun hne => Triple.pure fun w hw => ?_) (fun heq => ?_)
  · rcases hw with ⟨-, h⟩ | ⟨h1, -, -⟩
    · exact hp.symm ▸ h
    · exact absurd (by rw [show ret = 1 from h1]; rfl) hne
  refine Triple.bind (Q := fun _ => InOrder { p with reserved := 1, staged := some d }) ?_ ?_
  · rintro w (⟨h0, -⟩ | ⟨-, rfl, h⟩)
    · exact absurd (show ret.setWidth 32 ≠ 1 by rw [show ret = 0 from h0]; decide) heq
    refine { h with staged := fun d' hd' => ?_ }
    obtain rfl := Option.mem_some_iff.mp hd'
    exact Function.update_self ..
  intro _
  refine Triple.bind (at_inOrder hc _) fun _ => ?_
  intro w h
  -- the reserved entry holds the packet until it is published
  have hread := h.staged d rfl
  refine { h with txAt := ?_, staged := by simp [hs], submitted := ?_ }
  · show w.tx.cachedProd = w.tx.shared.producer + 1 + BitVec.ofNat 32 p.reserved
    rw [h.txAt, hr]
    simp
  · show w.hist.submitted ++ [w.tx.read w.tx.shared.producer] =
      (w.hist.handled.filter Prod.snd).map Prod.fst ++ [d]
    rw [hread, h.submitted, he, List.append_nil]

theorem setWidth_eq_ofNat (x : BitVec 32) : x.setWidth 64 = BitVec.ofNat 64 x.toNat := by
  apply BitVec.eq_of_toNat_eq
  simp

/-- Handling one packet. -/
theorem handled_inOrder {d : XdpDesc} {b : Bool} (hcur : p.current = some d)
    (hlt : p.done < p.peeked) (he : p.extra = if b then [d] else []) (h : InOrder p w) :
    InOrder { p with done := p.done + 1, current := none, extra := [] }
      { w with
        hist.handled := w.hist.handled ++ [(d, b)]
        stats.rxBytes := w.stats.rxBytes + d.len.setWidth 64 } := by
  refine { h with
    done_le := hlt, current := fun _ hx => absurd hx (Option.not_mem_none _)
    delivered := ?_, length := ?_, submitted := ?_, rxBytes := ?_ }
  · show w.hist.delivered = (w.hist.handled ++ [(d, b)]).map Prod.fst ++
      (w.rx.shared.pending defaultNumDescs).drop (p.done + 1)
    rw [h.delivered, drop_of_getElem? (h.current d hcur), List.map_append, List.append_assoc]
    rfl
  · show (w.hist.handled ++ [(d, b)]).length = w.hist.released + (p.done + 1)
    rw [List.length_append, h.length]
    rfl
  · show w.hist.submitted = ((w.hist.handled ++ [(d, b)]).filter Prod.snd).map Prod.fst ++ []
    rw [h.submitted, he]
    cases b <;> simp
  · show w.stats.rxBytes + d.len.setWidth 64 =
      BitVec.ofNat 64 ((w.hist.handled ++ [(d, b)]).map fun h => h.1.len.toNat).sum
    rw [h.rxBytes, List.map_append, List.sum_append, BitVec.ofNat_add, setWidth_eq_ofNat]
    simp

theorem handlePacket_inOrder (hc : env.Follows RxStep) (i : Nat) {d : XdpDesc}
    (hcur : p.current = some d) (hlt : p.done < p.peeked) (hr : p.reserved = 0)
    (hs : p.staged = none) (he : p.extra = []) :
    Triple assertOnly (InOrder p) (handlePacket env i d)
      (fun _ => InOrder { p with done := p.done + 1, current := none, extra := [] }) := by
  refine Triple.bind (processPacket_inOrder hc i d hr hs he) fun sent => ?_
  have htail : Triple assertOnly (InOrder { p with extra := if sent then [d] else [] })
      (modify fun w : World => { w with
        hist.handled := w.hist.handled ++ [(d, sent)]
        stats.rxBytes := w.stats.rxBytes + d.len.setWidth 64 } : Xsk Unit)
      (fun _ => InOrder { p with done := p.done + 1, current := none, extra := [] }) :=
    Triple.modify fun w hw => handled_inOrder (p := { p with extra := if sent then [d] else [] })
      hcur hlt rfl hw
  cases sent with
  | true => exact htail
  | false => exact Triple.bind (xskFreeUmemFrame_inOrder _) fun _ => htail

/-- In a batch of `k` packets from index `c` on, `i` are handled and `d` is next. -/
def Progress.batch (c : BitVec 32) (k i : Nat) (d : Option XdpDesc) : Progress :=
  { rxAt := c, peeked := k, done := i, current := d }

theorem processPackets_inOrder (hc : env.Follows RxStep) (rcvd c : BitVec 32) :
    Triple assertOnly (InOrder (.batch c rcvd.toNat 0 none)) (processPackets env rcvd c)
      (fun _ => InOrder (.batch c rcvd.toNat rcvd.toNat none)) := by
  have hloop := Triple.forLoop (F := assertOnly) (n := rcvd.toNat)
    (I := fun i (idx : BitVec 32) w =>
      idx = c + BitVec.ofNat 32 i ∧ InOrder (.batch c rcvd.toNat i none) w)
    (c := fun i (idxRx : BitVec 32) => (do
      env.at (.packet i)
      let w ← get
      handlePacket env i (w.rx.read idxRx)
      return idxRx + 1 : Xsk (BitVec 32))) ?_ c
  · exact hloop.conseq (fun w hw => ⟨by simp, hw⟩) (fun _ _ hw => hw.2)
  · intro i idx hi
    refine Triple.pure_pre ?_
    rintro rfl
    refine Triple.bind (at_inOrder hc _) fun _ => ?_
    refine Triple.bind (Q := fun s => InOrder (.batch c rcvd.toNat i
      (some (s.rx.read (c + BitVec.ofNat 32 i))))) (Triple.get fun w hw => ?_) fun s => ?_
    · refine { hw with current := fun d hd => ?_ }
      obtain rfl := Option.mem_some_iff.mp hd
      rw [show c = w.rx.shared.consumer from hw.consumer.symm]
      exact hw.rxOk.read hi
    generalize s.rx.read (c + BitVec.ofNat 32 i) = d
    refine Triple.bind (handlePacket_inOrder hc i rfl hi rfl rfl rfl) fun _ => ?_
    refine Triple.pure fun w hw => ⟨?_, hw⟩
    rw [BitVec.add_assoc, BitVec.ofNat_add]
    rfl

theorem releaseRx_inOrder (rcvd c : BitVec 32) :
    Triple assertOnly (InOrder (.batch c rcvd.toNat rcvd.toNat none)) (releaseRx rcvd)
      (fun _ => InOrder (.batch (c + rcvd) 0 0 none)) := by
  intro w h
  obtain ⟨hok, hpend⟩ := h.rxOk.release (c := rcvd) (Nat.le_refl _)
  have hw : (rcvd.setWidth 64).setWidth 32 = rcvd := by simp
  have hofNat : BitVec.ofNat 32 (w.hist.released + rcvd.toNat) =
      BitVec.ofNat 32 w.hist.released + rcvd := by
    rw [BitVec.ofNat_add, BitVec.ofNat_toNat, BitVec.setWidth_eq]
  refine { h with
    rxOk := by rw [Progress.batch, Nat.sub_self] at hok; exact hok
    done_le := Nat.le_refl 0, consumer := ?_, released := ?_
    current := fun _ hx => absurd hx (Option.not_mem_none _)
    delivered := ?_, length := h.length, rxPackets := ?_ }
  · show w.rx.shared.consumer + (rcvd.setWidth 64).setWidth 32 = c + rcvd
    rw [hw, h.consumer]
    rfl
  · show c + rcvd = BitVec.ofNat 32 (w.hist.released + rcvd.toNat)
    rw [hofNat, ← h.released]
    rfl
  · show w.hist.delivered = w.hist.handled.map Prod.fst ++
      ((w.rx.xskRingConsRelease (rcvd.setWidth 64)).shared.pending defaultNumDescs).drop 0
    rw [hpend, List.drop_zero, h.delivered]
    rfl
  · show w.stats.rxPackets + rcvd.setWidth 64 = BitVec.ofNat 64 (w.hist.released + rcvd.toNat)
    rw [h.rxPackets, BitVec.ofNat_add, setWidth_eq_ofNat]

/-- One call, from a world between calls to a world between calls. -/
theorem handleReceivePackets_inOrder (hc : env.Follows RxStep) (c : BitVec 32) :
    Triple assertOnly (InOrder (.batch c 0 0 none)) (handleReceivePackets env)
      (fun _ w => ∃ c', InOrder (.batch c' 0 0 none) w) := by
  refine Triple.bind (at_inOrder hc _) fun _ => ?_
  refine Triple.bind (Q := fun r w => ∃ k : BitVec 32, (r.1 = k.setWidth 64 ∧ (k ≠ 0 → r.2 = c)) ∧
    InOrder (.batch c k.toNat 0 none) w) ?_ ?_
  · intro w h
    obtain ⟨k, idx, r, heq, hok, hsh, -, hidx, -⟩ := h.rxOk.peek (c := rxBatchSize) (by decide) 0
    rw [onRx_eq heq]
    refine ⟨k, ⟨rfl, fun hne => ?_⟩, { h with
      rxOk := by rw [Progress.batch, Nat.zero_add] at hok; exact hok
      done_le := Nat.zero_le _, consumer := ?_
      current := fun _ hx => absurd hx (Option.not_mem_none _), delivered := ?_ }⟩
    · show idx = c
      rw [hidx hne, h.rxOk.cachedCons, h.consumer]
      simp [Progress.batch]
    · show r.shared.consumer = c
      rw [hsh]
      exact h.consumer
    · show w.hist.delivered = w.hist.handled.map Prod.fst ++
        (r.shared.pending defaultNumDescs).drop 0
      rw [hsh]
      exact h.delivered
  rintro ⟨ret, idx⟩
  refine Triple.exists_pre fun k => Triple.pure_pre ?_
  rintro ⟨rfl, hidx⟩
  have hk : (k.setWidth 64).setWidth 32 = k := by simp
  simp only [hk]
  refine Triple.ite (fun h0 => ?_) (fun hne => ?_)
  -- nothing received: the call returns at once
  · subst h0
    exact Triple.pure fun w hw => ⟨c, hw⟩
  · obtain rfl : idx = c := hidx hne
    refine Triple.bind (at_inOrder hc _) fun _ => ?_
    refine Triple.bind (refill_inOrder hc k) fun _ => ?_
    refine Triple.bind (processPackets_inOrder hc k idx) fun _ => ?_
    refine Triple.bind (at_inOrder hc _) fun _ => ?_
    refine Triple.bind (releaseRx_inOrder k idx) fun _ => ?_
    exact (completeTx_inOrder hc).conseq (fun _ hw => hw) (fun _ _ hw => ⟨idx + k, hw⟩)

/-! ## Runs -/

theorem Configured.inOrder (h : Configured w) : InOrder (.batch 0 0 0 none) w := by
  have hr := h.consistent.rings
  have hrx : w.rx.shared.pending defaultNumDescs = [] := by
    rw [← List.length_eq_zero_iff, length_pending, h.rx]
  refine ⟨hr.rxOk, Nat.le_refl 0, hr.rxAt, ?_, fun _ hx => absurd hx (Option.not_mem_none _), ?_, ?_,
    hr.txOk.cachedProd, fun _ hx => absurd hx (Option.not_mem_none _), ?_,
    fun _ hx => absurd hx (Option.not_mem_none _), ?_, ?_⟩
  · rw [h.hist]
    rfl
  · rw [h.hist, hrx]
    rfl
  · rw [h.hist]
    rfl
  · rw [h.hist]
    rfl
  · rw [h.hist, h.stats]
    rfl
  · rw [h.hist, h.stats]
    rfl

theorem Reachable.inOrder {allowed : Env → World → Prop}
    (hw : Reachable RxStep handleReceivePackets allowed w) :
    ∃ c, InOrder (.batch c 0 0 none) w := by
  refine hw.invariant (I := fun w => ∃ c, InOrder (.batch c 0 0 none) w)
    (fun w h => ⟨0, h.inOrder⟩) ?_ ?_
  · rintro w w' ⟨c, h⟩ hs
    exact ⟨c, hs.inOrder h⟩
  · rintro env w w' ⟨c, h⟩ hc - heq
    exact (handleReceivePackets_inOrder hc c).of_ok h heq

/-- **Exactly-once in-order receive.**  In every world a run visits, `process_packet`
was called with exactly the first `released` descriptors the kernel appended, in
order; it submitted those for which it returned true, in order; and the statistics
count them.  A call either returns or fails its assertion. -/
theorem receive_in_order (hw : Reachable RxStep handleReceivePackets anyCall w) :
    w.hist.handled.map Prod.fst = w.hist.delivered.take w.hist.released ∧
    w.hist.handled.length = w.hist.released ∧
    w.rx.shared.consumer = BitVec.ofNat 32 w.hist.released ∧
    w.hist.submitted = (w.hist.handled.filter Prod.snd).map Prod.fst ∧
    w.stats.rxPackets = BitVec.ofNat 64 w.hist.handled.length ∧
    w.stats.rxBytes = BitVec.ofNat 64 (w.hist.handled.map fun h => h.1.len.toNat).sum ∧
    (∀ env : Env, env.Follows RxStep → (∃ w', handleReceivePackets env w = .ok ((), w')) ∨
      handleReceivePackets env w = .error .assertFailed) := by
  obtain ⟨c, h⟩ := hw.inOrder
  have hlen : w.hist.handled.length = w.hist.released := h.length
  refine ⟨?_, hlen, h.consumer.trans h.released, ?_, by rw [hlen, h.rxPackets], h.rxBytes, ?_⟩
  · have hd := h.delivered
    rw [hd, ← hlen, ← List.length_map (f := Prod.fst), List.take_left]
  · rw [h.submitted]
    exact List.append_nil _
  · intro env hc
    have hcall := handleReceivePackets_inOrder hc c w h
    cases hr : handleReceivePackets env w with
    | ok r => exact .inl ⟨r.2, rfl⟩
    | error e =>
        rw [hr] at hcall
        exact .inr (congrArg Except.error hcall)

/-- What the kernel of `KernelStep` does is nothing that `RxStep` does not allow. -/
theorem KernelStep.rxRun (h : KernelStep w w') : Relation.ReflTransGen RxStep w w' := by
  have other : ∀ (w : World) fqConsumer txConsumer cqProducer cqDesc buffer krx ktx, RxStep w _ :=
    fun _ => .other
  cases h with
  | @takeFill a _ _ =>
      exact .single (other w (w.fq.shared.release 1).consumer w.tx.shared.consumer
        w.cq.shared.producer w.cq.shared.desc w.buffer (w.krx ++ [a]) w.ktx)
  | discardFill _ _ =>
      exact .single (other w (w.fq.shared.release 1).consumer w.tx.shared.consumer
        w.cq.shared.producer w.cq.shared.desc w.buffer w.krx w.ktx)
  | @deliver l _ r d _ _ room =>
      exact .tail (.single (.deliver d room)) (other _ w.fq.shared.consumer w.tx.shared.consumer
        w.cq.shared.producer w.cq.shared.desc w.buffer (l ++ r) w.ktx)
  | @takeTx d _ =>
      exact .single (other w w.fq.shared.consumer (w.tx.shared.release 1).consumer
        w.cq.shared.producer w.cq.shared.desc w.buffer w.krx (w.ktx ++ [d.addr]))
  | @complete l a r _ _ =>
      exact .single (other w w.fq.shared.consumer w.tx.shared.consumer
        (w.cq.shared.push defaultNumDescs a).producer (w.cq.shared.push defaultNumDescs a).desc
        w.buffer w.krx (l ++ r))
  | write m =>
      exact .single (other w w.fq.shared.consumer w.tx.shared.consumer
        w.cq.shared.producer w.cq.shared.desc m w.krx w.ktx)

theorem KernelRun.rxRun (h : KernelRun w w') : Relation.ReflTransGen RxStep w w' := by
  induction h with
  | refl => exact .refl
  | tail _ hs ih => exact ih.trans hs.rxRun

/-- So its runs are runs of the weaker kernel. -/
theorem Reachable.rx {call : Env → Xsk Unit} {allowed : Env → World → Prop}
    (hw : Reachable KernelStep call allowed w) : Reachable RxStep call allowed w := by
  induction hw with
  | start h => exact .start h
  | kernel _ hs ih => exact ih.kernelRun hs.rxRun
  | call _ hc ha h ih => exact ih.call (fun a w => KernelRun.rxRun (hc a w)) ha h

/-- A run in which a request is received, handled and answered. -/
theorem receive_in_order_one_packet :
    ∃ w d, Reachable RxStep handleReceivePackets anyCall w ∧ w.hist.handled = [(d, true)] ∧
      w.hist.released = 1 ∧ w.hist.delivered.take 1 = [d] ∧ w.hist.submitted = [d] ∧
      w.stats.rxPackets = 1 ∧ w.stats.rxBytes = d.len.setWidth 64 := by
  obtain ⟨w, d, hw, -, hhandled⟩ := exists_prompt_run
  obtain ⟨hdelivered, hreleased, -, hsubmitted, hpackets, hbytes, -⟩ := receive_in_order hw.rx
  rw [hhandled] at hdelivered hreleased hsubmitted hpackets hbytes
  have hone : w.hist.released = 1 := hreleased.symm
  rw [hone] at hdelivered
  refine ⟨w, d, hw.rx, hhandled, hone, hdelivered.symm, hsubmitted, hpackets, hbytes.trans ?_⟩
  apply BitVec.eq_of_toNat_eq
  simp

end AfXdpSwitch
