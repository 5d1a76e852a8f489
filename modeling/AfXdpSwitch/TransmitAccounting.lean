import AfXdpSwitch.OnePacket

/-!
# Transmit accounting

`outstanding_tx` is incremented by `process_packet` and decremented by `complete_tx`
through a clamp.  The two never drift: the counter is exactly the number of frames
between their submission on the TX ring and the release of their completion, so the
clamp has nothing to correct and the early return of `complete_tx` misses nothing.
-/

namespace AfXdpSwitch
open SpscRing Prog

variable {v : View} {w : World}

/-- **Transmit accounting.**  In every world a run visits `outstanding_tx` is the number
of frames on the TX ring, in kernel TX and on the completion ring, and `tx_packets` is
that plus the completions released so far.  No call of `complete_tx` found more
completions than outstanding frames, so every clamped update subtracted `completed`;
and none returned early with a completion waiting. -/
theorem transmit_accounting (hw : Reachable KernelStep handleReceivePackets anyCall w) :
    w.outstandingTx.toNat = w.tx.shared.count + w.ktx.length + w.cq.shared.count ∧
    w.stats.txPackets = BitVec.ofNat 64 (w.outstandingTx.toNat + w.hist.completed) ∧
    (∀ completed outstanding, .clamp completed outstanding ∈ w.hist.completeTx →
      completed ≤ outstanding ∧
      (outstanding - if completed < outstanding then completed else outstanding) =
        outstanding - completed) ∧
    (∀ waiting, .early waiting ∈ w.hist.completeTx → waiting = 0) := by
  obtain ⟨v, -, -, hv⟩ := hw.atRest
  have ha := hv.accounted
  refine ⟨ha.outstanding, ha.packets, fun completed outstanding hmem => ?_, fun _ hmem => ha.log _ hmem⟩
  have hle : completed ≤ outstanding := ha.log _ hmem
  refine ⟨hle, ?_⟩
  split
  · rfl
  · rename_i hlt
    rw [BitVec.le_antisymm hle (BitVec.not_lt.mp hlt)]

/-! ## A request that is answered and completed at once -/

/-- A UMEM with an ICMPv6 echo request at `pkt`. -/
def echoRequestAt (pkt : Nat) : ByteMemory := fun x =>
  if x = pkt + 12 then 0x86 else if x = pkt + 13 then 0xDD
  else if x = pkt + 20 then ipprotoIcmpv6 else if x = pkt + 54 then icmpv6EchoRequest else 0

theorem isEchoRequest_echoRequestAt (pkt : Nat) :
    isEchoRequest (echoRequestAt pkt) pkt echoHeaders = true := by
  have h12 : echoRequestAt pkt (pkt + 12) = 0x86 := by simp [echoRequestAt]
  have h13 : echoRequestAt pkt (pkt + 13) = 0xDD := by simp [echoRequestAt]
  have h20 : echoRequestAt pkt (pkt + 20) = ipprotoIcmpv6 := by simp [echoRequestAt]
  have h54 : echoRequestAt pkt (pkt + 54) = icmpv6EchoRequest := by simp [echoRequestAt]
  rw [isEchoRequest, ByteMemory.load16, h12, show pkt + 12 + 1 = pkt + 13 from rfl, h13, h20, h54]
  decide

/-- The kernel sends the oldest TX frame and reports it. -/
def transmitOldest (w : World) : World :=
  match (w.tx.shared.pending defaultNumDescs).head? with
  | none => w
  | some d =>
      if w.cq.shared.count < defaultNumDescs then
        { w with
          tx.shared := w.tx.shared.release 1
          ktx := w.ktx ++ []
          cq.shared := w.cq.shared.push defaultNumDescs d.addr }
      else w

theorem transmitOldest_run (w : World) : KernelRun w (transmitOldest w) := by
  unfold transmitOldest
  cases hd : (w.tx.shared.pending defaultNumDescs).head? with
  | none => exact .refl
  | some d =>
      by_cases room : w.cq.shared.count < defaultNumDescs
      · simp only [if_pos room]
        exact .tail (.single (.takeTx hd)) (.complete rfl room)
      · simp only [if_neg room]
        exact .refl

/-- A kernel that transmits when it is woken up. -/
def Env.prompt : Env where
  kernel
    | .sendto, w => transmitOldest w
    | _, w => w
  retries := 0

theorem Env.prompt_conforming : Env.prompt.Conforming := by
  intro a w
  cases a with
  | sendto => exact transmitOldest_run w
  | _ => exact .refl

theorem Env.prompt_still : Env.prompt.Still := by
  intro a w ha
  cases a with
  | sendto => exact absurd rfl ha
  | _ => rfl

theorem transmitOldest_one (htx : w.tx.shared.count = 1)
    (hcq : w.cq.shared.count = 0) :
    (transmitOldest w).cq.shared.count = 1 ∧ (transmitOldest w).outstandingTx = w.outstandingTx ∧
      (transmitOldest w).hist.handled = w.hist.handled := by
  have hlen : (w.tx.shared.pending defaultNumDescs).length = 1 := by rw [length_pending, htx]
  obtain ⟨d, hd⟩ := List.length_eq_one_iff.mp hlen
  have room : w.cq.shared.count < defaultNumDescs := by rw [hcq]; decide
  simp only [transmitOldest, hd, List.head?_cons, if_pos room, and_true]
  rw [count_push fits_default _ _ room, hcq]

/-- Freeing completed frames changes the free stack only. -/
theorem freeCompleted_frame (completed idx : BitVec 32) {R : World → Prop}
    (hR : ∀ s addr free, R s → R { s with umemFrameAddr := addr, umemFrameFree := free }) :
    Triple always R (freeCompleted completed idx) (fun _ => R) := by
  refine Triple.forLoop (I := fun _ _ => R) (fun i idx _ => ?_) idx
  refine Triple.bind (Q := fun _ => R) (Triple.get fun s hs => hs) fun s => ?_
  exact Triple.bind (xskFreeUmemFrame_frame _ hR) fun _ => Triple.pure fun _ hs => hs

/-- With one frame outstanding, and completed at once, the clamp compares 1 with 1. -/
theorem completeTx_prompt (hi : v.Idle) {handled : List (XdpDesc × Bool)} :
    Triple never (fun s => Consistent v s ∧ s.tx.shared.count = 1 ∧ s.ktx = [] ∧
      s.cq.shared.count = 0 ∧ s.hist.handled = handled) (completeTx .prompt)
      (fun _ s => .clamp 1 1 ∈ s.hist.completeTx ∧ s.hist.handled = handled) := by
  have hstill : ∀ (a : Access) (P : World → Prop), a ≠ .sendto →
      Triple never P (Env.prompt.at a) (fun _ => P) :=
    fun a P ha => Triple.modify fun s hs => by rw [Env.prompt_still a s ha]; exact hs
  refine Triple.bind (Q := fun s₀ s => s₀ = s ∧ Consistent v s ∧ s.tx.shared.count = 1 ∧ s.ktx = [] ∧
    s.cq.shared.count = 0 ∧ s.hist.handled = handled) (Triple.get fun s hs => ⟨rfl, hs⟩) fun s₀ => ?_
  have hone : ∀ s : World, Consistent v s → s.tx.shared.count = 1 → s.ktx = [] →
      s.cq.shared.count = 0 → s.outstandingTx = 1 := by
    intro s hs htx hktx hcq
    have hout := hs.accounted.outstanding
    rw [htx, hktx, hcq] at hout
    exact BitVec.eq_of_toNat_eq hout
  refine Triple.ite (fun h0 => ?_) (fun _ => ?_)
  · rintro s ⟨rfl, hs, htx, hktx, hcq, -⟩
    rw [hone s₀ hs htx hktx hcq] at h0
    exact absurd h0 (by decide)
  refine Triple.bind (Q := fun _ s => Consistent v s ∧ s.cq.shared.count = 1 ∧
    s.outstandingTx = 1 ∧ s.hist.handled = handled) (Triple.modify ?_) fun _ => ?_
  · rintro s ⟨rfl, hs, htx, hktx, hcq, hhandled⟩
    obtain ⟨hcount, hout, hsame⟩ := transmitOldest_one htx hcq
    exact ⟨KernelRun.consistent (transmitOldest_run s₀) hs, hcount,
      hout.trans (hone s₀ hs htx hktx hcq), hsame.trans hhandled⟩
  refine Triple.bind (hstill _ _ nofun) fun _ => ?_
  refine Triple.bind (Q := fun r s => r = ((1 : BitVec 32).setWidth 64, v.cqAt) ∧
    Consistent { v with cpeeked := 1 } s ∧ s.outstandingTx = 1 ∧ s.hist.handled = handled) ?_ ?_
  · rintro s ⟨hs, hcount, hkept⟩
    obtain ⟨k, idx, r, heq, hok, hsh, -, hidx, hz⟩ :=
      hs.rings.cqOk.peek (c := BitVec.ofNat 32 defaultNumDescs) (by decide) 0
    rw [hi.cpeeked] at hz
    rw [hi.cpeeked, Nat.zero_add] at hok
    -- the one completion is found
    have hk : k = 1 := by
      have havail := hok.avail
      rw [hsh, hcount] at havail
      have hne : k.toNat ≠ 0 := fun h0 => by
        have := hz.mp (BitVec.eq_of_toNat_eq h0)
        omega
      exact BitVec.eq_of_toNat_eq (show k.toNat = 1 by omega)
    subst hk
    rw [onCq_eq heq]
    refine ⟨?_, hs.withCq hsh hok (by rw [hi.freed]; exact Nat.zero_le _), hkept⟩
    rw [hidx (by decide), hs.rings.cqOk.cachedCons, hs.rings.cqAt, hi.cpeeked]
    simp
  rintro ⟨ret, idx⟩
  refine Triple.pure_pre fun hx => ?_
  obtain ⟨rfl, rfl⟩ := Prod.mk.inj hx
  refine Triple.ite (fun _ => ?_) (fun hz => absurd (by decide) hz)
  refine Triple.bind ((freeCompleted_consistent (v := { v with cpeeked := 1 }) (n := 1)
    rfl hi.freed rfl).and (freeCompleted_frame 1 v.cqAt
      (R := fun s => s.outstandingTx = 1 ∧ s.hist.handled = handled) fun _ _ _ hs => hs)) fun _ => ?_
  refine Triple.bind (hstill _ _ nofun) fun _ => ?_
  rintro s ⟨-, hout, hhandled⟩
  refine ⟨?_, hhandled⟩
  show CompleteTx.clamp 1 1 ∈ s.hist.completeTx ++ [.clamp 1 s.outstandingTx]
  rw [hout]
  exact List.mem_append_right _ (List.mem_singleton.mpr rfl)

/-- A run in which one request is answered and its completion collected at once. -/
theorem exists_prompt_run :
    ∃ w d, Reachable KernelStep handleReceivePackets anyCall w ∧
      .clamp 1 1 ∈ w.hist.completeTx ∧ w.hist.handled = [(d, true)] := by
  obtain ⟨w₀, hw₀, hconf⟩ := exists_configured KernelStep handleReceivePackets anyCall (fun _ => 0)
  obtain ⟨w₁, d, hrun, hpend, hlen, hbuf, htx, hktx, hcq, hhandled⟩ :=
    hconf.deliver_one echoRequestAt echoHeaders
  have hcon : Consistent .configured w₁ := KernelRun.consistent hrun hconf.consistent
  have htriple := one_packet_sent Env.prompt_conforming Env.prompt_still View.configured_idle hcon
    hpend (by rw [hbuf, hlen]; exact isEchoRequest_echoRequestAt _) (by rw [htx, hconf.tx])
    (fun v' hi => (completeTx_prompt hi).conseq
      (fun s hs => ⟨hs.1, hs.2.1, by rw [hs.2.2.1, hktx, hconf.ktx],
        by rw [hs.2.2.2.1, hcq, hconf.cq],
        by rw [hs.2.2.2.2, hhandled, hconf.hist, List.nil_append]⟩)
      (fun _ _ hs => hs))
  obtain ⟨⟨⟩, w₂, heq, hmem⟩ := htriple.exists_ok rfl
  exact ⟨w₂, d, (hw₀.kernelRun hrun).call Env.prompt_conforming trivial heq, hmem⟩

/-- The accounting after that run. -/
theorem transmit_accounting_prompt :
    ∃ w, Reachable KernelStep handleReceivePackets anyCall w ∧ .clamp 1 1 ∈ w.hist.completeTx ∧
      w.outstandingTx.toNat = w.tx.shared.count + w.ktx.length + w.cq.shared.count := by
  obtain ⟨w, -, hw, hmem, -⟩ := exists_prompt_run
  exact ⟨w, hw, hmem, (transmit_accounting hw).1⟩

/-- **The second arm of the clamp is taken**, when everything outstanding is completed:
the comparison is strict. -/
theorem clamp_takes_second_arm :
    ∃ w, Reachable KernelStep handleReceivePackets anyCall w ∧
      ∃ completed outstanding, .clamp completed outstanding ∈ w.hist.completeTx ∧
        ¬ completed < outstanding := by
  obtain ⟨w, -, hw, hmem, -⟩ := exists_prompt_run
  exact ⟨w, hw, 1, 1, hmem, by decide⟩

end AfXdpSwitch
