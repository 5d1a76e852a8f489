import AfXdpSwitch.FrameOwnership
import AfXdpSwitch.OnePacket

/-!
# The variant `switchtsn/af_xdp_user_david.c`

Set-up, refill, `xsk_alloc_umem_frame`, `xsk_free_umem_frame` and `complete_tx` are
those of `af_xdp_david_new.c`, word for word.  `handle_receive_packets` differs in one
thing: the loop that passes each packet to `process_packet` and frees the frames it
does not send is commented out, so a call peeks, refills and releases.  Its own
description still says that the frames are freed.
-/

namespace AfXdpSwitch
open SpscRing Prog

namespace UserDavid

/-- `handle_receive_packets` of `af_xdp_user_david.c`. -/
def handleReceivePackets (env : Env) : Xsk Unit := do
  env.at .peekRx
  let (rcvd, _) ← onRx (·.xskRingConsPeek (rxBatchSize.setWidth 64) 0)
  let rcvd := rcvd.setWidth 32
  if rcvd = 0 then return
  env.at .stock
  refill env rcvd
  env.at .release
  releaseRx rcvd
  completeTx env

variable {env : Env} {v : View} {w w' : World}

/-- A peeked frame that nobody takes is lost. -/
theorem lose_one (h : Consistent v w) (hcur : v.current = none) (hd : v.done < v.peeked) :
    ∃ a, Consistent { v with done := v.done + 1, lost := v.lost ++ [a] } w := by
  have hr := h.rings
  have hrx : (w.pool v).rx = _ :: _ :=
    (congrArg (List.map XdpDesc.addr) (drop_of_getElem? (hr.rxOk.read hd))).trans (List.map_cons ..)
  have hstep : FramePool.Step numFrames chunkOf _ _ := .lose hrx
  exact ⟨_, { h with
    rings := { hr with
      done_le := hd
      current := fun x hx => absurd hx (by rw [hcur]; exact Option.not_mem_none x) }
    conserved := (hstep.conserved h.conserved).of_eq
      (FramePool.ext rfl rfl rfl rfl rfl rfl rfl rfl rfl) }⟩

/-- So are all of them. -/
theorem lose_all (h : Consistent v w) (hcur : v.current = none) :
    ∃ l : List (BitVec 64), l.length = v.peeked - v.done ∧
      Consistent { v with done := v.peeked, lost := v.lost ++ l } w := by
  obtain ⟨n, hn⟩ : ∃ n, n = v.peeked - v.done := ⟨_, rfl⟩
  induction n generalizing v with
  | zero =>
      have hle := h.rings.done_le
      have hv : ∀ d, d = v.done → ({ v with done := d, lost := v.lost ++ [] } : View) = v := by
        rintro _ rfl
        rw [List.append_nil]
      exact ⟨[], hn, (hv v.peeked (by omega)).symm ▸ h⟩
  | succ n ih =>
      obtain ⟨a, ha⟩ := lose_one h hcur (by omega)
      obtain ⟨l, hl, hl'⟩ := ih ha hcur (by simp only; omega)
      refine ⟨a :: l, by simp only [List.length_cons] at hl ⊢; omega, ?_⟩
      rw [List.append_cons]
      exact hl'

/-- **One call** loses the frames it finds, and no others. -/
theorem handleReceivePackets_consistent (hc : env.Conforming) (hi : v.Idle) (h : Consistent v w) :
    Triple never (fun s => s = w) (handleReceivePackets env) (fun _ w' => ∃ v' l,
      v.CallFrom v' (callFills env w) l ∧ (l = [] ↔ (atPeek env w).rx.shared.count = 0) ∧
      Consistent v' w') := by
  refine receive_consistent hc hi h
    (c := fun k _ => do
      env.at .release
      releaseRx k
      completeTx env) (fun _ => Triple.trivial) ?_ ?_
  · intro h0 w' hw'
    have hf : callFills env w = [] := by rw [callFills, callStock, if_pos h0]; rfl
    exact ⟨v, [], ⟨hi, by rw [hf, List.append_nil], (List.append_nil _).symm⟩,
      iff_of_true rfl h0, hw'⟩
  · intro k hne hcount
    refine Triple.conseq ?_ (fun s hs => hs.1) (fun _ _ hs => hs)
    refine Triple.bind (at_consistent hc _) fun _ => ?_
    -- there is no loop: what was peeked is released with its frames in no place
    refine Triple.conseq (P := fun s => ∃ l : List (BitVec 64), l.length = k.toNat ∧ Consistent
      { v.refilled (callStock env w) with
        peeked := k.toNat, done := k.toNat, lost := v.lost ++ l } s) ?_ ?_ (fun _ _ hs => hs)
    · refine Triple.exists_pre fun l => Triple.pure_pre fun hlen => ?_
      refine Triple.bind (releaseRx_consistent rfl rfl hi.current) fun _ => ?_
      have hidle : View.Idle { v.refilled (callStock env w) with
          peeked := 0, done := 0, lost := v.lost ++ l, rxAt := v.rxAt + k } :=
        { hi with peeked := rfl, done := rfl }
      refine (completeTx_consistent hc hidle).conseq (fun _ hw => hw) ?_
      rintro _ w' ⟨stack', cqAt, hw'⟩
      have hl : l ≠ [] := by
        rintro rfl
        exact hne (BitVec.eq_of_toNat_eq hlen.symm)
      refine ⟨View.completed _ stack' cqAt, l, ⟨?_, ?_, ?_⟩, iff_of_false hl hcount, hw'⟩
      · exact { hidle with }
      · show v.filled ++ refillValues v.stack (callStock env w) = v.filled ++ callFills env w
        rw [callFills, h.stack]
      · rfl
    · intro s hs
      obtain ⟨l, hl, hl'⟩ := lose_all hs hi.current
      refine ⟨l, hl.trans ?_, hl'⟩
      show k.toNat - v.done = k.toNat
      rw [hi.done, Nat.sub_zero]

/-! ## Runs -/

/-- Every frame is on the free stack, on one of the four rings or with the kernel. -/
def AllHeld (w : World) : Prop := ∀ c, c < numFrames → c ∈ w.places.map chunkOf

/-- A call finds the RX ring empty. -/
def FindsNothing (env : Env) (w : World) : Prop := (atPeek env w).rx.shared.count = 0

/-- A frame is somewhere exactly if it is not lost. -/
theorem allHeld_iff (hi : v.Idle) (h : Consistent v w) : AllHeld w ↔ v.lost = [] := by
  constructor
  · intro hall
    by_contra hne
    obtain ⟨a, l, hl⟩ := List.exists_cons_of_ne_nil hne
    have hlt : chunkOf a < numFrames :=
      (FramePool.forall_solid.mp h.conserved.solid).2.2.2.2.2.2 a (by
        show a ∈ v.lost
        rw [hl]
        exact List.mem_cons_self)
    -- its frame would be counted twice
    have hcount := h.count_places hi hlt
    have hplaces := List.count_pos_iff.mpr (hall _ hlt)
    have hlost : 0 < (v.lost.map chunkOf).count (chunkOf a) := by
      rw [List.count_pos_iff, hl]
      exact List.mem_cons_self
    omega
  · intro hl c hc
    have hcount := h.count_places hi hc
    rw [hl, List.map_nil, List.count_nil] at hcount
    exact List.count_pos_iff.mp (by omega)

theorem atRest_call (h : AtRest w) (hc : env.Conforming)
    (heq : handleReceivePackets env w = .ok ((), w')) :
    (AllHeld w' ↔ FindsNothing env w) ∧ (FindsNothing env w → AtRest w') := by
  obtain ⟨v, hi, hl, hv⟩ := h
  obtain ⟨v', l, hcall, hiff, hv'⟩ := (handleReceivePackets_consistent hc hi hv).of_ok rfl heq
  have hlost : v'.lost = l := by rw [hcall.lost, hl, List.nil_append]
  refine ⟨by rw [allHeld_iff hcall.idle hv', hlost, hiff, FindsNothing], fun h0 => ?_⟩
  exact ⟨v', hcall.idle, hlost.trans (hiff.mpr h0), hv'⟩

theorem reachable_atRest (hw : Reachable KernelStep handleReceivePackets FindsNothing w) :
    AtRest w := by
  refine hw.invariant (fun w => Configured.atRest) (fun w w' => AtRest.kernelStep) ?_
  intro env w w' h hc h0 heq
  exact (atRest_call h hc heq).2 h0

/-- **Receiving loses frames.**  As long as every call finds the RX ring empty all frames
are held, and the next call keeps it so exactly if it finds the RX ring empty too. -/
theorem receive_keeps_frames_iff (hw : Reachable KernelStep handleReceivePackets FindsNothing w)
    (hc : env.Conforming) (heq : handleReceivePackets env w = .ok ((), w')) :
    AllHeld w ∧ (AllHeld w' ↔ FindsNothing env w) := by
  have h := reachable_atRest hw
  obtain ⟨v, hi, hl, hv⟩ := h
  exact ⟨(allHeld_iff hi hv).mpr hl, (atRest_call ⟨v, hi, hl, hv⟩ hc heq).1⟩

/-- A call with nothing to receive. -/
theorem receive_keeps_frames_idle :
    ∃ w w', Reachable KernelStep handleReceivePackets FindsNothing w ∧
      handleReceivePackets .quiet w = .ok ((), w') ∧ AllHeld w' := by
  obtain ⟨w, hw, hconf⟩ := exists_configured KernelStep handleReceivePackets FindsNothing (fun _ => 0)
  obtain ⟨⟨⟩, w', heq, -⟩ := (handleReceivePackets_consistent Env.quiet_conforming
    View.configured_idle hconf.consistent).exists_ok rfl
  exact ⟨w, w', hw, heq, (receive_keeps_frames_iff hw Env.quiet_conforming heq).2.mpr hconf.rx⟩

/-- **One received packet is enough** to lose its frame. -/
theorem receive_loses_frame :
    ∃ w w', Reachable KernelStep handleReceivePackets anyCall w ∧
      handleReceivePackets .quiet w = .ok ((), w') ∧ ¬ AllHeld w' := by
  obtain ⟨w₀, hw₀, hconf⟩ := exists_configured KernelStep handleReceivePackets anyCall (fun _ => 0)
  obtain ⟨w, d, hrun, hpend, -⟩ := hconf.deliver_one (fun _ _ => 0) 60
  have hcon : Consistent .configured w := KernelRun.consistent hrun hconf.consistent
  obtain ⟨⟨⟩, w', heq, -⟩ := (handleReceivePackets_consistent Env.quiet_conforming
    View.configured_idle hcon).exists_ok rfl
  refine ⟨w, w', hw₀.kernelRun hrun, heq, fun hall => ?_⟩
  have hrest : AtRest w := ⟨.configured, View.configured_idle, rfl, hcon⟩
  have hcount := ((atRest_call hrest Env.quiet_conforming heq).1.mp hall)
  rw [FindsNothing, show atPeek .quiet w = w from rfl, ← length_pending (n := defaultNumDescs),
    hpend] at hcount
  exact absurd hcount Nat.one_ne_zero

end UserDavid
end AfXdpSwitch
