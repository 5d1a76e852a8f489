import AfXdpSwitch.OnePacket

/-!
# What the refill puts on the fill ring

The refill asks `xsk_prod_nb_free` for as many entries as there are free frames, and
reserves what it answers.  The answer may be larger than the request: it is the
number of free entries of the ring.  A call that finds more than half of the frames
away from both the free stack and the fill ring then runs out of frames in the middle
of the refill, and submits `INVALID_UMEM_FRAME` for the rest.
-/

namespace AfXdpSwitch
open SpscRing Prog

variable {env : Env} {v : View} {w w' : World}

/-- The frames in kernel RX, on the RX ring, on the TX ring, in kernel TX and on the
completion ring. -/
def World.away (w : World) : Nat :=
  w.krx.length + w.rx.shared.count + w.tx.shared.count + w.ktx.length + w.cq.shared.count

/-- A call finds no packet, or no free frame, or at most half of the frames away. -/
def RefillFits (env : Env) (w : World) : Prop :=
  (atPeek env w).rx.shared.count = 0 ∨ w.freeStack = [] ∨
    (atStock env w).away ≤ numFrames - defaultNumDescs

/-- A refill that runs out of frames goes on with `INVALID_UMEM_FRAME`. -/
theorem invalid_mem_refillValues {stack : List (BitVec 64)} {k : Nat} (hk : stack.length < k) :
    invalidUmemFrame ∈ refillValues stack k := by
  refine List.mem_map.mpr ⟨stack.length, List.mem_range.mpr hk, ?_⟩
  rw [List.getElem?_eq_none (by simp), Option.getD_none]

/-- A refill yields frames of the stack only if the stack is deep enough. -/
theorem refillValues_mem_iff {stack : List (BitVec 64)} (hinv : invalidUmemFrame ∉ stack) (k : Nat) :
    (∀ a ∈ refillValues stack k, a ∈ stack) ↔ k ≤ stack.length := by
  constructor
  · intro h
    by_contra hlt
    exact hinv (h _ (invalid_mem_refillValues (Nat.not_le.mp hlt)))
  · intro hk a ha
    rw [refillValues_of_le hk] at ha
    exact List.mem_reverse.mp (List.mem_of_mem_take ha)

theorem Consistent.stack_frames (h : Consistent v w) : ∀ a ∈ v.stack, chunkOf a < numFrames :=
  (FramePool.forall_solid.mp h.conserved.solid).1

theorem Consistent.invalid_not_mem (h : Consistent v w) : invalidUmemFrame ∉ v.stack :=
  fun hm => absurd (h.stack_frames _ hm) (Nat.not_lt.mpr invalid_not_frame)

/-- Free, on the fill ring and away: that is all frames, as long as only frames were
submitted. -/
theorem Consistent.free_fill_away (h : Consistent v w) (hs : v.staged = []) (hd : v.done = 0)
    (hf : v.freed = 0) (hl : v.lost = []) (hframes : ∀ a ∈ v.filled, chunkOf a < numFrames) :
    v.stack.length + w.fq.shared.count + w.away = numFrames := by
  have hfill : ∀ a ∈ (w.pool v).staged ++ (w.pool v).fill, chunkOf a < numFrames := by
    intro a ha
    rcases List.mem_append.mp ha with ha | ha
    · rw [show (w.pool v).staged = [] from hs] at ha
      exact absurd ha List.not_mem_nil
    · exact hframes a (h.filled ▸ h.fill_suffix.mem ha)
  have hall := h.conserved.length_all hfill
  simp only [FramePool.all, FramePool.solid, World.pool, List.length_append, List.length_map, hs,
    hd, hf, hl, List.drop_zero, length_pending, List.length_nil] at hall
  rw [World.away]
  omega

/-- **How many entries a call refills** is within the free frames exactly if `RefillFits`. -/
theorem callStock_le_iff (hc : env.Conforming) (hi : v.Idle) (hl : v.lost = [])
    (h : Consistent v w) (hframes : ∀ a ∈ v.filled, chunkOf a < numFrames) :
    callStock env w ≤ v.stack.length ↔ RefillFits env w := by
  obtain ⟨k, hst⟩ := atStock_consistent hc hi h
  have htotal : v.stack.length + (atStock env w).fq.shared.count + (atStock env w).away = numFrames :=
    hst.free_fill_away hi.staged hi.done hi.freed hl hframes
  have hroom := hst.rings.fqOk.room
  rw [callStock, RefillFits, h.stack]
  by_cases h0 : (atPeek env w).rx.shared.count = 0
  · simp [h0]
  by_cases hnil : v.stack = []
  · simp [hnil, stock]
  rw [if_neg h0, stock, if_neg hnil]
  simp only [h0, hnil, false_or]
  simp only [numFrames, defaultNumDescs] at *
  omega

/-! ## Runs -/

/-- At rest, and only frames were ever submitted on the fill ring. -/
def FramesOnly (w : World) : Prop :=
  ∃ v : View, v.Idle ∧ v.lost = [] ∧ (∀ a ∈ v.filled, chunkOf a < numFrames) ∧ Consistent v w

theorem Configured.framesOnly (h : Configured w) : FramesOnly w := by
  refine ⟨.configured, View.configured_idle, rfl, ?_, h.consistent⟩
  rw [View.configured, ← h.fill]
  exact h.fill_frames

/-- What one call adds to the fill ring. -/
theorem FramesOnly.call (h : FramesOnly w) (hc : env.Conforming)
    (heq : handleReceivePackets env w = .ok ((), w')) :
    w'.hist.filled = w.hist.filled ++ callFills env w ∧
    (callStock env w ≤ w.freeStack.length ↔ RefillFits env w) ∧
    (RefillFits env w → FramesOnly w') := by
  obtain ⟨v, hi, hl, hframes, hv⟩ := h
  obtain ⟨v', hcall, hv'⟩ := (handleReceivePackets_consistent hc hi hv).of_ok rfl heq
  have hiff := callStock_le_iff hc hi hl hv hframes
  refine ⟨by rw [hv'.filled, hcall.filled, hv.filled], by rw [hv.stack]; exact hiff, fun hfits => ?_⟩
  refine ⟨v', hcall.idle, by rw [hcall.lost, hl, List.append_nil], ?_, hv'⟩
  rw [hcall.filled, List.forall_mem_append, callFills, hv.stack]
  refine ⟨hframes, fun a ha => hv.stack_frames a ?_⟩
  exact (refillValues_mem_iff hv.invalid_not_mem _).mpr (hiff.mpr hfits) a ha

theorem Reachable.framesOnly (hw : Reachable KernelStep handleReceivePackets RefillFits w) :
    FramesOnly w := by
  refine hw.invariant (fun w => Configured.framesOnly) ?_ ?_
  · rintro w w' ⟨v, hi, hl, hframes, hv⟩ hs
    exact ⟨v, hi, hl, hframes, hs.consistent hv⟩
  · intro env w w' h hc hfits heq
    exact (h.call hc heq).2.2 hfits

/-- **Only frames reach the kernel, as long as every refill fits.**  In a run whose calls
all met `RefillFits` nothing but frames was submitted on the fill ring; and the next
call submits only frames that are on the free stack, never more than there are, exactly
if it meets `RefillFits` too. -/
theorem refill_submits_frames_iff (hw : Reachable KernelStep handleReceivePackets RefillFits w)
    (hc : env.Conforming) (heq : handleReceivePackets env w = .ok ((), w')) :
    (∀ a ∈ w.hist.filled, chunkOf a < numFrames ∧ a ≠ invalidUmemFrame) ∧
    ∃ values, w'.hist.filled = w.hist.filled ++ values ∧
      ((∀ a ∈ values, a ∈ w.freeStack ∧ a ≠ invalidUmemFrame) ↔ RefillFits env w) ∧
      (values.length ≤ w.umemFrameFree.toNat ↔ RefillFits env w) := by
  have hframes := hw.framesOnly
  obtain ⟨hfilled, hiff, -⟩ := hframes.call hc heq
  obtain ⟨v, -, -, hfr, hv⟩ := hframes
  have hinv : ∀ a, chunkOf a < numFrames → a ≠ invalidUmemFrame := by
    rintro a ha rfl
    exact absurd ha (Nat.not_lt.mpr invalid_not_frame)
  refine ⟨fun a ha => ?_, callFills env w, hfilled, ?_, ?_⟩
  · rw [hv.filled] at ha
    exact ⟨hfr a ha, hinv a (hfr a ha)⟩
  · rw [← hiff, ← refillValues_mem_iff (hv.stack ▸ hv.invalid_not_mem)]
    refine forall₂_congr fun a _ => and_iff_left_of_imp fun hmem => ?_
    exact hinv a (hv.stack_frames a (hv.stack ▸ hmem))
  · rw [← hiff, callFills, length_refillValues, length_freeStack]

theorem length_configured_stack : View.configured.stack.length = numFrames - defaultNumDescs := by
  rw [View.configured, popped, List.length_take, length_allFrames]
  decide

/-- A call fits while as many frames are free as the fill ring has entries. -/
theorem refillFits_of_free (hc : env.Conforming) (hi : v.Idle) (hl : v.lost = [])
    (h : Consistent v w) (hframes : ∀ a ∈ v.filled, chunkOf a < numFrames)
    (hfree : defaultNumDescs ≤ v.stack.length) : RefillFits env w := by
  rw [← callStock_le_iff hc hi hl h hframes]
  refine Nat.le_trans ?_ hfree
  rw [callStock, stock]
  split
  · exact Nat.zero_le _
  split
  · exact Nat.zero_le _
  · exact Nat.sub_le _ _

/-- The first call of a run fits: half of the frames are still free. -/
theorem refillFits_configured (hc : env.Conforming) (hconf : Configured w) (hrun : KernelRun w w') :
    RefillFits env w' := by
  have hframes : ∀ a ∈ View.configured.filled, chunkOf a < numFrames := by
    rw [View.configured, ← hconf.fill]
    exact hconf.fill_frames
  refine refillFits_of_free hc View.configured_idle rfl
    (KernelRun.consistent hrun hconf.consistent) hframes ?_
  rw [length_configured_stack]
  decide

/-- A call that finds the first packet of a run. -/
theorem refill_submits_frames_first_packet :
    ∃ w, Reachable KernelStep handleReceivePackets RefillFits w ∧ w.rx.shared.count = 1 ∧
      ∃ w' values, handleReceivePackets .quiet w = .ok ((), w') ∧
        w'.hist.filled = w.hist.filled ++ values ∧
        ∀ a ∈ values, a ∈ w.freeStack ∧ a ≠ invalidUmemFrame := by
  obtain ⟨w₀, hw₀, hconf⟩ := exists_configured KernelStep handleReceivePackets RefillFits (fun _ => 0)
  obtain ⟨w, d, hrun, hpend, -⟩ := hconf.deliver_one (fun _ _ => 0) 60
  have hw := hw₀.kernelRun hrun
  have hcount : w.rx.shared.count = 1 := by
    rw [← length_pending (n := defaultNumDescs), hpend]
    rfl
  obtain ⟨w', heq, -⟩ := hw.atRest.returns Env.quiet_conforming
  obtain ⟨-, values, hvalues, hiff, -⟩ := refill_submits_frames_iff hw Env.quiet_conforming heq
  exact ⟨w, hw, hcount, w', values, heq, hvalues,
    hiff.mpr (refillFits_configured Env.quiet_conforming hconf hrun)⟩

/-! ## A refill that does not fit -/

/-- The kernel takes every fill entry. -/
theorem takeAllFill (w : World)
    (hframes : ∀ a ∈ w.fq.shared.pending defaultNumDescs, chunkOf a < numFrames) :
    ∃ s : SpscRing (BitVec 64) 32, s.count = 0 ∧ KernelRun w { w with
      fq.shared := s, krx := w.krx ++ w.fq.shared.pending defaultNumDescs } := by
  generalize hp : w.fq.shared.pending defaultNumDescs = entries at hframes
  induction entries generalizing w with
  | nil =>
      have hcount : w.fq.shared.count = 0 := by
        rw [← length_pending (n := defaultNumDescs), hp]
        rfl
      refine ⟨w.fq.shared, hcount, ?_⟩
      rw [List.append_nil]
  | cons a rest ih =>
      have hhead : (w.fq.shared.pending defaultNumDescs).head? = some a := by rw [hp]; rfl
      obtain ⟨-, htail, -⟩ := head?_pending hhead
      rw [hp] at htail
      rw [List.forall_mem_cons] at hframes
      obtain ⟨s, hs, hrun⟩ := ih
        { w with fq.shared := w.fq.shared.release 1, krx := w.krx ++ [a] }
        (List.cons.inj htail).2.symm hframes.2
      refine ⟨s, hs, .head (.takeFill hhead ((chunkOf_lt_iff a).mp hframes.1)) ?_⟩
      rw [List.append_assoc] at hrun
      exact hrun

/-- The kernel can deliver a packet of zeros in a frame it has. -/
theorem deliverZeros {a : BitVec 64} {l : List (BitVec 64)} (hk : w.krx = a :: l)
    (hrx : w.rx.shared.count = 0) :
    ∃ r : SpscRing XdpDesc 32, r.pending defaultNumDescs = [⟨a, 60⟩] ∧ KernelRun w { w with
      krx := l
      rx.shared := r
      buffer := fun _ => 0
      hist.delivered := w.hist.delivered ++ [⟨a, 60⟩] } := by
  have room : w.rx.shared.count < defaultNumDescs := by rw [hrx]; decide
  refine ⟨w.rx.shared.push defaultNumDescs ⟨a, 60⟩, ?_,
    .tail (.single (.write fun _ => 0)) (.deliver (l := []) ⟨a, 60⟩ hk rfl room)⟩
  rw [pending_push fits_default _ _ room, List.eq_nil_of_length_eq_zero
    ((length_pending _).trans hrx), List.nil_append]

theorem isEchoRequest_zeros (pkt : Nat) (len : BitVec 32) :
    isEchoRequest (fun _ => 0) pkt len = false := by
  have h : (ByteMemory.swap16 (ByteMemory.load16 (fun _ => 0) (pkt + 12)) != ethPIpv6) = true := by
    show (ByteMemory.swap16 ((0 : BitVec 8) ++ (0 : BitVec 8)) != ethPIpv6) = true
    decide
  rw [isEchoRequest, h]
  rfl

theorem Env.quiet_still : Env.quiet.Still := fun _ _ _ => rfl

/-- With a packet waiting, a free frame and an empty fill ring the whole ring is
reserved. -/
theorem callStock_quiet (h : Consistent v w) (hrx : w.rx.shared.count ≠ 0)
    (hfill : w.fq.shared.count = 0) (hne : v.stack ≠ []) :
    callStock .quiet w = defaultNumDescs := by
  have hat : (atStock .quiet w).fq = w.fq := rfl
  rw [callStock, show atPeek .quiet w = w from rfl, if_neg hrx, hat, hfill, h.stack, stock,
    if_neg hne, Nat.sub_zero]

/-- A call with a packet waiting, an empty fill ring and few free frames. -/
theorem quiet_call_submits_invalid (hi : v.Idle) (h : Consistent v w)
    (hrx : w.rx.shared.count ≠ 0) (hfill : w.fq.shared.count = 0) (hne : v.stack ≠ [])
    (hfew : v.stack.length < defaultNumDescs) :
    ∃ w' values, handleReceivePackets .quiet w = .ok ((), w') ∧
      w'.hist.filled = w.hist.filled ++ values ∧ invalidUmemFrame ∈ values ∧
      w.umemFrameFree.toNat < values.length := by
  obtain ⟨⟨⟩, w', heq, v', hcall, hv'⟩ :=
    (handleReceivePackets_consistent Env.quiet_conforming hi h).exists_ok rfl
  have hstock := callStock_quiet h hrx hfill hne
  refine ⟨w', callFills .quiet w, heq, by rw [hv'.filled, hcall.filled, h.filled], ?_, ?_⟩
  · rw [callFills, hstock, h.stack]
    exact invalid_mem_refillValues hfew
  · rw [callFills, length_refillValues, hstock, ← length_freeStack, h.stack]
    exact hfew

/-- After the set-up: the kernel takes the whole fill ring and delivers one packet.  The
call refills the ring from all the frames that are left, and drops the packet: one
frame is free, and the kernel has more than it ever will deliver at once. -/
theorem exists_one_free :
    ∃ w v, Reachable KernelStep handleReceivePackets anyCall w ∧ v.Idle ∧ Consistent v w ∧
      (∀ a ∈ v.filled, chunkOf a < numFrames) ∧ v.stack.length = 1 ∧ w.krx ≠ [] := by
  obtain ⟨w₀, hw₀, hconf⟩ := exists_configured KernelStep handleReceivePackets anyCall (fun _ => 0)
  obtain ⟨s, hs, hdrain⟩ := takeAllFill w₀ hconf.fill_frames
  have hlen : (w₀.fq.shared.pending defaultNumDescs).length = defaultNumDescs := by
    rw [hconf.fill, length_refillValues]
  obtain ⟨a, rest, hfill⟩ : ∃ a rest, w₀.fq.shared.pending defaultNumDescs = a :: rest :=
    List.exists_cons_of_length_pos (by rw [hlen]; decide)
  rw [hfill, hconf.krx, List.nil_append] at hdrain
  obtain ⟨r, hr, hdeliver⟩ := deliverZeros (w := { w₀ with fq.shared := s, krx := a :: rest }) rfl
    hconf.rx
  have hrun := Relation.ReflTransGen.trans hdrain hdeliver
  generalize hw₁ : ({ ({ w₀ with fq.shared := s, krx := a :: rest } : World) with
    krx := rest, rx.shared := r, buffer := fun _ => 0
    hist.delivered := w₀.hist.delivered ++ [⟨a, 60⟩] } : World) = w₁ at hrun
  have hcon : Consistent .configured w₁ := KernelRun.consistent hrun hconf.consistent
  have hpend : w₁.rx.shared.pending defaultNumDescs = [⟨a, 60⟩] := by rw [← hw₁]; exact hr
  have hhalf := length_configured_stack
  -- half of the frames are free and the fill ring is empty, so all of it is refilled
  have hstock : callStock .quiet w₁ = defaultNumDescs := by
    refine callStock_quiet hcon ?_ (by rw [← hw₁]; exact hs) (fun hnil => ?_)
    · rw [← length_pending (n := defaultNumDescs), hpend]
      exact Nat.one_ne_zero
    · rw [hnil] at hhalf
      exact absurd hhalf (by decide)
  obtain ⟨w₂, heq, hkrx, hcon₂⟩ := one_packet_dropped Env.quiet_conforming Env.quiet_still
    View.configured_idle hcon hpend (by rw [← hw₁]; exact isEchoRequest_zeros _ _)
    (by rw [← hw₁]; exact hconf.tx) (by rw [← hw₁]; exact hconf.ktx) (by rw [← hw₁]; exact hconf.cq)
  refine ⟨w₂, _, (hw₀.kernelRun hrun).call Env.quiet_conforming trivial heq,
    View.releasedOne_idle View.configured_idle _ _, hcon₂, ?_, ?_, ?_⟩
  · have hframes : FramesOnly w₁ := by
      obtain ⟨v, hi, hl, hfr, hv⟩ := hconf.framesOnly
      exact ⟨v, hi, hl, hfr, KernelRun.consistent hrun hv⟩
    obtain ⟨v', -, -, hfr, hv'⟩ := (hframes.call Env.quiet_conforming heq).2.2
      (refillFits_configured Env.quiet_conforming hconf hrun)
    rw [← hcon₂.filled, hv'.filled]
    exact hfr
  · rw [View.releasedOne, hstock, List.length_append, popped, List.length_take, hhalf,
      List.length_singleton]
    decide
  · rw [hkrx, ← hw₁]
    rintro (rfl : rest = [])
    rw [hfill, List.length_singleton] at hlen
    exact absurd hlen (by decide)

/-- **The refill submits `INVALID_UMEM_FRAME`**: with one frame free the kernel takes the
whole fill ring again, and the next call reserves all of it. -/
theorem refill_submits_invalid :
    ∃ w w' values, Reachable KernelStep handleReceivePackets anyCall w ∧
      handleReceivePackets .quiet w = .ok ((), w') ∧
      w'.hist.filled = w.hist.filled ++ values ∧ invalidUmemFrame ∈ values ∧
      w.umemFrameFree.toNat < values.length := by
  obtain ⟨w₂, v, hw₂, hi, hcon, hframes, hone, hkrx⟩ := exists_one_free
  obtain ⟨s, hs, hdrain⟩ := takeAllFill w₂ fun a ha =>
    hframes a (hcon.filled ▸ hcon.fill_suffix.mem ha)
  have hne : v.stack ≠ [] := by
    rintro hnil
    rw [hnil] at hone
    exact absurd hone (by decide)
  have hfew : v.stack.length < defaultNumDescs := by rw [hone]; decide
  -- a packet may be waiting already; if not, the kernel delivers one
  by_cases hrx : w₂.rx.shared.count = 0
  · obtain ⟨a, rest, ha⟩ := List.exists_cons_of_ne_nil hkrx
    obtain ⟨r, hr, hdeliver⟩ := deliverZeros (a := a)
      (l := rest ++ w₂.fq.shared.pending defaultNumDescs)
      (w := { w₂ with fq.shared := s, krx := w₂.krx ++ w₂.fq.shared.pending defaultNumDescs })
      (by rw [ha]; rfl) hrx
    have hrun := Relation.ReflTransGen.trans hdrain hdeliver
    have hcount : r.count ≠ 0 := by
      rw [← length_pending (n := defaultNumDescs), hr]
      exact Nat.one_ne_zero
    obtain ⟨w', values, hcall⟩ := quiet_call_submits_invalid hi (KernelRun.consistent hrun hcon)
      hcount hs hne hfew
    exact ⟨_, w', values, hw₂.kernelRun hrun, hcall⟩
  · obtain ⟨w', values, hcall⟩ := quiet_call_submits_invalid hi (KernelRun.consistent hdrain hcon)
      hrx hs hne hfew
    exact ⟨_, w', values, hw₂.kernelRun hdrain, hcall⟩

end AfXdpSwitch
