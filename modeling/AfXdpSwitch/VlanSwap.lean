import AfXdpSwitch.PacketRewriting

/-!
# `xdp_vlan_swap_func` of `packet02-rewriting/xdp_prog_kern.c`

The program takes the outermost tag off a frame that has one, and gives a tag with ID 1 to a
frame that has none.  On a way through several hosts that all run it, a frame gets a tag on the
first, loses it on the second, and so on.  The pop of the lesson leaves alone a frame that ends
with its tag: such a frame keeps the tag it has been given.
-/

namespace AfXdpSwitch
open ByteMemory

namespace Packet02

def xdpVlanSwapFunc (adjust : AdjustHead) : Bpf (BitVec 32) := do
  let ctx ← get
  let eth ← parseEthhdr ctx.data ctx.dataEnd
  if eth.ret < 0 then return xdpPass
  let hdr ← header eth.hdr
  let hProto ← load16 (hdr + 12)
  if protoIsVlan hProto then set (vlanTagPop adjust ctx hdr).2
  else set (vlanTagPush adjust ctx hdr 1).2
  return xdpPass

end Packet02

/-! ## One host -/

/-- The frame has a tag behind its addresses. -/
def HasTag (frame : List (BitVec 8)) : Prop :=
  (frame.drop 12).take 2 = bytes16 (swap16 ethP8021Q) ∨
    (frame.drop 12).take 2 = bytes16 (swap16 ethP8021AD)

instance (frame : List (BitVec 8)) : Decidable (HasTag frame) := inferInstanceAs (Decidable (_ ∨ _))

/-- What becomes of a frame on a host with enough headroom. -/
def vlanSwapped (frame : List (BitVec 8)) : List (BitVec 8) :=
  if frame.length < 14 then frame
  else if HasTag frame then if frame.length ≤ 18 then frame else untagged frame
  else tagged 1 frame

variable {ctx ctx' : XdpMd} {frame : List (BitVec 8)}

theorem hasTag_frame (hlen : 14 ≤ ctx.frame.length) :
    HasTag ctx.frame ↔ protoIsVlan (ctx.mem.load16 (ctx.data + 12)) = true := by
  rw [XdpMd.length_frame] at hlen
  have hbytes : (ctx.frame.drop 12).take 2 = bytes16 (ctx.mem.load16 (ctx.data + 12)) := by
    rw [bytes16_load16]
    exact take_drop_read _ (by omega)
  have heq : ∀ v, bytes16 (ctx.mem.load16 (ctx.data + 12)) = bytes16 v ↔
      ctx.mem.load16 (ctx.data + 12) = v := fun v => ⟨bytes16_injective, congrArg bytes16⟩
  unfold HasTag protoIsVlan
  rw [hbytes, heq, heq, Bool.or_eq_true, beq_iff_eq, beq_iff_eq]

/-- The program on a frame with an Ethernet header. -/
theorem xdpVlanSwapFunc_run (adjust : AdjustHead) (hlen : 14 ≤ ctx.frame.length) :
    Packet02.xdpVlanSwapFunc adjust ctx = .ok (xdpPass,
      if HasTag ctx.frame then (Packet02.vlanTagPop adjust ctx ctx.data).2
      else (Packet02.vlanTagPush adjust ctx ctx.data 1).2) := by
  have htag := hasTag_frame hlen
  rw [XdpMd.length_frame] at hlen
  have hret : ¬ (parsedEthhdr ctx ctx.data).ret < 0 := by
    rw [parsedEthhdr, if_neg (by omega)]
    exact Int.not_lt.mpr (Int.natCast_nonneg _)
  have hhdr : (parsedEthhdr ctx ctx.data).hdr = some ctx.data := by
    rw [parsedEthhdr, if_neg (by omega)]
  unfold Packet02.xdpVlanSwapFunc
  rw [Prog.bind_ok (get_ok ctx), Prog.bind_ok (parseEthhdr_ok (Nat.le_refl _)), if_neg hret, hhdr,
    Prog.bind_ok (header_ok ctx.data ctx),
    Prog.bind_ok (load16_ok ⟨by omega, by omega⟩)]
  by_cases h : HasTag ctx.frame
  · rw [if_pos h, if_pos (htag.mp h)]
    rfl
  · rw [if_neg h, if_neg (mt htag.mpr h)]
    rfl

/-- The program on a frame without. -/
theorem xdpVlanSwapFunc_short (adjust : AdjustHead) (hlen : ctx.frame.length < 14) :
    Packet02.xdpVlanSwapFunc adjust ctx = .ok (xdpPass, ctx) := by
  rw [XdpMd.length_frame] at hlen
  have hret : (parsedEthhdr ctx ctx.data).ret < 0 := by
    rw [parsedEthhdr, if_pos (by omega)]
    show (-1 : Int) < 0
    decide
  unfold Packet02.xdpVlanSwapFunc
  rw [Prog.bind_ok (get_ok ctx), Prog.bind_ok (parseEthhdr_ok (Nat.le_refl _)), if_pos hret]
  rfl

/-- The move to the front that a push needs goes through. -/
def Headroom (adjust : AdjustHead) (ctx : XdpMd) : Prop :=
  adjust.run ctx (0 - sizeofVlanHdr) ≠ none

theorem Headroom.push {adjust : AdjustHead} (h : Headroom adjust ctx)
    (hlen : 14 ≤ ctx.frame.length) (vlid : Int) :
    ∃ ctx', vlanTagPush adjust ctx ctx.data vlid = (0, ctx') := by
  obtain ⟨moved, hrun⟩ := Option.ne_none_iff_exists'.mp h
  obtain hfail | ⟨moved', -, hdone⟩ := vlanTagPush_cases adjust hlen vlid
  · -- the checks after the move do not fail
    have hmoved : Moved ctx (-4) moved := adjust.moved hrun
    have hdata := hmoved.data
    have hend := hmoved.dataEnd
    rw [XdpMd.length_frame] at hlen
    have hroom : ¬ moved.data + sizeofEthhdr + sizeofVlanHdr > moved.dataEnd := by
      simp only [sizeofEthhdr, sizeofVlanHdr]
      omega
    unfold vlanTagPush at hfail
    simp only [hrun, if_neg (Nat.not_lt.mpr hmoved.room), if_neg hroom, Prod.mk.injEq] at hfail
    exact absurd hfail.1 (by decide)
  · exact ⟨_, hdone⟩

/-- The lesson's pop takes the tag off unless the frame ends with it. -/
theorem packet02_vlanTagPop_frame (adjust : AdjustHead) (hlen : 14 ≤ ctx.frame.length)
    (htag : HasTag ctx.frame) : (Packet02.vlanTagPop adjust ctx ctx.data).2.frame =
      if ctx.frame.length ≤ 18 then ctx.frame else untagged ctx.frame := by
  have hproto := (hasTag_frame hlen).mp htag
  rw [packet02_vlanTagPop_eq]
  split
  · rename_i hend
    rw [if_pos (by rw [XdpMd.length_frame]; omega)]
  · rename_i hend
    split
    · rename_i hle
      obtain ⟨hfail, -⟩ | ⟨hge, -⟩ := vlanTagPop_cases adjust ctx
      · rw [hfail]
      · refine absurd ⟨hproto, ?_⟩ hend
        rw [XdpMd.length_frame] at hle hge
        omega
    · rename_i hgt
      obtain ⟨ctx', hpop, hframe⟩ := vlanTagPop_frame adjust hproto (by omega)
      rw [hpop, hframe]

/-- **One host.** -/
theorem xdpVlanSwapFunc_frame (adjust : AdjustHead) (ctx : XdpMd) (h : Headroom adjust ctx) :
    ∃ ctx', Packet02.xdpVlanSwapFunc adjust ctx = .ok (xdpPass, ctx') ∧
      ctx'.frame = vlanSwapped ctx.frame := by
  unfold vlanSwapped
  by_cases hlen : ctx.frame.length < 14
  · rw [if_pos hlen]
    exact ⟨ctx, xdpVlanSwapFunc_short adjust hlen, rfl⟩
  · have hlen' : 14 ≤ ctx.frame.length := Nat.le_of_not_lt hlen
    rw [if_neg hlen]
    refine ⟨_, xdpVlanSwapFunc_run adjust hlen', ?_⟩
    split
    · rename_i htag
      exact packet02_vlanTagPop_frame adjust hlen' htag
    · obtain ⟨ctx', hpush⟩ := h.push hlen' 1
      have hframe := vlanTagPush_frame hlen' hpush
      rw [show BitVec.ofInt 16 1 = 1 by decide] at hframe
      rw [packet02_vlanTagPush_eq, hpush, hframe]

/-! ## A way through several hosts -/

/-- A frame passes from host to host.  Each has a helper and a buffer of its own. -/
inductive Way (frame : List (BitVec 8)) : Nat → List (BitVec 8) → Prop
  | start : Way frame 0 frame
  | host {k : Nat} {ctx ctx' : XdpMd} {adjust : AdjustHead} {verdict : BitVec 32}
      (way : Way frame k ctx.frame) (room : Headroom adjust ctx)
      (run : Packet02.xdpVlanSwapFunc adjust ctx = .ok (verdict, ctx')) :
      Way frame (k + 1) ctx'.frame

theorem Way.eq_iterate {k : Nat} {frame' : List (BitVec 8)} (h : Way frame k frame') :
    frame' = vlanSwapped^[k] frame := by
  induction h with
  | start => rfl
  | @host k ctx ctx' adjust verdict _ room run ih =>
      obtain ⟨ctx'', hrun, hframe⟩ := xdpVlanSwapFunc_frame adjust ctx room
      rw [hrun, Except.ok.injEq, Prod.mk.injEq] at run
      rw [Function.iterate_succ_apply', ← ih, ← run.2, hframe]

/-- A host with headroom that holds a given frame. -/
def hostCtx (frame : List (BitVec 8)) : XdpMd :=
  ⟨ByteMemory.write (fun _ => 0) 256 frame, 256, 256 + frame.length⟩

theorem frame_hostCtx (frame : List (BitVec 8)) : (hostCtx frame).frame = frame := by
  unfold XdpMd.frame hostCtx
  rw [Nat.add_sub_cancel_left, ByteMemory.read_write_self]

theorem headroom_hostCtx (hlen : 14 ≤ frame.length) :
    Headroom (kernelAdjustHead 0) (hostCtx frame) := by
  unfold Headroom kernelAdjustHead hostCtx sizeofVlanHdr sizeofEthhdr
  simp only
  rw [if_neg (by omega)]
  exact Option.some_ne_none _

theorem length_vlanSwapped (hlen : 14 ≤ frame.length) : 14 ≤ (vlanSwapped frame).length := by
  unfold vlanSwapped untagged
  split
  · exact hlen
  split
  · split
    · exact hlen
    · rw [List.length_append, List.length_take, List.length_drop]
      omega
  · rw [length_tagged (by omega)]
    omega

/-- A frame can pass any number of hosts. -/
theorem Way.exists (frame : List (BitVec 8)) (hlen : 14 ≤ frame.length) (k : Nat) :
    Way frame k (vlanSwapped^[k] frame) ∧ 14 ≤ (vlanSwapped^[k] frame).length := by
  induction k with
  | zero => exact ⟨.start, hlen⟩
  | succ k ih =>
      obtain ⟨way, hk⟩ := ih
      have room := headroom_hostCtx hk
      obtain ⟨ctx', run, hframe⟩ := xdpVlanSwapFunc_frame _ _ room
      rw [frame_hostCtx] at hframe
      rw [Function.iterate_succ_apply', ← hframe]
      rw [← frame_hostCtx (vlanSwapped^[k] frame)] at way
      exact ⟨.host way room run, hframe ▸ length_vlanSwapped hk⟩

/-! ## There and back -/

theorem hasTag_tagged (hlen : 12 ≤ frame.length) (tci : BitVec 16) : HasTag (tagged tci frame) :=
  .inl (tpid_tagged hlen)

/-- A frame without a tag gets one and loses it again, unless it is a header only. -/
theorem vlanSwapped_twice (hlen : 14 ≤ frame.length) (htag : ¬ HasTag frame) :
    vlanSwapped frame = tagged 1 frame ∧
      vlanSwapped (tagged 1 frame) = if frame.length = 14 then tagged 1 frame else frame := by
  have hlen' : (tagged 1 frame).length = frame.length + 4 := length_tagged (by omega)
  constructor
  · unfold vlanSwapped
    rw [if_neg (by omega), if_neg htag]
  · unfold vlanSwapped
    rw [if_neg (by omega), if_pos (hasTag_tagged (by omega) 1), untagged_tagged (by omega), hlen']
    simp only [show frame.length + 4 ≤ 18 ↔ frame.length = 14 by omega]

/-- The frame after `k` hosts, if it has more than a header. -/
theorem iterate_vlanSwapped (hlen : 14 < frame.length) (htag : ¬ HasTag frame) (k : Nat) :
    vlanSwapped^[k] frame = if k % 2 = 0 then frame else tagged 1 frame := by
  obtain ⟨hpush, hpop⟩ := vlanSwapped_twice (Nat.le_of_lt hlen) htag
  rw [if_neg (by omega)] at hpop
  induction k with
  | zero => rfl
  | succ k ih =>
      rw [Function.iterate_succ_apply', ih]
      by_cases hk : k % 2 = 0
      · rw [if_pos hk, if_neg (by omega), hpush]
      · rw [if_neg hk, if_pos (by omega), hpop]

/-- **There and back.**  A frame that comes without a tag alternates between itself and itself
with a tag of ID 1, on any way through hosts that have the headroom, exactly if it is more than
an Ethernet header. -/
theorem vlanSwap_alternates_iff (frame : List (BitVec 8)) (hlen : 14 ≤ frame.length)
    (htag : ¬ HasTag frame) :
    (∀ k frame', Way frame k frame' → frame' = if k % 2 = 0 then frame else tagged 1 frame) ↔
      frame.length ≠ 14 := by
  constructor
  · intro h heq
    obtain ⟨hpush, hpop⟩ := vlanSwapped_twice hlen htag
    have htwo := h 2 _ (Way.exists frame hlen 2).1
    rw [Function.iterate_succ_apply', Function.iterate_succ_apply', Function.iterate_zero_apply,
      hpush, hpop, if_pos heq, if_pos rfl] at htwo
    have hlen' : (tagged 1 frame).length = frame.length + 4 := length_tagged (by omega)
    rw [htwo] at hlen'
    omega
  · intro hne k frame' hway
    rw [hway.eq_iterate, iterate_vlanSwapped (by omega) htag]

/-- A header with one byte behind it. -/
theorem vlanSwap_alternates_fifteen : ¬ HasTag (List.replicate 15 0) ∧
    ∀ k frame', Way (List.replicate 15 0) k frame' →
      frame' = if k % 2 = 0 then List.replicate 15 0 else tagged 1 (List.replicate 15 0) := by
  have htag : ¬ HasTag (List.replicate 15 0) := by decide
  exact ⟨htag, (vlanSwap_alternates_iff _ (by decide) htag).mpr (by decide)⟩

end AfXdpSwitch
