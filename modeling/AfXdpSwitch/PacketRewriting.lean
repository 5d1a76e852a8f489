import AfXdpSwitch.ParsingHelpers
import AfXdpSwitch.ProcessPacket
import AfXdpSwitch.XdpStats

/-!
# The programs of `packet02-rewriting/xdp_prog_kern.c`

The lesson has its own `vlan_tag_push` and `vlan_tag_pop`.  Its push is the one of
`common/rewrite_helpers.h`, and the tag it writes is one that `parse_ethhdr_vlan` skips.  Its
pop asks for a byte behind the tag, which the shared one does not.

`xdp_port_rewrite_func` takes one off the destination port of UDP and adds one to that of TCP;
`xdp_parser_func` drops echo requests with an even sequence number.
-/

namespace AfXdpSwitch
open ByteMemory

namespace Packet02

/-- `vlan_tag_pop`, with its own comparison of the tag with the end of the packet. -/
def vlanTagPop (adjust : AdjustHead) (ctx : XdpMd) (eth : Nat) : Int × XdpMd :=
  if protoIsVlan (ctx.mem.load16 (eth + 12)) then
    let vlh := eth + sizeofEthhdr
    if vlh + sizeofVlanHdr < ctx.dataEnd then
      let vlid : Int := (swap16 (ctx.mem.load16 vlh)).toNat
      let hProto := ctx.mem.load16 (vlh + 2)
      let ethCpy := ctx.mem.read eth sizeofEthhdr
      match adjust.run ctx sizeofVlanHdr with
      | none => (-1, ctx)
      | some ctx =>
          let eth := ctx.data
          if eth + sizeofEthhdr > ctx.dataEnd then (-1, ctx)
          else
            let mem := ctx.mem.write eth ethCpy
            let mem := mem.store16 (eth + 12) hProto
            (vlid, { ctx with mem := mem })
    else (-1, ctx)
  else (-1, ctx)

/-- `vlan_tag_push`. -/
def vlanTagPush (adjust : AdjustHead) (ctx : XdpMd) (eth : Nat) (vlid : Int) : Int × XdpMd :=
  let ethCpy := ctx.mem.read eth sizeofEthhdr
  match adjust.run ctx (0 - sizeofVlanHdr) with
  | none => (-1, ctx)
  | some ctx =>
      let eth := ctx.data
      if eth + sizeofEthhdr > ctx.dataEnd then (-1, ctx)
      else
        let mem := ctx.mem.write eth ethCpy
        let vlh := eth + sizeofEthhdr
        if vlh + sizeofVlanHdr > ctx.dataEnd then (-1, { ctx with mem := mem })
        else
          let mem := mem.store16 vlh (swap16 (BitVec.ofInt 16 vlid))
          let mem := mem.store16 (vlh + 2) (mem.load16 (eth + 12))
          let mem := mem.store16 (eth + 12) (swap16 ethP8021Q)
          (0, { ctx with mem := mem })

/-- The port of a UDP or TCP header behind the IP header. -/
def rewritePort (dataEnd : Nat) (ip : Parsed) : Bpf (BitVec 32) := do
  if ip.ret = ipprotoUdp.toNat then
    let udp ← parseUdphdr ip.nh dataEnd
    if udp.ret < 0 then return xdpAborted
    let udphdr ← header udp.hdr
    let dest ← load16 (udphdr + 2)
    store16 (udphdr + 2) (swap16 (swap16 dest - 1))
    return xdpPass
  else if ip.ret = ipprotoTcp.toNat then
    let tcp ← parseTcphdr ip.nh dataEnd
    if tcp.ret < 0 then return xdpAborted
    let tcphdr ← header tcp.hdr
    let dest ← load16 (tcphdr + 2)
    store16 (tcphdr + 2) (swap16 (swap16 dest + 1))
    return xdpPass
  else return xdpPass

/-- The action that `xdp_port_rewrite_func` decides on. -/
def portRewriteAction : Bpf (BitVec 32) := do
  let ctx ← get
  let eth ← parseEthhdr ctx.data ctx.dataEnd
  if eth.ret < 0 then return xdpAborted
  else if eth.ret = (swap16 ethPIpv6).toNat then
    let ip ← parseIp6hdr eth.nh ctx.dataEnd
    rewritePort ctx.dataEnd ip
  else if eth.ret = (swap16 ethPIp).toNat then
    let ip ← parseIphdr eth.nh ctx.dataEnd
    rewritePort ctx.dataEnd ip
  else return xdpPass

/-- `xdp_port_rewrite_func`. -/
def xdpPortRewriteFunc : Xdp (BitVec 32) := recorded portRewriteAction

/-- `if (bpf_ntohs(...sequence) % 2 == 0)`, for the ICMP or ICMPv6 header. -/
def dropEven (icmp : Parsed) : Bpf (BitVec 32) := do
  let icmph ← header icmp.hdr
  let sequence ← load16 (icmph + 6)
  if (swap16 sequence).toNat % 2 = 0 then return xdpDrop
  return xdpPass

/-- The action that `xdp_parser_func` decides on. -/
def parserAction : Bpf (BitVec 32) := do
  let ctx ← get
  let eth ← parseEthhdr ctx.data ctx.dataEnd
  if eth.ret = (swap16 ethPIpv6).toNat then
    let ip ← parseIp6hdr eth.nh ctx.dataEnd
    if ip.ret ≠ ipprotoIcmpv6.toNat then return xdpPass
    let icmp ← parseIcmp6hdr ip.nh ctx.dataEnd
    if icmp.ret ≠ icmpv6EchoRequest.toNat then return xdpPass
    dropEven icmp
  else if eth.ret = (swap16 ethPIp).toNat then
    let ip ← parseIphdr eth.nh ctx.dataEnd
    if ip.ret ≠ ipprotoIcmp.toNat then return xdpPass
    let icmp ← parseIcmphdr ip.nh ctx.dataEnd
    if icmp.ret ≠ icmpEcho.toNat then return xdpPass
    dropEven icmp
  else return xdpPass

/-- `xdp_parser_func`. -/
def xdpParserFunc : Xdp (BitVec 32) := recorded parserAction

end Packet02

variable {ctx ctx' : XdpMd}

/-! ## The two pops -/

/-- The lesson's pop is the shared one, but for the frame that ends with its tag. -/
theorem packet02_vlanTagPop_eq (adjust : AdjustHead) (ctx : XdpMd) :
    Packet02.vlanTagPop adjust ctx ctx.data =
      if protoIsVlan (ctx.mem.load16 (ctx.data + 12)) = true ∧ ctx.data + 18 = ctx.dataEnd then
        (-1, ctx)
      else vlanTagPop adjust ctx ctx.data := by
  unfold Packet02.vlanTagPop vlanTagPop
  cases hproto : protoIsVlan (ctx.mem.load16 (ctx.data + 12)) with
  | false => simp
  | true =>
      simp only [if_true, true_and, Bool.not_true, Bool.false_eq_true, if_false]
      by_cases hroom : ctx.data + sizeofEthhdr + sizeofVlanHdr < ctx.dataEnd
      · have hroom' : ctx.data + 18 < ctx.dataEnd := hroom
        rw [if_pos hroom, if_neg (by omega)]
        exact (if_neg (Nat.lt_asymm hroom)).symm
      · have hroom' : ¬ ctx.data + 18 < ctx.dataEnd := hroom
        rw [if_neg hroom]
        by_cases hend : ctx.data + 18 = ctx.dataEnd
        · rw [if_pos hend]
        · have hshort : ctx.data + sizeofEthhdr + sizeofVlanHdr > ctx.dataEnd := by
            show ctx.data + 18 > ctx.dataEnd
            omega
          rw [if_neg hend, if_pos hshort]

/-- What `vlan_tag_pop` returns and leaves does not depend on how the helper moves the frame. -/
theorem vlanTagPop_adjust (adjust adjust' : AdjustHead) (ctx : XdpMd) :
    (vlanTagPop adjust ctx ctx.data).1 = (vlanTagPop adjust' ctx ctx.data).1 ∧
    (vlanTagPop adjust ctx ctx.data).2.frame = (vlanTagPop adjust' ctx ctx.data).2.frame := by
  by_cases htag : protoIsVlan (ctx.mem.load16 (ctx.data + 12)) = true ∧ 18 ≤ ctx.frame.length
  · obtain ⟨popped, hpop, hframe⟩ := vlanTagPop_frame adjust htag.1 htag.2
    obtain ⟨popped', hpop', hframe'⟩ := vlanTagPop_frame adjust' htag.1 htag.2
    rw [hpop, hpop']
    exact ⟨rfl, hframe.trans hframe'.symm⟩
  · have hfail : ∀ helper : AdjustHead, vlanTagPop helper ctx ctx.data = (-1, ctx) := by
      intro helper
      unfold vlanTagPop
      cases hproto : protoIsVlan (ctx.mem.load16 (ctx.data + 12)) with
      | false => rfl
      | true =>
          rw [XdpMd.length_frame] at htag
          have hshort : ctx.data + 18 > ctx.dataEnd := by
            have : ¬ 18 ≤ ctx.dataEnd - ctx.data := fun h => htag ⟨hproto, h⟩
            omega
          exact if_pos hshort
    rw [hfail adjust, hfail adjust']
    exact ⟨rfl, rfl⟩

/-- **The two pops.**  On a frame with an Ethernet header they return the same value and leave the
same frame, whatever helpers that keep the contract they run with, unless the frame is a tagged
one of exactly 18 bytes. -/
theorem vlanTagPop_agree_iff (adjust adjust' : AdjustHead) (ctx : XdpMd)
    (hlen : 14 ≤ ctx.frame.length) :
    ((Packet02.vlanTagPop adjust ctx ctx.data).1 = (vlanTagPop adjust' ctx ctx.data).1 ∧
      (Packet02.vlanTagPop adjust ctx ctx.data).2.frame =
        (vlanTagPop adjust' ctx ctx.data).2.frame) ↔
    ¬ (protoIsVlan (ctx.mem.load16 (ctx.data + 12)) = true ∧ ctx.frame.length = 18) := by
  have hend : ctx.frame.length = 18 ↔ ctx.data + 18 = ctx.dataEnd := by
    rw [XdpMd.length_frame] at *
    omega
  rw [hend, packet02_vlanTagPop_eq]
  by_cases hexact : protoIsVlan (ctx.mem.load16 (ctx.data + 12)) = true ∧ ctx.data + 18 = ctx.dataEnd
  · -- the shared pop returns the tag it has taken off
    obtain ⟨popped, hpop, -⟩ := vlanTagPop_frame adjust' hexact.1 (Nat.le_of_eq (hend.mpr hexact.2).symm)
    rw [if_pos hexact, hpop]
    refine iff_of_false (fun hsame => ?_) (fun hnot => hnot hexact)
    have hret : (-1 : Int) = ((swap16 (ctx.mem.load16 (ctx.data + 14))).toNat : Int) := hsame.1
    omega
  · rw [if_neg hexact]
    exact iff_of_true (vlanTagPop_adjust adjust adjust' ctx) hexact

/-- The frame of 18 bytes that has a tag, with a byte more. -/
def longerCtx : XdpMd := { taggedCtx with dataEnd := 275 }

theorem vlanTagPop_agree_longer : 14 ≤ longerCtx.frame.length ∧
    (Packet02.vlanTagPop (kernelAdjustHead 0) longerCtx longerCtx.data).1 =
      (vlanTagPop (kernelAdjustHead 0) longerCtx longerCtx.data).1 :=
  have hlen : 14 ≤ longerCtx.frame.length := by decide
  ⟨hlen, ((vlanTagPop_agree_iff (kernelAdjustHead 0) (kernelAdjustHead 0) longerCtx hlen).mpr
    (by decide)).1⟩

/-- The shared pop takes the tag off, the lesson's leaves it on. -/
theorem vlanTagPop_differ_at_end : 14 ≤ taggedCtx.frame.length ∧
    (Packet02.vlanTagPop (kernelAdjustHead 0) taggedCtx taggedCtx.data).1 = -1 ∧
    (vlanTagPop (kernelAdjustHead 0) taggedCtx taggedCtx.data).1 = 0x0E0F ∧
    (Packet02.vlanTagPop (kernelAdjustHead 0) taggedCtx taggedCtx.data).2.frame.length = 18 ∧
    (vlanTagPop (kernelAdjustHead 0) taggedCtx taggedCtx.data).2.frame.length = 14 := by
  decide

/-! ## Push, then parse -/

/-- Each ID that the loop collects stands where its round puts it. -/
theorem getElem?_collectIds (m : ByteMemory) (n i t : Nat) (ids : CollectVlans) (j : Nat) :
    (collectIds m n i t ids)[j]? =
      if i ≤ j ∧ j < i + n ∧ j < vlanMaxDepth then some (vlanId m (t + 4 * (j - i)))
      else ids[j]? := by
  induction n generalizing i t ids with
  | zero => rw [collectIds, if_neg (by omega)]
  | succ n ih =>
      rw [collectIds, ih]
      by_cases hj : i = j
      · subst hj
        by_cases hi : i < vlanMaxDepth
        · rw [if_neg (by omega), if_pos ⟨by omega, by omega, hi⟩]
          simp [hi]
        · rw [if_neg (by omega), if_neg (by omega)]
          simp [hi]
      · by_cases hrange : i + 1 ≤ j ∧ j < i + 1 + n ∧ j < vlanMaxDepth
        · rw [if_pos hrange, if_pos ⟨by omega, by omega, hrange.2.2⟩,
            show t + 4 + 4 * (j - (i + 1)) = t + 4 * (j - i) by omega]
        · rw [if_neg hrange, if_neg (by omega)]
          simp [hj]

theorem take_collectIds (m : ByteMemory) {n : Nat} (t : Nat) (ids : CollectVlans)
    (hn : n ≤ vlanMaxDepth) : (collectIds m n 0 t ids).toList.take n =
      (List.range n).map fun j => vlanId m (t + 4 * j) := by
  refine List.ext_getElem? fun j => ?_
  rw [List.getElem?_take, List.getElem?_map]
  by_cases hj : j < n
  · rw [if_pos hj, Vector.getElem?_toList, getElem?_collectIds,
      if_pos ⟨Nat.zero_le _, by omega, by omega⟩, List.getElem?_range hj]
    rfl
  · simp [hj]

theorem packet02_vlanTagPush_eq : Packet02.vlanTagPush = vlanTagPush := rfl

section
variable {adjust : AdjustHead} {vlid : Int}

theorem length_pushed (hlen : 14 ≤ ctx.frame.length)
    (hpush : vlanTagPush adjust ctx ctx.data vlid = (0, ctx')) :
    ctx'.frame.length = ctx.frame.length + 4 := by
  rw [vlanTagPush_frame hlen hpush, length_tagged (by omega)]

/-- Behind the two addresses a pushed frame is the old one, four bytes later. -/
theorem read_pushed (hlen : 14 ≤ ctx.frame.length)
    (hpush : vlanTagPush adjust ctx ctx.data vlid = (0, ctx')) {i k : Nat} (hi : 12 ≤ i)
    (hk : i + k ≤ ctx.frame.length) :
    ctx'.mem.read (ctx'.data + (i + 4)) k = ctx.mem.read (ctx.data + i) k := by
  have hframe := vlanTagPush_frame hlen hpush
  have hlen' := length_pushed hlen hpush
  have hhead : (ctx.frame.take 12 ++ (bytes16 (swap16 ethP8021Q) ++
      bytes16 (swap16 (BitVec.ofInt 16 vlid)))).length = 16 := by
    rw [List.length_append, List.length_take, List.length_append, length_bytes16, length_bytes16]
    omega
  have hdrop : ctx'.frame.drop (i + 4) = ctx.frame.drop i := by
    rw [hframe, tagged, show i + 4 = 16 + (i - 12) by omega, ← List.drop_drop,
      List.drop_left' hhead, List.drop_drop, show 12 + (i - 12) = i by omega]
  rw [XdpMd.length_frame] at hk hlen'
  rw [XdpMd.length_frame ctx] at hlen'
  have hnew := take_drop_read ctx'.mem (a := ctx'.data) (i := i + 4) (k := k)
    (n := ctx'.dataEnd - ctx'.data) (by omega)
  have hold := take_drop_read ctx.mem (a := ctx.data) (i := i) (k := k)
    (n := ctx.dataEnd - ctx.data) (by omega)
  rw [← hnew, ← hold]
  exact congrArg (List.take k) hdrop

theorem load16_pushed (hlen : 14 ≤ ctx.frame.length)
    (hpush : vlanTagPush adjust ctx ctx.data vlid = (0, ctx')) {i : Nat} (hi : 12 ≤ i)
    (hk : i + 2 ≤ ctx.frame.length) :
    ctx'.mem.load16 (ctx'.data + (i + 4)) = ctx.mem.load16 (ctx.data + i) := by
  apply load16_eq
  rw [bytes16_load16, read_pushed hlen hpush hi hk]

/-- What `vlan_tag_push` has written behind the addresses. -/
theorem pushed_tag (hlen : 14 ≤ ctx.frame.length)
    (hpush : vlanTagPush adjust ctx ctx.data vlid = (0, ctx')) :
    ctx'.mem.load16 (ctx'.data + 12) = swap16 ethP8021Q ∧
    ctx'.mem.load16 (ctx'.data + 14) = swap16 (BitVec.ofInt 16 vlid) :=
  load16_of_tagged (by omega) (vlanTagPush_frame hlen hpush)
    (by rw [length_pushed hlen hpush]; omega)

/-- A pushed tag lies on top of the stack. -/
theorem TagStack.push {n : Nat} (h : TagStack ctx.mem ctx.dataEnd (ctx.data + 12) n)
    (hlen : 14 ≤ ctx.frame.length) (hpush : vlanTagPush adjust ctx ctx.data vlid = (0, ctx')) :
    TagStack ctx'.mem ctx'.dataEnd (ctx'.data + 12) (n + 1) := by
  have hlen' := length_pushed hlen hpush
  have hroom := h.room
  rw [XdpMd.length_frame, XdpMd.length_frame] at hlen'
  -- the types of the old tags have moved with them
  have hshift : ∀ i, i ≤ n → ctx'.mem.load16 (ctx'.data + 12 + 4 * (i + 1)) =
      ctx.mem.load16 (ctx.data + 12 + 4 * i) := by
    intro i hi
    have hold := load16_pushed hlen hpush (i := 12 + 4 * i) (by omega)
      (by rw [XdpMd.length_frame]; omega)
    rwa [show ctx'.data + (12 + 4 * i + 4) = ctx'.data + 12 + 4 * (i + 1) by omega,
      ← Nat.add_assoc] at hold
  refine ⟨fun i hi => ?_, ?_, by omega⟩
  · cases i with
    | zero => rw [Nat.mul_zero, Nat.add_zero, (pushed_tag hlen hpush).1, protoIsVlan_8021Q]
    | succ i => rw [hshift i (by omega), h.tags i (by omega)]
  · rw [hshift n (Nat.le_refl n), h.last]

/-- What the parser makes of a stack that it reads to its end. -/
theorem parseEthhdrVlan_of_stack {n : Nat} (h : TagStack ctx.mem ctx.dataEnd (ctx.data + 12) n)
    (hn : n ≤ vlanMaxDepth) (ids : CollectVlans) :
    parseEthhdrVlan ctx.data ctx.dataEnd (some ids) ctx =
      .ok ((⟨(ctx.mem.load16 (ctx.data + 12 + 4 * n)).toNat, ctx.data + 14 + 4 * n, some ctx.data⟩,
        some (collectIds ctx.mem n 0 (ctx.data + 12) ids)), ctx) := by
  have hroom := h.room
  have htags : ethTags ctx ctx.data = n := tagCount_eq_of_stack h hn
  rw [parseEthhdrVlan_ok _ (Nat.le_refl _), parsedEthhdr, if_neg (by omega), if_neg (by omega), htags]
  rfl

/-- An ID lies under the mask of the TCI. -/
theorem and_vlanVidMask {vlid : Int} (h₀ : 0 ≤ vlid) (h₁ : vlid < 4096) :
    BitVec.ofInt 16 vlid &&& vlanVidMask = BitVec.ofInt 16 vlid := by
  have hval := toNat_ofInt16 h₀ h₁
  apply BitVec.eq_of_toNat_eq
  rw [BitVec.toNat_and, show vlanVidMask.toNat = 2 ^ 12 - 1 from rfl, Nat.and_two_pow_sub_one_eq_mod]
  omega

/-- The IDs of the pushed stack: the new one, then those of the old stack. -/
theorem map_vlanId_pushed {n : Nat} (h : TagStack ctx.mem ctx.dataEnd (ctx.data + 12) n)
    (hlen : 14 ≤ ctx.frame.length) (hpush : vlanTagPush adjust ctx ctx.data vlid = (0, ctx'))
    (h₀ : 0 ≤ vlid) (h₁ : vlid < 4096) :
    ((List.range (n + 1)).map fun j => vlanId ctx'.mem (ctx'.data + 12 + 4 * j)) =
      BitVec.ofInt 16 vlid :: (List.range n).map fun j => vlanId ctx.mem (ctx.data + 12 + 4 * j) := by
  have hroom := h.room
  have hnew : vlanId ctx'.mem (ctx'.data + 12) = BitVec.ofInt 16 vlid := by
    unfold vlanId
    rw [(pushed_tag hlen hpush).2, swap16_swap16]
    exact and_vlanVidMask h₀ h₁
  rw [List.range_succ_eq_map, List.map_cons, List.map_map]
  congr 1
  refine List.map_congr_left fun j hj => ?_
  have hj := List.mem_range.mp hj
  -- the tag behind the new one
  have hold := load16_pushed hlen hpush (i := 12 + 4 * j + 2) (by omega)
    (by rw [XdpMd.length_frame]; omega)
  simp only [Function.comp_apply, Nat.succ_eq_add_one, vlanId]
  rw [show ctx'.data + 12 + 4 * (j + 1) + 2 = ctx'.data + (12 + 4 * j + 2 + 4) by omega, hold,
    show ctx.data + (12 + 4 * j + 2) = ctx.data + 12 + 4 * j + 2 by omega]

/-- **A pushed tag is transparent to the parser.**  Below the parser's depth, the new frame parses
to the same EtherType, with the cursor four bytes further over the same remaining bytes, and the
new ID before the old ones. -/
theorem push_transparent (adjust : AdjustHead) (ctx ctx' : XdpMd) (n : Nat) (vlid : Int)
    (ids₀ ids₁ : CollectVlans) (hlen : 14 ≤ ctx.frame.length)
    (hstack : TagStack ctx.mem ctx.dataEnd (ctx.data + 12) n) (hn : n < vlanMaxDepth)
    (h₀ : 0 ≤ vlid) (h₁ : vlid < 4096)
    (hpush : Packet02.vlanTagPush adjust ctx ctx.data vlid = (0, ctx')) :
    ∃ (r r' : Parsed) (ids ids' : CollectVlans),
      parseEthhdrVlan ctx.data ctx.dataEnd (some ids₀) ctx = .ok ((r, some ids), ctx) ∧
      parseEthhdrVlan ctx'.data ctx'.dataEnd (some ids₁) ctx' = .ok ((r', some ids'), ctx') ∧
      0 ≤ r.ret ∧ r'.ret = r.ret ∧ r'.nh - ctx'.data = r.nh - ctx.data + 4 ∧
      ctx'.mem.read r'.nh (ctx'.dataEnd - r'.nh) = ctx.mem.read r.nh (ctx.dataEnd - r.nh) ∧
      ids'.toList.take (n + 1) = BitVec.ofInt 16 vlid :: ids.toList.take n := by
  rw [packet02_vlanTagPush_eq] at hpush
  have hroom := hstack.room
  have hlen' := length_pushed hlen hpush
  rw [XdpMd.length_frame, XdpMd.length_frame] at hlen'
  refine ⟨_, _, _, _, parseEthhdrVlan_of_stack hstack (by omega) ids₀,
    parseEthhdrVlan_of_stack (hstack.push hlen hpush) hn ids₁, Int.natCast_nonneg _, ?_, ?_, ?_, ?_⟩
  · have hproto := load16_pushed hlen hpush (i := 12 + 4 * n) (by omega)
      (by rw [XdpMd.length_frame]; omega)
    rw [show ctx'.data + 12 + 4 * (n + 1) = ctx'.data + (12 + 4 * n + 4) by omega, hproto,
      ← Nat.add_assoc]
  · simp only
    omega
  · have hrest := read_pushed hlen hpush (i := 14 + 4 * n) (k := ctx.dataEnd - (ctx.data + 14 + 4 * n))
      (by omega) (by rw [XdpMd.length_frame]; omega)
    rw [show ctx'.data + 14 + 4 * (n + 1) = ctx'.data + (14 + 4 * n + 4) by omega,
      show ctx'.dataEnd - (ctx'.data + (14 + 4 * n + 4)) = ctx.dataEnd - (ctx.data + 14 + 4 * n) by
        omega, hrest, ← Nat.add_assoc]
  · rw [take_collectIds _ _ _ hn, take_collectIds _ _ _ (by omega)]
    exact map_vlanId_pushed hstack hlen hpush h₀ h₁

end

/-- A frame of 18 bytes with one tag, of ID 5, behind 256 bytes of headroom. -/
def stackedCtx : XdpMd where
  mem a := if a = 268 then 0x88 else if a = 269 then 0xA8 else if a = 271 then 5 else 0
  data := 256
  dataEnd := 274

theorem push_transparent_stacked :
    (14 ≤ stackedCtx.frame.length ∧
      TagStack stackedCtx.mem stackedCtx.dataEnd (stackedCtx.data + 12) 1) ∧
    ∃ ctx', Packet02.vlanTagPush (kernelAdjustHead 0) stackedCtx stackedCtx.data 7 = (0, ctx') ∧
    ∃ (r r' : Parsed) (ids ids' : CollectVlans),
      parseEthhdrVlan stackedCtx.data stackedCtx.dataEnd (some (Vector.replicate 2 0)) stackedCtx =
        .ok ((r, some ids), stackedCtx) ∧
      parseEthhdrVlan ctx'.data ctx'.dataEnd (some (Vector.replicate 2 0)) ctx' =
        .ok ((r', some ids'), ctx') ∧
      r'.ret = r.ret ∧ ids'.toList.take 2 = BitVec.ofInt 16 7 :: ids.toList.take 1 := by
  have hlen : 14 ≤ stackedCtx.frame.length := by decide
  have hstack : TagStack stackedCtx.mem stackedCtx.dataEnd (stackedCtx.data + 12) 1 :=
    ⟨fun i hi => by
      obtain rfl : i = 0 := by omega
      decide, by decide, by decide⟩
  obtain ⟨r, r', ids, ids', hold, hnew, -, hret, -, -, hids⟩ :=
    push_transparent (kernelAdjustHead 0) stackedCtx _ 1 7 (Vector.replicate 2 0)
      (Vector.replicate 2 0) hlen hstack (by decide) (by decide) (by decide) rfl
  exact ⟨⟨hlen, hstack⟩, _, rfl, r, r', ids, ids', hold, hnew, hret, hids⟩

/-! ## The popped ID -/

/-- The TCI of the outermost tag: three bits of priority, the drop eligible bit, and the ID. -/
def outerTci (ctx : XdpMd) : BitVec 16 := swap16 (ctx.mem.load16 (ctx.data + 14))

/-- The parser collects the ID of the outermost tag first, whatever follows it. -/
theorem parseEthhdrVlan_first (ids₀ : CollectVlans)
    (htag : protoIsVlan (ctx.mem.load16 (ctx.data + 12)) = true) (hlen : 18 ≤ ctx.frame.length) :
    ∃ r ids, parseEthhdrVlan ctx.data ctx.dataEnd (some ids₀) ctx = .ok ((r, some ids), ctx) ∧
      ids[0]? = some (outerTci ctx &&& vlanVidMask) := by
  rw [XdpMd.length_frame] at hlen
  have htags : 0 < ethTags ctx ctx.data := by
    unfold ethTags vlanMaxDepth
    rw [tagCount_of_tag htag (by omega)]
    exact Nat.succ_pos _
  refine ⟨parsedEthhdr ctx ctx.data, collectIds ctx.mem (ethTags ctx ctx.data) 0 (ctx.data + 12) ids₀,
    ?_, ?_⟩
  · rw [parseEthhdrVlan_ok _ (Nat.le_refl _), if_neg (by omega), Option.map_some]
  · rw [getElem?_collectIds, if_pos ⟨Nat.le_refl 0, by omega, by decide⟩]
    rfl

/-- What the lesson's pop returns for a tagged frame. -/
theorem packet02_vlanTagPop_ret (adjust : AdjustHead)
    (htag : protoIsVlan (ctx.mem.load16 (ctx.data + 12)) = true) (hlen : 18 ≤ ctx.frame.length) :
    (Packet02.vlanTagPop adjust ctx ctx.data).1 =
      if ctx.frame.length = 18 then -1 else ((outerTci ctx).toNat : Int) := by
  rw [packet02_vlanTagPop_eq]
  by_cases hexact : ctx.frame.length = 18
  · rw [if_pos hexact, if_pos]
    rw [XdpMd.length_frame] at hexact
    exact ⟨htag, by omega⟩
  · rw [if_neg hexact, if_neg]
    · obtain ⟨popped, hpop, -⟩ := vlanTagPop_frame adjust htag hlen
      rw [hpop]
      rfl
    · rintro ⟨-, hend⟩
      rw [XdpMd.length_frame] at hexact
      omega

/-- The mask leaves a TCI alone if there is nothing above the ID. -/
theorem toNat_and_vlanVidMask_iff (tci : BitVec 16) :
    tci.toNat = (tci &&& vlanVidMask).toNat ↔ tci >>> 12 = 0 := by
  have htci := tci.isLt
  have hlow : (tci &&& vlanVidMask).toNat = tci.toNat % 4096 := by
    rw [BitVec.toNat_and, show vlanVidMask.toNat = 2 ^ 12 - 1 from rfl,
      Nat.and_two_pow_sub_one_eq_mod]
  have hhigh : tci >>> 12 = 0 ↔ tci.toNat / 4096 = 0 := by
    rw [← BitVec.toNat_inj, BitVec.toNat_ushiftRight, Nat.shiftRight_eq_div_pow]
    exact Iff.rfl
  rw [hlow, hhigh]
  omega

/-- **The popped ID.**  On a frame whose outermost tag is whole, a pop that succeeds returns the ID
that `parse_ethhdr_vlan` collects first exactly when the priority and the drop eligible bit are
zero.  On a frame that ends with the tag it does not succeed. -/
theorem vlanTagPop_id_iff (adjust : AdjustHead) (ctx : XdpMd) (ids₀ : CollectVlans)
    (htag : protoIsVlan (ctx.mem.load16 (ctx.data + 12)) = true) (hlen : 18 ≤ ctx.frame.length) :
    ((Packet02.vlanTagPop adjust ctx ctx.data).1 ≠ -1 →
      ∃ (r : Parsed) (ids : CollectVlans) (id : BitVec 16),
        parseEthhdrVlan ctx.data ctx.dataEnd (some ids₀) ctx = .ok ((r, some ids), ctx) ∧
        ids[0]? = some id ∧ (Packet02.vlanTagPop adjust ctx ctx.data).1 = id.toNat ∧
        0 ≤ (Packet02.vlanTagPop adjust ctx ctx.data).1 ∧
        (Packet02.vlanTagPop adjust ctx ctx.data).1 ≤ 4095) ↔
    ctx.frame.length = 18 ∨ outerTci ctx >>> 12 = 0 := by
  obtain ⟨r, ids, hparse, hfirst⟩ := parseEthhdrVlan_first ids₀ htag hlen
  rw [packet02_vlanTagPop_ret adjust htag hlen]
  by_cases hexact : ctx.frame.length = 18
  · rw [if_pos hexact]
    exact iff_of_true (fun hne => absurd rfl hne) (.inl hexact)
  · rw [if_neg hexact, or_iff_right hexact, ← toNat_and_vlanVidMask_iff]
    constructor
    · intro hagree
      obtain ⟨r', ids', id, hparse', hid, hret, -⟩ := hagree (by omega)
      have hsame := hparse.symm.trans hparse'
      simp only [Except.ok.injEq, Prod.mk.injEq, Option.some.injEq] at hsame
      obtain ⟨⟨-, rfl⟩, -⟩ := hsame
      obtain rfl : _ = id := Option.some.inj (hfirst.symm.trans hid)
      exact Int.ofNat_inj.mp hret
    · intro hid _
      have hmask : (outerTci ctx &&& vlanVidMask).toNat ≤ vlanVidMask.toNat := by
        rw [BitVec.toNat_and]
        exact Nat.and_le_right
      have hbound : (outerTci ctx).toNat ≤ 4095 := hid ▸ hmask
      exact ⟨r, ids, _, hparse, hfirst, congrArg Nat.cast hid, Int.natCast_nonneg _, by omega⟩

/-- A tag of ID 5 behind 256 bytes of headroom, with the given byte before the ID's low one. -/
def priorityCtx (high : BitVec 8) : XdpMd where
  mem a := if a = 268 then 0x81 else if a = 270 then high else if a = 271 then 5 else 0
  data := 256
  dataEnd := 275

theorem vlanTagPop_id_plain :
    (protoIsVlan ((priorityCtx 0).mem.load16 ((priorityCtx 0).data + 12)) = true ∧
      18 ≤ (priorityCtx 0).frame.length ∧
      (Packet02.vlanTagPop (kernelAdjustHead 0) (priorityCtx 0) (priorityCtx 0).data).1 = 5) ∧
    ∃ (r : Parsed) (ids : CollectVlans) (id : BitVec 16),
      parseEthhdrVlan (priorityCtx 0).data (priorityCtx 0).dataEnd (some (Vector.replicate 2 0))
        (priorityCtx 0) = .ok ((r, some ids), priorityCtx 0) ∧ ids[0]? = some id ∧
      (Packet02.vlanTagPop (kernelAdjustHead 0) (priorityCtx 0) (priorityCtx 0).data).1 = id.toNat := by
  have htag : protoIsVlan ((priorityCtx 0).mem.load16 ((priorityCtx 0).data + 12)) = true := by decide
  have hlen : 18 ≤ (priorityCtx 0).frame.length := by decide
  obtain ⟨r, ids, id, hparse, hid, hret, -⟩ :=
    (vlanTagPop_id_iff (kernelAdjustHead 0) (priorityCtx 0) (Vector.replicate 2 0) htag hlen).mpr
      (.inr (by decide)) (by decide)
  exact ⟨⟨htag, hlen, by decide⟩, r, ids, id, hparse, hid, hret⟩

/-- With priority 1 the pop returns `0x2005`, and the parser collects 5. -/
theorem vlanTagPop_id_priority :
    (protoIsVlan ((priorityCtx 0x20).mem.load16 ((priorityCtx 0x20).data + 12)) = true ∧
      18 ≤ (priorityCtx 0x20).frame.length) ∧
    (Packet02.vlanTagPop (kernelAdjustHead 0) (priorityCtx 0x20) (priorityCtx 0x20).data).1 = 0x2005 ∧
    ∃ r ids, parseEthhdrVlan (priorityCtx 0x20).data (priorityCtx 0x20).dataEnd
        (some (Vector.replicate 2 0)) (priorityCtx 0x20) = .ok ((r, some ids), priorityCtx 0x20) ∧
      ids[0]? = some 5 := by
  have htag : protoIsVlan ((priorityCtx 0x20).mem.load16 ((priorityCtx 0x20).data + 12)) = true := by
    decide
  have hlen : 18 ≤ (priorityCtx 0x20).frame.length := by decide
  obtain ⟨r, ids, hparse, hfirst⟩ := parseEthhdrVlan_first (Vector.replicate 2 0) htag hlen
  exact ⟨⟨htag, hlen⟩, by decide, r, ids, hparse, hfirst⟩

/-! ## The programs keep to the packet -/

section
variable {d e nh : Nat} {r : Parsed}

/-- The destination port is in the first four bytes of a UDP and of a TCP header. -/
theorem changePort_keeps {size : Nat} (change : BitVec 16 → BitVec 16) (h : d ≤ nh)
    (hfits : CursorFits e nh size r) (hsize : 4 ≤ size) (hret : 0 ≤ r.ret) :
    Keeps d e (do
      let hdr ← header r.hdr
      let dest ← load16 (hdr + 2)
      store16 (hdr + 2) (change dest)
      return xdpPass) (· < xdpActionMax) := by
  refine hfits.header_keeps hret fun hroom => ?_
  have hport : d ≤ nh + 2 ∧ nh + 2 + 2 ≤ e := ⟨by omega, by omega⟩
  refine .bind (.load16 hport) fun dest _ => ?_
  exact .bind (.storeBytes hport) fun _ _ => .pure (by decide)

theorem rewritePort_keeps (h : d ≤ r.nh) (h' : r.nh ≤ e) :
    Keeps d e (Packet02.rewritePort e r) (· < xdpActionMax) := by
  refine .ite (fun _ => ?_) fun _ => .ite (fun _ => ?_) fun _ => .pure (by decide)
  · refine .bind (ParseCall.udphdr.run_keeps h h') fun udp hudp => ?_
    refine .ite (fun _ => .pure (by decide)) fun hret => ?_
    exact changePort_keeps _ h hudp (by decide) (Int.not_lt.mp hret)
  · refine .bind (ParseCall.tcphdr.run_keeps h h') fun tcp htcp => ?_
    refine .ite (fun _ => .pure (by decide)) fun hret => ?_
    exact changePort_keeps _ h htcp (by decide) (Int.not_lt.mp hret)

theorem portRewriteAction_keeps (h : d ≤ e) :
    Keeps d e Packet02.portRewriteAction (· < xdpActionMax) := by
  refine .bind .get fun ctx hspans => ?_
  obtain ⟨rfl, rfl⟩ := hspans
  refine .bind (ParseCall.ethhdr.run_keeps (Nat.le_refl _) h) fun eth heth => ?_
  refine .ite (fun _ => .pure (by decide)) fun _ => .ite (fun _ => ?_) fun _ =>
    .ite (fun _ => ?_) fun _ => .pure (by decide)
  · refine .bind (ParseCall.ip6hdr.run_keeps heth.advances heth.within) fun ip hip => ?_
    exact rewritePort_keeps (Nat.le_trans heth.advances hip.advances) hip.within
  · refine .bind (ParseCall.iphdr.run_keeps heth.advances heth.within) fun ip hip => ?_
    exact rewritePort_keeps (Nat.le_trans heth.advances hip.advances) hip.within

theorem dropEven_keeps (h : d ≤ nh) (hfits : CursorFits e nh sizeofIcmphdr r) {v : BitVec 8}
    (hret : ¬ r.ret ≠ v.toNat) : Keeps d e (Packet02.dropEven r) (· < xdpActionMax) := by
  refine hfits.header_keeps (by omega) fun hroom => ?_
  refine .bind (.load16 ⟨Nat.le_trans h (Nat.le_add_right _ _), hroom⟩) fun sequence _ => ?_
  exact .ite (fun _ => .pure (by decide)) fun _ => .pure (by decide)

theorem packet02_parserAction_keeps (h : d ≤ e) :
    Keeps d e Packet02.parserAction (· < xdpActionMax) := by
  refine .bind .get fun ctx hspans => ?_
  obtain ⟨rfl, rfl⟩ := hspans
  refine .bind (ParseCall.ethhdr.run_keeps (Nat.le_refl _) h) fun eth heth => ?_
  refine .ite (fun _ => ?_) fun _ => .ite (fun _ => ?_) fun _ => .pure (by decide)
  · refine .bind (ParseCall.ip6hdr.run_keeps heth.advances heth.within) fun ip hip => ?_
    refine .ite (fun _ => .pure (by decide)) fun _ => ?_
    have hnh : ctx.data ≤ ip.nh := Nat.le_trans heth.advances hip.advances
    refine .bind (ParseCall.icmp6hdr.run_keeps hnh hip.within) fun icmp hicmp => ?_
    exact .ite (fun _ => .pure (by decide)) fun hret => dropEven_keeps hnh hicmp hret
  · refine .bind (ParseCall.iphdr.run_keeps heth.advances heth.within) fun ip hip => ?_
    refine .ite (fun _ => .pure (by decide)) fun _ => ?_
    have hnh : ctx.data ≤ ip.nh := Nat.le_trans heth.advances hip.advances
    refine .bind (ParseCall.icmphdr.run_keeps hnh hip.within) fun icmp hicmp => ?_
    exact .ite (fun _ => .pure (by decide)) fun hret => dropEven_keeps hnh hicmp hret

end

end AfXdpSwitch
