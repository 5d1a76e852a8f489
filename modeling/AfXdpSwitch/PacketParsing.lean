import AfXdpSwitch.ParsingHelpers
import AfXdpSwitch.ProcessPacket
import AfXdpSwitch.XdpStats

/-!
# The lesson parsers of `packet01-parsing/xdp_prog_kern.c`

The lesson has parsers of its own, under the names of those in `common/parsing_helpers.h`.
Four of the five compute the same.  `parse_iphdr` does not read `ihl`: it takes every IPv4
header for one of 20 bytes, so that it stops in the middle of the options of a longer one, and
accepts a header whose `ihl` is illegal.

`xdp_parser_func` drops ICMPv6 packets with an even and ICMPv4 packets with an odd sequence number.
-/

namespace AfXdpSwitch
open ByteMemory

namespace Packet01

/-- The loop over the VLAN tags; there are no IDs to collect. -/
def skipVlans (dataEnd : Nat) : Nat → Nat → BitVec 16 → Bpf (Nat × BitVec 16)
  | 0, vlh, hProto => pure (vlh, hProto)
  | rounds + 1, vlh, hProto => do
      if !protoIsVlan hProto then return (vlh, hProto)
      if vlh + sizeofVlanHdr > dataEnd then return (vlh, hProto)
      let hProto ← load16 (vlh + 2)
      skipVlans dataEnd rounds (vlh + sizeofVlanHdr) hProto

/-- `parse_ethhdr`; the result is `h_proto` as it stands in the packet. -/
def parseEthhdr (nh dataEnd : Nat) : Bpf Parsed := do
  let eth := nh
  if nh + sizeofEthhdr > dataEnd then return ⟨-1, nh, none⟩
  let hProto ← load16 (eth + 12)
  let (vlh, hProto) ← skipVlans dataEnd vlanMaxDepth (nh + sizeofEthhdr) hProto
  return ⟨hProto.toNat, vlh, some eth⟩

/-- `parse_ip6hdr`; the result is the next header. -/
def parseIp6hdr : Nat → Nat → Bpf Parsed := parseFixed sizeofIpv6hdr 6

/-- The only one that differs: the cursor moves by 20 bytes, whatever `ihl` says. -/
def parseIphdr : Nat → Nat → Bpf Parsed := parseFixed sizeofIphdr 9

/-- `parse_icmp6hdr`; the result is the type. -/
def parseIcmp6hdr : Nat → Nat → Bpf Parsed := parseFixed sizeofIcmphdr 0

/-- `parse_icmphdr`, the same. -/
def parseIcmphdr : Nat → Nat → Bpf Parsed := parseFixed sizeofIcmphdr 0

/-- The second `if`.  It is also reached from the first, with the ICMPv6 type in `nh_type`. -/
def parserIpv4 (dataEnd nh : Nat) (nhType : Int) : Bpf (BitVec 32) := do
  if nhType = (swap16 ethPIp).toNat then
    let ip ← parseIphdr nh dataEnd
    if ip.ret ≠ ipprotoIcmp.toNat then return xdpPass
    let icmp ← parseIcmphdr ip.nh dataEnd
    if icmp.ret < 0 then return xdpPass
    let icmph ← header icmp.hdr
    let sequence ← load16 (icmph + 6)
    if ¬ (swap16 sequence).toNat % 2 = 0 then return xdpDrop
    return xdpPass
  else return xdpPass

/-- The action that `xdp_parser_func` decides on. -/
def parserAction : Bpf (BitVec 32) := do
  let ctx ← get
  let eth ← parseEthhdr ctx.data ctx.dataEnd
  if eth.ret < 0 then return xdpPass
  if eth.ret = (swap16 ethPIpv6).toNat then
    let ip ← parseIp6hdr eth.nh ctx.dataEnd
    if ip.ret ≠ ipprotoIcmpv6.toNat then return xdpPass
    let icmp ← parseIcmp6hdr ip.nh ctx.dataEnd
    if icmp.ret < 0 then return xdpPass
    let icmp6h ← header icmp.hdr
    let sequence ← load16 (icmp6h + 6)
    if (swap16 sequence).toNat % 2 = 0 then return xdpDrop
    parserIpv4 ctx.dataEnd icmp.nh icmp.ret
  else parserIpv4 ctx.dataEnd eth.nh eth.ret

/-- `xdp_parser_func`. -/
def xdpParserFunc : Xdp (BitVec 32) := recorded parserAction

end Packet01

/-! ## The pairs that agree -/

variable {ctx : XdpMd} {nh : Nat}

/-- The two loops do the same when no IDs are collected. -/
theorem packet01_skipVlans_eq (dataEnd rounds i vlh : Nat) (hProto : BitVec 16) :
    Packet01.skipVlans dataEnd rounds vlh hProto =
      (fun r => (r.1, r.2.1)) <$> skipVlans dataEnd rounds i vlh hProto none := by
  induction rounds generalizing i vlh hProto with
  | zero => rfl
  | succ rounds ih =>
      rw [Packet01.skipVlans, skipVlans]
      by_cases hvlan : protoIsVlan hProto = true
      · by_cases hshort : vlh + sizeofVlanHdr > dataEnd
        · simp [hvlan, hshort]
        · simp only [hvlan, hshort, Bool.not_true, Bool.false_eq_true, if_false, map_bind]
          refine bind_congr fun proto => ?_
          rw [ih (i + 1)]
          simp [collectVlan]
      · simp [hvlan]

theorem packet01_parseEthhdr_eq (nh dataEnd : Nat) :
    Packet01.parseEthhdr nh dataEnd = parseEthhdr nh dataEnd := by
  unfold Packet01.parseEthhdr parseEthhdr parseEthhdrVlan
  by_cases hshort : nh + sizeofEthhdr > dataEnd
  · simp [hshort]
  · simp only [hshort, if_false, bind_assoc]
    refine bind_congr fun proto => ?_
    rw [packet01_skipVlans_eq dataEnd vlanMaxDepth 0]
    simp

/-! ## `parse_iphdr` -/

/-- The two agree on a header that is cut off or has no options. -/
theorem packet01_parseIphdr_eq_iff (h : ctx.data ≤ nh) :
    Packet01.parseIphdr nh ctx.dataEnd ctx = parseIphdr nh ctx.dataEnd ctx ↔
      ctx.dataEnd < nh + 20 ∨ ctx.mem nh &&& 0xF = 5 := by
  have hlesson : Packet01.parseIphdr nh ctx.dataEnd ctx = .ok (parsedFixed ctx nh 20 9, ctx) :=
    parseFixed_ok (by decide) h
  have hihl : ctx.mem nh &&& 0xF = 5 ↔ ihlBytes ctx nh = 20 := by
    have hfive : (5 : BitVec 8).toNat = 5 := rfl
    unfold ihlBytes
    rw [← BitVec.toNat_inj]
    omega
  rw [hlesson, parseIphdr_ok h, hihl]
  unfold parsedFixed parsedIphdr
  by_cases hshort : nh + 20 > ctx.dataEnd
  · rw [if_pos hshort, if_neg (by omega)]
    exact iff_of_true rfl (.inl (by omega))
  · rw [if_neg hshort]
    split
    · simp only [Except.ok.injEq, Prod.mk.injEq, Parsed.mk.injEq, true_and, and_true]
      omega
    · simp only [Except.ok.injEq, Prod.mk.injEq, Parsed.mk.injEq, and_true]
      omega

/-- At the cursor `nh` the five pairs return the same value, leave the same cursor and hand back
the same header. -/
structure LessonParsersAgree (ctx : XdpMd) (nh : Nat) : Prop where
  ethhdr : Packet01.parseEthhdr nh ctx.dataEnd ctx = parseEthhdr nh ctx.dataEnd ctx
  ip6hdr : Packet01.parseIp6hdr nh ctx.dataEnd ctx = parseIp6hdr nh ctx.dataEnd ctx
  iphdr : Packet01.parseIphdr nh ctx.dataEnd ctx = parseIphdr nh ctx.dataEnd ctx
  icmp6hdr : Packet01.parseIcmp6hdr nh ctx.dataEnd ctx = parseIcmp6hdr nh ctx.dataEnd ctx
  icmphdr : Packet01.parseIcmphdr nh ctx.dataEnd ctx = parseIcmphdr nh ctx.dataEnd ctx

/-- **The lesson parsers and the shared ones.**  At a cursor in the packet they agree exactly when
fewer than 20 bytes are left there or the low half of the byte at the cursor is 5. -/
theorem lesson_parsers_agree_iff (ctx : XdpMd) (nh : Nat) (h : ctx.data ≤ nh) :
    LessonParsersAgree ctx nh ↔ ctx.dataEnd < nh + 20 ∨ ctx.mem nh &&& 0xF = 5 := by
  rw [← packet01_parseIphdr_eq_iff h]
  constructor
  · intro hagree
    exact hagree.iphdr
  · intro hip
    exact ⟨by rw [packet01_parseEthhdr_eq], rfl, hip, rfl, rfl⟩

/-- An IPv4 header without options, and nothing behind it. -/
def plainCtx : XdpMd where
  mem a := [0x45, 0, 0, 20, 0, 0, 0, 0, 64, 17].getD a 0
  data := 0
  dataEnd := 20

/-- A whole header, after which both parsers leave the cursor. -/
theorem lesson_parsers_agree_plain : (plainCtx.data ≤ 0 ∧ 0 ≤ plainCtx.dataEnd) ∧
    LessonParsersAgree plainCtx 0 ∧
    Packet01.parseIphdr 0 plainCtx.dataEnd plainCtx = .ok (⟨17, 20, some 0⟩, plainCtx) :=
  ⟨by decide, (lesson_parsers_agree_iff plainCtx 0 (by decide)).mpr (.inr (by decide)), rfl⟩

/-- An IPv4 header with four bytes of options, and nothing behind it. -/
def optionsCtx : XdpMd where
  mem a := if a = 0 then 0x46 else 0
  data := 0
  dataEnd := 24

/-- The lesson's parser leaves the cursor in the options. -/
theorem lesson_parsers_differ_on_options :
    (optionsCtx.data ≤ 0 ∧ 0 ≤ optionsCtx.dataEnd) ∧ ¬ LessonParsersAgree optionsCtx 0 ∧
    Packet01.parseIphdr 0 optionsCtx.dataEnd optionsCtx = .ok (⟨0, 20, some 0⟩, optionsCtx) ∧
    parseIphdr 0 optionsCtx.dataEnd optionsCtx = .ok (⟨0, 24, some 0⟩, optionsCtx) := by
  have hlesson : Packet01.parseIphdr 0 optionsCtx.dataEnd optionsCtx =
      .ok (⟨0, 20, some 0⟩, optionsCtx) := rfl
  have hshared : parseIphdr 0 optionsCtx.dataEnd optionsCtx =
      .ok (⟨0, 24, some 0⟩, optionsCtx) := rfl
  refine ⟨by decide, fun hagree => ?_, hlesson, hshared⟩
  have hsame := hagree.iphdr
  rw [hlesson, hshared] at hsame
  simp at hsame

/-! ## `xdp_parser_func` -/

section
variable {d e nh : Nat}

/-- The lesson's IPv4 parser keeps to the packet as well. -/
theorem packet01_parseIphdr_keeps (h : d ≤ nh) (h' : nh ≤ e) :
    Keeps d e (Packet01.parseIphdr nh e) (CursorFits e nh sizeofIphdr) := by
  refine .of_runs fun ctx hspans => ?_
  obtain ⟨rfl, rfl⟩ := hspans
  refine ⟨_, ctx, parseFixed_ok (by decide) h, ?_, rfl, rfl⟩
  unfold parsedFixed
  split
  · exact ⟨Nat.le_refl _, h', fun hret => absurd hret (show ¬ (0 : Int) ≤ -1 by decide)⟩
  · exact ⟨Nat.le_add_right _ _, by simp only; omega, fun _ => ⟨rfl, by omega⟩⟩

theorem packet01_parserIpv4_keeps (nhType : Int) (h : d ≤ nh) (h' : nh ≤ e) :
    Keeps d e (Packet01.parserIpv4 e nh nhType) (· < xdpActionMax) := by
  refine .ite (fun _ => ?_) fun _ => .pure (by decide)
  refine .bind (packet01_parseIphdr_keeps h h') fun ip hip => ?_
  refine .ite (fun _ => .pure (by decide)) fun _ => ?_
  have hnh : d ≤ ip.nh := Nat.le_trans h hip.advances
  refine .bind (ParseCall.icmphdr.run_keeps hnh hip.within) fun icmp hicmp => ?_
  refine .ite (fun _ => .pure (by decide)) fun hret => ?_
  refine hicmp.header_keeps (Int.not_lt.mp hret) fun hroom => ?_
  refine .bind (.load16 ⟨Nat.le_trans hnh (Nat.le_add_right _ _), hroom⟩) fun sequence _ => ?_
  exact .ite (fun _ => .pure (by decide)) fun _ => .pure (by decide)

/-- The lesson's program keeps to the packet and decides on an action. -/
theorem packet01_parserAction_keeps (h : d ≤ e) :
    Keeps d e Packet01.parserAction (· < xdpActionMax) := by
  refine .bind .get fun ctx hspans => ?_
  obtain ⟨rfl, rfl⟩ := hspans
  rw [packet01_parseEthhdr_eq]
  refine .bind (ParseCall.ethhdr.run_keeps (Nat.le_refl _) h) fun eth heth => ?_
  refine .ite (fun _ => .pure (by decide)) fun _ => ?_
  refine .ite (fun _ => ?_) fun _ => packet01_parserIpv4_keeps _ heth.advances heth.within
  refine .bind (ParseCall.ip6hdr.run_keeps heth.advances heth.within) fun ip hip => ?_
  refine .ite (fun _ => .pure (by decide)) fun _ => ?_
  have hnh : ctx.data ≤ ip.nh := Nat.le_trans heth.advances hip.advances
  refine .bind (ParseCall.icmp6hdr.run_keeps hnh hip.within) fun icmp hicmp => ?_
  refine .ite (fun _ => .pure (by decide)) fun hret => ?_
  refine hicmp.header_keeps (Int.not_lt.mp hret) fun hroom => ?_
  refine .bind (.load16 ⟨Nat.le_trans hnh (Nat.le_add_right _ _), hroom⟩) fun sequence _ => ?_
  refine .ite (fun _ => .pure (by decide)) fun _ => ?_
  exact packet01_parserIpv4_keeps _ (Nat.le_trans hnh hicmp.advances) hicmp.within

end

end AfXdpSwitch
