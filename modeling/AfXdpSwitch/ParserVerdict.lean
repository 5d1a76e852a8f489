import AfXdpSwitch.PacketParsing

/-!
# The verdict of the lesson parser on IPv6 packets

`xdp_parser_func` of `packet01-parsing/xdp_prog_kern.c` is meant to drop an ICMPv6 packet with an
even sequence number and to pass every other IPv6 packet.  Its `nh_type` is an EtherType first, then
a protocol, then an ICMP type, and the test for IPv4 that follows the IPv6 branch is no `else`.  On
a little-endian host `bpf_htons(ETH_P_IP)` is 8.  So an ICMPv6 packet of type 8 with an odd sequence
number goes on as if an IPv4 header began behind its ICMPv6 header, and bytes of its payload decide
whether it is dropped.
-/

namespace AfXdpSwitch
open ByteMemory

section
variable (ctx : XdpMd) (ip : Nat)

/-- The IPv6 header at `ip` is whole and followed by a whole ICMPv6 header. -/
def HasIcmp6 : Prop := ip + 48 ≤ ctx.dataEnd ∧ ctx.mem (ip + 6) = 58

instance : Decidable (HasIcmp6 ctx ip) :=
  inferInstanceAs (Decidable (ip + 48 ≤ ctx.dataEnd ∧ ctx.mem (ip + 6) = 58))

/-- The sequence number behind an ICMP or ICMPv6 header's checksum and identifier. -/
def icmpSequence (icmp : Nat) : BitVec 16 := swap16 (ctx.mem.load16 (icmp + 6))

/-- A packet that is to be dropped. -/
def EvenIcmp6 : Prop := HasIcmp6 ctx ip ∧ (icmpSequence ctx (ip + 40)).toNat % 2 = 0

instance : Decidable (EvenIcmp6 ctx ip) :=
  inferInstanceAs (Decidable (HasIcmp6 ctx ip ∧ (icmpSequence ctx (ip + 40)).toNat % 2 = 0))

/-- A packet that leaves the IPv6 branch with the EtherType of IPv4 in `nh_type`. -/
def FallsThrough : Prop :=
  HasIcmp6 ctx ip ∧ ctx.mem (ip + 40) = 8 ∧ (icmpSequence ctx (ip + 40)).toNat % 2 = 1

/-- Read as an IPv4 packet, what begins at `nh` is ICMP with an odd sequence number. -/
def OddIcmp (nh : Nat) : Prop :=
  nh + 28 ≤ ctx.dataEnd ∧ ctx.mem (nh + 9) = 1 ∧ (icmpSequence ctx (nh + 20)).toNat % 2 = 1

instance (nh : Nat) : Decidable (OddIcmp ctx nh) :=
  inferInstanceAs (Decidable (nh + 28 ≤ ctx.dataEnd ∧ ctx.mem (nh + 9) = 1 ∧
    (icmpSequence ctx (nh + 20)).toNat % 2 = 1))

/-- What the program decides on an IPv6 packet. -/
def ipv6Verdict : BitVec 32 :=
  if EvenIcmp6 ctx ip then xdpDrop
  else if HasIcmp6 ctx ip ∧ ctx.mem (ip + 40) = 8 ∧ OddIcmp ctx (ip + 48) then xdpDrop
  else xdpPass

end

variable {ctx : XdpMd} {ip nh : Nat}

/-! ## The two branches -/

/-- The second `if`. -/
theorem packet01_parserIpv4_ok (h : ctx.data ≤ nh) (type : BitVec 8) :
    Packet01.parserIpv4 ctx.dataEnd nh (type.toNat : Int) ctx =
      .ok (if type = 8 ∧ OddIcmp ctx nh then xdpDrop else xdpPass, ctx) := by
  have htype : ((type.toNat : Int) = (swap16 ethPIp).toNat) ↔ type = 8 := by
    rw [Int.ofNat_inj, show (swap16 ethPIp).toNat = (8 : BitVec 8).toNat from rfl, BitVec.toNat_inj]
  have hip : Packet01.parseIphdr nh ctx.dataEnd ctx = .ok (parsedFixed ctx nh 20 9, ctx) :=
    parseFixed_ok (by decide) h
  unfold Packet01.parserIpv4
  by_cases h8 : type = 8
  · rw [if_pos (htype.mpr h8), Prog.bind_ok hip]
    by_cases hproto : (parsedFixed ctx nh 20 9).ret = ipprotoIcmp.toNat
    · obtain ⟨hroom, hbyte⟩ := parsedFixed_ret_iff.mp hproto
      have hnh : (parsedFixed ctx nh 20 9).nh = nh + 20 := by rw [parsedFixed, if_neg (by omega)]
      have hicmp : Packet01.parseIcmphdr (nh + 20) ctx.dataEnd ctx =
          .ok (parsedFixed ctx (nh + 20) 8 0, ctx) := parseFixed_ok (by decide) (by omega)
      rw [if_neg (fun hne => hne hproto), hnh, Prog.bind_ok hicmp]
      by_cases hwhole : nh + 28 ≤ ctx.dataEnd
      · have hparsed : parsedFixed ctx (nh + 20) 8 0 =
            ⟨(ctx.mem (nh + 20)).toNat, nh + 28, some (nh + 20)⟩ := by
          rw [parsedFixed, if_neg (by omega)]
        rw [hparsed, if_neg (by simp only; omega), Prog.bind_ok (header_ok _ ctx),
          Prog.bind_ok (load16_ok ⟨by omega, by omega⟩)]
        -- what is left is the test of the sequence number
        show (if ¬ (icmpSequence ctx (nh + 20)).toNat % 2 = 0 then pure xdpDrop
          else pure xdpPass : Bpf (BitVec 32)) ctx = _
        by_cases hodd : (icmpSequence ctx (nh + 20)).toNat % 2 = 0
        · rw [if_neg (fun hne => hne hodd), if_neg (fun hall => by have := hall.2.2.2; omega)]
          rfl
        · rw [if_pos hodd, if_pos ⟨h8, hwhole, hbyte, by omega⟩]
          rfl
      · have hparsed : (parsedFixed ctx (nh + 20) 8 0).ret = -1 := by
          rw [parsedFixed, if_pos (by omega)]
        rw [if_pos (by rw [hparsed]; decide), if_neg (fun hall => hwhole hall.2.1)]
        rfl
    · rw [if_pos hproto, if_neg]
      · rfl
      · rintro ⟨-, hroom, hbyte, -⟩
        exact hproto (parsedFixed_ret_iff.mpr ⟨by omega, hbyte⟩)
  · rw [if_neg (fun heq => h8 (htype.mp heq)), if_neg (fun hall => h8 hall.1)]
    rfl

/-- **The program on an IPv6 packet.** -/
theorem packet01_parserAction_ipv6 (h : Carries ctx ethPIpv6 ip) :
    Packet01.parserAction ctx = .ok (ipv6Verdict ctx ip, ctx) := by
  have hle : ctx.data ≤ ip := by
    obtain ⟨n, -, -, -, rfl⟩ := h
    omega
  have heth : Packet01.parseEthhdr ctx.data ctx.dataEnd ctx =
      .ok (⟨(swap16 ethPIpv6).toNat, ip, some ctx.data⟩, ctx) := by
    rw [packet01_parseEthhdr_eq, parseEthhdr_ok (Nat.le_refl _), parsedEthhdr_of_carries h]
  have hip : Packet01.parseIp6hdr ip ctx.dataEnd ctx = .ok (parsedFixed ctx ip 40 6, ctx) :=
    parseFixed_ok (by decide) hle
  unfold Packet01.parserAction ipv6Verdict
  rw [Prog.bind_ok (get_ok ctx), Prog.bind_ok heth, if_neg (Int.not_lt.mpr (Int.natCast_nonneg _)),
    if_pos rfl, Prog.bind_ok hip]
  by_cases hproto : (parsedFixed ctx ip 40 6).ret = ipprotoIcmpv6.toNat
  · obtain ⟨hroom, hbyte⟩ := parsedFixed_ret_iff.mp hproto
    have hnh : (parsedFixed ctx ip 40 6).nh = ip + 40 := by rw [parsedFixed, if_neg (by omega)]
    have hicmp : Packet01.parseIcmp6hdr (ip + 40) ctx.dataEnd ctx =
        .ok (parsedFixed ctx (ip + 40) 8 0, ctx) := parseFixed_ok (by decide) (by omega)
    rw [if_neg (fun hne => hne hproto), hnh, Prog.bind_ok hicmp]
    by_cases hwhole : ip + 48 ≤ ctx.dataEnd
    · have hhas : HasIcmp6 ctx ip := ⟨hwhole, hbyte⟩
      have hparsed : parsedFixed ctx (ip + 40) 8 0 =
          ⟨(ctx.mem (ip + 40)).toNat, ip + 48, some (ip + 40)⟩ := by
        rw [parsedFixed, if_neg (by omega)]
      rw [hparsed, if_neg (by simp only; omega), Prog.bind_ok (header_ok _ ctx),
        Prog.bind_ok (load16_ok ⟨by omega, by omega⟩)]
      show (if (icmpSequence ctx (ip + 40)).toNat % 2 = 0 then pure xdpDrop
        else Packet01.parserIpv4 ctx.dataEnd (ip + 48) (ctx.mem (ip + 40)).toNat : Bpf (BitVec 32)) ctx = _
      by_cases heven : (icmpSequence ctx (ip + 40)).toNat % 2 = 0
      · rw [if_pos heven, if_pos ⟨hhas, heven⟩]
        rfl
      · rw [if_neg heven, if_neg (fun hev => heven hev.2), packet01_parserIpv4_ok (by omega)]
        simp only [hhas, true_and]
    · have hparsed : (parsedFixed ctx (ip + 40) 8 0).ret = -1 := by
        rw [parsedFixed, if_pos (by omega)]
      rw [if_pos (by rw [hparsed]; decide), if_neg (fun hev => hwhole hev.1.1),
        if_neg (fun hall => hwhole hall.1.1)]
      rfl
  · have hnot : ¬ HasIcmp6 ctx ip := by
      rintro ⟨hroom, hbyte⟩
      exact hproto (parsedFixed_ret_iff.mpr ⟨by omega, hbyte⟩)
    rw [if_pos hproto, if_neg (fun hev => hnot hev.1), if_neg (fun hall => hnot hall.1)]
    rfl

theorem ipv6Verdict_lt (ctx : XdpMd) (ip : Nat) : ipv6Verdict ctx ip < xdpActionMax := by
  unfold ipv6Verdict
  split
  · decide
  · split
    · decide
    · decide

/-- The program as the kernel runs it. -/
theorem packet01_xdpParserFunc_ipv6 (s : XdpState) (h : Carries s.ctx ethPIpv6 ip) :
    ∃ s', Packet01.xdpParserFunc s = .ok (ipv6Verdict s.ctx ip, s') :=
  ⟨_, recorded_ok (packet01_parserAction_ipv6 h) (ipv6Verdict_lt s.ctx ip)⟩

/-! ## Frames that agree up to the end of a header -/

/-- Two frames at one place that have the same first `n` bytes. -/
structure SameUpTo (n : Nat) (ctx ctx' : XdpMd) : Prop where
  data : ctx'.data = ctx.data
  bytes : ctx'.frame.take n = ctx.frame.take n

section
variable {n : Nat} {ctx' : XdpMd}

theorem SameUpTo.room (h : SameUpTo n ctx ctx') {a : Nat} (ha : ctx.data < a) (hn : a ≤ ctx.data + n) :
    a ≤ ctx'.dataEnd ↔ a ≤ ctx.dataEnd := by
  have hlength := congrArg List.length h.bytes
  rw [List.length_take, List.length_take, XdpMd.length_frame, XdpMd.length_frame, h.data] at hlength
  omega

theorem SameUpTo.mem (h : SameUpTo n ctx ctx') {a : Nat} (ha : ctx.data ≤ a) (hn : a < ctx.data + n)
    (hend : a < ctx.dataEnd) : ctx'.mem a = ctx.mem a := by
  have hend' : a + 1 ≤ ctx'.dataEnd := (h.room (a := a + 1) (by omega) (by omega)).mpr hend
  obtain ⟨i, rfl⟩ : ∃ i, a = ctx.data + i := ⟨a - ctx.data, by omega⟩
  have hbyte : (ctx'.frame.take n)[i]? = (ctx.frame.take n)[i]? := by rw [h.bytes]
  rw [List.getElem?_take, List.getElem?_take, if_pos (by omega), if_pos (by omega)] at hbyte
  unfold XdpMd.frame at hbyte
  rw [getElem?_read _ (by have := h.data; omega), getElem?_read _ (by omega), h.data,
    Option.some.injEq] at hbyte
  exact hbyte

theorem SameUpTo.load16 (h : SameUpTo n ctx ctx') {a : Nat} (ha : ctx.data ≤ a)
    (hn : a + 2 ≤ ctx.data + n) (hend : a + 2 ≤ ctx.dataEnd) :
    ctx'.mem.load16 a = ctx.mem.load16 a := by
  unfold ByteMemory.load16
  rw [h.mem ha (by omega) (by omega), h.mem (a := a + 1) (by omega) (by omega) (by omega)]

/-- They carry the same packet. -/
theorem SameUpTo.carries {proto : BitVec 16} (h : SameUpTo n ctx ctx') (hc : Carries ctx proto ip)
    (hn : ip ≤ ctx.data + n) : Carries ctx' proto ip := by
  obtain ⟨k, hk, hstack, hproto, rfl⟩ := hc
  have hroom := hstack.room
  have hsame : ∀ i, i ≤ k → ctx'.mem.load16 (ctx'.data + 12 + 4 * i) =
      ctx.mem.load16 (ctx.data + 12 + 4 * i) := by
    intro i hi
    rw [h.data, h.load16 (by omega) (by omega) (by omega)]
  refine ⟨k, hk, ⟨fun i hi => ?_, ?_, ?_⟩, ?_, by rw [h.data]⟩
  · rw [hsame i (by omega)]
    exact hstack.tags i hi
  · rw [hsame k (Nat.le_refl k)]
    exact hstack.last
  · rw [h.data, h.room (by omega) (by omega)]
    exact hroom
  · rw [hsame k (Nat.le_refl k)]
    exact hproto

/-- What the program is to look at is in the first bytes. -/
theorem SameUpTo.headers (h : SameUpTo (ip + 48 - ctx.data) ctx ctx') (hle : ctx.data ≤ ip) :
    (EvenIcmp6 ctx' ip ↔ EvenIcmp6 ctx ip) ∧ (FallsThrough ctx' ip ↔ FallsThrough ctx ip) := by
  have hroom : ip + 48 ≤ ctx'.dataEnd ↔ ip + 48 ≤ ctx.dataEnd := h.room (by omega) (by omega)
  unfold EvenIcmp6 FallsThrough HasIcmp6 icmpSequence
  by_cases hwhole : ip + 48 ≤ ctx.dataEnd
  · rw [hroom, h.mem (a := ip + 6) (by omega) (by omega) (by omega),
      h.mem (a := ip + 40) (by omega) (by omega) (by omega),
      h.load16 (a := ip + 40 + 6) (by omega) (by omega) (by omega)]
    exact ⟨Iff.rfl, Iff.rfl⟩
  · have hshort : ¬ ip + 48 ≤ ctx'.dataEnd := fun hend => hwhole (hroom.mp hend)
    exact ⟨iff_of_false (fun hev => hshort hev.1.1) (fun hev => hwhole hev.1.1),
      iff_of_false (fun hfall => hshort hfall.1.1) (fun hfall => hwhole hfall.1.1)⟩

end

/-! ## When the decision is the intended one -/

theorem ipv6Verdict_of_not_fallsThrough (h : ¬ FallsThrough ctx ip) :
    ipv6Verdict ctx ip = if EvenIcmp6 ctx ip then xdpDrop else xdpPass := by
  unfold ipv6Verdict
  by_cases heven : EvenIcmp6 ctx ip
  · rw [if_pos heven, if_pos heven]
  · rw [if_neg heven, if_neg heven, if_neg]
    rintro ⟨hhas, htype, -⟩
    refine h ⟨hhas, htype, ?_⟩
    have hodd : ¬ (icmpSequence ctx (ip + 40)).toNat % 2 = 0 := fun hev => heven ⟨hhas, hev⟩
    omega

theorem not_evenIcmp6_of_fallsThrough (h : FallsThrough ctx ip) : ¬ EvenIcmp6 ctx ip := by
  rintro ⟨-, heven⟩
  have hodd := h.2.2
  omega

theorem ipv6Verdict_of_fallsThrough (h : FallsThrough ctx ip) :
    ipv6Verdict ctx ip = if OddIcmp ctx (ip + 48) then xdpDrop else xdpPass := by
  unfold ipv6Verdict
  rw [if_neg (not_evenIcmp6_of_fallsThrough h)]
  simp only [h.1, h.2.1, true_and]

/-- The verdict that is meant: even ones are dropped, and everything else passes. -/
def DropsEven (ctx : XdpMd) (ip : Nat) (verdict : BitVec 32) : Prop :=
  (verdict = xdpDrop ↔ EvenIcmp6 ctx ip) ∧ (¬ EvenIcmp6 ctx ip → verdict = xdpPass)

theorem dropsEven_ite (ctx : XdpMd) (ip : Nat) :
    DropsEven ctx ip (if EvenIcmp6 ctx ip then xdpDrop else xdpPass) := by
  unfold DropsEven
  split
  · exact ⟨iff_of_true rfl ‹_›, fun hnot => absurd ‹_› hnot⟩
  · exact ⟨iff_of_false (by decide) ‹_›, fun _ => rfl⟩

/-- The verdict alone is wrong only if the payload looks like an IPv4 packet. -/
theorem dropsEven_iff (ctx : XdpMd) (ip : Nat) :
    DropsEven ctx ip (ipv6Verdict ctx ip) ↔ ¬ (FallsThrough ctx ip ∧ OddIcmp ctx (ip + 48)) := by
  by_cases hfall : FallsThrough ctx ip
  · have hodd := not_evenIcmp6_of_fallsThrough hfall
    rw [ipv6Verdict_of_fallsThrough hfall]
    by_cases htail : OddIcmp ctx (ip + 48)
    · rw [if_pos htail]
      exact iff_of_false (fun hdrops => hodd (hdrops.1.mp rfl)) (fun hnot => hnot ⟨hfall, htail⟩)
    · rw [if_neg htail]
      exact iff_of_true ⟨iff_of_false (by decide) hodd, fun _ => rfl⟩ (fun hall => htail hall.2)
  · rw [ipv6Verdict_of_not_fallsThrough hfall]
    exact iff_of_true (dropsEven_ite ctx ip) (fun hall => hfall hall.1)

/-- The frame that ends with its ICMPv6 header. -/
def cutTail (ctx : XdpMd) (ip : Nat) : XdpMd := { ctx with dataEnd := ip + 48 }

/-- The frame with 28 bytes behind its ICMPv6 header that read as IPv4 and ICMP. -/
def forgedTail (ctx : XdpMd) (ip : Nat) : XdpMd where
  mem a := if a = ip + 57 then 1 else if a = ip + 74 then 0 else if a = ip + 75 then 1 else ctx.mem a
  data := ctx.data
  dataEnd := ip + 76

theorem sameUpTo_cutTail (hend : ip + 48 ≤ ctx.dataEnd) :
    SameUpTo (ip + 48 - ctx.data) ctx (cutTail ctx ip) := by
  refine ⟨rfl, ?_⟩
  show (ctx.mem.read ctx.data (ip + 48 - ctx.data)).take _ = (ctx.mem.read ctx.data _).take _
  rw [take_read _ (Nat.le_refl _), take_read _ (by omega)]

theorem sameUpTo_forgedTail (hend : ip + 48 ≤ ctx.dataEnd) :
    SameUpTo (ip + 48 - ctx.data) ctx (forgedTail ctx ip) := by
  refine ⟨rfl, ?_⟩
  show ((forgedTail ctx ip).mem.read ctx.data (ip + 76 - ctx.data)).take _ =
    (ctx.mem.read ctx.data _).take _
  rw [take_read _ (by omega), take_read _ (by omega)]
  refine read_congr fun i hi => ?_
  simp only [forgedTail]
  rw [if_neg (by omega), if_neg (by omega), if_neg (by omega)]

theorem oddIcmp_forgedTail (ctx : XdpMd) (ip : Nat) : OddIcmp (forgedTail ctx ip) (ip + 48) := by
  have hsequence : (forgedTail ctx ip).mem.load16 (ip + 48 + 20 + 6) = 0x0100 := by
    simp [ByteMemory.load16, forgedTail, Nat.add_assoc]
  refine ⟨Nat.le_refl _, by simp [forgedTail, Nat.add_assoc], ?_⟩
  unfold icmpSequence
  rw [hsequence]
  decide

/-- **What is meant for IPv6 packets**: the verdict, and that it depends on the headers only. -/
structure Ipv6Decision (ctx : XdpMd) (ip : Nat) (verdict : BitVec 32) : Prop where
  dropsEven : DropsEven ctx ip verdict
  headersOnly : ∀ s : XdpState, SameUpTo (ip + 48 - ctx.data) ctx s.ctx →
    ∃ s', Packet01.xdpParserFunc s = .ok (verdict, s')

/-- **The IPv6 decision** of the lesson parser.  On every frame that carries IPv6 the decision is
the one that is meant exactly when the packet is not ICMPv6 of type 8 with an odd sequence number;
and then the verdict itself is still right unless ICMP with an odd sequence number, behind an IPv4
header of 20 bytes, can be read from the payload. -/
theorem packet01_ipv6_decision_iff (s : XdpState) (ip : Nat) (h : Carries s.ctx ethPIpv6 ip) :
    ∃ verdict s', Packet01.xdpParserFunc s = .ok (verdict, s') ∧
      (Ipv6Decision s.ctx ip verdict ↔ ¬ FallsThrough s.ctx ip) ∧
      (DropsEven s.ctx ip verdict ↔ ¬ (FallsThrough s.ctx ip ∧ OddIcmp s.ctx (ip + 48))) := by
  have hle : s.ctx.data ≤ ip := by
    obtain ⟨n, -, -, -, rfl⟩ := h
    omega
  obtain ⟨s', hrun⟩ := packet01_xdpParserFunc_ipv6 s h
  refine ⟨_, s', hrun, ⟨fun hdecision hfall => ?_, fun hnot => ?_⟩, dropsEven_iff s.ctx ip⟩
  · -- one tail lets the packet pass, another drops it
    have hverdict : ∀ ctx' : XdpMd, SameUpTo (ip + 48 - s.ctx.data) s.ctx ctx' →
        ipv6Verdict ctx' ip = ipv6Verdict s.ctx ip := by
      intro ctx' hsame
      obtain ⟨t, ht⟩ := hdecision.headersOnly ⟨ctx', s.stats⟩ hsame
      obtain ⟨t', ht'⟩ := packet01_xdpParserFunc_ipv6 ⟨ctx', s.stats⟩ (hsame.carries h (by omega))
      have := ht'.symm.trans ht
      simp only [Except.ok.injEq, Prod.mk.injEq] at this
      exact this.1
    have hcut : SameUpTo (ip + 48 - s.ctx.data) s.ctx (cutTail s.ctx ip) :=
      sameUpTo_cutTail hfall.1.1
    have hforged : SameUpTo (ip + 48 - s.ctx.data) s.ctx (forgedTail s.ctx ip) :=
      sameUpTo_forgedTail hfall.1.1
    have hpass : ipv6Verdict (cutTail s.ctx ip) ip = xdpPass := by
      rw [ipv6Verdict_of_fallsThrough ((hcut.headers hle).2.mpr hfall), if_neg]
      intro hodd
      have hroom : ip + 48 + 28 ≤ ip + 48 := hodd.1
      omega
    have hdrop : ipv6Verdict (forgedTail s.ctx ip) ip = xdpDrop := by
      rw [ipv6Verdict_of_fallsThrough ((hforged.headers hle).2.mpr hfall),
        if_pos (oddIcmp_forgedTail s.ctx ip)]
    have hsame := (hverdict _ hcut).trans (hverdict _ hforged).symm
    rw [hpass, hdrop] at hsame
    exact absurd hsame (by decide)
  · refine ⟨(dropsEven_iff s.ctx ip).mpr fun hall => hnot hall.1, fun t hsame => ?_⟩
    obtain ⟨heven, hfall⟩ := hsame.headers hle
    obtain ⟨t', ht⟩ := packet01_xdpParserFunc_ipv6 t (hsame.carries h (by omega))
    refine ⟨t', ?_⟩
    rw [ht, ipv6Verdict_of_not_fallsThrough hnot,
      ipv6Verdict_of_not_fallsThrough fun hf => hnot (hfall.mp hf)]
    simp only [heven]

/-- An ICMPv6 packet of the given type and sequence number, with 28 bytes behind its header: byte 9
of them is 1, and the last byte 1. -/
def forgedCtx (type : BitVec 8) (sequence : BitVec 8) : XdpMd where
  mem a := if a = 12 then 0x86 else if a = 13 then 0xDD else if a = 20 then 58
    else if a = 54 then type else if a = 61 then sequence else if a = 71 then 1
    else if a = 89 then 1 else 0
  data := 0
  dataEnd := 90

theorem forgedCtx_carries (type sequence : BitVec 8) : Carries (forgedCtx type sequence) ethPIpv6 14 :=
  have hproto : (forgedCtx type sequence).mem.load16 12 = swap16 ethPIpv6 := by rfl
  ⟨0, by decide, ⟨fun i hi => absurd hi (Nat.not_lt_zero i), congrArg protoIsVlan hproto,
    (by decide : 12 + 4 * 0 + 2 ≤ 90)⟩, hproto, rfl⟩

/-- A reply with sequence number 2 is dropped, and by right. -/
theorem packet01_ipv6_decision_even : Carries (forgedCtx 129 2) ethPIpv6 14 ∧
    ∃ s', Packet01.xdpParserFunc ⟨forgedCtx 129 2, fun _ => ⟨0, 0⟩⟩ = .ok (xdpDrop, s') ∧
      Ipv6Decision (forgedCtx 129 2) 14 xdpDrop := by
  have hcarries := forgedCtx_carries 129 2
  obtain ⟨verdict, s', hrun, hiff, -⟩ :=
    packet01_ipv6_decision_iff ⟨forgedCtx 129 2, fun _ => ⟨0, 0⟩⟩ 14 hcarries
  have hdecision := hiff.mpr fun hfall => absurd hfall.2.1 (by decide)
  obtain rfl : verdict = xdpDrop := hdecision.dropsEven.1.mpr (by decide)
  exact ⟨hcarries, s', hrun, hdecision⟩

/-- A packet of type 8 with sequence number 1 is dropped for its payload. -/
theorem packet01_ipv6_decision_forged : Carries (forgedCtx 8 1) ethPIpv6 14 ∧
    ¬ EvenIcmp6 (forgedCtx 8 1) 14 ∧
    ∃ s', Packet01.xdpParserFunc ⟨forgedCtx 8 1, fun _ => ⟨0, 0⟩⟩ = .ok (xdpDrop, s') ∧
      ¬ Ipv6Decision (forgedCtx 8 1) 14 xdpDrop := by
  have hodd : ¬ EvenIcmp6 (forgedCtx 8 1) 14 := by decide
  obtain ⟨s', hrun⟩ := packet01_xdpParserFunc_ipv6 ⟨forgedCtx 8 1, fun _ => ⟨0, 0⟩⟩
    (forgedCtx_carries 8 1)
  have hdrop : ipv6Verdict (forgedCtx 8 1) 14 = xdpDrop := by decide
  rw [hdrop] at hrun
  exact ⟨forgedCtx_carries 8 1, hodd, s', hrun, fun hdecision => hodd (hdecision.dropsEven.1.mp rfl)⟩

end AfXdpSwitch
