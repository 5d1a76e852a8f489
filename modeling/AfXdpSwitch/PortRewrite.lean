import AfXdpSwitch.IcmpEcho
import AfXdpSwitch.PacketRewriting

/-!
# Ports and checksums: `xdp_port_rewrite_func` of `packet02-rewriting/xdp_prog_kern.c`

The program takes one off the destination port of UDP and adds one to that of TCP, and leaves the
checksum as it was.  The port is one of the words that the checksum is taken over, so a segment
that verified does not any more; unless the port wraps around, when the sum changes by `65535` and
not by one, or there is no checksum, which UDP over IPv4 allows.

A segment is the bytes that its checksum covers: the length that UDP declares, and all of the IP
payload for TCP.
-/

namespace AfXdpSwitch
open ByteMemory OnesComplement

/-! ## Segments -/

inductive Transport where
  | udp
  | tcp
  deriving DecidableEq

inductive IpVersion where
  | ip
  | ip6
  deriving DecidableEq

namespace Transport

def protocol : Transport → BitVec 8
  | udp => ipprotoUdp
  | tcp => ipprotoTcp

/-- What the program makes of a port. -/
def newPort : Transport → BitVec 16 → BitVec 16
  | udp, port => port - 1
  | tcp, port => port + 1

/-- The port at which that wraps around. -/
def lastPort : Transport → BitVec 16
  | udp => 0
  | tcp => 0xFFFF

/-- The bytes of the header at `th`. -/
def headerLen (ctx : XdpMd) (th : Nat) : Transport → Nat
  | udp => sizeofUdphdr
  | tcp => doffBytes ctx th

/-- The bytes of the segment at `th`, of the `avail` that IP says there are. -/
def segmentLen (ctx : XdpMd) (th avail : Nat) : Transport → Nat
  | udp => udpLen ctx th
  | tcp => avail

/-- The smallest header. -/
def sizeofHdr : Transport → Nat
  | udp => sizeofUdphdr
  | tcp => sizeofTcphdr

end Transport

namespace IpVersion

def ethType : IpVersion → BitVec 16
  | ip => ethPIp
  | ip6 => ethPIpv6

/-- The bytes of the IP header at `iph`. -/
def headerLen (ctx : XdpMd) (iph : Nat) : IpVersion → Nat
  | ip => ihlBytes ctx iph
  | ip6 => sizeofIpv6hdr

/-- The bytes that follow it: `tot_len` counts the header in, `payload_len` does not. -/
def payload (ctx : XdpMd) (iph : Nat) : IpVersion → Nat
  | ip => (swap16 (ctx.mem.load16 (iph + 2))).toNat - ihlBytes ctx iph
  | ip6 => payloadLen ctx.mem iph

/-- Where the header says what it carries. -/
def protocolAt : IpVersion → Nat
  | ip => 9
  | ip6 => 6

/-- The smallest header. -/
def sizeofHdr : IpVersion → Nat
  | ip => sizeofIphdr
  | ip6 => sizeofIpv6hdr

/-- The pseudo-header of a segment of `len` bytes, a number of 16 bits. -/
def pseudoHeader (m : ByteMemory) (iph : Nat) (protocol : BitVec 8) (len : Nat) :
    IpVersion → List (BitVec 8)
  | ip => m.read (iph + 12) 8 ++ ([0, protocol] ++ bytes16 (swap16 (BitVec.ofNat 16 len)))
  | ip6 => m.read (iph + 8) 32 ++
      ([0, 0] ++ (bytes16 (swap16 (BitVec.ofNat 16 len)) ++ [0, 0, 0, protocol]))

end IpVersion

section
variable (ctx : XdpMd) (v : IpVersion) (t : Transport) (iph : Nat)

/-- Where the segment of the IP packet at `iph` begins. -/
def segmentAt : Nat := iph + v.headerLen ctx iph

/-- And how long it is. -/
def segmentLen : Nat := t.segmentLen ctx (segmentAt ctx v iph) (v.payload ctx iph)

/-- The frame carries an IP packet with a whole segment in it. -/
structure WholeSegment : Prop where
  carries : Carries ctx v.ethType iph
  ihl : v.sizeofHdr ≤ v.headerLen ctx iph
  protocol : ctx.mem (iph + v.protocolAt) = t.protocol
  header : t.sizeofHdr ≤ t.headerLen ctx (segmentAt ctx v iph)
  headerFits : t.headerLen ctx (segmentAt ctx v iph) ≤ segmentLen ctx v t iph
  within : segmentLen ctx v t iph ≤ v.payload ctx iph
  inFrame : segmentAt ctx v iph + segmentLen ctx v t iph ≤ ctx.dataEnd

/-- UDP over IPv4 without a checksum. -/
def NoChecksum : Prop := v = .ip ∧ t = .udp ∧ ctx.mem.load16 (segmentAt ctx v iph + 6) = 0

/-- The segment verifies under its pseudo-header, or has no checksum. -/
def ChecksumValid : Prop := NoChecksum ctx v t iph ∨
  Verifies (v.pseudoHeader ctx.mem iph t.protocol (segmentLen ctx v t iph) ++
    ctx.mem.read (segmentAt ctx v iph) (segmentLen ctx v t iph))

/-- The destination port. -/
def destPort : BitVec 16 := swap16 (ctx.mem.load16 (segmentAt ctx v iph + 2))

/-- **What a rewriting of the port may change.** -/
structure PortRewritten (ctx' : XdpMd) : Prop where
  port : destPort ctx' v iph = t.newPort (destPort ctx v iph)
  bounds : ctx'.data = ctx.data ∧ ctx'.dataEnd = ctx.dataEnd
  others : ∀ a, (a < segmentAt ctx v iph ∨
    segmentAt ctx v iph + t.headerLen ctx (segmentAt ctx v iph) ≤ a) → ctx'.mem a = ctx.mem a
  valid : ChecksumValid ctx' v t iph

/-- What the program makes of the frame. -/
def portRewritten : XdpMd := { ctx with
  mem := ctx.mem.store16 (segmentAt ctx v iph + 2) (swap16 (t.newPort (destPort ctx v iph))) }

end

/-! ## The program -/

variable {ctx : XdpMd} {v : IpVersion} {t : Transport} {iph : Nat}

/-- The shortest header has the port and the length of UDP in it. -/
theorem WholeSegment.room (h : WholeSegment ctx v t iph) :
    ctx.data + 14 ≤ iph ∧ iph + 20 ≤ segmentAt ctx v iph ∧ 8 ≤ segmentLen ctx v t iph := by
  obtain ⟨n, -, -, -, hip⟩ := h.carries
  have hihl := h.ihl
  have hheader := h.header
  have hfits := h.headerFits
  have hsmall : 20 ≤ v.sizeofHdr ∧ 8 ≤ t.sizeofHdr := by
    constructor
    · cases v <;> decide
    · cases t <;> decide
  unfold segmentAt at *
  omega

/-- The port of the segment behind an IP header that has been parsed. -/
theorem rewritePort_ok (h : WholeSegment ctx v t iph) {ip : Parsed}
    (hret : ip.ret = t.protocol.toNat) (hnh : ip.nh = segmentAt ctx v iph) :
    Packet02.rewritePort ctx.dataEnd ip ctx = .ok (xdpPass, portRewritten ctx v t iph) := by
  obtain ⟨hdata, hiph, hlen⟩ := h.room
  have hinFrame := h.inFrame
  have hheader := h.header
  have hfits := h.headerFits
  have hinside : ctx.Inside (segmentAt ctx v iph + 2) 2 := ⟨by omega, by omega⟩
  unfold Packet02.rewritePort
  cases t with
  | udp =>
      have hret : ip.ret = ipprotoUdp.toNat := hret
      have hudp : parseUdphdr ip.nh ctx.dataEnd ctx = .ok (parsedUdphdr ctx ip.nh, ctx) :=
        parseUdphdr_ok (by omega)
      have hlen' : segmentLen ctx v .udp iph = udpLen ctx (segmentAt ctx v iph) := rfl
      have hparsed : parsedUdphdr ctx ip.nh = ⟨udpLen ctx (segmentAt ctx v iph) - 8,
          segmentAt ctx v iph + 8, some (segmentAt ctx v iph)⟩ := by
        rw [hnh, parsedUdphdr, if_neg (by omega), if_neg (by omega)]
      rw [if_pos hret, Prog.bind_ok hudp, hparsed, if_neg (by simp only; omega),
        Prog.bind_ok (header_ok _ ctx), Prog.bind_ok (load16_ok hinside),
        Prog.bind_ok (store16_ok _ hinside)]
      rfl
  | tcp =>
      have hret : ip.ret = ipprotoTcp.toNat := hret
      have htcp : parseTcphdr ip.nh ctx.dataEnd ctx = .ok (parsedTcphdr ctx ip.nh, ctx) :=
        parseTcphdr_ok (by omega)
      have hdoff : 20 ≤ doffBytes ctx (segmentAt ctx v iph) := hheader
      have hfits' : doffBytes ctx (segmentAt ctx v iph) ≤ segmentLen ctx v .tcp iph := hfits
      have hparsed : parsedTcphdr ctx ip.nh = ⟨doffBytes ctx (segmentAt ctx v iph),
          segmentAt ctx v iph + doffBytes ctx (segmentAt ctx v iph), some (segmentAt ctx v iph)⟩ := by
        rw [hnh, parsedTcphdr, if_pos ⟨hdoff, by omega, by omega⟩]
      rw [if_neg (by rw [hret]; decide), if_pos hret, Prog.bind_ok htcp, hparsed,
        if_neg (by simp only; omega), Prog.bind_ok (header_ok _ ctx), Prog.bind_ok (load16_ok hinside),
        Prog.bind_ok (store16_ok _ hinside)]
      rfl

/-- **The program on a whole segment.** -/
theorem portRewriteAction_ok (h : WholeSegment ctx v t iph) :
    Packet02.portRewriteAction ctx = .ok (xdpPass, portRewritten ctx v t iph) := by
  obtain ⟨hdata, hiph, hlen⟩ := h.room
  have hinFrame := h.inFrame
  have hihl := h.ihl
  have heth : parseEthhdr ctx.data ctx.dataEnd ctx =
      .ok (⟨(swap16 v.ethType).toNat, iph, some ctx.data⟩, ctx) := by
    rw [parseEthhdr_ok (Nat.le_refl _), parsedEthhdr_of_carries h.carries]
  unfold Packet02.portRewriteAction
  rw [Prog.bind_ok (get_ok ctx), Prog.bind_ok heth, if_neg (Int.not_lt.mpr (Int.natCast_nonneg _))]
  cases v with
  | ip =>
      have hip : parseIphdr iph ctx.dataEnd ctx = .ok (parsedIphdr ctx iph, ctx) :=
        parseIphdr_ok (by omega)
      have hne : ¬ ((swap16 IpVersion.ip.ethType).toNat : Int) = (swap16 ethPIpv6).toNat := by decide
      have hat : segmentAt ctx .ip iph = iph + ihlBytes ctx iph := rfl
      have hret : (parsedIphdr ctx iph).ret = t.protocol.toNat :=
        parsedIphdr_ret_iff.mpr ⟨hihl, by omega, by omega, h.protocol⟩
      have hnh : (parsedIphdr ctx iph).nh = segmentAt ctx .ip iph := by
        rw [parsedIphdr, if_pos ⟨hihl, by omega, by omega⟩]
        rfl
      have heq : ((swap16 IpVersion.ip.ethType).toNat : Int) = (swap16 ethPIp).toNat := rfl
      rw [if_neg hne, if_pos heq, Prog.bind_ok hip]
      exact rewritePort_ok h hret hnh
  | ip6 =>
      have hip : parseIp6hdr iph ctx.dataEnd ctx = .ok (parsedFixed ctx iph 40 6, ctx) :=
        parseFixed_ok (by decide) (by omega)
      have hat : segmentAt ctx .ip6 iph = iph + 40 := rfl
      have hret : (parsedFixed ctx iph 40 6).ret = t.protocol.toNat :=
        parsedFixed_ret_iff.mpr ⟨by omega, h.protocol⟩
      have hnh : (parsedFixed ctx iph 40 6).nh = segmentAt ctx .ip6 iph := by
        rw [parsedFixed, if_neg (by omega)]
        rfl
      have heq : ((swap16 IpVersion.ip6.ethType).toNat : Int) = (swap16 ethPIpv6).toNat := rfl
      rw [if_pos heq, Prog.bind_ok hip]
      exact rewritePort_ok h hret hnh

/-! ## What stays -/

/-- The rewriting touches the port and nothing else. -/
theorem portRewritten_mem {a : Nat}
    (ha : a < segmentAt ctx v iph + 2 ∨ segmentAt ctx v iph + 4 ≤ a) :
    (portRewritten ctx v t iph).mem a = ctx.mem a := by
  unfold portRewritten ByteMemory.store16
  exact write_of_not_mem _ ha

theorem portRewritten_load16 {a : Nat}
    (ha : a + 2 ≤ segmentAt ctx v iph + 2 ∨ segmentAt ctx v iph + 4 ≤ a) :
    (portRewritten ctx v t iph).mem.load16 a = ctx.mem.load16 a := by
  unfold ByteMemory.load16
  rw [portRewritten_mem (by omega), portRewritten_mem (by omega)]

section
variable (h : WholeSegment ctx v t iph)
include h

/-- The segment is where it was, and as long as it was. -/
theorem segmentAt_portRewritten :
    segmentAt (portRewritten ctx v t iph) v iph = segmentAt ctx v iph := by
  obtain ⟨-, hiph, -⟩ := h.room
  unfold segmentAt
  cases v with
  | ip =>
      show iph + ((portRewritten ctx .ip t iph).mem iph &&& 0xF).toNat * 4 = _
      rw [portRewritten_mem (.inl (by omega))]
      rfl
  | ip6 => rfl

theorem segmentLen_portRewritten :
    segmentLen (portRewritten ctx v t iph) v t iph = segmentLen ctx v t iph := by
  obtain ⟨-, hiph, -⟩ := h.room
  have hat := segmentAt_portRewritten h
  have hpayload : v.payload (portRewritten ctx v t iph) iph = v.payload ctx iph := by
    cases v with
    | ip =>
        have hihl : ihlBytes (portRewritten ctx .ip t iph) iph = ihlBytes ctx iph :=
          Nat.add_left_cancel hat
        show (swap16 ((portRewritten ctx .ip t iph).mem.load16 (iph + 2))).toNat - _ = _
        rw [hihl, portRewritten_load16 (.inl (by omega))]
        rfl
    | ip6 =>
        show payloadLen _ iph = payloadLen _ iph
        unfold payloadLen
        rw [portRewritten_load16 (.inl (by omega))]
  unfold segmentLen
  rw [hat, hpayload]
  cases t with
  | udp =>
      show udpLen (portRewritten ctx v .udp iph) _ = udpLen ctx _
      unfold udpLen
      rw [portRewritten_load16 (.inr (by omega))]
  | tcp => rfl

theorem pseudoHeader_portRewritten (len : Nat) :
    v.pseudoHeader (portRewritten ctx v t iph).mem iph t.protocol len =
      v.pseudoHeader ctx.mem iph t.protocol len := by
  obtain ⟨-, hiph, -⟩ := h.room
  have hread : ∀ a n, a + n ≤ segmentAt ctx v iph →
      (portRewritten ctx v t iph).mem.read a n = ctx.mem.read a n :=
    fun a n hle => read_congr fun i hi => portRewritten_mem (.inl (by omega))
  cases v with
  | ip => simp only [IpVersion.pseudoHeader, hread (iph + 12) 8 (by omega)]
  | ip6 =>
      have hat : segmentAt ctx .ip6 iph = iph + 40 := rfl
      simp only [IpVersion.pseudoHeader, hread (iph + 8) 32 (by omega)]

/-- The new port. -/
theorem destPort_portRewritten :
    destPort (portRewritten ctx v t iph) v iph = t.newPort (destPort ctx v iph) := by
  unfold destPort
  rw [segmentAt_portRewritten h]
  unfold portRewritten
  rw [load16_store16_self, swap16_swap16]
  rfl

end

/-! ## The sum -/

/-- The protocol is in the pseudo-header, so that its sum is not zero. -/
theorem pseudoHeader_sum (m : ByteMemory) (v : IpVersion) (t : Transport) (iph len : Nat) :
    (v.pseudoHeader m iph t.protocol len).length % 2 = 0 ∧
      0 < total (v.pseudoHeader m iph t.protocol len) := by
  have hpos : 0 < t.protocol.toNat := by cases t <;> decide
  have hpair : ∀ b : BitVec 8, total [0, b] = b.toNat := by
    intro b
    show (0#8 ++ b).toNat + 0 = b.toNat
    rw [toNat_append8, show (0#8).toNat = 0 from rfl]
    omega
  cases v with
  | ip =>
      refine ⟨by simp [IpVersion.pseudoHeader, bytes16], ?_⟩
      rw [IpVersion.pseudoHeader, total_append _ _ (by rw [length_read]),
        total_append [0, t.protocol] _ (by simp), hpair t.protocol]
      omega
  | ip6 =>
      refine ⟨by simp [IpVersion.pseudoHeader, bytes16], ?_⟩
      have hlast : [0, 0, 0, t.protocol] = [0, 0] ++ [0, t.protocol] := rfl
      rw [IpVersion.pseudoHeader, total_append _ _ (by rw [length_read]),
        total_append [0, 0] _ (by rfl), total_append (bytes16 _) _ (by simp [bytes16]), hlast,
        total_append [0, 0] _ (by rfl), hpair t.protocol]
      omega

/-- What the checksum is taken over. -/
def checksummed (ctx : XdpMd) (v : IpVersion) (t : Transport) (iph : Nat) : List (BitVec 8) :=
  v.pseudoHeader ctx.mem iph t.protocol (segmentLen ctx v t iph) ++
    ctx.mem.read (segmentAt ctx v iph) (segmentLen ctx v t iph)

/-- The sum has the new port in it instead of the old one. -/
theorem total_portRewritten (h : WholeSegment ctx v t iph) :
    total (checksummed (portRewritten ctx v t iph) v t iph) + (destPort ctx v iph).toNat =
      total (checksummed ctx v t iph) + (t.newPort (destPort ctx v iph)).toNat ∧
    (destPort ctx v iph).toNat < total (checksummed ctx v t iph) := by
  obtain ⟨-, -, hlen⟩ := h.room
  obtain ⟨n, hn⟩ := Nat.exists_eq_add_of_le (show 4 ≤ segmentLen ctx v t iph by omega)
  obtain ⟨heven, hpos⟩ := pseudoHeader_sum ctx.mem v t iph (segmentLen ctx v t iph)
  have hport := destPort_portRewritten h
  have hat := segmentAt_portRewritten h
  have hrest : (portRewritten ctx v t iph).mem.read (segmentAt ctx v iph + 4) n =
      ctx.mem.read (segmentAt ctx v iph + 4) n :=
    read_congr fun i hi => portRewritten_mem (.inr (by omega))
  rw [hn] at heven hpos
  unfold checksummed
  unfold destPort at hport ⊢
  rw [segmentLen_portRewritten h, hat, pseudoHeader_portRewritten h, hn, total_append _ _ heven,
    total_append _ _ heven, total_read_field, total_read_field, hrest,
    portRewritten_mem (.inl (by omega)), portRewritten_mem (.inl (by omega))]
  rw [hat] at hport
  rw [hport]
  omega

/-- By how much the port changes. -/
theorem newPort_toNat (t : Transport) (port : BitVec 16) :
    (port = t.lastPort ∧
      ((t.newPort port).toNat = port.toNat + 65535 ∨ (t.newPort port).toNat + 65535 = port.toNat)) ∨
    (port ≠ t.lastPort ∧
      ((t.newPort port).toNat = port.toNat + 1 ∨ (t.newPort port).toNat + 1 = port.toNat)) := by
  have hlt := port.isLt
  have hlast : port = t.lastPort ↔ port.toNat = t.lastPort.toNat := BitVec.toNat_inj.symm
  cases t with
  | udp =>
      have hzero : Transport.udp.lastPort.toNat = 0 := rfl
      have hnew : (Transport.udp.newPort port).toNat = (65535 + port.toNat) % 65536 := by
        show (port - 1).toNat = _
        rw [BitVec.toNat_sub]
        rfl
      rw [hzero] at hlast
      rw [hnew, ne_eq, hlast]
      omega
  | tcp =>
      have hmax : Transport.tcp.lastPort.toNat = 65535 := rfl
      have hnew : (Transport.tcp.newPort port).toNat = (port.toNat + 1) % 65536 := by
        show (port + 1).toNat = _
        rw [BitVec.toNat_add]
        rfl
      rw [hmax] at hlast
      rw [hnew, ne_eq, hlast]
      omega

/-- **The checksum does not follow the port**, unless the port wraps around. -/
theorem verifies_portRewritten_iff (h : WholeSegment ctx v t iph)
    (hv : Verifies (checksummed ctx v t iph)) :
    Verifies (checksummed (portRewritten ctx v t iph) v t iph) ↔ destPort ctx v iph = t.lastPort := by
  obtain ⟨hne, hzero⟩ := (verifies_iff _).mp hv
  obtain ⟨htotal, hport⟩ := total_portRewritten h
  rw [verifies_iff]
  rcases newPort_toNat t (destPort ctx v iph) with ⟨hlast, hnew⟩ | ⟨hlast, hnew⟩
  · refine iff_of_true ?_ hlast
    omega
  · refine iff_of_false ?_ hlast
    omega

/-- A checksum that is absent stays absent. -/
theorem noChecksum_portRewritten (h : WholeSegment ctx v t iph) :
    NoChecksum (portRewritten ctx v t iph) v t iph ↔ NoChecksum ctx v t iph := by
  unfold NoChecksum
  rw [segmentAt_portRewritten h, portRewritten_load16 (.inr (by omega))]

/-- **Port rewriting.**  A frame with a whole segment whose checksum is valid has its port changed by
one modulo `2 ^ 16` and nothing outside the transport header; the checksum is valid afterwards
exactly when the change has wrapped around or there is no checksum. -/
theorem xdpPortRewriteFunc_iff (s : XdpState) (v : IpVersion) (t : Transport) (iph : Nat)
    (h : WholeSegment s.ctx v t iph) (hvalid : ChecksumValid s.ctx v t iph) :
    ∃ verdict s', Packet02.xdpPortRewriteFunc s = .ok (verdict, s') ∧
      (PortRewritten s.ctx v t iph s'.ctx ↔
        destPort s.ctx v iph = t.lastPort ∨ NoChecksum s.ctx v t iph) := by
  refine ⟨_, _, recorded_ok (portRewriteAction_ok h) (by decide), ?_⟩
  have hnone := noChecksum_portRewritten h
  constructor
  · intro hdone
    rcases hdone.valid with habsent | hverifies
    · exact .inr (hnone.mp habsent)
    · rcases hvalid with habsent | hv
      · exact .inr habsent
      · exact .inl ((verifies_portRewritten_iff h hv).mp hverifies)
  · intro hcond
    have hheader := h.header
    have hsmall : 8 ≤ t.sizeofHdr := by cases t <;> decide
    refine ⟨destPort_portRewritten h, ⟨rfl, rfl⟩, fun a ha => portRewritten_mem (by omega), ?_⟩
    by_cases habsent : NoChecksum s.ctx v t iph
    · exact .inl (hnone.mpr habsent)
    · have hv : Verifies (checksummed s.ctx v t iph) := hvalid.resolve_left habsent
      exact .inr ((verifies_portRewritten_iff h hv).mpr (hcond.resolve_right habsent))

/-- An IPv4 packet with an empty UDP datagram to port 0 or 1, and its checksum. -/
def datagramCtx (port : Fin 2) : XdpMd where
  mem a := if a = 12 then 0x08 else if a = 14 then 0x45 else if a = 17 then 28 else if a = 23 then 17
    else if a = 37 then BitVec.ofNat 8 port else if a = 39 then 8 else if a = 40 then 0xFF
    else if a = 41 then BitVec.ofNat 8 (0xDE - port) else 0
  data := 0
  dataEnd := 42

theorem datagramCtx_whole (port : Fin 2) : WholeSegment (datagramCtx port) .ip .udp 14 where
  carries := ⟨0, by decide, ⟨fun i hi => absurd hi (Nat.not_lt_zero i), by decide +revert,
    by decide +revert⟩, by decide +revert, rfl⟩
  ihl := by decide +revert
  protocol := rfl
  header := by decide +revert
  headerFits := by decide +revert
  within := by decide +revert
  inFrame := by decide +revert

theorem datagramCtx_verifies (port : Fin 2) :
    Verifies (checksummed (datagramCtx port) .ip .udp 14) := by
  decide +revert

/-- The port 0 becomes 65535, and the checksum still verifies. -/
theorem xdpPortRewriteFunc_wraps :
    (WholeSegment (datagramCtx 0) .ip .udp 14 ∧
      ChecksumValid (datagramCtx 0) .ip .udp 14) ∧
    ∃ verdict s', Packet02.xdpPortRewriteFunc ⟨datagramCtx 0, fun _ => ⟨0, 0⟩⟩ =
      .ok (verdict, s') ∧ PortRewritten (datagramCtx 0) .ip .udp 14 s'.ctx := by
  have hwhole := datagramCtx_whole 0
  have hvalid : ChecksumValid (datagramCtx 0) .ip .udp 14 := .inr (datagramCtx_verifies 0)
  obtain ⟨verdict, s', hrun, hiff⟩ := xdpPortRewriteFunc_iff
    ⟨datagramCtx 0, fun _ => ⟨0, 0⟩⟩ .ip .udp 14 hwhole hvalid
  exact ⟨⟨hwhole, hvalid⟩, verdict, s', hrun, hiff.mpr (.inl (by decide))⟩

/-- The port 1 becomes 0, and the checksum does not verify any more. -/
theorem xdpPortRewriteFunc_breaks_checksum :
    (WholeSegment (datagramCtx 1) .ip .udp 14 ∧
      ChecksumValid (datagramCtx 1) .ip .udp 14) ∧
    ∃ s', Packet02.xdpPortRewriteFunc ⟨datagramCtx 1, fun _ => ⟨0, 0⟩⟩ = .ok (xdpPass, s') ∧
      destPort s'.ctx .ip 14 = 0 ∧ ¬ ChecksumValid s'.ctx .ip .udp 14 ∧
      ¬ PortRewritten (datagramCtx 1) .ip .udp 14 s'.ctx := by
  have hwhole := datagramCtx_whole 1
  have hv := datagramCtx_verifies 1
  have hinvalid : ¬ ChecksumValid (portRewritten (datagramCtx 1) .ip .udp 14) .ip .udp 14 := by
    rintro (habsent | hverifies)
    · exact absurd ((noChecksum_portRewritten hwhole).mp habsent).2.2 (by decide)
    · exact absurd ((verifies_portRewritten_iff hwhole hv).mp hverifies) (by decide)
  exact ⟨⟨hwhole, .inr hv⟩, _, recorded_ok (portRewriteAction_ok hwhole) (by decide), by decide,
    hinvalid,
    fun hdone => hinvalid hdone.valid⟩

end AfXdpSwitch
