import AfXdpSwitch.IcmpEcho
import AfXdpSwitch.ParsingHelpers
import AfXdpSwitch.XdpStats

/-!
# `xdp_icmp_echo_func` of `packet03-redirecting/xdp_prog_kern.c`

The kernel program answers ICMP and ICMPv6 echo requests behind VLAN tags.  All of the parsing
comes before the first write.  The checksum is patched with `bpf_csum_diff`, which takes the old
header off a 32-bit sum and puts the new one on it; folding the sum to 16 bits keeps it modulo
`65535`.

Folding never gives `0xFFFF` as checksum.  That is right wherever something else is summed that
is not zero, but an ICMP message has no pseudo-header: the reply to a request whose only nonzero
bytes are its type and its checksum is all zero, and does not verify.
-/

namespace AfXdpSwitch
open ByteMemory OnesComplement

def icmpEchoreply : BitVec 16 := 0

namespace Packet03

/-- Exchange two fields of `n` bytes: the one at `a` is saved, overwritten by the one at `b`, and
stored there. -/
def swapFields (a b n : Nat) : Bpf Unit := do
  let tmp ← loadBytes a n
  let other ← loadBytes b n
  storeBytes a other
  storeBytes b tmp

def swapSrcDstMac (eth : Nat) : Bpf Unit := swapFields (eth + 6) eth 6

def swapSrcDstIpv6 (ipv6 : Nat) : Bpf Unit := swapFields (ipv6 + 8) (ipv6 + 24) 16

def swapSrcDstIpv4 (iphdr : Nat) : Bpf Unit := swapFields (iphdr + 12) (iphdr + 16) 4

def csumFoldHelper (csum : BitVec 32) : BitVec 16 :=
  let sum := (csum >>> 16) + (csum &&& 0xffff)
  let sum := sum + (sum >>> 16)
  (~~~sum).setWidth 16

/-- `bpf_csum_diff`: the 32-bit one's complement sum of the complemented `from` words, the `to`
words and the seed. -/
def bpfCsumDiff (src dst : List (BitVec 32)) (seed : BitVec 32) : BitVec 32 :=
  sum (src.map (~~~·) ++ (dst ++ [seed]))

/-- The structures are of one 32-bit word each. -/
def icmpChecksumDiff (seed : BitVec 16) (icmphdrNew icmphdrOld : BitVec 32) : BitVec 16 :=
  csumFoldHelper (bpfCsumDiff [icmphdrOld] [icmphdrNew] (seed.setWidth 32))

/-- The patching that both protocols share. -/
def patchIcmp (eth icmp : Parsed) (echoReply : BitVec 16) : Bpf (BitVec 32) := do
  let eth ← header eth.hdr
  swapSrcDstMac eth
  let icmphdr ← header icmp.hdr
  let oldCsum ← load16 (icmphdr + 2)
  store16 (icmphdr + 2) 0
  let icmphdrOld ← load32 icmphdr
  store8 icmphdr (echoReply.setWidth 8)
  let icmphdrNew ← load32 icmphdr
  store16 (icmphdr + 2) (icmpChecksumDiff (~~~oldCsum) icmphdrNew icmphdrOld)
  return xdpTx

/-- From `parse_icmphdr_common` on. -/
def answerEcho (dataEnd : Nat) (eth ip : Parsed) : Bpf (BitVec 32) := do
  let icmp ← parseIcmphdrCommon ip.nh dataEnd
  if eth.ret = (swap16 ethPIp).toNat ∧ icmp.ret = icmpEcho.toNat then
    let iphdr ← header ip.hdr
    swapSrcDstIpv4 iphdr
    patchIcmp eth icmp icmpEchoreply
  else if eth.ret = (swap16 ethPIpv6).toNat ∧ icmp.ret = icmpv6EchoRequest.toNat then
    let ipv6hdr ← header ip.hdr
    swapSrcDstIpv6 ipv6hdr
    patchIcmp eth icmp (icmpv6EchoReply.setWidth 16)
  else return xdpPass

/-- The action that `xdp_icmp_echo_func` decides on. -/
def icmpEchoAction : Bpf (BitVec 32) := do
  let ctx ← get
  let eth ← parseEthhdr ctx.data ctx.dataEnd
  if eth.ret = (swap16 ethPIp).toNat then
    let ip ← parseIphdr eth.nh ctx.dataEnd
    if ip.ret ≠ ipprotoIcmp.toNat then return xdpPass
    answerEcho ctx.dataEnd eth ip
  else if eth.ret = (swap16 ethPIpv6).toNat then
    let ip ← parseIp6hdr eth.nh ctx.dataEnd
    if ip.ret ≠ ipprotoIcmpv6.toNat then return xdpPass
    answerEcho ctx.dataEnd eth ip
  else return xdpPass

def xdpIcmpEchoFunc : Xdp (BitVec 32) := recorded icmpEchoAction

end Packet03

open Packet03

/-! ## The checksum -/

/-- Folding keeps the sum modulo `65535`, and the sum of something is not the second zero. -/
theorem csumFoldHelper_mod {x : BitVec 32} (hx : x.toNat ≠ 0) :
    ((csumFoldHelper x).toNat + x.toNat) % 65535 = 0 ∧ (csumFoldHelper x).toNat ≤ 65534 := by
  have hlt := x.isLt
  have hlow : (x &&& 0xffff).toNat = x.toNat % 65536 := by
    rw [BitVec.toNat_and, show (0xffff : BitVec 32).toNat = 2 ^ 16 - 1 from rfl,
      Nat.and_two_pow_sub_one_eq_mod]
  -- the high half is added to the low one, and then the carry
  have hfirst : ((x >>> 16) + (x &&& 0xffff)).toNat = x.toNat / 65536 + x.toNat % 65536 := by
    rw [BitVec.toNat_add, hlow, BitVec.toNat_ushiftRight, Nat.shiftRight_eq_div_pow]
    omega
  unfold csumFoldHelper
  generalize (x >>> 16) + (x &&& 0xffff) = y at hfirst ⊢
  have hsecond : (y + (y >>> 16)).toNat = y.toNat + y.toNat / 65536 := by
    rw [BitVec.toNat_add, BitVec.toNat_ushiftRight, Nat.shiftRight_eq_div_pow]
    omega
  have hresult : ((~~~(y + (y >>> 16))).setWidth 16).toNat =
      (2 ^ 32 - 1 - (y.toNat + y.toNat / 65536)) % 2 ^ 16 := by
    rw [BitVec.toNat_setWidth, BitVec.toNat_not, hsecond]
  simp only [hresult]
  by_cases hcarry : y.toNat < 65536
  · rw [Nat.div_eq_of_lt hcarry, show 2 ^ 32 - 1 - (y.toNat + 0) = 65535 - y.toNat + 65535 * 2 ^ 16 by
      omega, Nat.add_mul_mod_self_right]
    omega
  · rw [show y.toNat / 65536 = 1 by omega,
      show 2 ^ 32 - 1 - (y.toNat + 1) = 131070 - y.toNat + 65534 * 2 ^ 16 by omega,
      Nat.add_mul_mod_self_right]
    omega

/-- The old word leaves the sum and the new one enters it. -/
theorem bpfCsumDiff_mod (old new seed : BitVec 32) (hold : old.toNat ≠ 2 ^ 32 - 1) :
    ((bpfCsumDiff [old] [new] seed).toNat + old.toNat) % 4294967295 =
      (new.toNat + seed.toNat) % 4294967295 ∧ (bpfCsumDiff [old] [new] seed).toNat ≠ 0 := by
  have hmod : (bpfCsumDiff [old] [new] seed).toNat % 4294967295 =
      ((~~~old).toNat + (new.toNat + (seed.toNat + 0))) % 4294967295 :=
    sum_modEq [~~~old, new, seed]
  have hzero : (bpfCsumDiff [old] [new] seed).toNat = 0 ↔
      (~~~old).toNat + (new.toNat + (seed.toNat + 0)) = 0 :=
    toNat_sum_eq_zero_iff [~~~old, new, seed]
  have hlt := old.isLt
  rw [BitVec.toNat_not] at hmod hzero
  omega

/-- **The patched field**, as the host reads it. -/
theorem icmpChecksumDiff_mod (c : BitVec 16) (old new : BitVec 32) (hold : old.toNat < 65536) :
    ((icmpChecksumDiff (~~~c) new old).toNat + new.toNat) % 65535 =
      (c.toNat + old.toNat) % 65535 ∧ (icmpChecksumDiff (~~~c) new old).toNat ≤ 65534 := by
  obtain ⟨hmod, hne⟩ := bpfCsumDiff_mod old new ((~~~c).setWidth 32) (by omega)
  obtain ⟨hfold, hle⟩ := csumFoldHelper_mod hne
  have hc := c.isLt
  have hseed : ((~~~c).setWidth 32).toNat = 65535 - c.toNat := by
    rw [BitVec.toNat_setWidth, BitVec.toNat_not]
    omega
  unfold icmpChecksumDiff
  omega

/-! ## The reply -/

/-- What the patching that both protocols share makes of the packet. -/
def icmpPatched (m : ByteMemory) (eth icmp : Nat) (reply : BitVec 8) : ByteMemory :=
  let m := swapBytes m (eth + 6) eth 6
  let oldCsum := m.load16 (icmp + 2)
  let m := m.store16 (icmp + 2) 0
  let icmphdrOld := m.load32 icmp
  let m := m.write icmp [reply]
  let icmphdrNew := m.load32 icmp
  m.store16 (icmp + 2) (icmpChecksumDiff (~~~oldCsum) icmphdrNew icmphdrOld)

/-- What the packet holds after the reply has been written. -/
def echoPatched (m : ByteMemory) (eth addrs n icmp : Nat) (reply : BitVec 8) : ByteMemory :=
  icmpPatched (swapBytes m addrs (addrs + n) n) eth icmp reply

section
variable {m : ByteMemory} {eth addrs n icmp : Nat} {reply : BitVec 8}

theorem echoAnswer_echoPatched (heth : eth + 12 ≤ addrs) (haddrs : addrs + 2 * n ≤ icmp) :
    EchoAnswer m (echoPatched m eth addrs n icmp reply) eth addrs n icmp reply := by
  have hips := swapBytes_exchanged m (a := addrs) (b := addrs + n) (n := n) (by omega)
  have hmacs := swapBytes_exchanged (swapBytes m addrs (addrs + n) n) (a := eth + 6) (b := eth)
    (n := 6) (by omega)
  obtain ⟨haddr, hmac⟩ := hips.two hmacs (by omega) (by omega) (by omega) (by omega)
  -- the field has been zeroed already when the type is written
  have hread : ∀ a k, a + k ≤ icmp →
      ((swapBytes (swapBytes m addrs (addrs + n) n) (eth + 6) eth 6).store16 (icmp + 2) 0).read a k =
        (swapBytes (swapBytes m addrs (addrs + n) n) (eth + 6) eth 6).read a k :=
    fun a k h => read_store16_of_disjoint (.inl (by omega))
  rw [← hread _ _ (by omega), ← hread _ _ (by omega)] at hmac haddr
  refine .of_read ⟨hmac.2, hmac.1⟩ haddr (fun a ha ha' hcsum => ?_) (by omega) (by omega) reply _
  rw [ByteMemory.store16, write_of_not_mem _ hcsum, hmacs.others a (by omega) (by omega),
    hips.others a (by omega) (by omega)]

/-- The bytes of a header of one word whose checksum is zero. -/
theorem toNat_load32_of_zero {m : ByteMemory} {a : Nat} (h : m.load16 (a + 2) = 0) :
    (m.load32 a).toNat = (m (a + 1)).toNat * 256 + (m a).toNat := by
  have hzero : ((0 : BitVec 16) ++ m.load16 a).toNat = (m.load16 a).toNat := by
    rw [BitVec.toNat_append, show (0 : BitVec 16).toNat = 0 from rfl, Nat.zero_shiftLeft, Nat.zero_or]
  unfold ByteMemory.load32
  rw [h, hzero]
  exact toNat_append8 _ _

/-- The field of the reply makes up for the type. -/
theorem load16_echoPatched (m : ByteMemory) (eth addrs n icmp : Nat) (reply : BitVec 8)
    (heth : eth + 12 ≤ addrs) (haddrs : addrs + 2 * n ≤ icmp) :
    (((echoPatched m eth addrs n icmp reply).load16 (icmp + 2)).toNat + reply.toNat) % 65535 =
      ((m.load16 (icmp + 2)).toNat + (m icmp).toNat) % 65535 ∧
    ((echoPatched m eth addrs n icmp reply).load16 (icmp + 2)).toNat ≤ 65534 := by
  have hips := swapBytes_exchanged m (a := addrs) (b := addrs + n) (n := n) (by omega)
  have hmacs := swapBytes_exchanged (swapBytes m addrs (addrs + n) n) (a := eth + 6) (b := eth)
    (n := 6) (by omega)
  unfold echoPatched icmpPatched
  simp only [load16_store16_self]
  generalize hsw : swapBytes (swapBytes m addrs (addrs + n) n) (eth + 6) eth 6 = m₂
  have hkept : ∀ a, icmp ≤ a → m₂ a = m a := by
    intro a ha
    rw [← hsw, hmacs.others a (by omega) (by omega), hips.others a (by omega) (by omega)]
  have hstored : ∀ a, icmp ≤ a ∧ a < icmp + 2 → (m₂.store16 (icmp + 2) 0) a = m a := by
    intro a ha
    rw [ByteMemory.store16, write_of_not_mem _ (.inl ha.2), hkept a ha.1]
  have hold : ((m₂.store16 (icmp + 2) 0).load32 icmp).toNat =
      (m (icmp + 1)).toNat * 256 + (m icmp).toNat := by
    rw [toNat_load32_of_zero (load16_store16_self 0), hstored _ (by omega), hstored _ (by omega)]
  have hnew : (((m₂.store16 (icmp + 2) 0).write icmp [reply]).load32 icmp).toNat =
      (m (icmp + 1)).toNat * 256 + reply.toNat := by
    have hzero : ((m₂.store16 (icmp + 2) 0).write icmp [reply]).load16 (icmp + 2) = 0 := by
      apply load16_eq
      rw [read_write_of_disjoint _ (by simp), read_store16_self]
    rw [toNat_load32_of_zero hzero, write_singleton, write_of_not_mem _ (by simp),
      hstored _ (by omega)]
  have hfield : m₂.load16 (icmp + 2) = m.load16 (icmp + 2) := by
    unfold ByteMemory.load16
    rw [hkept _ (by omega), hkept _ (by omega)]
  have htype := (m icmp).isLt
  have hcode := (m (icmp + 1)).isLt
  obtain ⟨hmod, hle⟩ := icmpChecksumDiff_mod (m₂.load16 (icmp + 2))
    ((m₂.store16 (icmp + 2) 0).load32 icmp)
    (((m₂.store16 (icmp + 2) 0).write icmp [reply]).load32 icmp) (by omega)
  rw [hold, hnew, hfield] at hmod
  refine ⟨?_, hle⟩
  rw [hfield]
  rw [hfield] at hle
  omega

end

/-! ## What stays valid -/

/-- The ICMP message of the IPv4 packet at `ip`: what its total length leaves behind the header. -/
def icmpLen (ctx : XdpMd) (ip : Nat) : Nat :=
  (swap16 (ctx.mem.load16 (ip + 2))).toNat - ihlBytes ctx ip

/-- The ICMP checksum verifies: the message of at least four bytes holds the field, lies in the packet
and sums to all ones. -/
structure IcmpVerified (ctx : XdpMd) (ip : Nat) : Prop where
  field : 4 ≤ icmpLen ctx ip
  within : ip + ihlBytes ctx ip + icmpLen ctx ip ≤ ctx.dataEnd
  verifies : Verifies (ctx.mem.read (ip + ihlBytes ctx ip) (icmpLen ctx ip))

/-- The ICMPv6 checksum verifies: the payload of at least four bytes holds the field, lies in the
packet and sums to all ones with the pseudo-header.  Without the field there is nothing to verify. -/
structure Icmp6Verified (ctx : XdpMd) (ip : Nat) : Prop where
  field : 4 ≤ payloadLen ctx.mem ip
  within : ip + 40 + payloadLen ctx.mem ip ≤ ctx.dataEnd
  verifies : Verifies (icmp6Bytes ctx.mem ip)

/-- The one message whose reply is all zero. -/
def zeroReplyMessage (n : Nat) : List (BitVec 8) := [0x08, 0x00, 0xF7, 0xFF] ++ List.replicate (n - 4) 0

section
variable {m m' : ByteMemory} {eth icmp ip : Nat}

/-- That message, by the words that are summed. -/
theorem eq_zeroReplyMessage_iff (htype : m icmp = 8) (k : Nat) :
    m.read icmp (4 + k) = zeroReplyMessage (4 + k) ↔
      (m (icmp + 1)).toNat = 0 ∧ (swap16 (m.load16 (icmp + 2))).toNat = 0xF7FF ∧
        total (m.read (icmp + 4) k) = 0 := by
  have hrest := total_eq_zero_iff (m.read (icmp + 4) k)
  rw [length_read] at hrest
  have hread : m.read icmp (4 + k) =
      m icmp :: m (icmp + 1) :: m (icmp + 2) :: m (icmp + 3) :: m.read (icmp + 4) k := read_add m _ 4 k
  have hfield : (swap16 (m.load16 (icmp + 2))).toNat =
      (m (icmp + 2)).toNat * 256 + (m (icmp + 3)).toNat := by
    unfold swap16
    rw [ByteMemory.load16, low_append, high_append]
    exact toNat_append8 _ _
  have hlow := (m (icmp + 3)).isLt
  have h0 : (0x00 : BitVec 8).toNat = 0 := rfl
  have h247 : (0xF7 : BitVec 8).toNat = 247 := rfl
  have h255 : (0xFF : BitVec 8).toNat = 255 := rfl
  rw [hread, zeroReplyMessage, Nat.add_sub_cancel_left, hrest, hfield]
  simp only [List.cons_append, List.nil_append, List.cons.injEq, htype, true_and,
    ← BitVec.toNat_inj, h0, h247, h255]
  constructor
  · rintro ⟨hcode, hhigh, hlow', hzero⟩
    exact ⟨hcode, by omega, hzero⟩
  · rintro ⟨hcode, hsum, hzero⟩
    exact ⟨hcode, by omega, by omega, hzero⟩

/-- The reply to a message that verifies sums to zero modulo `65535`, so that it verifies unless
it is all zero. -/
theorem verifies_reply_iff (h : EchoAnswer m m' eth (ip + 12) 4 icmp 0) (heth : eth + 12 ≤ ip)
    (hicmp : ip + 20 ≤ icmp) (htype : m icmp = 8)
    (hfield : ((m'.load16 (icmp + 2)).toNat + (0 : BitVec 8).toNat) % 65535 =
      ((m.load16 (icmp + 2)).toNat + (m icmp).toNat) % 65535)
    (hle : (m'.load16 (icmp + 2)).toNat ≤ 65534) {n : Nat} (hn : 4 ≤ n)
    (hv : Verifies (m.read icmp n)) :
    Verifies (m'.read icmp n) ↔ m.read icmp n ≠ zeroReplyMessage n := by
  obtain ⟨k, rfl⟩ := Nat.exists_eq_add_of_le hn
  have hmod := h.total_message_mod (by omega) (by omega) hfield hle k
  have htotal := h.total_message (by omega) (by omega) k
  have hsplit := total_read_field m icmp k
  obtain ⟨hne, hzero⟩ := (verifies_iff _).mp hv
  obtain ⟨hswap, hswapLe⟩ := swap16_patched hfield hle
  have h8 : (8 : BitVec 8).toNat = 8 := rfl
  have h0 : (0 : BitVec 8).toNat = 0 := rfl
  rw [htype] at htotal hsplit hswap
  simp only [verifies_iff, ne_eq, eq_zeroReplyMessage_iff htype k]
  omega

/-- The exchange of the addresses leaves the sum over an IPv4 header. -/
theorem verifies_iphdr {reply : BitVec 8} (h : EchoAnswer m m' eth (ip + 12) 4 icmp reply)
    (heth : eth + 12 ≤ ip) {n : Nat} (hn : 20 ≤ n) (hicmp : ip + n ≤ icmp)
    (hv : Verifies (m.read ip n)) : Verifies (m'.read ip n) := by
  obtain ⟨k, rfl⟩ := Nat.exists_eq_add_of_le hn
  have hsplit : ∀ x : ByteMemory, total (x.read ip (20 + k)) = total (x.read ip 12) +
      total (x.read (ip + 12) 4) + total (x.read (ip + 16) 4) + total (x.read (ip + 20) k) := by
    intro x
    rw [total_read_add _ _ _ (by decide), show 20 = 12 + 4 + 4 from rfl,
      total_read_add _ _ _ (by decide), total_read_add _ _ _ (by decide)]
  have hsaddr : m'.read (ip + 12) 4 = m.read (ip + 16) 4 := h.saddr
  have hdaddr : m'.read (ip + 16) 4 = m.read (ip + 12) 4 := h.daddr
  have hsame : total (m'.read ip (20 + k)) = total (m.read ip (20 + k)) := by
    rw [hsplit m, hsplit m', hsaddr, hdaddr, h.read (by omega) (by omega) (by omega),
      h.read (by omega) (by omega) (by omega)]
    omega
  rw [verifies_iff, hsame]
  exact (verifies_iff _).mp hv

/-- With a pseudo-header there is always something that is not zero. -/
theorem verifies_icmp6 {reply : BitVec 8} (h : EchoAnswer m m' eth (ip + 8) 16 (ip + 40) reply)
    (heth : eth + 14 ≤ ip)
    (hfield : ((m'.load16 (ip + 40 + 2)).toNat + reply.toNat) % 65535 =
      ((m.load16 (ip + 40 + 2)).toNat + (m (ip + 40)).toNat) % 65535)
    (hle : (m'.load16 (ip + 40 + 2)).toNat ≤ 65534) (hlen : 4 ≤ payloadLen m ip)
    (hv : Verifies (icmp6Bytes m ip)) : Verifies (icmp6Bytes m' ip) := by
  obtain ⟨hsame, hpseudo⟩ := h.total_pseudoHeader heth
  obtain ⟨k, hk⟩ := Nat.exists_eq_add_of_le hlen
  have hmod := h.total_message_mod (by omega) (by omega) hfield hle k
  have hpos := total_pseudoHeader m ip
  obtain ⟨-, hzero⟩ := (verifies_iff _).mp hv
  rw [total_icmp6Bytes, hk] at hzero
  rw [verifies_iff, total_icmp6Bytes, hsame, hpseudo, hk]
  omega

end

/-! ## The program -/

/-- An ICMP echo request in the IPv4 packet at `ip`. -/
structure IpEcho (ctx : XdpMd) (ip : Nat) : Prop where
  carries : Carries ctx ethPIp ip
  ihl : 20 ≤ ihlBytes ctx ip
  protocol : ctx.mem (ip + 9) = 1
  room : ip + ihlBytes ctx ip + 4 ≤ ctx.dataEnd
  type : ctx.mem (ip + ihlBytes ctx ip) = 8

/-- An ICMPv6 echo request in the IPv6 packet at `ip`. -/
structure Ip6Echo (ctx : XdpMd) (ip : Nat) : Prop where
  carries : Carries ctx ethPIpv6 ip
  nexthdr : ctx.mem (ip + 6) = 58
  room : ip + 40 + 4 ≤ ctx.dataEnd
  type : ctx.mem (ip + 40) = 128

section
variable {ctx : XdpMd} {ip : Nat}

theorem Carries.le {proto : BitVec 16} (h : Carries ctx proto ip) : ctx.data + 14 ≤ ip := by
  obtain ⟨n, -, -, -, rfl⟩ := h
  omega

theorem swapFields_ok {a b n : Nat} (ha : ctx.Inside a n) (hb : ctx.Inside b n) :
    swapFields a b n ctx = .ok ((), { ctx with mem := swapBytes ctx.mem a b n }) := by
  have hlen : ∀ x, (ctx.mem.read x n).length = n := fun x => length_read _ _ _
  unfold swapFields
  rw [Prog.bind_ok (loadBytes_ok ha), Prog.bind_ok (loadBytes_ok hb),
    Prog.bind_ok (storeBytes_ok (by rwa [hlen])), storeBytes_ok (by rwa [hlen])]
  rfl

/-- The patching, on a packet whose addresses have been exchanged. -/
theorem patchIcmp_ok {ret ret' : Int} {nh nh' eth icmp : Nat} (reply : BitVec 16)
    (heth : ctx.Inside eth 12) (hicmp : ctx.Inside icmp 4) :
    patchIcmp ⟨ret, nh, some eth⟩ ⟨ret', nh', some icmp⟩ reply ctx =
      .ok (xdpTx, { ctx with mem := icmpPatched ctx.mem eth icmp (reply.setWidth 8) }) := by
  obtain ⟨he, he'⟩ := heth
  obtain ⟨hi, hi'⟩ := hicmp
  have hmacs : swapSrcDstMac eth ctx =
      .ok ((), { ctx with mem := swapBytes ctx.mem (eth + 6) eth 6 }) :=
    swapFields_ok ⟨by omega, by omega⟩ ⟨by omega, by omega⟩
  unfold patchIcmp
  rw [Prog.bind_ok (header_ok eth ctx), Prog.bind_ok hmacs, Prog.bind_ok (header_ok icmp _),
    Prog.bind_ok (load16_ok ⟨by simp only; omega, by simp only; omega⟩),
    Prog.bind_ok (store16_ok _ ⟨by simp only; omega, by simp only; omega⟩),
    Prog.bind_ok (load32_ok ⟨by simp only; omega, by simp only; omega⟩),
    Prog.bind_ok (store8_ok _ ⟨by simp only; omega, by simp only; omega⟩),
    Prog.bind_ok (load32_ok ⟨by simp only; omega, by simp only; omega⟩),
    Prog.bind_ok (store16_ok _ ⟨by simp only; omega, by simp only; omega⟩)]
  rfl

theorem parseEthhdr_of_carries {proto : BitVec 16} (h : Carries ctx proto ip) :
    parseEthhdr ctx.data ctx.dataEnd ctx = .ok (⟨(swap16 proto).toNat, ip, some ctx.data⟩, ctx) := by
  rw [parseEthhdr_ok (Nat.le_refl _), parsedEthhdr_of_carries h]

theorem parseFixed_fits (size field nh : Nat) (hfield : field < size) (h : ctx.data ≤ nh)
    (hroom : nh + size ≤ ctx.dataEnd) : parseFixed size field nh ctx.dataEnd ctx =
      .ok (⟨(ctx.mem (nh + field)).toNat, nh + size, some nh⟩, ctx) := by
  rw [parseFixed_ok hfield h, parsedFixed, if_neg (by omega)]

theorem ipv6_ne_ip : ¬ ((swap16 ethPIpv6).toNat : Int) = ((swap16 ethPIp).toNat : Int) := by decide

/-- An ICMP echo request is answered. -/
theorem icmpEchoAction_ip (h : IpEcho ctx ip) : icmpEchoAction ctx = .ok (xdpTx, { ctx with
    mem := echoPatched ctx.mem ctx.data (ip + 12) 4 (ip + ihlBytes ctx ip) 0 }) := by
  have hle := h.carries.le
  have hihl := h.ihl
  have hroom := h.room
  have hip : parseIphdr ip ctx.dataEnd ctx =
      .ok (⟨ipprotoIcmp.toNat, ip + ihlBytes ctx ip, some ip⟩, ctx) := by
    rw [parseIphdr_ok (by omega), parsedIphdr, if_pos ⟨hihl, by omega, by omega⟩, h.protocol]
    rfl
  have hicmp : parseIcmphdrCommon (ip + ihlBytes ctx ip) ctx.dataEnd ctx =
      .ok (⟨icmpEcho.toNat, ip + ihlBytes ctx ip + 4, some (ip + ihlBytes ctx ip)⟩, ctx) := by
    have hfits := parseFixed_fits 4 0 (ip + ihlBytes ctx ip) (by omega) (by omega) hroom
    rw [Nat.add_zero, h.type] at hfits
    exact hfits
  have haddrs : swapSrcDstIpv4 ip ctx =
      .ok ((), { ctx with mem := swapBytes ctx.mem (ip + 12) (ip + 16) 4 }) :=
    swapFields_ok ⟨by omega, by omega⟩ ⟨by omega, by omega⟩
  unfold icmpEchoAction
  rw [Prog.bind_ok (get_ok ctx), Prog.bind_ok (parseEthhdr_of_carries h.carries), if_pos rfl,
    Prog.bind_ok hip, if_neg (by simp), answerEcho, Prog.bind_ok hicmp, if_pos ⟨rfl, rfl⟩,
    Prog.bind_ok (header_ok ip ctx), Prog.bind_ok haddrs]
  exact patchIcmp_ok _ ⟨Nat.le_refl _, by simp only; omega⟩ ⟨by simp only; omega, hroom⟩

/-- An ICMPv6 echo request is answered. -/
theorem icmpEchoAction_ip6 (h : Ip6Echo ctx ip) : icmpEchoAction ctx = .ok (xdpTx, { ctx with
    mem := echoPatched ctx.mem ctx.data (ip + 8) 16 (ip + 40) 129 }) := by
  have hle := h.carries.le
  have hroom := h.room
  have hip : parseIp6hdr ip ctx.dataEnd ctx =
      .ok (⟨ipprotoIcmpv6.toNat, ip + 40, some ip⟩, ctx) := by
    have hfits := parseFixed_fits 40 6 ip (by omega) (show ctx.data ≤ ip by omega) (by omega)
    rw [h.nexthdr] at hfits
    exact hfits
  have hicmp : parseIcmphdrCommon (ip + 40) ctx.dataEnd ctx =
      .ok (⟨icmpv6EchoRequest.toNat, ip + 40 + 4, some (ip + 40)⟩, ctx) := by
    have hfits := parseFixed_fits 4 0 (ip + 40) (by omega) (by omega) hroom
    rw [Nat.add_zero, h.type] at hfits
    exact hfits
  have haddrs : swapSrcDstIpv6 ip ctx =
      .ok ((), { ctx with mem := swapBytes ctx.mem (ip + 8) (ip + 24) 16 }) :=
    swapFields_ok ⟨by omega, by omega⟩ ⟨by omega, by omega⟩
  unfold icmpEchoAction
  rw [Prog.bind_ok (get_ok ctx), Prog.bind_ok (parseEthhdr_of_carries h.carries),
    if_neg ipv6_ne_ip, if_pos rfl, Prog.bind_ok hip, if_neg (by simp), answerEcho,
    Prog.bind_ok hicmp, if_neg (fun hip => ipv6_ne_ip hip.1), if_pos ⟨rfl, rfl⟩,
    Prog.bind_ok (header_ok ip ctx), Prog.bind_ok haddrs]
  exact patchIcmp_ok _ ⟨Nat.le_refl _, by simp only; omega⟩ ⟨by simp only; omega, hroom⟩

theorem answerEcho_pass {eth ip : Parsed} (hle : ctx.data ≤ ip.nh)
    (hip : ¬ (eth.ret = (swap16 ethPIp).toNat ∧
      (parsedFixed ctx ip.nh 4 0).ret = icmpEcho.toNat))
    (hip6 : ¬ (eth.ret = (swap16 ethPIpv6).toNat ∧
      (parsedFixed ctx ip.nh 4 0).ret = icmpv6EchoRequest.toNat)) :
    answerEcho ctx.dataEnd eth ip ctx = .ok (xdpPass, ctx) := by
  have hicmp : parseIcmphdrCommon ip.nh ctx.dataEnd ctx = .ok (parsedFixed ctx ip.nh 4 0, ctx) :=
    parseFixed_ok (by decide) hle
  unfold answerEcho
  rw [Prog.bind_ok hicmp, if_neg hip, if_neg hip6]
  rfl

/-- An IPv4 packet that is no echo request is passed on. -/
theorem icmpEchoAction_pass_ip (hc : Carries ctx ethPIp ip) (h : ¬ IpEcho ctx ip) :
    icmpEchoAction ctx = .ok (xdpPass, ctx) := by
  have hle := hc.le
  have hip : parseIphdr ip ctx.dataEnd ctx = .ok (parsedIphdr ctx ip, ctx) :=
    parseIphdr_ok (by omega)
  unfold icmpEchoAction
  rw [Prog.bind_ok (get_ok ctx), Prog.bind_ok (parseEthhdr_of_carries hc), if_pos rfl,
    Prog.bind_ok hip]
  by_cases hproto : (parsedIphdr ctx ip).ret = ipprotoIcmp.toNat
  · obtain ⟨hihl, hfix, hend, hprotocol⟩ := parsedIphdr_ret_iff.mp hproto
    have hnh : (parsedIphdr ctx ip).nh = ip + ihlBytes ctx ip := by
      rw [parsedIphdr, if_pos ⟨hihl, hfix, hend⟩]
    rw [if_neg (not_not.mpr hproto)]
    refine answerEcho_pass (by omega) ?_ (fun hip6 => ipv6_ne_ip hip6.1.symm)
    rintro ⟨-, htype⟩
    rw [hnh] at htype
    obtain ⟨hroom, htype⟩ := parsedFixed_ret_iff.mp htype
    exact h ⟨hc, hihl, hprotocol, hroom, htype⟩
  · rw [if_pos hproto]
    rfl

/-- An IPv6 packet that is no echo request is passed on. -/
theorem icmpEchoAction_pass_ip6 (hc : Carries ctx ethPIpv6 ip) (h : ¬ Ip6Echo ctx ip) :
    icmpEchoAction ctx = .ok (xdpPass, ctx) := by
  have hle := hc.le
  have hip6 : parseIp6hdr ip ctx.dataEnd ctx = .ok (parsedFixed ctx ip 40 6, ctx) :=
    parseFixed_ok (by decide) (by omega)
  unfold icmpEchoAction
  rw [Prog.bind_ok (get_ok ctx), Prog.bind_ok (parseEthhdr_of_carries hc), if_neg ipv6_ne_ip,
    if_pos rfl, Prog.bind_ok hip6]
  by_cases hproto : (parsedFixed ctx ip 40 6).ret = ipprotoIcmpv6.toNat
  · obtain ⟨hend, hnexthdr⟩ := parsedFixed_ret_iff.mp hproto
    have hnh : (parsedFixed ctx ip 40 6).nh = ip + 40 := by
      rw [parsedFixed, if_neg (by omega)]
    rw [if_neg (not_not.mpr hproto)]
    refine answerEcho_pass (by omega) (fun hip => ipv6_ne_ip hip.1) ?_
    rintro ⟨-, htype⟩
    rw [hnh] at htype
    obtain ⟨hroom, htype⟩ := parsedFixed_ret_iff.mp htype
    exact h ⟨hc, hnexthdr, hroom, htype⟩
  · rw [if_pos hproto]
    rfl

/-- Everything else is passed on, before anything has been written. -/
theorem icmpEchoAction_pass (h : ∀ ip, ¬ IpEcho ctx ip) (h6 : ∀ ip, ¬ Ip6Echo ctx ip) :
    icmpEchoAction ctx = .ok (xdpPass, ctx) := by
  by_cases heth : (parsedEthhdr ctx ctx.data).ret = (swap16 ethPIp).toNat
  · obtain ⟨ip, hc⟩ := carries_of_parsedEthhdr (by decide) heth
    exact icmpEchoAction_pass_ip hc (h ip)
  by_cases heth6 : (parsedEthhdr ctx ctx.data).ret = (swap16 ethPIpv6).toNat
  · obtain ⟨ip, hc⟩ := carries_of_parsedEthhdr (by decide) heth6
    exact icmpEchoAction_pass_ip6 hc (h6 ip)
  · unfold icmpEchoAction
    rw [Prog.bind_ok (get_ok ctx), Prog.bind_ok (parseEthhdr_ok (Nat.le_refl _)), if_neg heth,
      if_neg heth6]
    rfl

/-- The program keeps to the packet: it answers or passes. -/
theorem icmpEchoAction_keeps (d e : Nat) : Keeps d e icmpEchoAction (· < xdpActionMax) := by
  refine .of_runs fun ctx hspans => ?_
  by_cases h : ∃ ip, IpEcho ctx ip
  · obtain ⟨ip, h⟩ := h
    exact ⟨_, _, icmpEchoAction_ip h, by decide, hspans⟩
  by_cases h6 : ∃ ip, Ip6Echo ctx ip
  · obtain ⟨ip, h6⟩ := h6
    exact ⟨_, _, icmpEchoAction_ip6 h6, by decide, hspans⟩
  · exact ⟨_, _, icmpEchoAction_pass (not_exists.mp h) (not_exists.mp h6), by decide, hspans⟩

/-! ## What an answer is worth -/

theorem Carries.unique {proto proto' : BitVec 16} {ip' : Nat} (h : Carries ctx proto ip)
    (h' : Carries ctx proto' ip') : ip' = ip ∧ (swap16 proto').toNat = (swap16 proto).toNat := by
  have hsame := (parsedEthhdr_of_carries h').symm.trans (parsedEthhdr_of_carries h)
  simp only [Parsed.mk.injEq, Int.ofNat_inj] at hsame
  exact ⟨hsame.2.1, hsame.1⟩

theorem IpEcho.not_ip6 {ip' : Nat} (h : IpEcho ctx ip) : ¬ Ip6Echo ctx ip' := fun h6 =>
  ipv6_ne_ip (congrArg Int.ofNat (h.carries.unique h6.carries).2)

/-- The lengths of an answered IPv4 packet are those of the request. -/
theorem icmpLen_of_answer (ctx' : XdpMd) {reply : BitVec 8}
    (h : EchoAnswer ctx.mem ctx'.mem ctx.data (ip + 12) 4 (ip + ihlBytes ctx ip) reply)
    (hle : ctx.data + 14 ≤ ip) (hihl : 20 ≤ ihlBytes ctx ip) :
    ihlBytes ctx' ip = ihlBytes ctx ip ∧ icmpLen ctx' ip = icmpLen ctx ip := by
  have hfirst : ctx'.mem ip = ctx.mem ip :=
    h.others ip (by omega) (by omega) (by omega) (by omega)
  have hsame : ihlBytes ctx' ip = ihlBytes ctx ip := by
    unfold ihlBytes
    rw [hfirst]
  refine ⟨hsame, ?_⟩
  unfold icmpLen
  rw [hsame, ← total_read_two, ← total_read_two, h.read (by omega) (by omega) (by omega)]

/-- The message that verifies and whose reply is all zero. -/
structure ZeroReply (ctx : XdpMd) (ip : Nat) : Prop where
  echo : IpEcho ctx ip
  field : 4 ≤ icmpLen ctx ip
  within : ip + ihlBytes ctx ip + icmpLen ctx ip ≤ ctx.dataEnd
  bytes : ctx.mem.read (ip + ihlBytes ctx ip) (icmpLen ctx ip) = zeroReplyMessage (icmpLen ctx ip)

theorem ZeroReply.verified (h : ZeroReply ctx ip) : IcmpVerified ctx ip := by
  refine ⟨h.field, h.within, ?_⟩
  obtain ⟨k, hk⟩ := Nat.exists_eq_add_of_le h.field
  have hbytes := h.bytes
  rw [hk] at hbytes ⊢
  obtain ⟨hcode, hfield, hrest⟩ := (eq_zeroReplyMessage_iff h.echo.type k).mp hbytes
  have htotal := total_read_field ctx.mem (ip + ihlBytes ctx ip) k
  have h8 : (8 : BitVec 8).toNat = 8 := rfl
  rw [h.echo.type] at htotal
  rw [verifies_iff]
  omega

/-- The packet after an ICMP echo request was answered. -/
def ipAnswered (ctx : XdpMd) (ip : Nat) : XdpMd :=
  { ctx with mem := echoPatched ctx.mem ctx.data (ip + 12) 4 (ip + ihlBytes ctx ip) 0 }

/-- The packet after an ICMPv6 echo request was answered. -/
def ip6Answered (ctx : XdpMd) (ip : Nat) : XdpMd :=
  { ctx with mem := echoPatched ctx.mem ctx.data (ip + 8) 16 (ip + 40) 129 }

theorem IpEcho.answer (h : IpEcho ctx ip) :
    EchoAnswer ctx.mem (ipAnswered ctx ip).mem ctx.data (ip + 12) 4 (ip + ihlBytes ctx ip) 0 := by
  have hle := h.carries.le
  have hihl := h.ihl
  exact echoAnswer_echoPatched (by omega) (by omega)

/-- A verified ICMP checksum stays verified unless the reply is all zero. -/
theorem IpEcho.verified_iff (h : IpEcho ctx ip) (hv : IcmpVerified ctx ip) :
    IcmpVerified (ipAnswered ctx ip) ip ↔ ¬ ZeroReply ctx ip := by
  have hle := h.carries.le
  have hihl := h.ihl
  obtain ⟨hsame, hlen⟩ := icmpLen_of_answer (ipAnswered ctx ip) h.answer hle hihl
  obtain ⟨hfield, hfieldLe⟩ := load16_echoPatched ctx.mem ctx.data (ip + 12) 4
    (ip + ihlBytes ctx ip) 0 (by omega) (by omega)
  have hiff := verifies_reply_iff h.answer (by omega) (by omega) h.type hfield hfieldLe hv.field
    hv.verifies
  constructor
  · intro hv' hzero
    have hverifies := hv'.verifies
    rw [hsame, hlen] at hverifies
    exact hiff.mp hverifies hzero.bytes
  · intro hnot
    refine ⟨by rw [hlen]; exact hv.field, by rw [hsame, hlen]; exact hv.within, ?_⟩
    rw [hsame, hlen]
    exact hiff.mpr fun hbytes => hnot ⟨h, hv.field, hv.within, hbytes⟩

theorem IpEcho.iphdr (h : IpEcho ctx ip) (hv : Verifies (ctx.mem.read ip (ihlBytes ctx ip))) :
    Verifies ((ipAnswered ctx ip).mem.read ip (ihlBytes ctx ip)) := by
  have hle := h.carries.le
  exact verifies_iphdr h.answer (by omega) h.ihl (Nat.le_refl _) hv

theorem Ip6Echo.answer (h : Ip6Echo ctx ip) :
    EchoAnswer ctx.mem (ip6Answered ctx ip).mem ctx.data (ip + 8) 16 (ip + 40) 129 := by
  have hle := h.carries.le
  exact echoAnswer_echoPatched (by omega) (by omega)

theorem Ip6Echo.verified (h : Ip6Echo ctx ip) (hv : Icmp6Verified ctx ip) :
    Icmp6Verified (ip6Answered ctx ip) ip := by
  have hle := h.carries.le
  obtain ⟨hlen, -⟩ := h.answer.total_pseudoHeader hle
  obtain ⟨hfield, hfieldLe⟩ := load16_echoPatched ctx.mem ctx.data (ip + 8) 16 (ip + 40) 129
    (by omega) (by omega)
  refine ⟨by rw [hlen]; exact hv.field, by rw [hlen]; exact hv.within, ?_⟩
  exact verifies_icmp6 h.answer hle hfield hfieldLe hv.field hv.verifies

end

/-- What the echo program is for: it answers the echo requests and leaves every other packet
alone, an answer changes what a reply may change, and valid checksums stay valid. -/
structure EchoServed (ctx : XdpMd) (verdict : BitVec 32) (ctx' : XdpMd) : Prop where
  answers : verdict = xdpTx ↔ (∃ ip, IpEcho ctx ip) ∨ ∃ ip, Ip6Echo ctx ip
  passes : ¬ ((∃ ip, IpEcho ctx ip) ∨ ∃ ip, Ip6Echo ctx ip) → verdict = xdpPass ∧ ctx' = ctx
  bounds : ctx'.data = ctx.data ∧ ctx'.dataEnd = ctx.dataEnd
  ip : ∀ ip, IpEcho ctx ip →
    EchoAnswer ctx.mem ctx'.mem ctx.data (ip + 12) 4 (ip + ihlBytes ctx ip) 0 ∧
    (Verifies (ctx.mem.read ip (ihlBytes ctx ip)) → Verifies (ctx'.mem.read ip (ihlBytes ctx ip))) ∧
    (IcmpVerified ctx ip → IcmpVerified ctx' ip)
  ip6 : ∀ ip, Ip6Echo ctx ip →
    EchoAnswer ctx.mem ctx'.mem ctx.data (ip + 8) 16 (ip + 40) 129 ∧
    (Icmp6Verified ctx ip → Icmp6Verified ctx' ip)

/-- **The kernel's echo reply.**  On every packet the program returns, and it serves exactly the
packets that are not an ICMP echo request of the bytes `08 00 F7 FF` and zeros. -/
theorem xdpIcmpEchoFunc_serves_iff (s : XdpState) :
    ∃ verdict s', xdpIcmpEchoFunc s = .ok (verdict, s') ∧
      (EchoServed s.ctx verdict s'.ctx ↔ ¬ ∃ ip, ZeroReply s.ctx ip) := by
  by_cases hecho : ∃ ip, IpEcho s.ctx ip
  · obtain ⟨ip, h⟩ := hecho
    refine ⟨_, _, recorded_ok (icmpEchoAction_ip h) (by decide), ?_⟩
    have hunique : ∀ ip', IpEcho s.ctx ip' → ip' = ip := fun ip' h' => (h.carries.unique h'.carries).1
    constructor
    · rintro hserved ⟨ip', hzero⟩
      obtain rfl := hunique ip' hzero.echo
      exact (h.verified_iff hzero.verified).mp ((hserved.ip ip' h).2.2 hzero.verified) hzero
    · intro hnot
      refine ⟨iff_of_true rfl (.inl ⟨ip, h⟩), fun hno => absurd (.inl ⟨ip, h⟩) hno, ⟨rfl, rfl⟩,
        fun ip' h' => ?_, fun ip' h' => absurd h' h.not_ip6⟩
      obtain rfl := hunique ip' h'
      exact ⟨h.answer, h.iphdr, fun hv => (h.verified_iff hv).mpr fun hzero => hnot ⟨ip', hzero⟩⟩
  · have hzero : ¬ ∃ ip, ZeroReply s.ctx ip := fun ⟨ip, h⟩ => hecho ⟨ip, h.echo⟩
    by_cases hecho6 : ∃ ip, Ip6Echo s.ctx ip
    · obtain ⟨ip, h⟩ := hecho6
      refine ⟨_, _, recorded_ok (icmpEchoAction_ip6 h) (by decide), iff_of_true ?_ hzero⟩
      refine ⟨iff_of_true rfl (.inr ⟨ip, h⟩), fun hno => absurd (.inr ⟨ip, h⟩) hno, ⟨rfl, rfl⟩,
        fun ip' h' => absurd ⟨ip', h'⟩ hecho, fun ip' h' => ?_⟩
      obtain rfl := (h.carries.unique h'.carries).1
      exact ⟨h.answer, h.verified⟩
    · have hnone : ¬ ((∃ ip, IpEcho s.ctx ip) ∨ ∃ ip, Ip6Echo s.ctx ip) := not_or.mpr ⟨hecho, hecho6⟩
      refine ⟨_, _, recorded_ok (icmpEchoAction_pass (not_exists.mp hecho) (not_exists.mp hecho6))
        (by decide), iff_of_true ?_ hzero⟩
      exact ⟨iff_of_false (by decide) hnone, fun _ => ⟨rfl, rfl⟩, ⟨rfl, rfl⟩,
        fun ip h => absurd ⟨ip, h⟩ hecho, fun ip h => absurd ⟨ip, h⟩ hecho6⟩

/-- An echo request of 42 bytes whose message is `08 00 F7 FF 00 00 00 00`. -/
def zeroReplyCtx : XdpMd where
  mem a := if a = 12 then 0x08 else if a = 14 then 0x45 else if a = 17 then 28 else if a = 23 then 1
    else if a = 34 then 0x08 else if a = 36 then 0xF7 else if a = 37 then 0xFF else 0
  data := 0
  dataEnd := 42

theorem zeroReplyCtx_zeroReply : ZeroReply zeroReplyCtx 14 := by
  have hstack : TagStack zeroReplyCtx.mem zeroReplyCtx.dataEnd 12 0 :=
    ⟨fun i hi => absurd hi (Nat.not_lt_zero i), by decide, by decide⟩
  have hcarries : Carries zeroReplyCtx ethPIp 14 := ⟨0, by decide, hstack, by decide, rfl⟩
  exact ⟨⟨hcarries, by decide, by decide, by decide, by decide⟩, by decide, by decide, by decide⟩

/-- Its checksum verifies, and that of the reply does not. -/
theorem xdpIcmpEchoFunc_zero_reply :
    IpEcho zeroReplyCtx 14 ∧ IcmpVerified zeroReplyCtx 14 ∧
    ∃ s', xdpIcmpEchoFunc ⟨zeroReplyCtx, fun _ => ⟨0, 0⟩⟩ = .ok (xdpTx, s') ∧
      ¬ IcmpVerified s'.ctx 14 ∧ ¬ EchoServed zeroReplyCtx xdpTx s'.ctx := by
  have hzero := zeroReplyCtx_zeroReply
  have hnot : ¬ IcmpVerified (ipAnswered zeroReplyCtx 14) 14 := fun hv =>
    (hzero.echo.verified_iff hzero.verified).mp hv hzero
  exact ⟨hzero.echo, hzero.verified, _, recorded_ok (icmpEchoAction_ip hzero.echo) (by decide), hnot,
    fun hserved => hnot ((hserved.ip 14 hzero.echo).2.2 hzero.verified)⟩

end AfXdpSwitch
