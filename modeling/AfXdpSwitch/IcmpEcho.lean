import AfXdpSwitch.OnesComplement
import AfXdpSwitch.ProcessPacket

/-!
# Echo replies and their checksums

What `process_packet` of the user program and `xdp_icmp_echo_func` of the kernel program have
in common: both turn an echo request into its reply in place.  `EchoAnswer` says which bytes
change.  The checksum sees the addresses only through their sum, which an exchange keeps; so
all that a reply changes for it is the type, and a field patched by the opposite amount makes
up for that, modulo `65535`.
-/

namespace AfXdpSwitch
open ByteMemory OnesComplement

/-! ## What is summed -/

/-- The payload length of the IPv6 header at `ip6h`. -/
def payloadLen (m : ByteMemory) (ip6h : Nat) : Nat := (swap16 (m.load16 (ip6h + 4))).toNat

/-- The pseudo-header of ICMPv6: both addresses, the length and the next header. -/
def pseudoHeader (m : ByteMemory) (ip6h : Nat) : List (BitVec 8) :=
  m.read (ip6h + 8) 16 ++ (m.read (ip6h + 24) 16 ++ ([0, 0] ++ (m.read (ip6h + 4) 2 ++ [0, 0, 0, 58])))

/-- What the ICMPv6 checksum of the message behind the IPv6 header at `ip6h` is taken over. -/
def icmp6Bytes (m : ByteMemory) (ip6h : Nat) : List (BitVec 8) :=
  pseudoHeader m ip6h ++ m.read (ip6h + 40) (payloadLen m ip6h)

/-! ## Exchanged ranges -/

/-- The ranges of `n` bytes at `a` and `b` have changed places, and nothing else has changed. -/
structure Exchanged (m m' : ByteMemory) (a b n : Nat) : Prop where
  fst : m'.read a n = m.read b n
  snd : m'.read b n = m.read a n
  others : ∀ x, (x < a ∨ a + n ≤ x) → (x < b ∨ b + n ≤ x) → m' x = m x

theorem swapBytes_exchanged (m : ByteMemory) {a b n : Nat} (h : a + n ≤ b ∨ b + n ≤ a) :
    Exchanged m (swapBytes m a b n) a b n where
  fst := by
    have hself : (m.write a (m.read b n)).read a (m.read b n).length = m.read b n := read_write_self m
    rw [length_read] at hself
    unfold swapBytes
    rw [read_write_of_disjoint _ (by rwa [length_read]), hself]
  snd := by
    unfold swapBytes
    have hself : ((m.write a (m.read b n)).write b (m.read a n)).read b (m.read a n).length =
      m.read a n := read_write_self _
    rwa [length_read] at hself
  others x ha hb := by
    unfold swapBytes
    rw [write_of_not_mem _ (by rwa [length_read]), write_of_not_mem _ (by rwa [length_read])]

/-- Exchanges inside a range on which two memories agree. -/
theorem read_swapBytes_congr {m m' : ByteMemory} {p n : Nat} (h : m'.read p n = m.read p n)
    {i j k : Nat} (hi : i + k ≤ n) (hj : j + k ≤ n) :
    (swapBytes m' (p + i) (p + j) k).read p n = (swapBytes m (p + i) (p + j) k).read p n := by
  unfold swapBytes
  rw [read_of_read_eq h hi, read_of_read_eq h hj]
  exact read_write_congr (read_write_congr h _ _) _ _

namespace Exchanged
variable {m m' m'' : ByteMemory} {a b n c d k : Nat}

theorem read (h : Exchanged m m' a b n) {x l : Nat} (ha : x + l ≤ a ∨ a + n ≤ x)
    (hb : x + l ≤ b ∨ b + n ≤ x) : m'.read x l = m.read x l :=
  read_congr fun i hi => h.others _ (by omega) (by omega)

/-- Two exchanges, of ranges `a`, `b` and `c`, `d` that do not meet. -/
theorem two (h : Exchanged m m' a b n) (h' : Exchanged m' m'' c d k)
    (hac : a + n ≤ c ∨ c + k ≤ a) (had : a + n ≤ d ∨ d + k ≤ a) (hbc : b + n ≤ c ∨ c + k ≤ b)
    (hbd : b + n ≤ d ∨ d + k ≤ b) :
    (m''.read a n = m.read b n ∧ m''.read b n = m.read a n) ∧
    (m''.read c k = m.read d k ∧ m''.read d k = m.read c k) := by
  refine ⟨⟨?_, ?_⟩, ?_, ?_⟩
  · rw [h'.read hac had, h.fst]
  · rw [h'.read hbc hbd, h.snd]
  · rw [h'.fst, h.read had.symm hbd.symm]
  · rw [h'.snd, h.read hac.symm hbc.symm]

end Exchanged

/-! ## Replies -/

/-- What an echo reply changes: the two MAC addresses at `eth` and the two addresses of `n` bytes
at `addrs` are exchanged, and the type at `icmp` and the checksum behind it are new. -/
structure EchoAnswer (m m' : ByteMemory) (eth addrs n icmp : Nat) (reply : BitVec 8) : Prop where
  hDest : m'.read eth 6 = m.read (eth + 6) 6
  hSource : m'.read (eth + 6) 6 = m.read eth 6
  saddr : m'.read addrs n = m.read (addrs + n) n
  daddr : m'.read (addrs + n) n = m.read addrs n
  type : m' icmp = reply
  others : ∀ a, (a < eth ∨ eth + 12 ≤ a) → (a < addrs ∨ addrs + 2 * n ≤ a) → a ≠ icmp →
    (a < icmp + 2 ∨ icmp + 4 ≤ a) → m' a = m a

variable {m m' : ByteMemory} {eth addrs n icmp : Nat} {reply : BitVec 8}

/-- A range that a reply leaves alone. -/
theorem EchoAnswer.read (h : EchoAnswer m m' eth addrs n icmp reply) {a k : Nat}
    (heth : a + k ≤ eth ∨ eth + 12 ≤ a) (haddrs : a + k ≤ addrs ∨ addrs + 2 * n ≤ a)
    (hicmp : a + k ≤ icmp ∨ icmp + 4 ≤ a) : m'.read a k = m.read a k := by
  refine read_congr fun i hi => h.others _ ?_ ?_ ?_ ?_
  all_goals omega

/-- A reply is made by the two exchanges, in either order, and by writing the type and the
checksum. -/
theorem EchoAnswer.of_read (hmacs : m'.read eth 6 = m.read (eth + 6) 6 ∧
      m'.read (eth + 6) 6 = m.read eth 6)
    (haddrs : m'.read addrs n = m.read (addrs + n) n ∧ m'.read (addrs + n) n = m.read addrs n)
    (hothers : ∀ a, (a < eth ∨ eth + 12 ≤ a) → (a < addrs ∨ addrs + 2 * n ≤ a) →
      (a < icmp + 2 ∨ icmp + 4 ≤ a) → m' a = m a)
    (heth : eth + 12 ≤ icmp) (hicmp : addrs + 2 * n ≤ icmp) (reply : BitVec 8) (c : BitVec 16) :
    EchoAnswer m ((m'.write icmp [reply]).store16 (icmp + 2) c) eth addrs n icmp reply := by
  have hread : ∀ a k, a + k ≤ icmp →
      ((m'.write icmp [reply]).store16 (icmp + 2) c).read a k = m'.read a k := by
    intro a k h
    rw [ByteMemory.store16, read_write_of_disjoint _ (.inl (by omega)),
      read_write_of_disjoint _ (.inl h)]
  refine ⟨?_, ?_, ?_, ?_, ?_, fun a ha ha' htype hcsum => ?_⟩
  · rw [hread _ _ (by omega), hmacs.1]
  · rw [hread _ _ (by omega), hmacs.2]
  · rw [hread _ _ (by omega), haddrs.1]
  · rw [hread _ _ (by omega), haddrs.2]
  · rw [ByteMemory.store16, write_of_not_mem _ (.inl (by omega)), write_singleton]
  · rw [ByteMemory.store16, write_of_not_mem _ hcsum, write_of_not_mem _ (by simp; omega),
      hothers a ha ha' hcsum]

/-- The message of a reply: the type and the field are new, the code and the data are not. -/
theorem EchoAnswer.total_message (h : EchoAnswer m m' eth addrs n icmp reply)
    (heth : eth + 12 ≤ icmp) (haddrs : addrs + 2 * n ≤ icmp) (k : Nat) :
    total (m'.read icmp (4 + k)) + (m icmp).toNat * 256 + (swap16 (m.load16 (icmp + 2))).toNat =
      total (m.read icmp (4 + k)) + reply.toNat * 256 + (swap16 (m'.load16 (icmp + 2))).toNat := by
  have hcode : m' (icmp + 1) = m (icmp + 1) :=
    h.others _ (by omega) (by omega) (by omega) (by omega)
  have hrest : m'.read (icmp + 4) k = m.read (icmp + 4) k := h.read (by omega) (by omega) (by omega)
  rw [total_read_field m, total_read_field m', h.type, hcode, hrest]
  omega

/-- A field that makes up for the type, in network order. -/
theorem swap16_patched {c c' : BitVec 16} {t r : Nat}
    (h : (c'.toNat + r) % 65535 = (c.toNat + t) % 65535) (hle : c'.toNat ≤ 65534) :
    ((swap16 c').toNat + 256 * r) % 65535 = ((swap16 c).toNat + 256 * t) % 65535 ∧
    (swap16 c').toNat ≤ 65534 := by
  have hold := toNat_swap16 c
  have hnew := toNat_swap16 c'
  have hlt := c'.isLt
  constructor <;> omega

/-- With such a field the sum over the message stays what it was, modulo `65535`. -/
theorem EchoAnswer.total_message_mod (h : EchoAnswer m m' eth addrs n icmp reply)
    (heth : eth + 12 ≤ icmp) (haddrs : addrs + 2 * n ≤ icmp)
    (hfield : ((m'.load16 (icmp + 2)).toNat + reply.toNat) % 65535 =
      ((m.load16 (icmp + 2)).toNat + (m icmp).toNat) % 65535)
    (hle : (m'.load16 (icmp + 2)).toNat ≤ 65534) (k : Nat) :
    total (m'.read icmp (4 + k)) % 65535 = total (m.read icmp (4 + k)) % 65535 := by
  have htotal := h.total_message heth haddrs k
  obtain ⟨hswap, -⟩ := swap16_patched hfield hle
  omega

theorem total_pseudoHeader (m : ByteMemory) (ip6h : Nat) : total (pseudoHeader m ip6h) =
    total (m.read (ip6h + 8) 16) + total (m.read (ip6h + 24) 16) + payloadLen m ip6h + 58 := by
  unfold pseudoHeader
  rw [total_append _ _ (by simp), total_append _ _ (by simp), total_append _ _ (by simp),
    total_append _ _ (by simp), total_read_two]
  show _ + (_ + (0 + (payloadLen m ip6h + 58))) = _
  omega

theorem total_icmp6Bytes (m : ByteMemory) (ip6h : Nat) : total (icmp6Bytes m ip6h) =
    total (pseudoHeader m ip6h) + total (m.read (ip6h + 40) (payloadLen m ip6h)) :=
  total_append _ _ (by simp [pseudoHeader])

/-- Exchanging the addresses does not change the sum over the pseudo-header. -/
theorem EchoAnswer.total_pseudoHeader {ip6h : Nat}
    (h : EchoAnswer m m' eth (ip6h + 8) 16 (ip6h + 40) reply) (heth : eth + 14 ≤ ip6h) :
    payloadLen m' ip6h = payloadLen m ip6h ∧
    total (pseudoHeader m' ip6h) = total (pseudoHeader m ip6h) := by
  have hlen : payloadLen m' ip6h = payloadLen m ip6h := by
    unfold payloadLen
    rw [← total_read_two, ← total_read_two, h.read (by omega) (by omega) (by omega)]
  refine ⟨hlen, ?_⟩
  have hsaddr : m'.read (ip6h + 8) 16 = m.read (ip6h + 24) 16 := h.saddr
  have hdaddr : m'.read (ip6h + 24) 16 = m.read (ip6h + 8) 16 := h.daddr
  rw [AfXdpSwitch.total_pseudoHeader, AfXdpSwitch.total_pseudoHeader, hlen, hsaddr, hdaddr]
  omega

end AfXdpSwitch
