import AfXdpSwitch.EchoReply
import AfXdpSwitch.XdpIcmpEcho

/-!
# Two ways to patch a checksum

`csum_replace2` adds 16-bit words with an end-around carry; `icmp_checksum_diff` adds the 32-bit
words that hold them and folds the sum.  Both results are the same number modulo `65535`, and the
second is never `0xFFFF`: among the words summed is the complement of a header whose upper half is
zero.  The first is `0xFFFF` only if everything summed is zero, and the complement of the old word
is not.
-/

namespace AfXdpSwitch
open ByteMemory OnesComplement Packet03

/-- The one 32-bit word of a `struct icmphdr_common` whose `cksum` is zero: the type and the code
are its lower half. -/
def icmphdrWord (word : BitVec 16) : BitVec 32 := (0 : BitVec 16) ++ word

theorem toNat_icmphdrWord (word : BitVec 16) : (icmphdrWord word).toNat = word.toNat := by
  unfold icmphdrWord
  rw [BitVec.toNat_append, show (0 : BitVec 16).toNat = 0 from rfl, Nat.zero_shiftLeft, Nat.zero_or]

/-- The type of a request is in the low byte of its first word. -/
theorem word_ne_of_request {type code : BitVec 8} (h : type = 8 ∨ type = icmpv6EchoRequest) :
    code ++ type ≠ (0xFFFF : BitVec 16) := by
  intro hword
  have htype : (code ++ type).setWidth 8 = type := BitVec.setWidth_append_eq_right
  rw [hword] at htype
  rcases h with rfl | rfl
  · exact absurd htype (by decide)
  · exact absurd htype (by decide)

/-- **The two updates agree** on every checksum and every pair of words, unless the old word is
`0xFFFF`; in an echo request it is not. -/
theorem csumReplace2_eq_icmpChecksumDiff (sum old new : BitVec 16) :
    (old ≠ 0xFFFF → csumReplace2 sum old new =
      icmpChecksumDiff (~~~sum) (icmphdrWord new) (icmphdrWord old)) ∧
    ∀ type code : BitVec 8, type = 8 ∨ type = icmpv6EchoRequest → old = code ++ type →
      old ≠ 0xFFFF := by
  refine ⟨fun hold => ?_, fun type code htype hword => ?_⟩
  · have hne : old.toNat ≠ 65535 := fun h => hold (BitVec.eq_of_toNat_eq h)
    obtain ⟨hmod, hle⟩ := csumReplace2_mod sum old new (.inr hne)
    obtain ⟨hmod', hle'⟩ := icmpChecksumDiff_mod sum (icmphdrWord old) (icmphdrWord new)
      (by rw [toNat_icmphdrWord]; exact old.isLt)
    rw [toNat_icmphdrWord, toNat_icmphdrWord] at hmod'
    apply BitVec.eq_of_toNat_eq
    omega
  · rw [hword]
    exact word_ne_of_request htype

theorem csumReplace2_eq_icmpChecksumDiff_request :
    csumReplace2 0xF7FF 0x0008 0x0000 =
      icmpChecksumDiff (~~~0xF7FF) (icmphdrWord 0x0000) (icmphdrWord 0x0008) :=
  (csumReplace2_eq_icmpChecksumDiff 0xF7FF 0x0008 0x0000).1 (by decide)

/-- With the old word `0xFFFF` they may give the two representations of zero. -/
example : csumReplace2 0xFFFF 0xFFFF 0 = 0xFFFF ∧
    icmpChecksumDiff (~~~0xFFFF) (icmphdrWord 0) (icmphdrWord 0xFFFF) = 0 := by decide

end AfXdpSwitch
