import AfXdpSwitch.XskSocket

/-!
# `process_packet` of `switchtsn/af_xdp_david_new.c`

The packet is answered in place when it is an ICMPv6 echo request: MAC and IPv6
addresses are swapped, the ICMPv6 type becomes echo reply, the checksum is patched
for the changed word, and the frame goes on the TX ring.  Anything else is left to
the caller to drop, and so is an answer for which the TX ring has no room.

Header fields are byte offsets into the frame: an Ethernet header of 14 bytes, an
IPv6 header of 40 and an ICMPv6 header of 8.
-/

namespace AfXdpSwitch
open ByteMemory

/-- `ETH_P_IPV6`, in host byte order. -/
def ethPIpv6 : BitVec 16 := 0x86DD
/-- `IPPROTO_ICMPV6`. -/
def ipprotoIcmpv6 : BitVec 8 := 58
/-- `ICMPV6_ECHO_REQUEST`. -/
def icmpv6EchoRequest : BitVec 8 := 128
/-- `ICMPV6_ECHO_REPLY`. -/
def icmpv6EchoReply : BitVec 8 := 129

/-- `sizeof(*eth) + sizeof(*ipv6) + sizeof(*icmp)`. -/
def echoHeaders : BitVec 32 := 14 + 40 + 8

/-- `csum16_add`, with the carry added at the low end. -/
def csum16Add (csum addend : BitVec 16) : BitVec 16 :=
  let res := csum + addend
  res + if res < addend then 1 else 0

/-- `csum16_sub`: the complement is added. -/
def csum16Sub (csum addend : BitVec 16) : BitVec 16 := csum16Add csum (~~~addend)

/-- `csum_replace2`, for a field that holds the complement of the sum. -/
def csumReplace2 (sum old new : BitVec 16) : BitVec 16 :=
  ~~~csum16Add (csum16Sub (~~~sum) old) new

/-- The test at the head of `process_packet`, for the packet at `pkt`. -/
def isEchoRequest (m : ByteMemory) (pkt : Nat) (len : BitVec 32) : Bool :=
  !(swap16 (m.load16 (pkt + 12)) != ethPIpv6 || len < echoHeaders ||
    m (pkt + 20) != ipprotoIcmpv6 || m (pkt + 54) != icmpv6EchoRequest)

/-- Exchange two ranges of `n` bytes through a temporary, as three `memcpy`s do:
the range at `a` is saved, overwritten by the one at `b`, and stored there. -/
def swapBytes (m : ByteMemory) (a b n : Nat) : ByteMemory :=
  let tmp := m.read a n
  let m := m.write a (m.read b n)
  m.write b tmp

/-- The rewriting of an echo request into its reply. -/
def echoReply (m : ByteMemory) (pkt : Nat) : ByteMemory :=
  let m := swapBytes m pkt (pkt + 6) 6
  let m := swapBytes m (pkt + 22) (pkt + 38) 16
  let m := m.write (pkt + 54) [icmpv6EchoReply]
  m.store16 (pkt + 56) (csumReplace2 (m.load16 (pkt + 56))
    (swap16 (icmpv6EchoRequest.setWidth 16 <<< 8)) (swap16 (icmpv6EchoReply.setWidth 16 <<< 8)))

/-- `process_packet` for the `i`-th packet of a batch. -/
def processPacket (env : Env) (i : Nat) (addr : BitVec 64) (len : BitVec 32) : Xsk Bool := do
  let w ← get
  if !isEchoRequest w.buffer addr.toNat len then return false
  modify fun w : World => { w with buffer := echoReply w.buffer addr.toNat }
  env.at (.txReserve i)
  let (ret, txIdx) ← onTx (·.xskRingProdReserve 1 0)
  if ret.setWidth 32 ≠ (1 : BitVec 32) then return false
  onTx fun r => ((), r.store txIdx ⟨addr, len⟩)
  env.at (.txSubmit i)
  modify fun w : World =>
    { w with hist.submitted := w.hist.submitted ++ [w.tx.read w.tx.shared.producer] }
  onTx fun r => ((), r.xskRingProdSubmit 1)
  modify fun w : World => { w with
    outstandingTx := w.outstandingTx + 1
    stats.txBytes := w.stats.txBytes + len.setWidth 64
    stats.txPackets := w.stats.txPackets + 1 }
  return true

end AfXdpSwitch
