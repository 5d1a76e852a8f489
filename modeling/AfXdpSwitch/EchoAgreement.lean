import AfXdpSwitch.EchoReply
import AfXdpSwitch.XdpIcmpEcho

/-!
# The two echo servers

`process_packet` answers echo requests in user space, `xdp_icmp_echo_func` in the kernel.  They
exchange the addresses in a different order and update the checksum by different means, one with
16-bit and the other with 32-bit sums.  Where both answer they write the same bytes: what a reply
changes is the same for both, and a checksum below `0xFFFF` is determined modulo `65535`.

The kernel program answers more: IPv4, behind VLAN tags, and frames that end inside the ICMPv6
header.
-/

namespace AfXdpSwitch
open ByteMemory OnesComplement Packet03

variable {m m₁ m₂ : ByteMemory} {eth addrs n icmp : Nat} {reply : BitVec 8}

theorem eq_of_read_eq {a k : Nat} (h : m₁.read a k = m₂.read a k) {x : Nat} (hx : a ≤ x)
    (hx' : x < a + k) : m₁ x = m₂ x := by
  have hget := congrArg (fun bs : List (BitVec 8) => bs[x - a]?) h
  simp only [getElem?_read _ (show x - a < k by omega), Option.some.injEq] at hget
  rwa [Nat.add_sub_cancel' hx] at hget

/-- Two replies to a request differ in the checksum only. -/
theorem EchoAnswer.unique (h₁ : EchoAnswer m m₁ eth addrs n icmp reply)
    (h₂ : EchoAnswer m m₂ eth addrs n icmp reply)
    (hfield : m₁.load16 (icmp + 2) = m₂.load16 (icmp + 2)) : m₁ = m₂ := by
  funext a
  by_cases heth : a < eth ∨ eth + 12 ≤ a
  · by_cases haddrs : a < addrs ∨ addrs + 2 * n ≤ a
    · by_cases htype : a = icmp
      · rw [htype, h₁.type, h₂.type]
      by_cases hcsum : a < icmp + 2 ∨ icmp + 4 ≤ a
      · rw [h₁.others a heth haddrs htype hcsum, h₂.others a heth haddrs htype hcsum]
      · have hread : m₁.read (icmp + 2) 2 = m₂.read (icmp + 2) 2 := by
          rw [← bytes16_load16, ← bytes16_load16, hfield]
        exact eq_of_read_eq hread (by omega) (by omega)
    · by_cases hfst : a < addrs + n
      · exact eq_of_read_eq (h₁.saddr.trans h₂.saddr.symm) (by omega) hfst
      · exact eq_of_read_eq (h₁.daddr.trans h₂.daddr.symm) (by omega) (by omega)
  · by_cases hfst : a < eth + 6
    · exact eq_of_read_eq (h₁.hDest.trans h₂.hDest.symm) (by omega) hfst
    · exact eq_of_read_eq (h₁.hSource.trans h₂.hSource.symm) (by omega) (by omega)

/-- **Where both answer, they write the same bytes.** -/
theorem echoPatched_eq_echoReply {p : Nat} (htype : m (p + 54) = 128) :
    echoPatched m p (p + 14 + 8) 16 (p + 14 + 40) 129 = echoReply m p := by
  refine (echoAnswer_echoPatched (by omega) (by omega)).unique (echoAnswer_echoReply m p) ?_
  obtain ⟨hkernel, hkernelLe⟩ :
      (((echoPatched m p (p + 14 + 8) 16 (p + 14 + 40) 129).load16 (p + 56)).toNat + 129) % 65535 =
        ((m.load16 (p + 56)).toNat + (m (p + 54)).toNat) % 65535 ∧
      ((echoPatched m p (p + 14 + 8) 16 (p + 14 + 40) 129).load16 (p + 56)).toNat ≤ 65534 :=
    load16_echoPatched m p (p + 14 + 8) 16 (p + 14 + 40) 129 (by omega) (by omega)
  obtain ⟨huser, huserLe⟩ : ((csumReplace2 (m.load16 (p + 56)) 0x0080 0x0081).toNat + 129) % 65535 =
        ((m.load16 (p + 56)).toNat + 128) % 65535 ∧
      (csumReplace2 (m.load16 (p + 56)) 0x0080 0x0081).toNat ≤ 65534 :=
    csumReplace2_mod (m.load16 (p + 56)) 0x0080 0x0081 (.inl (by decide))
  rw [htype, show (128 : BitVec 8).toNat = 128 from rfl] at hkernel
  apply BitVec.eq_of_toNat_eq
  show ((echoPatched m p (p + 14 + 8) 16 (p + 14 + 40) 129).load16 (p + 56)).toNat =
    ((echoReply m p).load16 (p + 56)).toNat
  rw [load16_echoReply]
  omega

/-! ## Which packets each of them answers -/

/-- The packet that `process_packet` is given, as a context of the kernel program. -/
def packetCtx (m : ByteMemory) (addr : BitVec 64) (len : BitVec 32) : XdpMd :=
  ⟨m, addr.toNat, addr.toNat + len.toNat⟩

/-- The echo requests that only the kernel program answers. -/
def OnlyKernel (ctx : XdpMd) : Prop :=
  (∃ ip, IpEcho ctx ip) ∨
    ∃ ip, Ip6Echo ctx ip ∧ (ip ≠ ctx.data + 14 ∨ ctx.dataEnd < ctx.data + 62)

/-- The test of `process_packet` in the words of the other program. -/
theorem isEchoRequest_iff_ip6Echo (m : ByteMemory) (addr : BitVec 64) (len : BitVec 32) :
    isEchoRequest m addr.toNat len = true ↔
      Ip6Echo (packetCtx m addr len) (addr.toNat + 14) ∧ 62 ≤ len.toNat := by
  have hlen : ¬ len < echoHeaders ↔ 62 ≤ len.toNat := by
    rw [BitVec.lt_def, show echoHeaders.toNat = 62 from rfl]
    omega
  have htest : isEchoRequest m addr.toNat len = true ↔
      swap16 (m.load16 (addr.toNat + 12)) = ethPIpv6 ∧
      ¬ len < echoHeaders ∧ m (addr.toNat + 20) = 58 ∧ m (addr.toNat + 54) = 128 := by
    simp [isEchoRequest, ipprotoIcmpv6, icmpv6EchoRequest, and_assoc]
  rw [htest, hlen]
  constructor
  · rintro ⟨hproto, hlen, hnexthdr, htype⟩
    have hload : m.load16 (addr.toNat + 12) = swap16 ethPIpv6 := by
      rw [← hproto, swap16_swap16]
    have hlast : protoIsVlan (m.load16 (addr.toNat + 12)) = false := by
      rw [hload]
      decide
    have hroom : addr.toNat + 14 + 40 + 4 ≤ addr.toNat + len.toNat := by omega
    have hstack : TagStack m (addr.toNat + len.toNat) (addr.toNat + 12) 0 :=
      ⟨fun i hi => absurd hi (Nat.not_lt_zero i), hlast, by omega⟩
    exact ⟨⟨⟨0, Nat.zero_le _, hstack, hload, rfl⟩, hnexthdr, hroom, htype⟩, hlen⟩
  · rintro ⟨⟨⟨tags, -, -, hproto, hip⟩, hnexthdr, -, htype⟩, hlen⟩
    obtain rfl : tags = 0 := by
      have : addr.toNat + 14 = addr.toNat + 14 + 4 * tags := hip
      omega
    have hload : m.load16 (addr.toNat + 12) = swap16 ethPIpv6 := hproto
    exact ⟨by rw [hload, swap16_swap16], hlen, hnexthdr, htype⟩

/-- The kernel program on a packet that the other one answers. -/
theorem icmpEchoAction_of_isEchoRequest {addr : BitVec 64} {len : BitVec 32}
    (h : isEchoRequest m addr.toNat len = true) : icmpEchoAction (packetCtx m addr len) =
      .ok (xdpTx, packetCtx (echoReply m addr.toNat) addr len) := by
  obtain ⟨hecho, -⟩ := (isEchoRequest_iff_ip6Echo m addr len).mp h
  have hsame := echoPatched_eq_echoReply (show m (addr.toNat + 54) = 128 from hecho.type)
  rw [icmpEchoAction_ip6 hecho]
  unfold packetCtx
  rw [hsame]

/-- A packet that both leave alone. -/
theorem icmpEchoAction_of_not {addr : BitVec 64} {len : BitVec 32}
    (h : ¬ isEchoRequest m addr.toNat len = true) (hk : ¬ OnlyKernel (packetCtx m addr len)) :
    icmpEchoAction (packetCtx m addr len) = .ok (xdpPass, packetCtx m addr len) := by
  refine icmpEchoAction_pass (fun ip hip => hk (.inl ⟨ip, hip⟩)) fun ip hip => ?_
  by_cases hat : ip = addr.toNat + 14
  · subst hat
    refine hk (.inr ⟨_, hip, .inr ?_⟩)
    show addr.toNat + len.toNat < addr.toNat + 62
    have hlen : ¬ 62 ≤ len.toNat := fun hlen =>
      h ((isEchoRequest_iff_ip6Echo m addr len).mpr ⟨hip, hlen⟩)
    omega
  · exact hk (.inr ⟨ip, hip, .inl hat⟩)

/-- A packet that the kernel program alone answers. -/
theorem icmpEchoAction_onlyKernel {ctx : XdpMd} (h : OnlyKernel ctx) :
    ∃ ctx', icmpEchoAction ctx = .ok (xdpTx, ctx') ∧ ctx'.mem ≠ ctx.mem := by
  rcases h with ⟨ip, hip⟩ | ⟨ip, hip, -⟩
  · refine ⟨_, icmpEchoAction_ip hip, fun heq => ?_⟩
    have htype : ctx.mem (ip + ihlBytes ctx ip) = 0 := heq ▸ hip.answer.type
    rw [hip.type] at htype
    exact absurd htype (by decide)
  · refine ⟨_, icmpEchoAction_ip6 hip, fun heq => ?_⟩
    have htype : ctx.mem (ip + 40) = 129 := heq ▸ hip.answer.type
    rw [hip.type] at htype
    exact absurd htype (by decide)

theorem OnlyKernel.not_isEchoRequest {addr : BitVec 64} {len : BitVec 32}
    (h : OnlyKernel (packetCtx m addr len)) : ¬ isEchoRequest m addr.toNat len = true := by
  intro hecho
  obtain ⟨hip6, hlen⟩ := (isEchoRequest_iff_ip6Echo m addr len).mp hecho
  rcases h with ⟨ip, hip⟩ | ⟨ip, hip, hne | hshort⟩
  · exact hip.not_ip6 hip6
  · exact hne (hip6.carries.unique hip.carries).1
  · have : addr.toNat + len.toNat < addr.toNat + 62 := hshort
    omega

/-- `process_packet` on anything else. -/
theorem processPacket_of_not (env : Env) (i : Nat) {addr : BitVec 64} {len : BitVec 32} {w : World}
    (h : ¬ isEchoRequest w.buffer addr.toNat len = true) :
    processPacket env i addr len w = .ok (false, w) := by
  have hget : (get : Xsk World) w = .ok (w, w) := rfl
  unfold processPacket
  rw [Prog.bind_ok hget, Bool.eq_false_iff.mpr h]
  rfl

/-- **The two programs make the same of a packet**, byte for byte, exactly if it is not one of the
echo requests that only the kernel program answers. -/
theorem echo_programs_agree_iff {env : Env} (hq : env.Still) (i : Nat) (addr : BitVec 64)
    (len : BitVec 32) (w : World) {n : Nat} (htx : w.tx.ProdOk n 0) (stats : Nat → DataRec) :
    ∃ sent w' verdict s', processPacket env i addr len w = .ok (sent, w') ∧
      xdpIcmpEchoFunc ⟨packetCtx w.buffer addr len, stats⟩ = .ok (verdict, s') ∧
      (s'.ctx = packetCtx w'.buffer addr len ↔ ¬ OnlyKernel (packetCtx w.buffer addr len)) := by
  by_cases hecho : isEchoRequest w.buffer addr.toNat len = true
  · obtain ⟨w', hrun, hbuffer⟩ := processPacket_of_request hq i addr len htx hecho
    refine ⟨_, w', _, _, hrun,
      recorded_ok (icmpEchoAction_of_isEchoRequest hecho) (by decide), iff_of_true ?_ ?_⟩
    · rw [hbuffer]
    · exact fun hk => hk.not_isEchoRequest hecho
  · refine ⟨false, w, ?_⟩
    by_cases hk : OnlyKernel (packetCtx w.buffer addr len)
    · obtain ⟨ctx', haction, hne⟩ := icmpEchoAction_onlyKernel hk
      refine ⟨_, _, processPacket_of_not env i hecho, recorded_ok haction (by decide), ?_⟩
      exact iff_of_false (fun heq => hne (congrArg XdpMd.mem heq)) (not_not.mpr hk)
    · exact ⟨_, _, processPacket_of_not env i hecho,
        recorded_ok (icmpEchoAction_of_not hecho hk) (by decide), iff_of_true rfl hk⟩

/-- A request that both answer, and the same cut off behind its checksum. -/
theorem echo_programs_agree_request :
    (∃ sent w' verdict s', processPacket Env.quiet 0 0 62 (echoWorld 0 8 0x7FBD) = .ok (sent, w') ∧
      xdpIcmpEchoFunc ⟨packetCtx (echoFrame 0 8 0x7FBD) 0 62, fun _ => ⟨0, 0⟩⟩ = .ok (verdict, s') ∧
      s'.ctx = packetCtx w'.buffer 0 62) ∧
    ∃ sent w' verdict s', processPacket Env.quiet 0 0 58 (echoWorld 0 8 0x7FBD) = .ok (sent, w') ∧
      xdpIcmpEchoFunc ⟨packetCtx (echoFrame 0 8 0x7FBD) 0 58, fun _ => ⟨0, 0⟩⟩ = .ok (verdict, s') ∧
      ¬ s'.ctx = packetCtx w'.buffer 0 58 := by
  have htx : (echoWorld 0 8 0x7FBD).tx.ProdOk defaultNumDescs 0 := created_prodOk
  constructor
  · obtain ⟨sent, w', verdict, s', hrun, hxdp, hiff⟩ := echo_programs_agree_iff quiet_still 0 0 62
      (echoWorld 0 8 0x7FBD) htx fun _ => ⟨0, 0⟩
    exact ⟨sent, w', verdict, s', hrun, hxdp,
      hiff.mpr fun hk => hk.not_isEchoRequest (by decide)⟩
  · obtain ⟨sent, w', verdict, s', hrun, hxdp, hiff⟩ := echo_programs_agree_iff quiet_still 0 0 58
      (echoWorld 0 8 0x7FBD) htx fun _ => ⟨0, 0⟩
    have hstack : TagStack (echoFrame 0 8 0x7FBD) 58 12 0 :=
      ⟨fun i hi => absurd hi (Nat.not_lt_zero i), by decide, by decide⟩
    have hecho : Ip6Echo (packetCtx (echoFrame 0 8 0x7FBD) 0 58) 14 :=
      ⟨⟨0, by decide, hstack, by decide, rfl⟩, by decide, by decide, by decide⟩
    exact ⟨sent, w', verdict, s', hrun, hxdp,
      fun heq => hiff.mp heq (.inr ⟨14, hecho, .inr (by decide)⟩)⟩

end AfXdpSwitch
