import AfXdpSwitch.IcmpEcho
import AfXdpSwitch.OnePacket

/-!
# The echo reply of `process_packet`

Which packets are answered, what the answer changes, and what its checksum is worth.
`csum_replace2` takes the old type off the sum and puts the new one on it.  The sum over a
packet whose checksum verified is zero, and a checksum computed from scratch is the same number
modulo `65535`; that it is the same 16 bits follows because neither is ever `0xFFFF`.
-/

namespace AfXdpSwitch
open ByteMemory OnesComplement Prog

/-! ## Which packets are answered -/

/-- The header fields by which an echo request is recognised. -/
structure EchoRequest (pkt : List (BitVec 8)) : Prop where
  len : 62 ≤ pkt.length
  hProto : (pkt.drop 12).take 2 = [0x86, 0xDD]
  nexthdr : pkt[20]? = some 58
  type : pkt[54]? = some 128

variable {m : ByteMemory} {p : Nat}

theorem isEchoRequest_iff (len : BitVec 32) :
    isEchoRequest m p len = true ↔ EchoRequest (m.read p len.toNat) := by
  have hlen : ¬ len < echoHeaders ↔ 62 ≤ len.toNat := by
    rw [BitVec.lt_def, show echoHeaders.toNat = 62 from rfl]
    omega
  have hproto : swap16 (m.load16 (p + 12)) = ethPIpv6 ↔ m.read (p + 12) 2 = [0x86, 0xDD] := by
    constructor
    · intro h
      rw [← bytes16_load16, ← swap16_swap16 (m.load16 (p + 12)), h]
      rfl
    · intro h
      rw [load16_eq m (v := swap16 ethPIpv6) h, swap16_swap16]
  have htest : isEchoRequest m p len = true ↔ swap16 (m.load16 (p + 12)) = ethPIpv6 ∧
      ¬ len < echoHeaders ∧ m (p + 20) = 58 ∧ m (p + 54) = 128 := by
    simp [isEchoRequest, ipprotoIcmpv6, icmpv6EchoRequest, and_assoc]
  rw [htest, hlen, hproto]
  constructor
  · rintro ⟨hp, hl, hn, ht⟩
    refine ⟨by rwa [length_read], by rwa [take_drop_read _ (by omega)], ?_, ?_⟩
    · rw [getElem?_read _ (by omega), hn]
    · rw [getElem?_read _ (by omega), ht]
  · rintro ⟨hl, hp, hn, ht⟩
    rw [length_read] at hl
    rw [take_drop_read _ (by omega)] at hp
    rw [getElem?_read _ (by omega), Option.some.injEq] at hn ht
    exact ⟨hp, hl, hn, ht⟩

/-! ## What the answer changes -/

theorem csum16Add_eq (x y : BitVec 16) : csum16Add x y = add x y := rfl

/-- `csum_replace2`, on the natural numbers: `old` leaves the sum and `new` enters it.  If the new
word or the complement of the old one is nonzero, the result is not the second zero. -/
theorem csumReplace2_mod (sum old new : BitVec 16) (hne : new.toNat ≠ 0 ∨ old.toNat ≠ 65535) :
    ((csumReplace2 sum old new).toNat + new.toNat) % 65535 = (sum.toNat + old.toNat) % 65535 ∧
    (csumReplace2 sum old new).toNat ≤ 65534 := by
  have hsum := sum.isLt
  have hold := old.isLt
  have hinner : (add (~~~sum) (~~~old)).toNat % 65535 = ((~~~sum).toNat + (~~~old).toNat) % 65535 :=
    add_modEq _ _
  have houter : (add (add (~~~sum) (~~~old)) new).toNat % 65535 =
      ((add (~~~sum) (~~~old)).toNat + new.toNat) % 65535 := add_modEq _ _
  have hzero := toNat_add_eq_zero_iff (add (~~~sum) (~~~old)) new
  have hzero' := toNat_add_eq_zero_iff (~~~sum) (~~~old)
  have hlt := (add (add (~~~sum) (~~~old)) new).isLt
  unfold csumReplace2 csum16Sub
  simp only [csum16Add_eq]
  rw [BitVec.toNat_not]
  rw [BitVec.toNat_not, BitVec.toNat_not] at hinner hzero'
  omega

/-- The reply changes what an echo reply may change. -/
theorem echoAnswer_echoReply (m : ByteMemory) (p : Nat) :
    EchoAnswer m (echoReply m p) p (p + 14 + 8) 16 (p + 14 + 40) 129 := by
  have hmacs := swapBytes_exchanged m (a := p) (b := p + 6) (n := 6) (by omega)
  have haddrs := swapBytes_exchanged (swapBytes m p (p + 6) 6) (a := p + 22) (b := p + 38) (n := 16)
    (by omega)
  obtain ⟨hmac, haddr⟩ := hmacs.two haddrs (by omega) (by omega) (by omega) (by omega)
  refine .of_read hmac haddr (fun a ha ha' _ => ?_) (by omega) (by omega) 129 _
  rw [haddrs.others a (by omega) (by omega), hmacs.others a (by omega) (by omega)]

/-- The checksum field of the reply. -/
theorem load16_echoReply (m : ByteMemory) (p : Nat) :
    (echoReply m p).load16 (p + 56) = csumReplace2 (m.load16 (p + 56)) 0x0080 0x0081 := by
  have hmacs := swapBytes_exchanged m (a := p) (b := p + 6) (n := 6) (by omega)
  have haddrs := swapBytes_exchanged (swapBytes m p (p + 6) 6) (a := p + 22) (b := p + 38) (n := 16)
    (by omega)
  have hfield : (((swapBytes (swapBytes m p (p + 6) 6) (p + 22) (p + 38) 16).write (p + 54)
      [icmpv6EchoReply]).load16 (p + 56)) = m.load16 (p + 56) := by
    apply load16_eq
    rw [bytes16_load16, read_write_of_disjoint _ (by simp), haddrs.read (by omega) (by omega),
      hmacs.read (by omega) (by omega)]
  unfold echoReply
  simp only [load16_store16_self, hfield]
  rfl

/-- The reply depends on the packet's own bytes only. -/
theorem echoReply_congr {m m₂ : ByteMemory} {p n : Nat} (hn : 58 ≤ n)
    (h : m₂.read p n = m.read p n) : (echoReply m₂ p).read p n = (echoReply m p).read p n := by
  have hmacs : (swapBytes m₂ p (p + 6) 6).read p n = (swapBytes m p (p + 6) 6).read p n :=
    read_swapBytes_congr h (i := 0) (j := 6) (by omega) (by omega)
  have haddrs := read_swapBytes_congr hmacs (i := 22) (j := 38) (k := 16) (by omega) (by omega)
  have htype := read_write_congr haddrs (p + 54) [icmpv6EchoReply]
  have hfield := read_of_read_eq htype (i := 56) (k := 2) (by omega)
  unfold echoReply
  rw [← bytes16_load16, ← bytes16_load16] at hfield
  simp only [bytes16_injective hfield]
  exact read_write_congr htype _ _

/-! ## The checksum of the reply -/

/-- The received ICMPv6 checksum verified: all the bytes it is taken over are in the packet, and
with the pseudo-header they sum to all ones. -/
structure ChecksumVerified (m : ByteMemory) (p len : Nat) : Prop where
  within : 54 + payloadLen m (p + 14) ≤ len
  verifies : Verifies (icmp6Bytes m (p + 14))

/-- The checksum field of the packet at `p`, as its value is defined: in network order. -/
def checksumField (m : ByteMemory) (p : Nat) : BitVec 16 := swap16 (m.load16 (p + 56))

/-- The checksum of the packet at `p`, computed from scratch with a field of zero. -/
def recomputedChecksum (m : ByteMemory) (p : Nat) : BitVec 16 :=
  checksum (icmp6Bytes (m.store16 (p + 56) 0) (p + 14))

/-- A zero field takes itself out of the sum over the message. -/
theorem total_zeroField (m : ByteMemory) (p k : Nat) :
    total ((m.store16 (p + 56) 0).read (p + 54) (4 + k)) + (checksumField m p).toNat =
      total (m.read (p + 54) (4 + k)) := by
  have htype : (m.store16 (p + 56) 0) (p + 54) = m (p + 54) := write_of_not_mem _ (.inl (by omega))
  have hcode : (m.store16 (p + 56) 0) (p + 55) = m (p + 55) := write_of_not_mem _ (.inl (by omega))
  have hfield : (m.store16 (p + 56) 0).load16 (p + 56) = 0 := load16_store16_self 0
  have hrest : (m.store16 (p + 56) 0).read (p + 58) k = m.read (p + 58) k :=
    read_store16_of_disjoint (by omega)
  have hzero : (swap16 0).toNat = 0 := rfl
  unfold checksumField
  rw [total_read_field, total_read_field]
  simp only [Nat.add_assoc, Nat.reduceAdd, htype, hcode, hfield, hrest]
  omega

/-- What is summed for the reply: the pseudo-header is that of the request, and the field counts as
zero. -/
theorem total_zeroed {p k : Nat} (hk : payloadLen m (p + 14) = 4 + k) :
    total (icmp6Bytes ((echoReply m p).store16 (p + 56) 0) (p + 14)) =
      total (pseudoHeader m (p + 14)) +
        total (((echoReply m p).store16 (p + 56) 0).read (p + 14 + 40) (4 + k)) := by
  obtain ⟨hsame, hpseudo⟩ := (echoAnswer_echoReply m p).total_pseudoHeader (by omega)
  have hpseudo₀ : total (pseudoHeader ((echoReply m p).store16 (p + 56) 0) (p + 14)) =
      total (pseudoHeader (echoReply m p) (p + 14)) := by
    unfold pseudoHeader
    rw [read_store16_of_disjoint (by omega), read_store16_of_disjoint (by omega),
      read_store16_of_disjoint (by omega)]
  have hlen₀ : payloadLen ((echoReply m p).store16 (p + 56) 0) (p + 14) = 4 + k := by
    rw [← hk, ← hsame]
    unfold payloadLen
    rw [← total_read_two, ← total_read_two, read_store16_of_disjoint (by omega)]
  rw [total_icmp6Bytes, hlen₀, hpseudo₀, hpseudo]

/-- **The checksum of the reply.**  Both numbers are minus the sum over the rest of the reply,
modulo `65535`, and neither is `0xFFFF`. -/
theorem recomputed_of_verified {p : Nat} (hreq : m (p + 54) = 128)
    (hlen : 4 ≤ payloadLen m (p + 14)) (hv : Verifies (icmp6Bytes m (p + 14))) :
    checksumField (echoReply m p) p = recomputedChecksum (echoReply m p) p := by
  obtain ⟨k, hk⟩ : ∃ k, payloadLen m (p + 14) = 4 + k := ⟨_, (Nat.add_sub_cancel' hlen).symm⟩
  have hreceived := total_icmp6Bytes m (p + 14)
  rw [hk] at hreceived
  have hscratch := total_zeroed hk
  have hmessage : total ((echoReply m p).read (p + 54) (4 + k)) + 128 * 256 +
      (checksumField m p).toNat = total (m.read (p + 54) (4 + k)) + 129 * 256 +
      (checksumField (echoReply m p) p).toNat := by
    have hbytes : EchoAnswer m (echoReply m p) p (p + 22) 16 (p + 54) 129 :=
      echoAnswer_echoReply m p
    have htotal := hbytes.total_message (by omega) (by omega) k
    rw [hreq] at htotal
    exact htotal
  have hzero := total_zeroField (echoReply m p) p k
  have hpos := total_pseudoHeader m (p + 14)
  obtain ⟨-, hmod⟩ := (verifies_iff _).mp hv
  have hpatched := csumReplace2_mod (m.load16 (p + 56)) 0x0080 0x0081 (by decide)
  rw [← load16_echoReply] at hpatched
  obtain ⟨hfield, hfieldLe⟩ := swap16_patched hpatched.1 hpatched.2
  have h128 : (0x0080 : BitVec 16).toNat = 128 := rfl
  have h129 : (0x0081 : BitVec 16).toNat = 129 := rfl
  have hnonzero : total (icmp6Bytes ((echoReply m p).store16 (p + 56) 0) (p + 14)) ≠ 0 := by omega
  obtain ⟨hsumLe, hsum⟩ := toNat_checksum hnonzero
  apply BitVec.eq_of_toNat_eq
  unfold recomputedChecksum
  unfold checksumField at *
  simp only [Nat.add_assoc, Nat.reduceAdd] at *
  omega

/-! ## The call -/

/-- An echo request is rewritten, and sent if the TX ring has a free slot. -/
theorem processPacket_of_request {env : Env} (hq : env.Still) (i : Nat) (addr : BitVec 64)
    (len : BitVec 32) {w : World} {n : Nat} (htx : w.tx.ProdOk n 0)
    (hecho : isEchoRequest w.buffer addr.toNat len = true) :
    ∃ w', processPacket env i addr len w = .ok (decide (w.tx.shared.count < n), w') ∧
      w'.buffer = echoReply w.buffer addr.toNat := by
  have hget : (get : Xsk World) w = .ok (w, w) := rfl
  have hat : ∀ a : Access, a ≠ .sendto → ∀ s, env.at a s = .ok ((), s) := by
    intro a ha s
    show Except.ok ((), env.kernel a s) = _
    rw [hq a s ha]
  have hrewrite : (modify fun w : World =>
      { w with buffer := echoReply w.buffer addr.toNat } : Xsk PUnit) w =
      .ok ((), { w with buffer := echoReply w.buffer addr.toNat }) := rfl
  unfold processPacket
  rw [bind_ok hget]
  simp only [hecho, Bool.not_true, Bool.false_eq_true, if_false]
  rw [bind_ok hrewrite, bind_ok (hat _ (by simp) _)]
  by_cases hroom : w.tx.shared.count < n
  · obtain ⟨r, hreserve, -, -⟩ := htx.reserve_room (c := 1)
      (show 1 + 0 + w.tx.shared.count ≤ n by omega) 0
    rw [bind_ok (onTx_eq hreserve)]
    have hret : ¬ ((1 : BitVec 32).setWidth 64).setWidth 32 ≠ (1 : BitVec 32) := by decide
    have hstore : ∀ s : World, onTx (fun r => ((), r.store w.tx.cachedProd ⟨addr, len⟩)) s =
        .ok ((), { s with tx := s.tx.store w.tx.cachedProd ⟨addr, len⟩ }) := fun s => rfl
    rw [decide_eq_true hroom]
    simp only [if_neg hret]
    rw [bind_ok (hstore _), bind_ok (hat _ (by simp) _)]
    exact ⟨_, rfl, rfl⟩
  · rw [decide_eq_false hroom]
    obtain ⟨r, hreserve, -, -, -⟩ | ⟨r, -, hok, hsh⟩ := htx.reserve 1 0
    · rw [bind_ok (onTx_eq hreserve)]
      exact ⟨_, rfl, rfl⟩
    · -- a granted slot was free
      have hfull := hok.room
      rw [hsh] at hfull
      exact absurd hfull (by simp; omega)

/-- **The echo reply.**  Whatever the UMEM and the TX ring hold, a packet is answered exactly when
its first `len` bytes are an echo request and the ring has a free slot, and what becomes of it
depends on those bytes only.  A packet that is no echo request is left alone; an answer changes
what `EchoAnswer` lists, and its checksum is the recomputed one whenever the received checksum
verified over a message that holds the field. -/
theorem processPacket_answers {env : Env} (hq : env.Still) (i : Nat) (addr : BitVec 64)
    (len : BitVec 32) (w : World) {n : Nat} (htx : w.tx.ProdOk n 0) :
    ∃ sent w', processPacket env i addr len w = .ok (sent, w') ∧
      (sent = true ↔ EchoRequest (w.buffer.read addr.toNat len.toNat) ∧ w.tx.shared.count < n) ∧
      (∀ w₂ : World, w₂.tx = w.tx →
        w₂.buffer.read addr.toNat len.toNat = w.buffer.read addr.toNat len.toNat →
        ∃ w₂', processPacket env i addr len w₂ = .ok (sent, w₂') ∧
          w₂'.buffer.read addr.toNat len.toNat = w'.buffer.read addr.toNat len.toNat) ∧
      (¬ EchoRequest (w.buffer.read addr.toNat len.toNat) → w'.buffer = w.buffer) ∧
      (sent = true →
        EchoAnswer w.buffer w'.buffer addr.toNat (addr.toNat + 22) 16 (addr.toNat + 54) 129 ∧
        (ChecksumVerified w.buffer addr.toNat len.toNat → 4 ≤ payloadLen w.buffer (addr.toNat + 14) →
          checksumField w'.buffer addr.toNat = recomputedChecksum w'.buffer addr.toNat)) := by
  by_cases hreq : EchoRequest (w.buffer.read addr.toNat len.toNat)
  · have hecho := (isEchoRequest_iff len).mpr hreq
    obtain ⟨w', hrun, hbuf⟩ := processPacket_of_request hq i addr len htx hecho
    refine ⟨_, w', hrun, by simp [hreq], fun w₂ htx₂ hsame => ?_, fun hnot => absurd hreq hnot,
      fun _ => ?_⟩
    · -- the same bytes are the same request
      have hecho₂ := (isEchoRequest_iff (m := w₂.buffer) (p := addr.toNat) len).mpr (hsame ▸ hreq)
      obtain ⟨w₂', hrun₂, hbuf₂⟩ := processPacket_of_request hq i addr len (htx₂ ▸ htx) hecho₂
      refine ⟨w₂', by rw [hrun₂, htx₂], ?_⟩
      rw [hbuf, hbuf₂]
      have hlen := hreq.len
      rw [length_read] at hlen
      exact echoReply_congr (by omega) hsame
    · rw [hbuf]
      refine ⟨echoAnswer_echoReply _ _, fun hverified hlen => ?_⟩
      have htype := hreq.type
      have hlen' := hreq.len
      rw [length_read] at hlen'
      rw [getElem?_read _ (by omega), Option.some.injEq] at htype
      exact recomputed_of_verified htype hlen hverified.verifies
  · have hdrop : ∀ w₂ : World,
        w₂.buffer.read addr.toNat len.toNat = w.buffer.read addr.toNat len.toNat →
        processPacket env i addr len w₂ = .ok (false, w₂) := by
      intro w₂ hsame
      refine processPacket_drops env i (Bool.eq_false_iff.mpr fun hecho => hreq ?_)
      rw [← hsame]
      exact (isEchoRequest_iff len).mp hecho
    refine ⟨false, w, hdrop w rfl, by simp [hreq], fun w₂ _ hsame => ⟨w₂, hdrop w₂ hsame, hsame⟩,
      fun _ => rfl, fun hsent => by cases hsent⟩

/-- An echo request of 62 bytes at address 0: the first word of the source address, the payload
length and the checksum are given, all other fields that are summed are zero. -/
def echoFrame (source len csum : BitVec 16) : ByteMemory := fun a =>
  if a = 12 then 0x86 else if a = 13 then 0xDD else if a = 20 then 58 else if a = 54 then 128
  else if a = 18 then (len >>> 8).setWidth 8 else if a = 19 then len.setWidth 8
  else if a = 22 then (source >>> 8).setWidth 8 else if a = 23 then source.setWidth 8
  else if a = 56 then (csum >>> 8).setWidth 8 else if a = 57 then csum.setWidth 8 else 0

/-- The socket as it was created, with the echo request in its UMEM. -/
def echoWorld (source len csum : BitVec 16) : World := World.created (echoFrame source len csum)

theorem quiet_still : Env.quiet.Still := fun _ _ _ => rfl

/-- A request of eight bytes with a good checksum. -/
theorem processPacket_answers_request :
    (Env.quiet.Still ∧ (echoWorld 0 8 0x7FBD).tx.ProdOk defaultNumDescs 0 ∧
      ChecksumVerified (echoWorld 0 8 0x7FBD).buffer 0 62) ∧
    ∃ w', processPacket Env.quiet 0 0 62 (echoWorld 0 8 0x7FBD) = .ok (true, w') ∧
      checksumField w'.buffer 0 = recomputedChecksum w'.buffer 0 := by
  have htx : (echoWorld 0 8 0x7FBD).tx.ProdOk defaultNumDescs 0 := created_prodOk
  have hverified : ChecksumVerified (echoWorld 0 8 0x7FBD).buffer 0 62 := ⟨by decide, by decide⟩
  have hreq : EchoRequest ((echoWorld 0 8 0x7FBD).buffer.read 0 62) :=
    ⟨by decide, by decide, by decide, by decide⟩
  have hfree : (echoWorld 0 8 0x7FBD).tx.shared.count < defaultNumDescs := by decide
  obtain ⟨sent, w', hrun, hiff, -, -, hsent⟩ :=
    processPacket_answers quiet_still 0 0 62 (echoWorld 0 8 0x7FBD) htx
  obtain rfl : sent = true := hiff.mpr ⟨hreq, hfree⟩
  exact ⟨⟨quiet_still, htx, hverified⟩, w', hrun, (hsent rfl).2 hverified (by decide)⟩

/-- A request whose payload length is zero: the sum over the pseudo-header alone verifies, and the
field, which is not part of it, is patched all the same. -/
theorem processPacket_field_outside :
    (echoWorld 0xFFC5 0 0).tx.ProdOk defaultNumDescs 0 ∧
    EchoRequest ((echoWorld 0xFFC5 0 0).buffer.read 0 62) ∧
    ChecksumVerified (echoWorld 0xFFC5 0 0).buffer 0 62 ∧
    ∃ w', processPacket Env.quiet 0 0 62 (echoWorld 0xFFC5 0 0) = .ok (true, w') ∧
      checksumField w'.buffer 0 = 0xFEFF ∧ recomputedChecksum w'.buffer 0 = 0 := by
  have htx : (echoWorld 0xFFC5 0 0).tx.ProdOk defaultNumDescs 0 := created_prodOk
  have hecho : isEchoRequest (echoWorld 0xFFC5 0 0).buffer 0 62 = true := by decide
  obtain ⟨w', hrun, hbuf⟩ := processPacket_of_request quiet_still 0 0 62 htx hecho
  refine ⟨htx, (isEchoRequest_iff 62).mp hecho, ⟨by decide, by decide⟩, w', hrun, ?_⟩
  rw [hbuf]
  decide

end AfXdpSwitch
