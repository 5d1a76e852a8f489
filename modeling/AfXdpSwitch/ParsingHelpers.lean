import AfXdpSwitch.PacketAccess

/-!
# The header parsers of `common/parsing_helpers.h`

Each parser checks that its header fits between the cursor and `data_end`, advances the
cursor behind the header and hands the header back.  `parse_ethhdr_vlan` also skips up to
`VLAN_MAX_DEPTH` VLAN tags, and stops in the middle of a stack when the next tag is cut off.

What a parser does is given by one equation: on a cursor inside the packet it returns, leaves
the packet alone, and computes a closed expression of the packet's bytes.
-/

namespace AfXdpSwitch
open ByteMemory

/-- `VLAN_MAX_DEPTH`. -/
def vlanMaxDepth : Nat := 2
/-- `VLAN_VID_MASK`: the ID in a TCI. -/
def vlanVidMask : BitVec 16 := 0x0fff
/-- `ETH_P_IP`, in host byte order. -/
def ethPIp : BitVec 16 := 0x0800
/-- `IPPROTO_ICMP`. -/
def ipprotoIcmp : BitVec 8 := 1
/-- `IPPROTO_TCP`. -/
def ipprotoTcp : BitVec 8 := 6
/-- `IPPROTO_UDP`. -/
def ipprotoUdp : BitVec 8 := 17
/-- `ICMP_ECHO`. -/
def icmpEcho : BitVec 8 := 8
/-- `sizeof(struct ipv6hdr)`. -/
def sizeofIpv6hdr : Nat := 40
/-- `sizeof(struct iphdr)`, without options. -/
def sizeofIphdr : Nat := 20
/-- `sizeof(struct icmphdr)`, and of `struct icmp6hdr`. -/
def sizeofIcmphdr : Nat := 8
/-- `sizeof(struct icmphdr_common)`: type, code and checksum. -/
def sizeofIcmphdrCommon : Nat := 4
/-- `sizeof(struct udphdr)`. -/
def sizeofUdphdr : Nat := 8
/-- `sizeof(struct tcphdr)`, without options. -/
def sizeofTcphdr : Nat := 20

/-- `struct collect_vlans`. -/
abbrev CollectVlans := Vector (BitVec 16) vlanMaxDepth

/-- What a call leaves: its value, the cursor, and the header if it has set the caller's pointer. -/
structure Parsed where
  ret : Int
  nh : Nat
  hdr : Option Nat
  deriving DecidableEq

/-- `if (vlans)`: the ID of the tag at `vlh`, when the caller asks for it. -/
def collectVlan (i vlh : Nat) : Option CollectVlans → Bpf (Option CollectVlans)
  | none => pure none
  | some ids => do
      let tci ← load16 vlh
      return some (ids.setIfInBounds i (swap16 tci &&& vlanVidMask))

/-- The loop over the VLAN tags, for the rounds that are left. -/
def skipVlans (dataEnd : Nat) : Nat → Nat → Nat → BitVec 16 → Option CollectVlans →
    Bpf (Nat × BitVec 16 × Option CollectVlans)
  | 0, _, vlh, hProto, vlans => pure (vlh, hProto, vlans)
  | rounds + 1, i, vlh, hProto, vlans => do
      if !protoIsVlan hProto then return (vlh, hProto, vlans)
      if vlh + sizeofVlanHdr > dataEnd then return (vlh, hProto, vlans)
      let hProto ← load16 (vlh + 2)
      let vlans ← collectVlan i vlh vlans
      skipVlans dataEnd rounds (i + 1) (vlh + sizeofVlanHdr) hProto vlans

/-- `parse_ethhdr_vlan`; the result is the EtherType behind the tags, as it stands in the packet. -/
def parseEthhdrVlan (nh dataEnd : Nat) (vlans : Option CollectVlans) :
    Bpf (Parsed × Option CollectVlans) := do
  let eth := nh
  if nh + sizeofEthhdr > dataEnd then return (⟨-1, nh, none⟩, vlans)
  let hProto ← load16 (eth + 12)
  let (vlh, hProto, vlans) ← skipVlans dataEnd vlanMaxDepth 0 (nh + sizeofEthhdr) hProto vlans
  return (⟨hProto.toNat, vlh, some eth⟩, vlans)

/-- `parse_ethhdr`, which collects no IDs. -/
def parseEthhdr (nh dataEnd : Nat) : Bpf Parsed := do
  let (parsed, _) ← parseEthhdrVlan nh dataEnd none
  return parsed

/-- A header of `size` bytes, whose byte at `field` is returned. -/
def parseFixed (size field nh dataEnd : Nat) : Bpf Parsed := do
  if nh + size > dataEnd then return ⟨-1, nh, none⟩
  let v ← load8 (nh + field)
  return ⟨v.toNat, nh + size, some nh⟩

/-- `parse_ip6hdr`; the result is the next header. -/
def parseIp6hdr : Nat → Nat → Bpf Parsed := parseFixed sizeofIpv6hdr 6

/-- `ihl` is the low half of the first byte. -/
def parseIphdr (nh dataEnd : Nat) : Bpf Parsed := do
  let iph := nh
  if iph + sizeofIphdr > dataEnd then return ⟨-1, nh, none⟩
  let versionIhl ← load8 iph
  let hdrsize := (versionIhl &&& 0xF).toNat * 4
  if hdrsize < sizeofIphdr then return ⟨-1, nh, none⟩
  if nh + hdrsize > dataEnd then return ⟨-1, nh, none⟩
  let protocol ← load8 (iph + 9)
  return ⟨protocol.toNat, nh + hdrsize, some iph⟩

/-- `parse_icmp6hdr`; the result is the type. -/
def parseIcmp6hdr : Nat → Nat → Bpf Parsed := parseFixed sizeofIcmphdr 0

/-- `parse_icmphdr`, the same. -/
def parseIcmphdr : Nat → Nat → Bpf Parsed := parseFixed sizeofIcmphdr 0

/-- `parse_icmphdr_common`, which asks for the part that the two kinds of ICMP share. -/
def parseIcmphdrCommon : Nat → Nat → Bpf Parsed := parseFixed sizeofIcmphdrCommon 0

/-- The length is subtracted as a `size_t` and then becomes an `int`; the cursor has moved when
it turns out negative. -/
def parseUdphdr (nh dataEnd : Nat) : Bpf Parsed := do
  let h := nh
  if h + sizeofUdphdr > dataEnd then return ⟨-1, nh, none⟩
  let declared ← load16 (h + 4)
  let len : Int := (((swap16 declared).setWidth 64 - BitVec.ofNat 64 sizeofUdphdr).setWidth 32).toInt
  if len < 0 then return ⟨-1, h + sizeofUdphdr, some h⟩
  return ⟨len, h + sizeofUdphdr, some h⟩

/-- `doff` is the high half of the byte at 12. -/
def parseTcphdr (nh dataEnd : Nat) : Bpf Parsed := do
  let h := nh
  if h + sizeofTcphdr > dataEnd then return ⟨-1, nh, none⟩
  let doff ← load8 (h + 12)
  let len := (doff >>> 4).toNat * 4
  if len < sizeofTcphdr then return ⟨-1, nh, none⟩
  if nh + len > dataEnd then return ⟨-1, nh, none⟩
  return ⟨len, nh + len, some h⟩

/-! ## What the parsers compute

The loop over the tags is followed by where the EtherType it looks at stands: at `t`, with the
tag at `t + 2`. -/

section
variable (m : ByteMemory) (dataEnd : Nat)

/-- How many tags the loop skips in the rounds that are left. -/
def tagCount : Nat → Nat → Nat
  | 0, _ => 0
  | rounds + 1, t =>
      if protoIsVlan (m.load16 t) = true ∧ t + 6 ≤ dataEnd then tagCount rounds (t + 4) + 1 else 0

/-- The VLAN ID of the tag behind the EtherType at `t`. -/
def vlanId (t : Nat) : BitVec 16 := swap16 (m.load16 (t + 2)) &&& vlanVidMask

/-- The IDs of `n` tags, from index `i` on. -/
def collectIds : Nat → Nat → Nat → CollectVlans → CollectVlans
  | 0, _, _, ids => ids
  | n + 1, i, t, ids => collectIds n (i + 1) (t + 4) (ids.setIfInBounds i (vlanId m t))

end

section
variable (ctx : XdpMd) (nh : Nat)

/-- The tags that follow the Ethernet header at `nh`. -/
def ethTags : Nat := tagCount ctx.mem ctx.dataEnd vlanMaxDepth (nh + 12)

/-- What `parse_ethhdr` leaves. -/
def parsedEthhdr : Parsed :=
  if nh + 14 > ctx.dataEnd then ⟨-1, nh, none⟩
  else ⟨(ctx.mem.load16 (nh + 12 + 4 * ethTags ctx nh)).toNat, nh + 14 + 4 * ethTags ctx nh, some nh⟩

/-- What a parser of a header without options leaves. -/
def parsedFixed (size field : Nat) : Parsed :=
  if nh + size > ctx.dataEnd then ⟨-1, nh, none⟩
  else ⟨(ctx.mem (nh + field)).toNat, nh + size, some nh⟩

/-- `4 * ihl`, for the IPv4 header at `nh`. -/
def ihlBytes : Nat := (ctx.mem nh &&& 0xF).toNat * 4

/-- What `parse_iphdr` leaves. -/
def parsedIphdr : Parsed :=
  if 20 ≤ ihlBytes ctx nh ∧ nh + 20 ≤ ctx.dataEnd ∧ nh + ihlBytes ctx nh ≤ ctx.dataEnd then
    ⟨(ctx.mem (nh + 9)).toNat, nh + ihlBytes ctx nh, some nh⟩
  else ⟨-1, nh, none⟩

/-- The length that the UDP header at `nh` declares. -/
def udpLen : Nat := (swap16 (ctx.mem.load16 (nh + 4))).toNat

/-- What `parse_udphdr` leaves; a length below 8 moves the cursor and fails. -/
def parsedUdphdr : Parsed :=
  if nh + 8 > ctx.dataEnd then ⟨-1, nh, none⟩
  else if udpLen ctx nh < 8 then ⟨-1, nh + 8, some nh⟩
  else ⟨udpLen ctx nh - 8, nh + 8, some nh⟩

/-- `4 * doff`, for the TCP header at `nh`. -/
def doffBytes : Nat := (ctx.mem (nh + 12) >>> 4).toNat * 4

/-- What `parse_tcphdr` leaves. -/
def parsedTcphdr : Parsed :=
  if 20 ≤ doffBytes ctx nh ∧ nh + 20 ≤ ctx.dataEnd ∧ nh + doffBytes ctx nh ≤ ctx.dataEnd then
    ⟨doffBytes ctx nh, nh + doffBytes ctx nh, some nh⟩
  else ⟨-1, nh, none⟩

end

variable {ctx : XdpMd} {nh : Nat}

theorem tagCount_of_tag {rounds t : Nat} (hvlan : protoIsVlan (ctx.mem.load16 t) = true)
    (hroom : t + 6 ≤ ctx.dataEnd) : tagCount ctx.mem ctx.dataEnd (rounds + 1) t =
      tagCount ctx.mem ctx.dataEnd rounds (t + 4) + 1 := if_pos ⟨hvlan, hroom⟩

theorem tagCount_of_not {rounds t : Nat}
    (h : ¬ (protoIsVlan (ctx.mem.load16 t) = true ∧ t + 6 ≤ ctx.dataEnd)) :
    tagCount ctx.mem ctx.dataEnd (rounds + 1) t = 0 := if_neg h

theorem collectVlan_ok {t : Nat} (i : Nat) (vlans : Option CollectVlans)
    (h : ctx.Inside (t + 2) 2) : collectVlan i (t + 2) vlans ctx =
      .ok (vlans.map (·.setIfInBounds i (vlanId ctx.mem t)), ctx) := by
  cases vlans with
  | none => rfl
  | some ids =>
      rw [collectVlan, Prog.bind_ok (load16_ok h)]
      rfl

/-- **The loop over the tags.**  By induction on the rounds that are left; each tag it reads was
checked against the end of the packet. -/
theorem skipVlans_ok (rounds i t : Nat) (vlans : Option CollectVlans) (ht : ctx.data ≤ t) :
    skipVlans ctx.dataEnd rounds i (t + 2) (ctx.mem.load16 t) vlans ctx =
      .ok ((t + 2 + 4 * tagCount ctx.mem ctx.dataEnd rounds t,
        ctx.mem.load16 (t + 4 * tagCount ctx.mem ctx.dataEnd rounds t),
        vlans.map (collectIds ctx.mem (tagCount ctx.mem ctx.dataEnd rounds t) i t)), ctx) := by
  induction rounds generalizing i t vlans with
  | zero => cases vlans <;> rfl
  | succ rounds ih =>
      by_cases htag : protoIsVlan (ctx.mem.load16 t) = true ∧ t + 6 ≤ ctx.dataEnd
      · obtain ⟨hvlan, hroom⟩ := htag
        have hshort : ¬ t + 2 + sizeofVlanHdr > ctx.dataEnd := by
          simp only [sizeofVlanHdr]
          omega
        have hproto : load16 (t + 2 + 2) ctx = .ok (ctx.mem.load16 (t + 4), ctx) :=
          load16_ok ⟨by omega, by omega⟩
        rw [skipVlans]
        simp only [hvlan, Bool.not_true, Bool.false_eq_true, if_false, if_neg hshort]
        rw [Prog.bind_ok hproto, Prog.bind_ok (collectVlan_ok i vlans ⟨by omega, by omega⟩),
          show t + 2 + sizeofVlanHdr = t + 4 + 2 from rfl, ih _ _ _ (by omega),
          tagCount_of_tag hvlan hroom, Option.map_map]
        -- one tag more, seen from four bytes before
        rw [show t + 4 + 2 + 4 * tagCount ctx.mem ctx.dataEnd rounds (t + 4) =
            t + 2 + 4 * (tagCount ctx.mem ctx.dataEnd rounds (t + 4) + 1) by omega,
          show t + 4 + 4 * tagCount ctx.mem ctx.dataEnd rounds (t + 4) =
            t + 4 * (tagCount ctx.mem ctx.dataEnd rounds (t + 4) + 1) by omega]
        rfl
      · have hstop : skipVlans ctx.dataEnd (rounds + 1) i (t + 2) (ctx.mem.load16 t) vlans ctx =
            .ok ((t + 2, ctx.mem.load16 t, vlans), ctx) := by
          rw [skipVlans]
          by_cases hvlan : protoIsVlan (ctx.mem.load16 t) = true
          · have hshort : t + 2 + sizeofVlanHdr > ctx.dataEnd := by
              have hcut : ¬ t + 6 ≤ ctx.dataEnd := fun hroom => htag ⟨hvlan, hroom⟩
              simp only [sizeofVlanHdr]
              omega
            simp only [hvlan, Bool.not_true, Bool.false_eq_true, if_false, if_pos hshort]
            rfl
          · simp only [hvlan, Bool.not_false, if_true]
            rfl
        rw [hstop, tagCount_of_not htag]
        cases vlans <;> rfl

theorem parseEthhdrVlan_ok (vlans : Option CollectVlans) (h : ctx.data ≤ nh) :
    parseEthhdrVlan nh ctx.dataEnd vlans ctx = .ok ((parsedEthhdr ctx nh,
      if nh + 14 > ctx.dataEnd then vlans
      else vlans.map (collectIds ctx.mem (ethTags ctx nh) 0 (nh + 12))), ctx) := by
  unfold parseEthhdrVlan parsedEthhdr
  by_cases hshort : nh + 14 > ctx.dataEnd
  · simp only [if_pos hshort, if_pos (show nh + sizeofEthhdr > ctx.dataEnd from hshort)]
    rfl
  · simp only [if_neg hshort, if_neg (show ¬ nh + sizeofEthhdr > ctx.dataEnd from hshort)]
    rw [Prog.bind_ok (load16_ok ⟨by omega, by omega⟩)]
    exact Prog.bind_ok (skipVlans_ok vlanMaxDepth 0 (nh + 12) vlans (by omega))

theorem parseEthhdr_ok (h : ctx.data ≤ nh) :
    parseEthhdr nh ctx.dataEnd ctx = .ok (parsedEthhdr ctx nh, ctx) := by
  unfold parseEthhdr
  rw [Prog.bind_ok (parseEthhdrVlan_ok none h)]
  rfl

theorem parseFixed_ok {size field : Nat} (hfield : field < size) (h : ctx.data ≤ nh) :
    parseFixed size field nh ctx.dataEnd ctx = .ok (parsedFixed ctx nh size field, ctx) := by
  unfold parseFixed parsedFixed
  by_cases hshort : nh + size > ctx.dataEnd
  · simp only [if_pos hshort]
    rfl
  · simp only [if_neg hshort]
    rw [Prog.bind_ok (load8_ok ⟨by omega, by omega⟩)]
    rfl

theorem parseIphdr_ok (h : ctx.data ≤ nh) :
    parseIphdr nh ctx.dataEnd ctx = .ok (parsedIphdr ctx nh, ctx) := by
  have hlen : (ctx.mem nh &&& 0xF).toNat * 4 = ihlBytes ctx nh := rfl
  unfold parseIphdr parsedIphdr
  by_cases hshort : nh + 20 > ctx.dataEnd
  · rw [if_pos (show nh + sizeofIphdr > ctx.dataEnd from hshort), if_neg (by omega)]
    rfl
  · rw [if_neg (show ¬ nh + sizeofIphdr > ctx.dataEnd from hshort),
      Prog.bind_ok (load8_ok ⟨by omega, by omega⟩), hlen]
    by_cases hsane : ihlBytes ctx nh < 20
    · rw [if_pos (show ihlBytes ctx nh < sizeofIphdr from hsane), if_neg (by omega)]
      rfl
    · rw [if_neg (show ¬ ihlBytes ctx nh < sizeofIphdr from hsane)]
      by_cases hopt : nh + ihlBytes ctx nh > ctx.dataEnd
      · rw [if_pos hopt, if_neg (by omega)]
        rfl
      · rw [if_neg hopt, Prog.bind_ok (load8_ok ⟨by omega, by omega⟩),
          if_pos ⟨by omega, by omega, by omega⟩]
        rfl

theorem parseTcphdr_ok (h : ctx.data ≤ nh) :
    parseTcphdr nh ctx.dataEnd ctx = .ok (parsedTcphdr ctx nh, ctx) := by
  have hlen : (ctx.mem (nh + 12) >>> 4).toNat * 4 = doffBytes ctx nh := rfl
  unfold parseTcphdr parsedTcphdr
  by_cases hshort : nh + 20 > ctx.dataEnd
  · rw [if_pos (show nh + sizeofTcphdr > ctx.dataEnd from hshort), if_neg (by omega)]
    rfl
  · rw [if_neg (show ¬ nh + sizeofTcphdr > ctx.dataEnd from hshort),
      Prog.bind_ok (load8_ok ⟨by omega, by omega⟩), hlen]
    by_cases hsane : doffBytes ctx nh < 20
    · rw [if_pos (show doffBytes ctx nh < sizeofTcphdr from hsane), if_neg (by omega)]
      rfl
    · rw [if_neg (show ¬ doffBytes ctx nh < sizeofTcphdr from hsane)]
      by_cases hopt : nh + doffBytes ctx nh > ctx.dataEnd
      · rw [if_pos hopt, if_neg (by omega)]
        rfl
      · rw [if_neg hopt, if_pos ⟨by omega, by omega, by omega⟩]
        rfl

/-- The subtraction of the UDP header's size, through `size_t` and back to `int`. -/
theorem udpLen_sub (v : BitVec 16) :
    ((v.setWidth 64 - BitVec.ofNat 64 sizeofUdphdr).setWidth 32).toInt = (v.toNat : Int) - 8 := by
  have hv := v.isLt
  rw [BitVec.toInt_setWidth, BitVec.toNat_sub, BitVec.toNat_setWidth, BitVec.toNat_ofNat]
  simp only [Int.bmod_def, sizeofUdphdr]
  omega

theorem parseUdphdr_ok (h : ctx.data ≤ nh) :
    parseUdphdr nh ctx.dataEnd ctx = .ok (parsedUdphdr ctx nh, ctx) := by
  unfold parseUdphdr parsedUdphdr
  by_cases hshort : nh + 8 > ctx.dataEnd
  · simp only [if_pos hshort, if_pos (show nh + sizeofUdphdr > ctx.dataEnd from hshort)]
    rfl
  · simp only [if_neg hshort, if_neg (show ¬ nh + sizeofUdphdr > ctx.dataEnd from hshort)]
    rw [Prog.bind_ok (load16_ok ⟨by omega, by omega⟩)]
    have hdeclared : udpLen ctx nh = (swap16 (ctx.mem.load16 (nh + 4))).toNat := rfl
    simp only [udpLen_sub]
    by_cases hlen : udpLen ctx nh < 8
    · rw [if_pos hlen, if_pos (by omega)]
      rfl
    · rw [if_neg hlen, if_neg (by omega)]
      rfl

/-- When a parser returns a given type. -/
theorem parsedFixed_ret_iff {size field : Nat} {v : BitVec 8} :
    (parsedFixed ctx nh size field).ret = v.toNat ↔
      nh + size ≤ ctx.dataEnd ∧ ctx.mem (nh + field) = v := by
  unfold parsedFixed
  split
  · simp only
    omega
  · rw [Int.ofNat_inj, BitVec.toNat_inj]
    exact ⟨fun h => ⟨by omega, h⟩, fun h => h.2⟩

theorem parsedIphdr_ret_iff {v : BitVec 8} : (parsedIphdr ctx nh).ret = v.toNat ↔
    20 ≤ ihlBytes ctx nh ∧ nh + 20 ≤ ctx.dataEnd ∧ nh + ihlBytes ctx nh ≤ ctx.dataEnd ∧
      ctx.mem (nh + 9) = v := by
  unfold parsedIphdr
  split
  · rename_i h
    rw [Int.ofNat_inj, BitVec.toNat_inj]
    exact ⟨fun hv => ⟨h.1, h.2.1, h.2.2, hv⟩, fun hv => hv.2.2.2⟩
  · simp only
    omega

/-! ## Stacks of tags -/

section
variable {m : ByteMemory} {dataEnd t n rounds : Nat}

/-- `n` whole tags, one behind the other, and then an EtherType at `t + 4 * n` that is no tag's. -/
structure TagStack (m : ByteMemory) (dataEnd t n : Nat) : Prop where
  tags : ∀ i, i < n → protoIsVlan (m.load16 (t + 4 * i)) = true
  last : protoIsVlan (m.load16 (t + 4 * n)) = false
  room : t + 4 * n + 2 ≤ dataEnd

/-- The tags behind the first. -/
theorem TagStack.tail (h : TagStack m dataEnd t (n + 1)) :
    TagStack m dataEnd (t + 4) n where
  tags i hi := by
    have := h.tags (i + 1) (by omega)
    rwa [show t + 4 * (i + 1) = t + 4 + 4 * i by omega] at this
  last := by
    have := h.last
    rwa [show t + 4 * (n + 1) = t + 4 + 4 * n by omega] at this
  room := by
    have := h.room
    omega

/-- One tag more on top. -/
theorem TagStack.cons (h : TagStack m dataEnd (t + 4) n) (hfirst : protoIsVlan (m.load16 t) = true) :
    TagStack m dataEnd t (n + 1) where
  tags i hi := by
    cases i with
    | zero => exact hfirst
    | succ i =>
        rw [show t + 4 * (i + 1) = t + 4 + 4 * i by omega]
        exact h.tags i (by omega)
  last := by
    rw [show t + 4 * (n + 1) = t + 4 + 4 * n by omega]
    exact h.last
  room := by
    have := h.room
    omega

/-- The loop skips a stack that is not deeper than its rounds. -/
theorem tagCount_eq_of_stack (h : TagStack m dataEnd t n) (hn : n ≤ rounds) :
    tagCount m dataEnd rounds t = n := by
  induction rounds generalizing t n with
  | zero =>
      rw [tagCount]
      omega
  | succ rounds ih =>
      rw [tagCount]
      cases n with
      | zero =>
          have hlast : protoIsVlan (m.load16 t) = false := h.last
          simp [hlast]
      | succ n =>
          have hfirst : protoIsVlan (m.load16 t) = true := h.tags 0 (by omega)
          have hroom := h.room
          rw [if_pos ⟨hfirst, by omega⟩, ih h.tail (by omega)]

/-- Where the loop stops at another type than a tag's it has skipped the stack. -/
theorem tagStack_of_tagCount (hroom : t + 2 ≤ dataEnd)
    (hlast : protoIsVlan (m.load16 (t + 4 * tagCount m dataEnd rounds t)) = false) :
    TagStack m dataEnd t (tagCount m dataEnd rounds t) ∧ tagCount m dataEnd rounds t ≤ rounds := by
  induction rounds generalizing t with
  | zero => exact ⟨⟨fun i hi => absurd hi (Nat.not_lt_zero i), hlast, hroom⟩, Nat.le_refl 0⟩
  | succ rounds ih =>
      by_cases htag : protoIsVlan (m.load16 t) = true ∧ t + 6 ≤ dataEnd
      · have hcount : tagCount m dataEnd (rounds + 1) t = tagCount m dataEnd rounds (t + 4) + 1 :=
          if_pos htag
        rw [hcount, show t + 4 * (tagCount m dataEnd rounds (t + 4) + 1) =
          t + 4 + 4 * tagCount m dataEnd rounds (t + 4) by omega] at hlast
        obtain ⟨hstack, hle⟩ := ih (by omega) hlast
        rw [hcount]
        exact ⟨hstack.cons htag.1, by omega⟩
      · have hcount : tagCount m dataEnd (rounds + 1) t = 0 := if_neg htag
        rw [hcount] at hlast ⊢
        exact ⟨⟨fun i hi => absurd hi (Nat.not_lt_zero i), hlast, hroom⟩, Nat.zero_le _⟩

end

/-- Behind at most `VLAN_MAX_DEPTH` tags the frame carries a packet of `proto`, which begins
at `ip`. -/
def Carries (ctx : XdpMd) (proto : BitVec 16) (ip : Nat) : Prop :=
  ∃ n, n ≤ vlanMaxDepth ∧ TagStack ctx.mem ctx.dataEnd (ctx.data + 12) n ∧
    ctx.mem.load16 (ctx.data + 12 + 4 * n) = swap16 proto ∧ ip = ctx.data + 14 + 4 * n

theorem parsedEthhdr_of_carries {proto : BitVec 16} {ip : Nat} (h : Carries ctx proto ip) :
    parsedEthhdr ctx ctx.data = ⟨(swap16 proto).toNat, ip, some ctx.data⟩ := by
  obtain ⟨n, hn, hstack, hproto, rfl⟩ := h
  have hroom := hstack.room
  have htags : ethTags ctx ctx.data = n := tagCount_eq_of_stack hstack hn
  rw [parsedEthhdr, if_neg (by omega), htags, hproto]

theorem carries_of_parsedEthhdr {proto : BitVec 16} (hvlan : protoIsVlan (swap16 proto) = false)
    (h : (parsedEthhdr ctx ctx.data).ret = (swap16 proto).toNat) : ∃ ip, Carries ctx proto ip := by
  unfold parsedEthhdr at h
  split at h
  · simp only at h
    omega
  · have hproto : ctx.mem.load16 (ctx.data + 12 + 4 * ethTags ctx ctx.data) = swap16 proto := by
      apply BitVec.eq_of_toNat_eq
      exact Int.ofNat_inj.mp h
    obtain ⟨hstack, hle⟩ := tagStack_of_tagCount (m := ctx.mem) (t := ctx.data + 12)
      (show ctx.data + 12 + 2 ≤ ctx.dataEnd by omega) (show protoIsVlan
        (ctx.mem.load16 (ctx.data + 12 + 4 * ethTags ctx ctx.data)) = false by rw [hproto, hvlan])
    exact ⟨_, _, hle, hstack, hproto, rfl⟩

/-! ## Sequences of calls on one cursor -/

/-- The nine parsers. -/
inductive ParseCall where
  | ethhdrVlan (vlans : Option CollectVlans)
  | ethhdr
  | ip6hdr
  | iphdr
  | icmp6hdr
  | icmphdr
  | icmphdrCommon
  | udphdr
  | tcphdr

namespace ParseCall

/-- The call, at a cursor and with the end of the packet. -/
def run : ParseCall → Nat → Nat → Bpf Parsed
  | ethhdrVlan vlans, nh, dataEnd => do
      let (parsed, _) ← parseEthhdrVlan nh dataEnd vlans
      return parsed
  | ethhdr, nh, dataEnd => parseEthhdr nh dataEnd
  | ip6hdr, nh, dataEnd => parseIp6hdr nh dataEnd
  | iphdr, nh, dataEnd => parseIphdr nh dataEnd
  | icmp6hdr, nh, dataEnd => parseIcmp6hdr nh dataEnd
  | icmphdr, nh, dataEnd => parseIcmphdr nh dataEnd
  | icmphdrCommon, nh, dataEnd => parseIcmphdrCommon nh dataEnd
  | udphdr, nh, dataEnd => parseUdphdr nh dataEnd
  | tcphdr, nh, dataEnd => parseTcphdr nh dataEnd

/-- The size of the structure the header is declared as. -/
def sizeofHdr : ParseCall → Nat
  | ethhdrVlan _ | ethhdr => sizeofEthhdr
  | ip6hdr => sizeofIpv6hdr
  | iphdr => sizeofIphdr
  | icmp6hdr | icmphdr => sizeofIcmphdr
  | icmphdrCommon => sizeofIcmphdrCommon
  | udphdr => sizeofUdphdr
  | tcphdr => sizeofTcphdr

/-- The bytes of the header at `h`, with the options an IPv4 or a TCP header declares. -/
def size (ctx : XdpMd) (h : Nat) : ParseCall → Nat
  | iphdr => ihlBytes ctx h
  | tcphdr => doffBytes ctx h
  | call => call.sizeofHdr

end ParseCall

/-- The calls one after the other, each from where the one before has left the cursor. -/
def runCalls (dataEnd : Nat) : List ParseCall → Nat → Bpf (List Parsed)
  | [], _ => pure []
  | call :: calls, nh => do
      let parsed ← call.run nh dataEnd
      let rest ← runCalls dataEnd calls parsed.nh
      return parsed :: rest

/-- The header that a successful call hands back lies in the packet, and the cursor behind it. -/
structure HandsBack (ctx : XdpMd) (call : ParseCall) (r : Parsed) (h : Nat) : Prop where
  hdr : r.hdr = some h
  inside : ctx.Inside h (call.size ctx h)
  whole : call.sizeofHdr ≤ call.size ctx h
  behind : h + call.size ctx h ≤ r.nh
  udp : call = .udphdr → r.ret = (udpLen ctx h : Int) - 8 ∧ 8 ≤ udpLen ctx h

/-- What one call does to a cursor at `nh`. -/
structure CallOk (ctx : XdpMd) (call : ParseCall) (nh : Nat) (r : Parsed) : Prop where
  advances : nh ≤ r.nh
  within : r.nh ≤ ctx.dataEnd
  handsBack : 0 ≤ r.ret → HandsBack ctx call r nh

theorem tagCount_within {m : ByteMemory} {dataEnd : Nat} (rounds : Nat) {t : Nat}
    (h : t + 2 ≤ dataEnd) : t + 2 + 4 * tagCount m dataEnd rounds t ≤ dataEnd := by
  induction rounds generalizing t with
  | zero => exact h
  | succ rounds ih =>
      rw [tagCount]
      split
      · have := ih (t := t + 4) (by omega)
        omega
      · exact h

theorem CallOk.failed {call : ParseCall} {r : Parsed} (hret : r.ret = -1) (h : nh ≤ r.nh)
    (h' : r.nh ≤ ctx.dataEnd) : CallOk ctx call nh r :=
  ⟨h, h', fun hpos => absurd hpos (by omega)⟩

theorem callOk_parsedEthhdr {call : ParseCall} (h : ctx.data ≤ nh) (h' : nh ≤ ctx.dataEnd)
    (hsize : call.sizeofHdr = 14) (hsize' : call.size ctx nh = 14) (hudp : call ≠ .udphdr) :
    CallOk ctx call nh (parsedEthhdr ctx nh) := by
  unfold parsedEthhdr
  split
  · exact .failed rfl (Nat.le_refl _) h'
  · have hwithin : nh + 12 + 2 + 4 * ethTags ctx nh ≤ ctx.dataEnd :=
      tagCount_within vlanMaxDepth (by omega)
    refine ⟨by simp only; omega, hwithin, fun _ => ?_⟩
    refine ⟨rfl, ⟨h, by omega⟩, by omega, ?_, fun hcall => absurd hcall hudp⟩
    rw [hsize']
    exact Nat.le_add_right _ _

theorem callOk_parsedFixed {call : ParseCall} {n field : Nat} (h : ctx.data ≤ nh)
    (h' : nh ≤ ctx.dataEnd) (hsize : call.sizeofHdr = n) (hsize' : call.size ctx nh = n)
    (hudp : call ≠ .udphdr) : CallOk ctx call nh (parsedFixed ctx nh n field) := by
  unfold parsedFixed
  split
  · exact .failed rfl (Nat.le_refl _) h'
  · refine ⟨Nat.le_add_right _ _, by simp only; omega, fun _ => ?_⟩
    exact ⟨rfl, ⟨h, by omega⟩, by omega, by simp only; omega, fun hcall => absurd hcall hudp⟩

theorem callOk_parsedIphdr (h : ctx.data ≤ nh) (h' : nh ≤ ctx.dataEnd) :
    CallOk ctx .iphdr nh (parsedIphdr ctx nh) := by
  unfold parsedIphdr
  split
  · obtain ⟨hsane, -, hend⟩ := ‹_›
    exact ⟨Nat.le_add_right _ _, hend, fun _ =>
      ⟨rfl, ⟨h, hend⟩, hsane, Nat.le_refl _, fun hcall => by cases hcall⟩⟩
  · exact .failed rfl (Nat.le_refl _) h'

theorem callOk_parsedTcphdr (h : ctx.data ≤ nh) (h' : nh ≤ ctx.dataEnd) :
    CallOk ctx .tcphdr nh (parsedTcphdr ctx nh) := by
  unfold parsedTcphdr
  split
  · obtain ⟨hsane, -, hend⟩ := ‹_›
    exact ⟨Nat.le_add_right _ _, hend, fun _ =>
      ⟨rfl, ⟨h, hend⟩, hsane, Nat.le_refl _, fun hcall => by cases hcall⟩⟩
  · exact .failed rfl (Nat.le_refl _) h'

/-- A UDP header with a length below its own size fails, but has moved the cursor. -/
theorem callOk_parsedUdphdr (h : ctx.data ≤ nh) (h' : nh ≤ ctx.dataEnd) :
    CallOk ctx .udphdr nh (parsedUdphdr ctx nh) := by
  unfold parsedUdphdr
  by_cases hshort : nh + 8 > ctx.dataEnd
  · rw [if_pos hshort]
    exact .failed rfl (Nat.le_refl _) h'
  · rw [if_neg hshort]
    have hend : nh + 8 ≤ ctx.dataEnd := by omega
    by_cases hlen : udpLen ctx nh < 8
    · rw [if_pos hlen]
      exact .failed rfl (Nat.le_add_right _ _) hend
    · rw [if_neg hlen]
      exact ⟨Nat.le_add_right _ _, hend, fun _ =>
        ⟨rfl, ⟨h, hend⟩, Nat.le_refl _, Nat.le_refl _, fun _ => ⟨rfl, by omega⟩⟩⟩

/-- **One call.**  On a cursor in the packet every parser returns: all it has read lies in the
packet, and so does the cursor it leaves. -/
theorem ParseCall.run_ok (call : ParseCall) (h : ctx.data ≤ nh) (h' : nh ≤ ctx.dataEnd) :
    ∃ r, call.run nh ctx.dataEnd ctx = .ok (r, ctx) ∧ CallOk ctx call nh r := by
  cases call with
  | ethhdrVlan vlans =>
      refine ⟨_, ?_, callOk_parsedEthhdr h h' rfl rfl (by simp)⟩
      rw [run, Prog.bind_ok (parseEthhdrVlan_ok vlans h)]
      rfl
  | ethhdr => exact ⟨_, parseEthhdr_ok h, callOk_parsedEthhdr h h' rfl rfl (by simp)⟩
  | ip6hdr => exact ⟨_, parseFixed_ok (by decide) h, callOk_parsedFixed h h' rfl rfl (by simp)⟩
  | iphdr => exact ⟨_, parseIphdr_ok h, callOk_parsedIphdr h h'⟩
  | icmp6hdr => exact ⟨_, parseFixed_ok (by decide) h, callOk_parsedFixed h h' rfl rfl (by simp)⟩
  | icmphdr => exact ⟨_, parseFixed_ok (by decide) h, callOk_parsedFixed h h' rfl rfl (by simp)⟩
  | icmphdrCommon =>
      exact ⟨_, parseFixed_ok (by decide) h, callOk_parsedFixed h h' rfl rfl (by simp)⟩
  | udphdr => exact ⟨_, parseUdphdr_ok h, callOk_parsedUdphdr h h'⟩
  | tcphdr => exact ⟨_, parseTcphdr_ok h, callOk_parsedTcphdr h h'⟩

/-- A parser that was called at `nh` and wants `size` bytes there. -/
structure CursorFits (e nh size : Nat) (r : Parsed) : Prop where
  advances : nh ≤ r.nh
  within : r.nh ≤ e
  hdr : 0 ≤ r.ret → r.hdr = some nh ∧ nh + size ≤ e

/-- The header of a call that has not failed may be used. -/
theorem CursorFits.header_keeps {α : Type} {d e size : Nat} {r : Parsed} {f : Nat → Bpf α}
    {Q : α → Prop} (h : CursorFits e nh size r) (hret : 0 ≤ r.ret) (hf : nh + size ≤ e → Keeps d e (f nh) Q) :
    Keeps d e (header r.hdr >>= f) Q := by
  obtain ⟨hhdr, hroom⟩ := h.hdr hret
  rw [hhdr]
  refine .bind .header fun a ha => ?_
  subst ha
  exact hf hroom

/-- Parsers keep to the packet. -/
theorem ParseCall.run_keeps (call : ParseCall) {d e : Nat} (h : d ≤ nh) (h' : nh ≤ e) :
    Keeps d e (call.run nh e) (CursorFits e nh call.sizeofHdr) := by
  refine .of_runs fun ctx hspans => ?_
  obtain ⟨rfl, rfl⟩ := hspans
  obtain ⟨r, hrun, hok⟩ := call.run_ok h h'
  refine ⟨r, ctx, hrun, ⟨hok.advances, hok.within, fun hret => ?_⟩, rfl, rfl⟩
  have hhands := hok.handsBack hret
  exact ⟨hhands.hdr, Nat.le_trans (Nat.add_le_add_left hhands.whole nh) hhands.inside.2⟩

/-- The calls from a cursor anywhere in the packet. -/
theorem runCalls_ok (calls : List ParseCall) (h : ctx.data ≤ nh) (h' : nh ≤ ctx.dataEnd) :
    ∃ results, runCalls ctx.dataEnd calls nh ctx = .ok (results, ctx) ∧
      results.length = calls.length ∧
      (nh :: results.map (·.nh)).Pairwise (· ≤ ·) ∧ (∀ r ∈ results, r.nh ≤ ctx.dataEnd) ∧
      ∀ p ∈ calls.zip results, 0 ≤ p.2.ret → ∃ h, HandsBack ctx p.1 p.2 h := by
  induction calls generalizing nh with
  | nil => exact ⟨[], rfl, rfl, by simp, by simp, by simp⟩
  | cons call calls ih =>
      obtain ⟨r, hrun, hok⟩ := call.run_ok h h'
      obtain ⟨results, hrest, hlength, hmono, hwithin, hhands⟩ :=
        ih (Nat.le_trans h hok.advances) hok.within
      refine ⟨r :: results, ?_, by simp [hlength], ?_, ?_, ?_⟩
      · rw [runCalls, Prog.bind_ok hrun, Prog.bind_ok hrest]
        rfl
      · -- every later cursor is at or behind the first, which is not before this one
        rw [List.map_cons, List.pairwise_cons]
        refine ⟨fun x hx => ?_, hmono⟩
        obtain rfl | hx := List.mem_cons.mp hx
        · exact hok.advances
        · exact Nat.le_trans hok.advances (List.rel_of_pairwise_cons hmono hx)
      · intro x hx
        obtain rfl | hx := List.mem_cons.mp hx
        · exact hok.within
        · exact hwithin x hx
      · intro p hp hret
        rw [List.zip_cons_cons, List.mem_cons] at hp
        obtain rfl | hp := hp
        · exact ⟨nh, hok.handsBack hret⟩
        · exact hhands p hp hret

/-- **Bounds safety.**  Any calls in any order on a cursor started at `data` return without a
fault, so that every byte they read is one of the packet's; the cursor never goes back and
never passes `data_end`; and a header handed back with a non-negative value lies wholly in the
packet. -/
theorem parsers_stay_inside (ctx : XdpMd) (calls : List ParseCall) (h : ctx.data ≤ ctx.dataEnd) :
    ∃ results, runCalls ctx.dataEnd calls ctx.data ctx = .ok (results, ctx) ∧
      results.length = calls.length ∧
      (ctx.data :: results.map (·.nh)).Pairwise (· ≤ ·) ∧ (∀ r ∈ results, r.nh ≤ ctx.dataEnd) ∧
      ∀ p ∈ calls.zip results, 0 ≤ p.2.ret → ∃ h, HandsBack ctx p.1 p.2 h :=
  runCalls_ok calls (Nat.le_refl _) h

/-- The calls of a UDP packet on a frame that ends in its Ethernet header's tag. -/
theorem parsers_stay_inside_tagged : taggedCtx.data ≤ taggedCtx.dataEnd ∧
    ∃ results, runCalls taggedCtx.dataEnd [.ethhdr, .iphdr, .udphdr] taggedCtx.data taggedCtx =
      .ok (results, taggedCtx) ∧ results.length = 3 := by
  obtain ⟨results, hrun, hlength, -⟩ :=
    parsers_stay_inside taggedCtx [.ethhdr, .iphdr, .udphdr] (by decide)
  exact ⟨by decide, results, hrun, hlength⟩

end AfXdpSwitch
