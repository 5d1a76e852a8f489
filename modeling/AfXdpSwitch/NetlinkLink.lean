import AfXdpSwitch.NetlinkAttr

/-!
# Links over netlink: `libbpf/src/netlink.c`

`bpf_set_link_xdp_fd` attaches a program to an interface, or takes it off, by one request with a
nested attribute.  `bpf_get_link_xdp_id` asks for a dump of all links and picks the program of
one interface out of the attributes of its message.
-/

namespace AfXdpSwitch.Netlink
open ByteMemory

/-! ## 32-bit values -/

/-- The bytes of a 32-bit value in the order a little-endian host stores them. -/
def bytes32 (v : BitVec 32) : List (BitVec 8) :=
  bytes16 (v.setWidth 16) ++ bytes16 ((v >>> 16).setWidth 16)

@[simp] theorem length_bytes32 (v : BitVec 32) : (bytes32 v).length = 4 := rfl

theorem high_append_low32 (v : BitVec 32) : (v >>> 16).setWidth 16 ++ v.setWidth 16 = v := by
  apply BitVec.eq_of_toNat_eq
  rw [BitVec.toNat_append, BitVec.toNat_setWidth, BitVec.toNat_setWidth,
    ← Nat.shiftLeft_add_eq_or_of_lt (Nat.mod_lt _ (by decide)), Nat.shiftLeft_eq,
    BitVec.toNat_ushiftRight, Nat.shiftRight_eq_div_pow]
  have := v.isLt
  omega

theorem load32_eq {m : ByteMemory} {a : Nat} {v : BitVec 32} (h : m.read a 4 = bytes32 v) :
    m.load32 a = v := by
  have hsplit : m.read a (bytes16 (v.setWidth 16) ++ bytes16 ((v >>> 16).setWidth 16)).length =
    bytes16 (v.setWidth 16) ++ bytes16 ((v >>> 16).setWidth 16) := h
  obtain ⟨hlo, hhi⟩ := read_append hsplit
  unfold load32
  rw [load16_eq m hlo, show m.load16 (a + 2) = _ from load16_eq m hhi, high_append_low32]

/-! ## Constants -/

/-- `IFLA_XDP`, the attribute of a link that holds those of its programs. -/
def iflaXdp : Nat := 43
/-- `IFLA_MAX` of the header the library brings along. -/
def iflaMax : Nat := 53
/-- `IFLA_XDP_FD`, only in requests. -/
def iflaXdpFd : Nat := 1
/-- `IFLA_XDP_ATTACHED`, one byte. -/
def iflaXdpAttached : Nat := 2
/-- `IFLA_XDP_FLAGS`, only in requests. -/
def iflaXdpFlags : Nat := 3
/-- `IFLA_XDP_PROG_ID`, for the one program there is. -/
def iflaXdpProgId : Nat := 4
/-- `IFLA_XDP_DRV_PROG_ID`. -/
def iflaXdpDrvProgId : Nat := 5
/-- `IFLA_XDP_SKB_PROG_ID`. -/
def iflaXdpSkbProgId : Nat := 6
/-- `IFLA_XDP_HW_PROG_ID`. -/
def iflaXdpHwProgId : Nat := 7
/-- `IFLA_XDP_MAX`. -/
def iflaXdpMax : Nat := 7
/-- `NLA_F_NESTED`, the top bit of an attribute's type. -/
def nlaFNested : BitVec 16 := 0x8000

/-- `sizeof(struct nlmsghdr)`. -/
def sizeofNlmsghdr : Nat := 16
/-- `sizeof(struct ifinfomsg)`. -/
def sizeofIfinfomsg : Nat := 16

/-- `RTM_SETLINK`. -/
def rtmSetlink : BitVec 16 := 19
/-- `NLM_F_REQUEST`. -/
def nlmFRequest : BitVec 16 := 1
/-- `NLM_F_MULTI`: more messages follow, up to `NLMSG_DONE`. -/
def nlmFMulti : BitVec 16 := 2
/-- `NLM_F_ACK`. -/
def nlmFAck : BitVec 16 := 4

/-! ## `bpf_set_link_xdp_fd` -/

/-- The 32-bit store of a struct field. -/
def store32 (m : ByteMemory) (a : Nat) (v : BitVec 32) : ByteMemory := m.write a (bytes32 v)

/-- One attribute appended to the nested one at 32, whose length is `nlaLen` so far. -/
def appendXdp (m : ByteMemory) (nlaLen : BitVec 16) (type : Nat) (v : BitVec 32) :
    ByteMemory × BitVec 16 :=
  let nlaXdp := 32 + nlaLen.toNat
  let m := m.store16 (nlaXdp + 2) (BitVec.ofNat 16 type)
  let m := m.store16 nlaXdp 8
  let m := store32 m (nlaXdp + 4) v
  (m.store16 32 (nlaLen + 8), nlaLen + 8)

/-- `req` as it is sent, at address 0, and `req.nh.nlmsg_len`. -/
def setLinkRequest (ifindex fd flags : BitVec 32) : ByteMemory × BitVec 32 :=
  let m : ByteMemory := fun _ => 0
  let m := store32 m 0 32
  let m := m.store16 6 (nlmFRequest ||| nlmFAck)
  let m := m.store16 4 rtmSetlink
  let m := store32 m 12 0
  let m := store32 m 8 1
  let m := store32 m 20 ifindex
  let m := m.store16 34 (nlaFNested ||| BitVec.ofNat 16 iflaXdp)
  let m := m.store16 32 4
  let (m, nlaLen) := appendXdp m 4 iflaXdpFd fd
  let (m, nlaLen) := if flags ≠ 0 then appendXdp m nlaLen iflaXdpFlags flags else (m, nlaLen)
  let nlmsgLen := 32 + BitVec.ofNat 32 (nlaAlign nlaLen.toNat)
  (store32 m 0 nlmsgLen, nlmsgLen)

/-- An attribute with a 32-bit value. -/
def attrU32 (type : Nat) (v : BitVec 32) : Attr :=
  ⟨BitVec.ofNat 16 type, bytes32 v, by rw [length_bytes32]; decide⟩

theorem encode_attrU32 (type : Nat) (v : BitVec 32) : (attrU32 type v).encode =
    bytes16 8 ++ bytes16 (BitVec.ofNat 16 type) ++ bytes32 v :=
  Attr.encode_aligned (show 8 % 4 = 0 from rfl)

/-- The attributes inside the nested one. -/
def xdpAttrs (fd flags : BitVec 32) : List Attr :=
  attrU32 iflaXdpFd fd :: if flags ≠ 0 then [attrU32 iflaXdpFlags flags] else []

theorem encode_xdpAttrs (fd flags : BitVec 32) : encodeAll (xdpAttrs fd flags) =
    bytes16 8 ++ bytes16 1 ++ bytes32 fd ++
      if flags ≠ 0 then bytes16 8 ++ bytes16 3 ++ bytes32 flags else [] := by
  unfold xdpAttrs
  rw [encodeAll_cons, encode_attrU32]
  split
  · rw [encodeAll_cons, encode_attrU32]
    exact congrArg _ (List.append_nil _)
  · rfl

theorem length_xdpAttrs (fd flags : BitVec 32) :
    (encodeAll (xdpAttrs fd flags)).length = if flags ≠ 0 then 16 else 8 := by
  rw [encode_xdpAttrs]
  split <;> rfl

/-- The attributes of the request. -/
def linkAttrs (fd flags : BitVec 32) : List Attr :=
  [⟨nlaFNested ||| BitVec.ofNat 16 iflaXdp, encodeAll (xdpAttrs fd flags), by
    rw [length_xdpAttrs]
    split <;> decide⟩]

theorem encode_linkAttrs (fd flags : BitVec 32) : encodeAll (linkAttrs fd flags) =
    bytes16 (if flags ≠ 0 then 20 else 12) ++ bytes16 0x802b ++ encodeAll (xdpAttrs fd flags) := by
  have hlen := length_xdpAttrs fd flags
  unfold linkAttrs
  rw [encodeAll_cons, Attr.encode_aligned]
  · unfold Attr.len
    rw [hlen]
    split <;> exact List.append_nil _
  · unfold Attr.len
    rw [hlen]
    split <;> rfl

theorem setLinkRequest_len (ifindex fd flags : BitVec 32) :
    (setLinkRequest ifindex fd flags).1.read 0 4 =
      bytes32 (setLinkRequest ifindex fd flags).2 := by
  have hstore : ∀ (m : ByteMemory) (v : BitVec 32), (store32 m 0 v).read 0 4 = bytes32 v :=
    fun m _ => m.read_write_self
  exact hstore _ _

/-- The request is a header with the interface and its attributes. -/
theorem setLinkRequest_attrs (ifindex fd flags : BitVec 32) :
    (setLinkRequest ifindex fd flags).2.toNat = 32 + (encodeAll (linkAttrs fd flags)).length ∧
      (setLinkRequest ifindex fd flags).1.read 20 4 = bytes32 ifindex ∧
      (setLinkRequest ifindex fd flags).1.read 32 (encodeAll (linkAttrs fd flags)).length =
        encodeAll (linkAttrs fd flags) := by
  rw [encode_linkAttrs, encode_xdpAttrs]
  by_cases hf : flags = 0
  · subst hf
    exact ⟨rfl, rfl, rfl⟩
  · have hf : flags ≠ 0 := hf
    unfold setLinkRequest
    simp only [if_pos hf]
    refine ⟨?_, rfl, rfl⟩
    show (32 + BitVec.ofNat 32 (nlaAlign ((4 : BitVec 16) + 8 + 8).toNat)).toNat = 32 + 20
    decide

/-! ### The request, parsed -/

/-- `libbpf_nla_getattr_u8`, which trusts the length of the attribute. -/
def getattrU8 (b : Buffer) (nla : Nat) : Option (BitVec 8) := b.load8 (nla + nlaHdrlen)

/-- `libbpf_nla_getattr_u32`, likewise. -/
def getattrU32 (b : Buffer) (nla : Nat) : Option (BitVec 32) := b.load32 (nla + nlaHdrlen)

section
variable {b : Buffer} {maxtype type : Nat} {attrs : List Attr} {tb : Table}

/-- An attribute of the stream, in the table. -/
theorem TableOf.entry (h : TableOf b maxtype attrs tb) (ht : type ≤ maxtype)
    {payload : List (BitVec 8)} (hl : lastOf type attrs = some payload) :
    ∃ nla, tb type = some nla ∧ payloadAt b.mem nla = payload ∧
      b.Covers nla (b.mem.load16 nla).toNat := by
  have hp := h.payload type
  rw [if_pos ht, hl, Option.map_eq_some_iff] at hp
  obtain ⟨nla, htb, hpay⟩ := hp
  exact ⟨nla, htb, hpay, h.inside type nla htb⟩

theorem TableOf.none (h : TableOf b maxtype attrs tb)
    (hl : type ≤ maxtype → lastOf type attrs = none) : tb type = none := by
  have hp := h.payload type
  split at hp
  · rw [hl ‹_›] at hp
    exact Option.map_eq_none_iff.mp hp
  · exact Option.map_eq_none_iff.mp hp

/-- The length of a payload that is not empty. -/
theorem length_payloadAt {nla n : Nat} (h : (payloadAt b.mem nla).length = n + 1) :
    (b.mem.load16 nla).toNat = n + 5 := by
  unfold payloadAt nlaHdrlen at h
  rw [ByteMemory.length_read] at h
  omega

theorem TableOf.u32 (h : TableOf b maxtype attrs tb) (ht : type ≤ maxtype) {v : BitVec 32}
    (hl : lastOf type attrs = some (bytes32 v)) : (tb type).bind (getattrU32 b) = some v := by
  obtain ⟨nla, htb, hpay, hcov⟩ := h.entry ht hl
  have hlen := length_payloadAt (n := 3) (by rw [hpay]; rfl)
  rw [hlen] at hcov
  have hc : b.Covers (nla + nlaHdrlen) 4 :=
    ⟨Nat.le_trans hcov.1 (Nat.le_add_right _ _), hcov.2⟩
  unfold payloadAt at hpay
  rw [hlen] at hpay
  rw [htb, Option.bind_some, getattrU32, Buffer.load32, if_pos hc, load32_eq hpay]

end

theorem lastOf_attrU32 {type t : Nat} {v : BitVec 32} {attrs : List Attr}
    (h : nlaType (BitVec.ofNat 16 t) = t) : lastOf type (attrU32 t v :: attrs) =
      (lastOf type attrs).or (if t = type then some (bytes32 v) else none) := by
  rw [lastOf_cons]
  show (lastOf type attrs).or (if nlaType (BitVec.ofNat 16 t) = type then _ else _) = _
  rw [h]
  rfl

theorem lastOf_xdpAttrs_fd (fd flags : BitVec 32) :
    lastOf iflaXdpFd (xdpAttrs fd flags) = some (bytes32 fd) := by
  unfold xdpAttrs
  rw [lastOf_attrU32 (by decide), if_pos rfl]
  split
  · rw [lastOf_attrU32 (by decide), if_neg (by decide)]
    rfl
  · rfl

theorem lastOf_xdpAttrs_flags (fd flags : BitVec 32) : lastOf iflaXdpFlags (xdpAttrs fd flags) =
    if flags = 0 then none else some (bytes32 flags) := by
  have hne : ¬ iflaXdpFd = iflaXdpFlags := by decide
  unfold xdpAttrs
  rw [lastOf_attrU32 (by decide), if_neg hne, Option.or_none]
  by_cases hf : flags = 0
  · rw [if_pos hf, if_neg (not_not.mpr hf), lastOf]
  · rw [if_neg hf, if_pos hf, lastOf_attrU32 (by decide), if_pos rfl]
    rfl

theorem lastOf_linkAttrs (fd flags : BitVec 32) (type : Nat) : lastOf type (linkAttrs fd flags) =
    if type = iflaXdp then some (encodeAll (xdpAttrs fd flags)) else none := by
  have htype : nlaType (nlaFNested ||| BitVec.ofNat 16 iflaXdp) = iflaXdp := by decide
  show (lastOf type []).or (if nlaType (nlaFNested ||| BitVec.ofNat 16 iflaXdp) = type
    then some (encodeAll (xdpAttrs fd flags)) else none) = _
  rw [htype, lastOf, Option.none_or]
  simp only [eq_comm]

/-- What the parser of this library reads in a request: the length, the interface, and one attribute
`IFLA_XDP`, in which the file descriptor and, if there are any, the flags are. -/
structure Asks (b : Buffer) (len ifindex fd flags : BitVec 32) : Prop where
  nlmsg_len : b.mem.load32 0 = len
  ifi_index : b.mem.load32 20 = ifindex
  attr : ∃ tb nla xdp, libbpfNlaParse b iflaMax none 32 (len.toNat - 32 : Int) = some (0, tb) ∧
    (∀ type, type ≠ iflaXdp → tb type = none) ∧ tb iflaXdp = some nla ∧
    libbpfNlaParseNested b iflaXdpMax none nla = some (0, xdp) ∧
    (xdp iflaXdpFd).bind (getattrU32 b) = some fd ∧
    (xdp iflaXdpFlags).bind (getattrU32 b) = if flags = 0 then none else some flags

/-- The bytes that are sent, in a buffer of just their number. -/
def requestBuffer (ifindex fd flags : BitVec 32) : Buffer :=
  ⟨(setLinkRequest ifindex fd flags).1, 0, (setLinkRequest ifindex fd flags).2.toNat⟩

/-- **The request says what was asked for.**  Its length field is the number of bytes sent, and
the parser of this library finds in it one attribute `IFLA_XDP`, in which the file descriptor and,
if there are any, the flags are. -/
theorem setLinkRequest_parsed (ifindex fd flags : BitVec 32) :
    Asks (requestBuffer ifindex fd flags) (setLinkRequest ifindex fd flags).2 ifindex fd flags := by
  obtain ⟨hlen, hindex, hread⟩ := setLinkRequest_attrs ifindex fd flags
  have hsmall : (encodeAll (linkAttrs fd flags)).length ≤ 20 := by
    rw [encode_linkAttrs, List.length_append, length_xdpAttrs]
    split <;> decide
  obtain ⟨tb, hparse, htb⟩ := libbpfNlaParse_encodeAll (requestBuffer ifindex fd flags) iflaMax 32
    (linkAttrs fd flags) (by omega) ⟨Nat.zero_le _, Nat.le_of_eq hlen.symm⟩ hread
  obtain ⟨nla, hnla, hpay, hcov⟩ : ∃ nla, tb iflaXdp = some nla ∧ _ :=
    htb.entry (by decide) ((lastOf_linkAttrs fd flags iflaXdp).trans (if_pos rfl))
  have hpos : 4 ≤ ((requestBuffer ifindex fd flags).mem.load16 nla).toNat := by
    have hl := congrArg List.length hpay
    unfold payloadAt nlaHdrlen at hl
    rw [ByteMemory.length_read, length_xdpAttrs] at hl
    split at hl <;> omega
  obtain ⟨xdp, hnested, hxdp⟩ := libbpfNlaParseNested_encodeAll _ iflaXdpMax nla _ hcov hpos hpay
  have hint : ((setLinkRequest ifindex fd flags).2.toNat : Int) - 32 =
      (encodeAll (linkAttrs fd flags)).length := by omega
  refine ⟨?_, ?_, tb, nla, xdp, by rw [hint]; exact hparse, fun type ht => ?_, hnla, hnested, ?_,
    ?_⟩
  · exact load32_eq (setLinkRequest_len ifindex fd flags)
  · exact load32_eq hindex
  · refine htb.none fun _ => ?_
    rw [lastOf_linkAttrs, if_neg ht]
  · exact hxdp.u32 (by decide) (lastOf_xdpAttrs_fd fd flags)
  · have hflags := lastOf_xdpAttrs_flags fd flags
    split
    · rename_i hf
      rw [hxdp.none fun _ => hflags.trans (if_pos hf), Option.bind_none]
    · rename_i hf
      exact hxdp.u32 (by decide) (hflags.trans (if_neg hf))

end AfXdpSwitch.Netlink
