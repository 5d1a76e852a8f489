import AfXdpSwitch.NetlinkLink

/-!
# Replies over netlink: `bpf_netlink_recv`

A reply is a sequence of datagrams, and a datagram is a sequence of messages.  The messages of a
dump have the flag `NLM_F_MULTI`, and the last is `NLMSG_DONE`; the reply to a request with
`NLM_F_ACK` is one message `NLMSG_ERROR`.  All datagrams are received into one buffer on the
stack, which is not cleared: a datagram leaves what is behind it as it was.

`bpf_get_link_xdp_id` asks for a dump of all links and gives `get_xdp_info` to the loop, which
picks out the message of one interface.
-/

namespace AfXdpSwitch.Netlink
open ByteMemory

/-! ## Constants -/

/-- `NLMSG_ERROR`, which is the acknowledgement as well. -/
def nlmsgError : BitVec 16 := 2
/-- `NLMSG_DONE`, the end of a dump. -/
def nlmsgDone : BitVec 16 := 3
/-- `NLM_F_CAPPED`: the error does not carry the request. -/
def nlmFCapped : BitVec 16 := 0x100
/-- `NLM_F_ACK_TLVS`: attributes follow the error. -/
def nlmFAckTlvs : BitVec 16 := 0x200
/-- `NLMSGERR_ATTR_MSG`. -/
def nlmsgerrAttrMsg : Nat := 1
/-- `NLMSGERR_ATTR_MAX`. -/
def nlmsgerrAttrMax : Nat := 3

/-- `sizeof(struct nlmsgerr)`. -/
def sizeofNlmsgerr : Nat := 20

/-- `LIBBPF_ERRNO__WRNGPID`. -/
def libbpfErrnoWrngpid : Int := 4011
/-- `LIBBPF_ERRNO__INVSEQ`. -/
def libbpfErrnoInvseq : Int := 4012
/-- `LIBBPF_ERRNO__NLPARSE`. -/
def libbpfErrnoNlparse : Int := 4013

/-- `sizeof(buf)`. -/
def sizeofBuf : Nat := 4096

/-! ## `bpf_netlink_recv` -/

/-- What one `recv` gives. -/
inductive Recv
  | error (errno : Nat)
  | data (bytes : List (BitVec 8))

/-- How the loop over a datagram ends: with `multipart`, or with a return from the function. -/
inductive Flow
  | next (multipart : Bool)
  | ret (v : Int)
deriving DecidableEq

/-- How the function ends.  It is blocked when it waits for a datagram that does not come. -/
inductive Outcome
  | ret (v : Int)
  | blocked
deriving DecidableEq

section
variable (b : Buffer)

/-- `NLMSG_OK`. -/
def nlmsgOk (nh : Nat) (len : Int) : Option Bool :=
  if (sizeofNlmsghdr : Int) ≤ len then
    (b.load32 nh).map fun l => sizeofNlmsghdr ≤ l.toNat && (l.toNat : Int) ≤ len
  else some false

/-- `extack_policy`. -/
def extackPolicy (type : Nat) : Policy := [⟨0, 0, 0⟩, ⟨5, 0, 0⟩, ⟨3, 0, 0⟩].getD type ⟨0, 0, 0⟩

/-- The attributes of an error, behind `hlen` bytes: where the text is that is printed. -/
def errormsgAt (nh : Nat) (hlen : Int) : Option (Option Nat) := do
  let attr : Int := nh + sizeofNlmsghdr + hlen
  if attr < 0 then none
  else
    let alen := ((← b.load32 nh) - BitVec.ofInt 32 hlen).toInt
    let (err, tb) ← libbpfNlaParse b nlmsgerrAttrMax (some extackPolicy) attr.toNat alen
    return if err = 0 then (tb nlmsgerrAttrMsg).map (· + nlaHdrlen) else none

/-- `libbpf_nla_dump_errormsg`. -/
def libbpfNlaDumpErrormsg (nh : Nat) : Option (Option Nat) := do
  let flags ← b.load16 (nh + 6)
  if flags &&& nlmFAckTlvs = 0 then return none
  else if flags &&& nlmFCapped = 0 then
    let msgLen ← b.load32 (nh + 20)
    errormsgAt b nh (sizeofNlmsgerr + (msgLen - 16).toInt)
  else errormsgAt b nh sizeofNlmsgerr

variable {σ : Type} (nlPid seq : BitVec 32) (fn : Option (Buffer → Nat → σ → Option (Int × σ)))

/-- The loop over the messages of a datagram.  It is given one round more than it can need. -/
def recvMsgs : Nat → Nat → Int → Bool → σ → Option (Flow × σ)
  | 0, _, _, multipart, c => some (.next multipart, c)
  | rounds + 1, nh, len, multipart, c => do
      if ← nlmsgOk b nh len then
        let nlmsgLen ← b.load32 nh
        if (← b.load32 (nh + 12)) ≠ nlPid then return (.ret (-libbpfErrnoWrngpid), c)
        if (← b.load32 (nh + 8)) ≠ seq then return (.ret (-libbpfErrnoInvseq), c)
        let multipart := multipart || (← b.load16 (nh + 6)) &&& nlmFMulti ≠ 0
        let step := nlaAlign nlmsgLen.toNat
        let type ← b.load16 (nh + 4)
        if type = nlmsgError then
          let error ← b.load32 (nh + 16)
          if error = 0 then recvMsgs rounds (nh + step) (len - step) multipart c
          else
            let _ ← libbpfNlaDumpErrormsg b nh
            return (.ret error.toInt, c)
        else if type = nlmsgDone then return (.ret 0, c)
        else
          match fn with
          | none => recvMsgs rounds (nh + step) (len - step) multipart c
          | some fn =>
              let (ret, c) ← fn b nh c
              if ret ≠ 0 then return (.ret ret, c)
              else recvMsgs rounds (nh + step) (len - step) multipart c
      else return (.next multipart, c)

end

/-- `buf` after a datagram. -/
def received (m : ByteMemory) (bytes : List (BitVec 8)) : Buffer :=
  ⟨m.write 0 bytes, 0, sizeofBuf⟩

/-- `bpf_netlink_recv` on the datagrams that come in, with `m` on the stack. -/
def bpfNetlinkRecv {σ : Type} (nlPid seq : BitVec 32)
    (fn : Option (Buffer → Nat → σ → Option (Int × σ))) :
    List Recv → ByteMemory → σ → Option (Outcome × σ)
  | [], _, c => some (.blocked, c)
  | .error errno :: _, _, c => some (.ret (-errno), c)
  | .data bytes :: recvs, m, c => do
      let bytes := bytes.take sizeofBuf
      if bytes = [] then return (.ret 0, c)
      let b := received m bytes
      match ← recvMsgs b nlPid seq fn (bytes.length + 1) 0 bytes.length false c with
      | (.ret v, c) => return (.ret v, c)
      | (.next true, c) => bpfNetlinkRecv nlPid seq fn recvs b.mem c
      | (.next false, c) => return (.ret 0, c)

/-! ## `bpf_get_link_xdp_id` -/

/-- `struct xdp_link_info`. -/
structure XdpLinkInfo where
  progId : BitVec 32 := 0
  drvProgId : BitVec 32 := 0
  hwProgId : BitVec 32 := 0
  skbProgId : BitVec 32 := 0
  attachMode : BitVec 8 := 0
deriving DecidableEq

/-- `XDP_ATTACHED_NONE`. -/
def xdpAttachedNone : BitVec 8 := 0
/-- `XDP_ATTACHED_DRV`. -/
def xdpAttachedDrv : BitVec 8 := 1
/-- `XDP_ATTACHED_SKB`. -/
def xdpAttachedSkb : BitVec 8 := 2
/-- `XDP_ATTACHED_HW`. -/
def xdpAttachedHw : BitVec 8 := 3
/-- `XDP_ATTACHED_MULTI`: programs in several modes. -/
def xdpAttachedMulti : BitVec 8 := 4

/-- `XDP_FLAGS_SKB_MODE`. -/
def xdpFlagsSkbMode : BitVec 32 := 2
/-- `XDP_FLAGS_DRV_MODE`. -/
def xdpFlagsDrvMode : BitVec 32 := 4
/-- `XDP_FLAGS_HW_MODE`. -/
def xdpFlagsHwMode : BitVec 32 := 8
/-- `XDP_FLAGS_MODES`. -/
def xdpFlagsModes : BitVec 32 := xdpFlagsSkbMode ||| xdpFlagsDrvMode ||| xdpFlagsHwMode
/-- `XDP_FLAGS_MASK`, with `XDP_FLAGS_UPDATE_IF_NOEXIST`. -/
def xdpFlagsMask : BitVec 32 := 1 ||| xdpFlagsModes

/-- `if (tb[type]) field = libbpf_nla_getattr_u32(tb[type])`. -/
def fieldU32 (b : Buffer) (tb : Table) (type : Nat) (field : BitVec 32) : Option (BitVec 32) :=
  match tb type with
  | none => some field
  | some nla => getattrU32 b nla

/-- `get_xdp_info` from `libbpf_nla_parse_nested` on, where `nla` is `tb[IFLA_XDP]`. -/
def readXdpInfo (b : Buffer) (nla : Nat) (info : XdpLinkInfo) : Option (Int × XdpLinkInfo) := do
  let (ret, xdpTb) ← libbpfNlaParseNested b iflaXdpMax none nla
  if ret ≠ 0 then return (ret, info)
  match xdpTb iflaXdpAttached with
  | none => return (0, info)
  | some attached =>
      let info := { info with attachMode := ← getattrU8 b attached }
      if info.attachMode = xdpAttachedNone then return (0, info)
      let info := { info with progId := ← fieldU32 b xdpTb iflaXdpProgId info.progId }
      let info := { info with skbProgId := ← fieldU32 b xdpTb iflaXdpSkbProgId info.skbProgId }
      let info := { info with drvProgId := ← fieldU32 b xdpTb iflaXdpDrvProgId info.drvProgId }
      let info := { info with hwProgId := ← fieldU32 b xdpTb iflaXdpHwProgId info.hwProgId }
      return (0, info)

/-- `get_xdp_info`, for the interface `ifindex`. -/
def getXdpInfo (ifindex : BitVec 32) (b : Buffer) (ifi : Nat) (tb : Table) (info : XdpLinkInfo) :
    Option (Int × XdpLinkInfo) := do
  let other ← if ifindex = 0 then some false else (b.load32 (ifi + 4)).map (ifindex ≠ ·)
  if other then return (0, info)
  match tb iflaXdp with
  | none => return (0, info)
  | some nla => readXdpInfo b nla info

/-- `__dump_link_nlmsg` with `get_xdp_info`. -/
def dumpLinkNlmsg (ifindex : BitVec 32) (b : Buffer) (nlh : Nat) (info : XdpLinkInfo) :
    Option (Int × XdpLinkInfo) := do
  let ifi := nlh + sizeofNlmsghdr
  let len : Int := (← b.load32 nlh).toNat - (sizeofNlmsghdr + sizeofIfinfomsg : Nat)
  let (err, tb) ← libbpfNlaParse b iflaMax none (ifi + sizeofIfinfomsg) len
  if err ≠ 0 then return (-libbpfErrnoNlparse, info)
  getXdpInfo ifindex b ifi tb info

/-- What the calls of the system give: the socket and its port, the time, an error of `send`, the
datagrams, and the bytes the buffer has at first. -/
structure Net where
  opened : Except Int (BitVec 32)
  time : BitVec 32
  sendErrno : Option Nat
  recvs : List Recv
  stack : ByteMemory

/-- `bpf_get_link_xdp_info` with an `info_size` that is the size of the struct. -/
def bpfGetLinkXdpInfo (net : Net) (ifindex flags : BitVec 32) : Option (Outcome × XdpLinkInfo) :=
  if flags &&& ~~~ xdpFlagsMask ≠ 0 then some (.ret (-22), {})
  else
    let flags := flags &&& xdpFlagsModes
    let mask := flags - 1
    if flags ≠ 0 ∧ flags &&& mask ≠ 0 then some (.ret (-22), {})
    else
      match net.opened, net.sendErrno with
      | .error e, _ => some (.ret e, {})
      | .ok _, some errno => some (.ret (-errno), {})
      | .ok nlPid, none =>
          bpfNetlinkRecv nlPid net.time (some (dumpLinkNlmsg ifindex)) net.recvs net.stack {}

/-- `get_xdp_id`. -/
def getXdpId (info : XdpLinkInfo) (flags : BitVec 32) : BitVec 32 :=
  if info.attachMode ≠ xdpAttachedMulti then info.progId
  else if flags &&& xdpFlagsDrvMode ≠ 0 then info.drvProgId
  else if flags &&& xdpFlagsHwMode ≠ 0 then info.hwProgId
  else if flags &&& xdpFlagsSkbMode ≠ 0 then info.skbProgId
  else 0

/-- `bpf_get_link_xdp_id`: its outcome, and `*prog_id` if that is set. -/
def bpfGetLinkXdpId (net : Net) (ifindex flags : BitVec 32) :
    Option (Outcome × Option (BitVec 32)) :=
  (bpfGetLinkXdpInfo net ifindex flags).map fun (outcome, info) =>
    (outcome, if outcome = .ret 0 then some (getXdpId info flags) else none)

/-- `get_xdp_info` where the index of the message can be read. -/
theorem getXdpInfo_eq {b : Buffer} {ifindex : BitVec 32} {ifi : Nat} {tb : Table}
    {info : XdpLinkInfo} {index : BitVec 32} (h : b.load32 (ifi + 4) = some index) :
    getXdpInfo ifindex b ifi tb info =
      if ifindex ≠ 0 ∧ ifindex ≠ index then some (0, info)
      else
        match tb iflaXdp with
        | none => some (0, info)
        | some nla => readXdpInfo b nla info := by
  unfold getXdpInfo
  by_cases h0 : ifindex = 0
  · rw [if_pos h0, if_neg fun hn => hn.1 h0]
    rfl
  · rw [if_neg h0, h]
    by_cases hne : ifindex = index
    · rw [if_neg fun hn => hn.2 hne]
      simp only [Option.map_some, hne, ne_eq, not_true_eq_false, decide_false, Option.bind_eq_bind,
        Option.bind_some, Bool.false_eq_true, if_false]
      rfl
    · rw [if_pos ⟨h0, hne⟩]
      simp only [Option.map_some, ne_eq, hne, not_false_eq_true, decide_true, Option.bind_eq_bind,
        Option.bind_some, if_true]
      rfl

/-! ## Messages -/

/-- A message whose length is an `int`. -/
structure Nlmsg where
  type : BitVec 16
  flags : BitVec 16
  seq : BitVec 32
  pid : BitVec 32
  payload : List (BitVec 8)
  fits : payload.length + 16 < 2 ^ 31

namespace Nlmsg

/-- `nlmsg_len`. -/
def len (msg : Nlmsg) : Nat := msg.payload.length + 16

/-- The message with its padding. -/
def encode (msg : Nlmsg) : List (BitVec 8) :=
  bytes32 (BitVec.ofNat 32 msg.len) ++ (bytes16 msg.type ++ (bytes16 msg.flags ++
    (bytes32 msg.seq ++ (bytes32 msg.pid ++ (msg.payload ++
      List.replicate (nlaAlign msg.len - msg.len) 0)))))

theorem length_encode (msg : Nlmsg) : msg.encode.length = nlaAlign msg.len := by
  have hle := le_nlaAlign msg.len
  unfold encode
  simp only [List.length_append, List.length_replicate, length_bytes32]
  show 4 + (2 + (2 + (4 + (4 + (msg.payload.length + _))))) = _
  unfold len at *
  omega

/-- The message is at `nh`. -/
structure At (msg : Nlmsg) (m : ByteMemory) (nh : Nat) : Prop where
  len : (m.load32 nh).toNat = msg.len
  type : m.load16 (nh + 4) = msg.type
  flags : m.load16 (nh + 6) = msg.flags
  seq : m.load32 (nh + 8) = msg.seq
  pid : m.load32 (nh + 12) = msg.pid
  payload : m.read (nh + 16) msg.payload.length = msg.payload

theorem read_encode {msg : Nlmsg} {m : ByteMemory} {nh : Nat}
    (h : m.read nh msg.encode.length = msg.encode) : msg.At m nh := by
  obtain ⟨hlen, h⟩ := read_append h
  obtain ⟨htype, h⟩ := read_append h
  obtain ⟨hflags, h⟩ := read_append h
  obtain ⟨hseq, h⟩ := read_append h
  obtain ⟨hpid, h⟩ := read_append h
  obtain ⟨hpayload, -⟩ := read_append h
  refine ⟨?_, load16_eq m htype, load16_eq m hflags, load32_eq hseq, load32_eq hpid, hpayload⟩
  rw [load32_eq hlen, BitVec.toNat_ofNat]
  exact Nat.mod_eq_of_lt (Nat.lt_trans msg.fits (by decide))

end Nlmsg

/-- The messages of a datagram. -/
def encodeMsgs (msgs : List Nlmsg) : List (BitVec 8) := msgs.flatMap Nlmsg.encode

section
variable {b : Buffer} {σ : Type} {nlPid seq : BitVec 32} {c c' : σ} {msg : Nlmsg}
  {fn : Option (Buffer → Nat → σ → Option (Int × σ))} {rounds nh : Nat} {len : Int}
  {multipart : Bool}

theorem load32_covered {a : Nat} (h : b.Covers a 4) : b.load32 a = some (b.mem.load32 a) :=
  if_pos h

/-- A part of a range of the buffer. -/
theorem Buffer.Covers.part {a n a' n' : Nat} (h : b.Covers a n) (h1 : a ≤ a')
    (h2 : a' + n' ≤ a + n) : b.Covers a' n' :=
  ⟨Nat.le_trans h.1 h1, Nat.le_trans h2 h.2⟩

/-- The loads of the loop at a message. -/
structure Header (b : Buffer) (nh : Nat) (len : Int) (msg : Nlmsg) : Prop where
  ok : nlmsgOk b nh len = some true
  len : ∃ l, b.load32 nh = some l ∧ l.toNat = msg.len
  type : b.load16 (nh + 4) = some msg.type
  flags : b.load16 (nh + 6) = some msg.flags
  seq : b.load32 (nh + 8) = some msg.seq
  pid : b.load32 (nh + 12) = some msg.pid

theorem Nlmsg.At.header (h : msg.At b.mem nh) (hcov : b.Covers nh msg.len)
    (hlen : (msg.len : Int) ≤ len) : Header b nh len msg := by
  have hpos : 16 ≤ msg.len := Nat.le_add_left 16 _
  have hl := load32_covered (hcov.part (Nat.le_refl nh) (show nh + 4 ≤ _ by omega))
  refine ⟨?_, ⟨_, hl, h.len⟩, ?_, ?_, ?_, ?_⟩
  · unfold nlmsgOk sizeofNlmsghdr
    rw [if_pos (by omega), hl, Option.map_some, h.len, decide_eq_true hpos, decide_eq_true hlen]
    rfl
  · rw [load16_covered (hcov.part (by omega) (by omega)), h.type]
  · rw [load16_covered (hcov.part (by omega) (by omega)), h.flags]
  · rw [load32_covered (hcov.part (by omega) (by omega)), h.seq]
  · rw [load32_covered (hcov.part (by omega) (by omega)), h.pid]

end

/-! ## Dumps -/

/-- A message of a dump that goes to the callback. -/
structure Nlmsg.Regular (nlPid seq : BitVec 32) (msg : Nlmsg) : Prop where
  pid : msg.pid = nlPid
  seq : msg.seq = seq
  multi : msg.flags &&& nlmFMulti ≠ 0
  type : msg.type ≠ nlmsgError ∧ msg.type ≠ nlmsgDone

section
variable {α σ : Type} {nlPid seq : BitVec 32} {f : Buffer → Nat → σ → Option (Int × σ)}
  {toMsg : α → Nlmsg} {upd : σ → α → σ} {b : Buffer}

/-- A dump of things that have a message: full datagrams, and one with `NLMSG_DONE` at its end.
Each fits the buffer. -/
structure Dump (toMsg : α → Nlmsg) (nlPid seq : BitVec 32) where
  full : List (List α)
  last : List α
  done : Nlmsg
  regular : ∀ x ∈ full.flatten ++ last, (toMsg x).Regular nlPid seq
  nonempty : ∀ xs ∈ full, xs ≠ []
  full_fits : ∀ xs ∈ full, (encodeMsgs (xs.map toMsg)).length ≤ sizeofBuf
  last_fits : (encodeMsgs (last.map toMsg ++ [done])).length ≤ sizeofBuf
  done_type : done.type = nlmsgDone
  done_pid : done.pid = nlPid
  done_seq : done.seq = seq

namespace Dump

/-- All that is in the dump. -/
def all (dump : Dump toMsg nlPid seq) : List α := dump.full.flatten ++ dump.last

/-- What `recv` returns: one datagram after the other. -/
def recvs (dump : Dump toMsg nlPid seq) : List Recv :=
  dump.full.map (fun xs => .data (encodeMsgs (xs.map toMsg))) ++
    [.data (encodeMsgs (dump.last.map toMsg ++ [dump.done]))]

end Dump

end

end AfXdpSwitch.Netlink
