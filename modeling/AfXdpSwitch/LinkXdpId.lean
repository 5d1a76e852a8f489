import AfXdpSwitch.NetlinkDump

/-!
# The program of an interface

The kernel tells for each link which programs it has, one for each mode at most: in
`IFLA_XDP_ATTACHED` the mode, or that there are several, and for each mode the id.
`bpf_get_link_xdp_id` has to find the message of its interface among those of all links, however
the links are spread over datagrams and the attributes over the messages.
-/

namespace AfXdpSwitch.Netlink
open ByteMemory

/-- The ids of the programs of an interface, by mode. -/
structure Programs where
  drv : Option (BitVec 32)
  skb : Option (BitVec 32)
  hw : Option (BitVec 32)

namespace Programs

/-- What `IFLA_XDP_ATTACHED` says. -/
def mode : Programs → BitVec 8
  | ⟨none, none, none⟩ => xdpAttachedNone
  | ⟨some _, none, none⟩ => xdpAttachedDrv
  | ⟨none, some _, none⟩ => xdpAttachedSkb
  | ⟨none, none, some _⟩ => xdpAttachedHw
  | _ => xdpAttachedMulti

/-- The program, if there is just one: `IFLA_XDP_PROG_ID`. -/
def single : Programs → Option (BitVec 32)
  | ⟨some id, none, none⟩ => id
  | ⟨none, some id, none⟩ => id
  | ⟨none, none, some id⟩ => id
  | _ => none

theorem mode_eq_none {p : Programs} (h : p.mode = xdpAttachedNone) : p = ⟨none, none, none⟩ := by
  obtain ⟨drv, skb, hw⟩ := p
  unfold mode at h
  split at h
  · rename_i heq
    exact heq
  all_goals exact absurd h (by decide)

/-- The program of the mode that the flags ask for. -/
def ofMode (p : Programs) (flags : BitVec 32) : Option (BitVec 32) :=
  if flags &&& xdpFlagsDrvMode ≠ 0 then p.drv
  else if flags &&& xdpFlagsHwMode ≠ 0 then p.hw
  else if flags &&& xdpFlagsSkbMode ≠ 0 then p.skb
  else none

end Programs

/-- The attributes inside `IFLA_XDP` tell the programs, in any order. -/
structure Tells (nested : List Attr) (p : Programs) : Prop where
  attached : lastOf iflaXdpAttached nested = some [p.mode]
  progId : lastOf iflaXdpProgId nested = p.single.map bytes32
  drv : lastOf iflaXdpDrvProgId nested = p.drv.map bytes32
  skb : lastOf iflaXdpSkbProgId nested = p.skb.map bytes32
  hw : lastOf iflaXdpHwProgId nested = p.hw.map bytes32

/-- A link in a dump: the message, and what it says.  A kernel without XDP leaves out
`IFLA_XDP`. -/
structure Link where
  msg : Nlmsg
  ifiType : BitVec 32
  ifindex : BitVec 32
  ifiFlags : BitVec 32
  ifiChange : BitVec 32
  attrs : List Attr
  payload : msg.payload = bytes32 ifiType ++ (bytes32 ifindex ++ (bytes32 ifiFlags ++
    (bytes32 ifiChange ++ encodeAll attrs)))
  programs : Programs
  xdp : (lastOf iflaXdp attrs = none ∧ programs = ⟨none, none, none⟩) ∨
    ∃ nested, lastOf iflaXdp attrs = some (encodeAll nested) ∧ Tells nested programs

/-- `info` after the message of a link with these programs. -/
def Programs.info (p : Programs) : XdpLinkInfo where
  progId := p.single.getD 0
  drvProgId := p.drv.getD 0
  hwProgId := p.hw.getD 0
  skbProgId := p.skb.getD 0
  attachMode := p.mode

/-- **Which program is found.**  A program that is alone is found in whatever mode is asked for;
of several, the one of that mode. -/
theorem getXdpId_info (p : Programs) (flags : BitVec 32) : getXdpId p.info flags =
    if p.mode = xdpAttachedMulti then (p.ofMode flags).getD 0 else p.single.getD 0 := by
  unfold getXdpId Programs.ofMode
  show (if p.mode ≠ xdpAttachedMulti then p.single.getD 0 else _) = _
  by_cases hm : p.mode = xdpAttachedMulti
  · rw [if_neg (not_not.mpr hm), if_pos hm]
    split
    · rfl
    split
    · rfl
    split <;> rfl
  · rw [if_pos hm, if_neg hm]

/-! ## One message -/

section
variable {b : Buffer} {maxtype type : Nat} {attrs : List Attr} {tb : Table}

theorem TableOf.fieldU32 (h : TableOf b maxtype attrs tb) (ht : type ≤ maxtype)
    {v : Option (BitVec 32)} (hl : lastOf type attrs = v.map bytes32) (field : BitVec 32) :
    fieldU32 b tb type field = some (v.getD field) := by
  unfold Netlink.fieldU32
  cases v with
  | none => rw [h.none fun _ => hl]; rfl
  | some v =>
      have hu := h.u32 ht hl
      cases htb : tb type with
      | none =>
          rw [htb] at hu
          cases hu
      | some nla =>
          rw [htb] at hu
          exact hu

end

/-- `info` after the message of a link with these programs. -/
def Programs.after (p : Programs) (info : XdpLinkInfo) : XdpLinkInfo :=
  if p.mode = xdpAttachedNone then { info with attachMode := p.mode }
  else
    { progId := p.single.getD info.progId
      drvProgId := p.drv.getD info.drvProgId
      hwProgId := p.hw.getD info.hwProgId
      skbProgId := p.skb.getD info.skbProgId
      attachMode := p.mode }

/-- The message of an interface without programs leaves the ids as they were. -/
theorem Programs.after_empty (p : Programs) : p.after {} = p.info := by
  unfold after
  split
  · rename_i hm
    rw [Programs.mode_eq_none hm]
    rfl
  · rfl

variable {b : Buffer} {ifindex : BitVec 32}

namespace Link

/-- The effect of the message of a link, when `ifindex` is asked for. -/
def update (ifindex : BitVec 32) (info : XdpLinkInfo) (link : Link) : XdpLinkInfo :=
  if ifindex ≠ 0 ∧ ifindex ≠ link.ifindex then info
  else if lastOf iflaXdp link.attrs = none then info
  else link.programs.after info

end Link

/-! ## The dump -/

/-- The link of the interface makes `info`. -/
theorem Link.update_self (link : Link) (h : link.ifindex = ifindex) :
    update ifindex {} link = link.programs.info := by
  unfold update
  rw [if_neg fun hn => hn.2 h.symm]
  split
  · rename_i hnone
    rcases link.xdp with ⟨-, hp⟩ | ⟨nested, hsome, -⟩
    · rw [hp]
      rfl
    · rw [hnone] at hsome
      cases hsome
  · exact link.programs.after_empty

/-- The programs of an interface, as the links of a dump have them. -/
def programsOf (ifindex : BitVec 32) (links : List Link) : Programs :=
  ((links.find? fun link => link.ifindex == ifindex).map Link.programs).getD ⟨none, none, none⟩

/-- The flags ask for one mode at most. -/
def OneMode (flags : BitVec 32) : Prop :=
  flags &&& ~~~ xdpFlagsMask = 0 ∧
    flags &&& xdpFlagsModes ∈ [0, xdpFlagsSkbMode, xdpFlagsDrvMode, xdpFlagsHwMode]

theorem OneMode.mask {flags : BitVec 32} (h : OneMode flags) :
    ¬ (flags &&& xdpFlagsModes ≠ 0 ∧
      (flags &&& xdpFlagsModes) &&& (flags &&& xdpFlagsModes) - 1 ≠ 0) := by
  have hmem := h.2
  simp only [List.mem_cons, List.not_mem_nil, or_false] at hmem
  rcases hmem with hm | hm | hm | hm <;> rw [hm] <;> decide

end AfXdpSwitch.Netlink
