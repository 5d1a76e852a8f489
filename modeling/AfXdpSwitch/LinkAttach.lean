import AfXdpSwitch.LinkXdpId

/-!
# Attaching and detaching: `common_user_bpf_xdp.c` and `go-approach/program.go`

Both the C loader and the Go package put a program on an interface and take it away.  An interface
has a slot for each mode, and the flags of a request say which of them is meant; without a mode
flag, that is the driver's if the driver has XDP at all.  The loader asks for the id of the program
before it removes one, and that question is answered for the interface, not for the slot.

What the kernel answers is a parameter, and so is what the Go package for netlink makes of it:
`Kernel.Documented` has what they promise to every user of `IFLA_XDP`.  Programs are given by their
ids, and the texts on `stderr` are left out.
-/

namespace AfXdpSwitch
namespace LinkAttach
open Netlink

/-- The modes of XDP: in the driver, generic, and offloaded. -/
inductive Mode where
  | drv
  | skb
  | hw
deriving DecidableEq

/-- Of the driver's mode and the generic one, the other. -/
def Mode.other : Mode → Mode
  | drv => skb
  | skb => drv
  | hw => hw

theorem Mode.eq_or_other_eq {m n : Mode} (hm : m ≠ hw) (hn : n ≠ hw) : m = n ∨ m.other = n := by
  cases m <;> cases n <;> first | exact .inl rfl | exact .inr rfl | skip
  · exact absurd rfl hn
  · exact absurd rfl hn
  · exact absurd rfl hm
  · exact absurd rfl hm

/-- `XDP_FLAGS_UPDATE_IF_NOEXIST`. -/
def xdpFlagsUpdateIfNoexist : BitVec 32 := 1

/-- `-EEXIST`. -/
def eExist : Int := -17

/-! ## The slots of an interface -/

/-- The program in the slot of a mode. -/
def slot (p : Programs) : Mode → Option (BitVec 32)
  | .drv => p.drv
  | .skb => p.skb
  | .hw => p.hw

/-- The slot of a mode filled or emptied. -/
def put (p : Programs) (m : Mode) (prog : Option (BitVec 32)) : Programs :=
  match m with
  | .drv => { p with drv := prog }
  | .skb => { p with skb := prog }
  | .hw => { p with hw := prog }

/-- Nothing is attached. -/
def noPrograms : Programs := ⟨none, none, none⟩

section Slots
variable {p : Programs} {m n : Mode} {prog : Option (BitVec 32)}

@[simp] theorem slot_put : slot (put p m prog) m = prog := by
  cases m <;> rfl

theorem slot_put_of_ne (h : n ≠ m) : slot (put p m prog) n = slot p n := by
  cases m <;> cases n <;> first | rfl | exact absurd rfl h

theorem put_slot (h : slot p m = prog) : put p m prog = p := by
  subst h
  cases m <;> rfl

end Slots

/-- The slot that a request with these flags is about. -/
def target (native : Bool) (flags : BitVec 32) : Mode :=
  if flags &&& xdpFlagsDrvMode ≠ 0 then .drv
  else if flags &&& xdpFlagsHwMode ≠ 0 then .hw
  else if flags &&& xdpFlagsSkbMode ≠ 0 then .skb
  else if native then .drv
  else .skb

/-! ## The kernel -/

/-- The programs of the interface, and how often the kernel was asked. -/
structure Iface where
  programs : Programs
  asked : Nat

/-- `netlink.LinkAttrs`. -/
structure LinkAttrs where
  /-- `Xdp.Attached`, if there is an `Xdp`. -/
  xdp : Option Bool

/-- `netlink.Link`, whose `Attrs` can be `nil`. -/
structure Link where
  attrs : Option LinkAttrs

/-- `dump` and `set` answer the request with this number, and `link` is the answer of
`netlink.LinkByIndex`.  `native` says that the driver has XDP of its own. -/
structure Kernel where
  native : Bool
  dump : Nat → Int
  set : Nat → Programs → Option (BitVec 32) → BitVec 32 → Int × Programs
  link : Nat → Programs → Int × Link

/-- `isXdpAttached` of the Go package. -/
def isXdpAttached (link : Link) : Bool :=
  match link.attrs with
  | some ⟨some attached⟩ => attached
  | _ => false

/-- What `IFLA_XDP` promises: a request that is refused changes nothing; one that is not fills or
empties its slot.  The driver's mode and the generic one exclude each other (`EEXIST`, which without
a mode flag is for drivers with XDP only), and `XDP_FLAGS_UPDATE_IF_NOEXIST` spares the program that
is there.  A link says whether there is a program, in whatever slot. -/
structure Kernel.Documented (k : Kernel) : Prop where
  refused : ∀ n p prog flags, (k.set n p prog flags).1 ≠ 0 →
    (k.set n p prog flags).1 < 0 ∧ (k.set n p prog flags).2 = p
  done : ∀ n p prog flags, (k.set n p prog flags).1 = 0 →
    (k.set n p prog flags).2 = put p (target k.native flags) prog
  exclusive : ∀ n p id flags, (k.set n p (some id) flags).1 = 0 → target k.native flags ≠ .hw →
    slot p (target k.native flags).other = none
  noexist : ∀ n p id flags, (k.set n p (some id) flags).1 = 0 →
    flags &&& xdpFlagsUpdateIfNoexist ≠ 0 → slot p (target k.native flags) = none
  exist : ∀ n p prog flags, (k.set n p prog flags).1 = eExist →
    (k.native = true ∨ flags &&& xdpFlagsModes ≠ 0) ∧ flags &&& xdpFlagsHwMode = 0 ∧
      slot p (target k.native flags).other ≠ none
  modes : ∀ n p prog flags, flags &&& xdpFlagsSkbMode ≠ 0 → flags &&& xdpFlagsDrvMode ≠ 0 →
    (k.set n p prog flags).1 = -22
  attached : ∀ n p, (k.link n p).1 = 0 →
    (isXdpAttached (k.link n p).2 = true ↔ p.mode ≠ xdpAttachedNone)

namespace Kernel

/-- `bpf_set_link_xdp_fd`; `none` is the descriptor -1. -/
def bpfSetLinkXdpFd (k : Kernel) (prog : Option (BitVec 32)) (flags : BitVec 32) (s : Iface) :
    Int × Iface :=
  let (err, programs) := k.set s.asked s.programs prog flags
  (err, ⟨programs, s.asked + 1⟩)

/-- `bpf_get_link_xdp_id`: the error, the id and the interface. -/
def bpfGetLinkXdpId (k : Kernel) (flags : BitVec 32) (s : Iface) : Int × BitVec 32 × Iface :=
  if flags &&& ~~~ xdpFlagsMask ≠ 0 then (-22, 0, s)
  else if flags &&& xdpFlagsModes ≠ 0 ∧
      flags &&& xdpFlagsModes &&& ((flags &&& xdpFlagsModes) - 1) ≠ 0 then (-22, 0, s)
  else (k.dump s.asked, getXdpId s.programs.info flags, ⟨s.programs, s.asked + 1⟩)

/-! ## The C loader -/

/-- `EXIT_OK`. -/
def exitOk : Nat := 0
/-- `EXIT_FAIL`. -/
def exitFail : Nat := 1
/-- `EXIT_FAIL_XDP`. -/
def exitFailXdp : Nat := 30

/-- The flags with the mode replaced. -/
def oppositeMode (flags : BitVec 32) : BitVec 32 :=
  flags &&& ~~~ xdpFlagsModes |||
    if flags &&& xdpFlagsSkbMode ≠ 0 then xdpFlagsDrvMode else xdpFlagsSkbMode

/-- Unload the program of the opposite mode and try again. -/
def force (k : Kernel) (flags prog : BitVec 32) (s : Iface) : Int × Iface :=
  let (err, s) := k.bpfSetLinkXdpFd none (oppositeMode flags) s
  if err = 0 then k.bpfSetLinkXdpFd (some prog) flags s else (err, s)

/-- `xdp_link_attach`. -/
def xdpLinkAttach (k : Kernel) (flags prog : BitVec 32) (s : Iface) : Nat × Iface :=
  let (err, s) := k.bpfSetLinkXdpFd (some prog) flags s
  let (err, s) :=
    if err = eExist ∧ flags &&& xdpFlagsUpdateIfNoexist = 0 then k.force flags prog s else (err, s)
  (if err < 0 then exitFailXdp else exitOk, s)

/-- `xdp_link_detach`; without a program there is nothing to do. -/
def xdpLinkDetach (k : Kernel) (flags expectedProgId : BitVec 32) (s : Iface) : Nat × Iface :=
  let (err, currProgId, s) := k.bpfGetLinkXdpId flags s
  if err ≠ 0 then (exitFailXdp, s)
  else if currProgId = 0 then (exitOk, s)
  else if expectedProgId ≠ 0 ∧ currProgId ≠ expectedProgId then (exitFail, s)
  else
    let (err, s) := k.bpfSetLinkXdpFd none flags s
    (if err < 0 then exitFailXdp else exitOk, s)

/-! ## The Go package -/

/-- `netlink.LinkByIndex`: the error, the link and the interface. -/
def linkByIndex (k : Kernel) (s : Iface) : Int × Link × Iface :=
  let (err, link) := k.link s.asked s.programs
  (err, link, { s with asked := s.asked + 1 })

/-- The loop of `removeProgram`, at most this many rounds of it; no result while it goes on. -/
def poll (k : Kernel) : Nat → Iface → Option Int × Iface
  | 0, s => (none, s)
  | n + 1, s =>
      let (err, link, s) := k.linkByIndex s
      if err ≠ 0 then (some err, s)
      else if ! isXdpAttached link then (some 0, s)
      else k.poll n s

/-- `removeProgram`; `LinkSetXdpFd` has no flags. -/
def removeProgram (k : Kernel) (polls : Nat) (s : Iface) : Option Int × Iface :=
  let (err, link, s) := k.linkByIndex s
  if err ≠ 0 then (some err, s)
  else if ! isXdpAttached link then (some 0, s)
  else
    let (err, s) := k.bpfSetLinkXdpFd none 0 s
    if err ≠ 0 then (some err, s) else k.poll polls s

/-- `Program.Attach`.  `DefaultXdpFlags` is a variable, which every user of the package can set; it
starts at 0. -/
def attach (k : Kernel) (polls : Nat) (defaultXdpFlags prog : BitVec 32) (s : Iface) :
    Option Int × Iface :=
  match k.removeProgram polls s with
  | (some 0, s) =>
      let (err, _, s) := k.linkByIndex s
      if err ≠ 0 then (some err, s)
      else
        let (err, s) := k.bpfSetLinkXdpFd (some prog) defaultXdpFlags s
        (some err, s)
  | r => r

end Kernel

/-! ## Flags -/

section Flags
variable {flags c : BitVec 32}

theorem oppositeMode_and (h : ~~~ xdpFlagsModes &&& c = 0) : Kernel.oppositeMode flags &&& c =
    (if flags &&& xdpFlagsSkbMode ≠ 0 then xdpFlagsDrvMode else xdpFlagsSkbMode) &&& c := by
  unfold Kernel.oppositeMode
  rw [BitVec.and_or_distrib_right, BitVec.and_assoc, h, show flags &&& 0 = 0 from BitVec.and_zero]
  exact BitVec.zero_or

theorem modes_eq_zero (hdrv : flags &&& xdpFlagsDrvMode = 0) (hhw : flags &&& xdpFlagsHwMode = 0)
    (hskb : flags &&& xdpFlagsSkbMode = 0) : flags &&& xdpFlagsModes = 0 := by
  unfold xdpFlagsModes
  rw [BitVec.and_or_distrib_left, BitVec.and_or_distrib_left, hdrv, hhw, hskb]
  rfl

/-- With a mode flag, or if the driver has XDP, the opposite flags are about the other slot. -/
theorem target_oppositeMode {native : Bool}
    (hmode : native = true ∨ flags &&& xdpFlagsModes ≠ 0) (hhw : flags &&& xdpFlagsHwMode = 0)
    (hone : flags &&& xdpFlagsSkbMode = 0 ∨ flags &&& xdpFlagsDrvMode = 0) :
    target native (Kernel.oppositeMode flags) = (target native flags).other := by
  by_cases hskb : flags &&& xdpFlagsSkbMode = 0
  · have hflags : target native flags = .drv := by
      unfold target
      rw [if_neg (not_not.mpr hhw), if_neg (not_not.mpr hskb)]
      by_cases hdrv : flags &&& xdpFlagsDrvMode = 0
      · rw [if_neg (not_not.mpr hdrv), if_pos (hmode.resolve_right ?_)]
        exact not_not.mpr (modes_eq_zero hdrv hhw hskb)
      · rw [if_pos hdrv]
    rw [hflags]
    unfold target
    rw [oppositeMode_and (by decide), oppositeMode_and (by decide), oppositeMode_and (by decide),
      hskb]
    rfl
  · have hdrv := hone.resolve_left hskb
    have hflags : target native flags = .skb := by
      unfold target
      rw [if_neg (not_not.mpr hdrv), if_neg (not_not.mpr hhw), if_pos hskb]
    rw [hflags]
    unfold target
    rw [oppositeMode_and (by decide), oppositeMode_and (by decide), oppositeMode_and (by decide),
      if_pos hskb]
    rfl

theorem and_eq_zero_of_modes (h : flags &&& xdpFlagsModes = 0) (hc : xdpFlagsModes &&& c = c) :
    flags &&& c = 0 := by
  rw [← hc, ← BitVec.and_assoc, h]
  exact BitVec.zero_and

/-- With a mode flag, the id that is asked for is that of the slot. -/
theorem ofMode_eq (p : Programs) (native : Bool) (flags : BitVec 32) : p.ofMode flags =
    if flags &&& xdpFlagsModes = 0 then none else slot p (target native flags) := by
  by_cases hmodes : flags &&& xdpFlagsModes = 0
  · rw [if_pos hmodes]
    unfold Programs.ofMode
    rw [and_eq_zero_of_modes hmodes (by decide), and_eq_zero_of_modes hmodes (by decide),
      and_eq_zero_of_modes hmodes (by decide)]
    rfl
  · rw [if_neg hmodes]
    unfold Programs.ofMode target
    split
    · rfl
    split
    · rfl
    split
    · rfl
    · rename_i hdrv hhw hskb
      exact absurd (modes_eq_zero (not_not.mp hdrv) (not_not.mp hhw) (not_not.mp hskb)) hmodes

end Flags

/-! ## What the requests do -/

section
variable {k : Kernel}

theorem Kernel.Documented.set_cases (hk : k.Documented) (prog : Option (BitVec 32))
    (flags : BitVec 32) (s : Iface) :
    (k.bpfSetLinkXdpFd prog flags s).1 = 0 ∧
        (k.bpfSetLinkXdpFd prog flags s).2.programs =
          put s.programs (target k.native flags) prog ∨
      (k.bpfSetLinkXdpFd prog flags s).1 < 0 ∧
        (k.bpfSetLinkXdpFd prog flags s).2.programs = s.programs := by
  by_cases herr : (k.set s.asked s.programs prog flags).1 = 0
  · exact .inl ⟨herr, hk.done _ _ _ _ herr⟩
  · exact .inr (hk.refused _ _ _ _ herr)

/-- `EEXIST` means that the other slot is filled, and then the opposite flags are about that. -/
theorem Kernel.Documented.exist_target (hk : k.Documented) {prog : Option (BitVec 32)}
    {flags : BitVec 32} {s : Iface} (herr : (k.bpfSetLinkXdpFd prog flags s).1 = eExist) :
    target k.native (oppositeMode flags) = (target k.native flags).other ∧
      slot s.programs (target k.native flags).other ≠ none := by
  obtain ⟨hmode, hhw, hother⟩ := hk.exist _ _ _ _ herr
  refine ⟨target_oppositeMode hmode hhw ?_, hother⟩
  by_contra hboth
  have hinval := hk.modes s.asked s.programs prog flags (fun h => hboth (.inl h))
    fun h => hboth (.inr h)
  exact absurd (herr.symm.trans hinval) (by decide)

end

variable {k : Kernel} (flags prog : BitVec 32) (s : Iface)

/-- After `force` the other slot is empty, unless nothing has changed. -/
theorem force_cases (hk : k.Documented)
    (htarget : target k.native (Kernel.oppositeMode flags) = (target k.native flags).other) :
    let cleared := put s.programs (target k.native flags).other none
    (k.force flags prog s).1 = 0 ∧
        (k.force flags prog s).2.programs = put cleared (target k.native flags) (some prog) ∨
      (k.force flags prog s).1 < 0 ∧ ((k.force flags prog s).2.programs = s.programs ∨
        (k.force flags prog s).2.programs = cleared) := by
  unfold Kernel.force
  dsimp only
  rcases hk.set_cases none (Kernel.oppositeMode flags) s with ⟨herr, hp⟩ | ⟨herr, hp⟩
  · rw [htarget] at hp
    rw [if_pos herr]
    rcases hk.set_cases (some prog) flags (k.bpfSetLinkXdpFd none (Kernel.oppositeMode flags) s).2
      with ⟨herr', hp'⟩ | ⟨herr', hp'⟩
    · exact .inl ⟨herr', by rw [hp', hp]⟩
    · exact .inr ⟨herr', .inr (by rw [hp', hp])⟩
  · rw [if_neg (Int.ne_of_lt herr)]
    exact .inr ⟨herr, .inl hp⟩

/-- **`xdp_link_attach`, on every path.**  If it succeeds, its slot has the new program and the
other slot none; with `XDP_FLAGS_UPDATE_IF_NOEXIST` both were empty before.  If it fails, the
interface is as before, except that the program of the other slot can be gone: that is when it was
unloaded to make room, and then the new one was refused. -/
theorem xdpLinkAttach_cases (hk : k.Documented) :
    let m := target k.native flags
    let r := k.xdpLinkAttach flags prog s
    (r.1 = Kernel.exitOk ∧ r.2.programs = put (put s.programs m.other none) m (some prog) ∧
        (flags &&& xdpFlagsUpdateIfNoexist ≠ 0 →
          slot s.programs m = none ∧ (m ≠ .hw → slot s.programs m.other = none))) ∨
      (r.1 = Kernel.exitFailXdp ∧ r.2.programs = s.programs) ∨
      (r.1 = Kernel.exitFailXdp ∧ flags &&& xdpFlagsUpdateIfNoexist = 0 ∧
        slot s.programs m.other ≠ none ∧ r.2.programs = put s.programs m.other none) := by
  unfold Kernel.xdpLinkAttach
  dsimp only
  rcases hk.set_cases (some prog) flags s with ⟨herr, hp⟩ | ⟨herr, hp⟩
  · -- the kernel has taken it at once, so the other slot was empty
    have hne : ¬ ((k.bpfSetLinkXdpFd (some prog) flags s).1 = eExist ∧
        flags &&& xdpFlagsUpdateIfNoexist = 0) := by
      rw [herr]
      exact fun h => absurd h.1 (by decide)
    rw [if_neg hne, herr]
    refine .inl ⟨rfl, ?_, fun hflag =>
      ⟨hk.noexist _ _ _ _ herr hflag, hk.exclusive _ _ _ _ herr⟩⟩
    rw [hp]
    by_cases hhw : target k.native flags = .hw
    · rw [hhw]
      rfl
    · rw [put_slot (hk.exclusive _ _ _ _ herr hhw)]
  · by_cases hforce : (k.bpfSetLinkXdpFd (some prog) flags s).1 = eExist ∧
        flags &&& xdpFlagsUpdateIfNoexist = 0
    · obtain ⟨htarget, hother⟩ := hk.exist_target hforce.1
      rw [if_pos hforce]
      have hcases := force_cases flags prog (k.bpfSetLinkXdpFd (some prog) flags s).2 hk htarget
      rw [hp] at hcases
      rcases hcases with ⟨herr', hp'⟩ | ⟨herr', hp' | hp'⟩
      · rw [if_neg (by rw [herr']; decide)]
        exact .inl ⟨rfl, hp', fun hflag => absurd hforce.2 hflag⟩
      · rw [if_pos herr']
        exact .inr (.inl ⟨rfl, hp'⟩)
      · rw [if_pos herr']
        exact .inr (.inr ⟨rfl, hforce.2, hother, hp'⟩)
    · rw [if_neg hforce, if_pos herr]
      exact .inr (.inl ⟨rfl, hp⟩)

/-! ## Detaching -/

theorem single_of_slot {p : Programs} {m : Mode} {id : BitVec 32}
    (hmode : p.mode ≠ xdpAttachedMulti) (h : slot p m = some id) : p.single = some id := by
  obtain ⟨drv, skb, hw⟩ := p
  cases drv <;> cases skb <;> cases hw <;> first | exact absurd rfl hmode | skip
  all_goals cases m <;> first | exact h | cases h

/-- There are several programs, and the flags do not say which. -/
def Unclear (p : Programs) (flags : BitVec 32) : Prop :=
  p.mode = xdpAttachedMulti ∧ flags &&& xdpFlagsModes = 0

instance (p : Programs) (flags : BitVec 32) : Decidable (Unclear p flags) :=
  inferInstanceAs (Decidable (_ ∧ _))

/-- Then no program is found. -/
theorem getXdpId_of_unclear {p : Programs} (h : Unclear p flags) : getXdpId p.info flags = 0 := by
  rw [getXdpId_info, if_pos h.1, ofMode_eq p true, if_pos h.2]
  rfl

/-- If the slot is filled, its id is found. -/
theorem getXdpId_of_slot {p : Programs} {native : Bool} {id : BitVec 32} (h : ¬ Unclear p flags)
    (hslot : slot p (target native flags) = some id) : getXdpId p.info flags = id := by
  rw [getXdpId_info]
  by_cases hmode : p.mode = xdpAttachedMulti
  · have hmodes : flags &&& xdpFlagsModes ≠ 0 := fun hz => h ⟨hmode, hz⟩
    rw [if_pos hmode, ofMode_eq p native, if_neg hmodes, hslot]
    rfl
  · rw [if_neg hmode, single_of_slot hmode hslot]
    rfl

theorem get_cases (k : Kernel) : (k.bpfGetLinkXdpId flags s).2.2.programs = s.programs ∧
    ((k.bpfGetLinkXdpId flags s).1 = 0 →
      (k.bpfGetLinkXdpId flags s).2.1 = getXdpId s.programs.info flags) := by
  unfold Kernel.bpfGetLinkXdpId
  split
  · exact ⟨rfl, fun h : (-22 : Int) = 0 => absurd h (by decide)⟩
  split
  · exact ⟨rfl, fun h : (-22 : Int) = 0 => absurd h (by decide)⟩
  · exact ⟨rfl, fun _ => rfl⟩

/-- **`xdp_link_detach`, on every path.**  A run that fails removes nothing.  One that succeeds
empties the slot that its flags are about, and only that: if the program is in another one it stays,
and so do all if there are several and the flags have no mode.  A program is removed only if its id
is the expected one, or none is expected. -/
theorem xdpLinkDetach_cases (hk : k.Documented) (hids : ∀ m, slot s.programs m ≠ some 0)
    (expectedProgId : BitVec 32) :
    let m := target k.native flags
    let r := k.xdpLinkDetach flags expectedProgId s
    (r.1 ≠ Kernel.exitOk → r.2.programs = s.programs) ∧
      (r.1 = Kernel.exitOk → r.2.programs =
        if Unclear s.programs flags then s.programs else put s.programs m none) ∧
      ∀ id, slot s.programs m = some id → slot r.2.programs m = none →
        expectedProgId = 0 ∨ expectedProgId = id := by
  obtain ⟨hsame, hid⟩ := get_cases flags s k
  -- a run that fails
  have hfail : ∀ exit (s' : Iface), s'.programs = s.programs → exit ≠ Kernel.exitOk →
      (exit ≠ Kernel.exitOk → s'.programs = s.programs) ∧
      (exit = Kernel.exitOk → s'.programs = if Unclear s.programs flags then s.programs
        else put s.programs (target k.native flags) none) ∧
      ∀ id, slot s.programs (target k.native flags) = some id →
        slot s'.programs (target k.native flags) = none →
        expectedProgId = 0 ∨ expectedProgId = id := by
    intro exit s' hs hexit
    refine ⟨fun _ => hs, fun h => absurd h hexit, fun id hslot hnone => ?_⟩
    rw [hs, hslot] at hnone
    cases hnone
  unfold Kernel.xdpLinkDetach
  dsimp only
  split
  · exact hfail Kernel.exitFailXdp _ hsame (by decide)
  rename_i herr
  rw [hid (not_not.mp herr)]
  split
  · rename_i hzero
    refine ⟨fun _ => hsame, fun _ => ?_, fun id hslot hnone => ?_⟩
    · rw [hsame]
      by_cases hu : Unclear s.programs flags
      · rw [if_pos hu]
      · rw [if_neg hu]
        cases hslot : slot s.programs (target k.native flags) with
        | none => rw [put_slot hslot]
        | some id =>
            rw [getXdpId_of_slot flags hu hslot] at hzero
            exact absurd (hzero ▸ hslot) (hids _)
    · rw [hsame, hslot] at hnone
      cases hnone
  rename_i hne
  split
  · exact hfail Kernel.exitFail _ hsame (by decide)
  rename_i hexpected
  have hu : ¬ Unclear s.programs flags := fun hu => hne (getXdpId_of_unclear flags hu)
  rcases hk.set_cases none flags (k.bpfGetLinkXdpId flags s).2.2 with ⟨herr', hp⟩ | ⟨herr', hp⟩
  · rw [if_neg (by rw [herr']; decide)]
    refine ⟨fun h => absurd rfl h, fun _ => ?_, fun id hslot _ => ?_⟩
    · rw [hp, hsame, if_neg hu]
    · rw [getXdpId_of_slot flags hu hslot] at hexpected
      by_contra hnot
      exact hexpected ⟨fun hz => hnot (.inl hz), fun he => hnot (.inr he.symm)⟩
  · rw [if_pos herr']
    exact hfail Kernel.exitFailXdp _ (hp.trans hsame) (by decide)

/-! ## The loop of `removeProgram` -/

theorem mode_eq_none_iff {p : Programs} : p.mode = xdpAttachedNone ↔ p = noPrograms := by
  refine ⟨Programs.mode_eq_none, fun h => ?_⟩
  rw [h]
  rfl

/-- The link tells whether there is a program. -/
theorem Kernel.Documented.not_attached (hk : k.Documented) {s : Iface}
    (herr : ¬ (k.linkByIndex s).1 ≠ 0) :
    (! isXdpAttached (k.linkByIndex s).2.1) = true ↔ s.programs = noPrograms := by
  have hattached : isXdpAttached (k.linkByIndex s).2.1 = true ↔ s.programs.mode ≠ xdpAttachedNone :=
    hk.attached _ _ (not_not.mp herr)
  rw [← mode_eq_none_iff, Bool.not_eq_true', ← Bool.not_eq_true, hattached, not_not]

theorem poll_programs (polls : Nat) (s : Iface) : (k.poll polls s).2.programs = s.programs := by
  induction polls generalizing s with
  | zero => rfl
  | succ n ih =>
      unfold Kernel.poll
      dsimp only
      split
      · rfl
      split
      · rfl
      · exact ih _

/-- The loop ends with success only when there is no program. -/
theorem poll_ok (hk : k.Documented) {polls : Nat} {s : Iface} (h : (k.poll polls s).1 = some 0) :
    s.programs = noPrograms := by
  induction polls generalizing s with
  | zero => cases h
  | succ n ih =>
      unfold Kernel.poll at h
      dsimp only at h
      split at h
      · rename_i herr
        exact absurd (Option.some.inj h) herr
      rename_i herr
      split at h
      · rename_i hatt
        exact (hk.not_attached herr).mp hatt
      · exact (ih h : (k.linkByIndex s).2.2.programs = noPrograms)

/-- **`removeProgram`, on every path.**  Either nothing has changed, or the default slot is empty; if
it returns without an error there is no program. -/
theorem removeProgram_cases (hk : k.Documented) (polls : Nat) (s : Iface) :
    let r := k.removeProgram polls s
    (r.2.programs = s.programs ∨ r.2.programs = put s.programs (target k.native 0) none) ∧
      (r.1 = some 0 → r.2.programs = noPrograms) := by
  unfold Kernel.removeProgram
  dsimp only
  split
  · rename_i herr
    exact ⟨.inl rfl, fun h => absurd (Option.some.inj h) herr⟩
  rename_i herr
  split
  · rename_i hatt
    exact ⟨.inl rfl, fun _ => (hk.not_attached herr).mp hatt⟩
  rcases hk.set_cases none 0 (k.linkByIndex s).2.2 with ⟨herr, hp⟩ | ⟨herr, hp⟩
  · rw [if_neg (not_not.mpr herr)]
    refine ⟨.inr ((poll_programs polls _).trans hp), fun h => ?_⟩
    rw [poll_programs]
    exact poll_ok hk h
  · rw [if_pos (Int.ne_of_lt herr)]
    exact ⟨.inl hp, fun h => absurd (Option.some.inj h) (Int.ne_of_lt herr)⟩

/-! ### When `netlink.LinkByIndex` always answers -/

section
variable {s : Iface}

theorem linkByIndex_ok (hlink : ∀ n p, (k.link n p).1 = 0) (s : Iface) :
    ¬ (k.linkByIndex s).1 ≠ 0 := not_not.mpr (hlink _ _)

variable (hk : k.Documented) (hlink : ∀ n p, (k.link n p).1 = 0)
include hk hlink

theorem attached_of_ne (h : s.programs ≠ noPrograms) :
    ¬ (! isXdpAttached (k.linkByIndex s).2.1) = true :=
  fun hno => h ((hk.not_attached (linkByIndex_ok hlink s)).mp hno)

theorem not_attached_of_eq (h : s.programs = noPrograms) :
    (! isXdpAttached (k.linkByIndex s).2.1) = true :=
  (hk.not_attached (linkByIndex_ok hlink s)).mpr h

theorem poll_of_empty (h : s.programs = noPrograms) (n : Nat) :
    (k.poll (n + 1) s).1 = some 0 := by
  unfold Kernel.poll
  dsimp only
  rw [if_neg (linkByIndex_ok hlink s), if_pos (not_attached_of_eq hk hlink h)]

/-- Nobody else takes the program away. -/
theorem poll_of_attached (h : s.programs ≠ noPrograms) (polls : Nat) :
    (k.poll polls s).1 = none := by
  induction polls generalizing s with
  | zero => rfl
  | succ n ih =>
      unfold Kernel.poll
      dsimp only
      rw [if_neg (linkByIndex_ok hlink s), if_neg (attached_of_ne hk hlink h)]
      exact ih h

theorem removeProgram_of_empty (h : s.programs = noPrograms) (polls : Nat) :
    (k.removeProgram polls s).1 = some 0 := by
  unfold Kernel.removeProgram
  dsimp only
  rw [if_neg (linkByIndex_ok hlink s), if_pos (not_attached_of_eq hk hlink h)]

theorem removeProgram_of_attached (h : s.programs ≠ noPrograms)
    (hset : (k.set (s.asked + 1) s.programs none 0).1 = 0) (polls : Nat) :
    k.removeProgram polls s =
      k.poll polls (k.bpfSetLinkXdpFd none 0 (k.linkByIndex s).2.2).2 := by
  have herr : ¬ (k.bpfSetLinkXdpFd none 0 (k.linkByIndex s).2.2).1 ≠ 0 := not_not.mpr hset
  unfold Kernel.removeProgram
  dsimp only
  rw [if_neg (linkByIndex_ok hlink s), if_neg (attached_of_ne hk hlink h), if_neg herr]

end

/-- **`Attach` of the Go package, on every path.**  What is there is removed first; if that does not
come to an end, the program is not attached. -/
theorem attach_cases (hk : k.Documented) (polls : Nat) (flags prog : BitVec 32) (s : Iface) :
    let m := target k.native 0
    let r := k.attach polls flags prog s
    (r.1 = some 0 ∧ (s.programs = noPrograms ∨ put s.programs m none = noPrograms) ∧
        r.2.programs = put noPrograms (target k.native flags) (some prog)) ∨
      (r.1 ≠ some 0 ∧ (r.2.programs = s.programs ∨ r.2.programs = put s.programs m none)) := by
  have hremove := removeProgram_cases hk polls s
  unfold Kernel.attach
  dsimp only at hremove ⊢
  rcases hr : k.removeProgram polls s with ⟨r, s'⟩
  rw [hr] at hremove
  obtain ⟨hs', hnil⟩ := hremove
  split
  · rename_i heq
    obtain ⟨rfl, rfl⟩ := Prod.mk.inj heq
    have hempty : s'.programs = noPrograms := hnil rfl
    split
    · rename_i herr
      exact .inr ⟨fun h => herr (Option.some.inj h), hs'⟩
    rcases hk.set_cases (some prog) flags (k.linkByIndex s').2.2 with ⟨herr, hp⟩ | ⟨herr, hp⟩
    · refine .inl ⟨congrArg some herr, ?_, hp.trans (congrArg (put · _ _) hempty)⟩
      exact hs'.imp (fun h => h.symm.trans hempty) fun h => h.symm.trans hempty
    · refine .inr ⟨fun h => Int.ne_of_lt herr (Option.some.inj h), ?_⟩
      exact hs'.imp (fun h => hp.trans h) fun h => hp.trans h
  · rename_i hne
    exact .inr ⟨fun h => hne s' (Prod.ext h rfl), hs'⟩

/-! ## A kernel -/

/-- A kernel that never runs out of anything. -/
def netDevice (native : Bool) : Kernel where
  native := native
  dump _ := 0
  link _ p := (0, ⟨some ⟨some (p.mode != xdpAttachedNone)⟩⟩)
  set _ p prog flags :=
    let m := target native flags
    if flags &&& xdpFlagsSkbMode ≠ 0 ∧ flags &&& xdpFlagsDrvMode ≠ 0 then (-22, p)
    else
      match prog with
      | none => (0, put p m none)
      | some id =>
          if m ≠ .hw ∧ slot p m.other ≠ none then
            (if (native ∨ flags &&& xdpFlagsModes ≠ 0) ∧ flags &&& xdpFlagsHwMode = 0 then eExist
              else -95, p)
          else if flags &&& xdpFlagsUpdateIfNoexist ≠ 0 ∧ slot p m ≠ none then (-16, p)
          else if m = .drv ∧ ! native then (-95, p)
          else (0, put p m (some id))

/-- Each request is done or refused. -/
theorem netDevice_cases (native : Bool) (n : Nat) (p : Programs) (prog : Option (BitVec 32))
    (flags : BitVec 32) :
    let m := target native flags
    let r := (netDevice native).set n p prog flags
    (r.1 = 0 ∧ r.2 = put p m prog ∧ (prog ≠ none → (m ≠ .hw → slot p m.other = none) ∧
        (flags &&& xdpFlagsUpdateIfNoexist ≠ 0 → slot p m = none))) ∨
      (r.1 < 0 ∧ r.2 = p ∧ (r.1 = eExist → (native = true ∨ flags &&& xdpFlagsModes ≠ 0) ∧
        flags &&& xdpFlagsHwMode = 0 ∧ slot p m.other ≠ none)) := by
  unfold netDevice
  dsimp only
  split
  · exact .inr ⟨show (-22 : Int) < 0 by decide, rfl,
      fun h : (-22 : Int) = eExist => absurd h (by decide)⟩
  cases prog with
  | none => exact .inl ⟨rfl, rfl, fun h => absurd rfl h⟩
  | some id =>
      dsimp only
      split
      · rename_i hother
        split
        · rename_i hexist
          exact .inr ⟨show eExist < 0 by decide, rfl, fun _ => ⟨hexist.1, hexist.2, hother.2⟩⟩
        · exact .inr ⟨show (-95 : Int) < 0 by decide, rfl,
            fun h : (-95 : Int) = eExist => absurd h (by decide)⟩
      rename_i hother
      split
      · exact .inr ⟨show (-16 : Int) < 0 by decide, rfl,
          fun h : (-16 : Int) = eExist => absurd h (by decide)⟩
      rename_i hnoexist
      split
      · exact .inr ⟨show (-95 : Int) < 0 by decide, rfl,
          fun h : (-95 : Int) = eExist => absurd h (by decide)⟩
      · refine .inl ⟨rfl, rfl, fun _ => ⟨fun hm => ?_, fun hflag => ?_⟩⟩
        · exact not_not.mp fun h => hother ⟨hm, h⟩
        · exact not_not.mp fun h => hnoexist ⟨hflag, h⟩

theorem netDevice_documented (native : Bool) : (netDevice native).Documented where
  refused n p prog flags hne := by
    rcases netDevice_cases native n p prog flags with ⟨herr, -⟩ | ⟨hneg, hp, -⟩
    · exact absurd herr hne
    · exact ⟨hneg, hp⟩
  done n p prog flags herr := by
    rcases netDevice_cases native n p prog flags with ⟨-, hp, -⟩ | ⟨hneg, -⟩
    · exact hp
    · exact absurd herr (Int.ne_of_lt hneg)
  exclusive n p id flags herr hm := by
    rcases netDevice_cases native n p (some id) flags with ⟨-, -, hfree⟩ | ⟨hneg, -⟩
    · exact (hfree (Option.some_ne_none id)).1 hm
    · exact absurd herr (Int.ne_of_lt hneg)
  noexist n p id flags herr hflag := by
    rcases netDevice_cases native n p (some id) flags with ⟨-, -, hfree⟩ | ⟨hneg, -⟩
    · exact (hfree (Option.some_ne_none id)).2 hflag
    · exact absurd herr (Int.ne_of_lt hneg)
  exist n p prog flags hexist := by
    rcases netDevice_cases native n p prog flags with ⟨herr, -⟩ | ⟨-, -, hother⟩
    · exact absurd (herr.symm.trans hexist) (by decide)
    · exact hother hexist
  modes n p prog flags hskb hdrv := by
    show ((netDevice native).set n p prog flags).1 = -22
    unfold netDevice
    dsimp only
    rw [if_pos ⟨hskb, hdrv⟩]
  attached n p _ := by
    show (p.mode != xdpAttachedNone) = true ↔ _
    rw [bne_iff_ne]

/-! ## For ever in the loop -/

/-- **When `removeProgram` returns.**  If the kernel answers every request, `removeProgram` returns
exactly when nothing but the default slot was filled.  A program in another slot, such as one that
the C loader has put into the generic one of a driver with XDP, keeps it in its loop for ever. -/
theorem removeProgram_returns_iff (hk : k.Documented) (hlink : ∀ n p, (k.link n p).1 = 0)
    (hset : (k.set (s.asked + 1) s.programs none 0).1 = 0) :
    ((∃ polls, (k.removeProgram polls s).1 = some 0) ↔
        put s.programs (target k.native 0) none = noPrograms) ∧
      ∀ polls, (k.removeProgram polls s).1 = none ∨ (k.removeProgram polls s).1 = some 0 := by
  by_cases hempty : s.programs = noPrograms
  · have hremove := removeProgram_of_empty hk hlink hempty
    refine ⟨iff_of_true ⟨0, hremove 0⟩ ?_, fun polls => .inr (hremove polls)⟩
    rw [hempty]
    exact put_slot (by cases target k.native 0 <;> rfl)
  · have hprograms : (k.bpfSetLinkXdpFd none 0 (k.linkByIndex s).2.2).2.programs =
        put s.programs (target k.native 0) none := hk.done _ _ _ _ hset
    simp only [removeProgram_of_attached hk hlink hempty hset]
    by_cases hafter : put s.programs (target k.native 0) none = noPrograms
    · have hpoll := poll_of_empty hk hlink (hprograms.trans hafter)
      refine ⟨iff_of_true ⟨1, hpoll 0⟩ hafter, fun polls => ?_⟩
      cases polls with
      | zero => exact .inl rfl
      | succ n => exact .inr (hpoll n)
    · have hpoll := poll_of_attached hk hlink fun h => hafter (hprograms.symm.trans h)
      refine ⟨iff_of_false (fun ⟨n, hn⟩ => ?_) hafter, fun polls => .inl (hpoll polls)⟩
      rw [hpoll n] at hn
      cases hn

/-- The generic program of a driver with XDP. -/
theorem removeProgram_returns_iff_generic :
    ¬ ∃ polls, ((netDevice true).removeProgram polls ⟨⟨none, some 7, none⟩, 0⟩).1 = some 0 := by
  refine mt (removeProgram_returns_iff (s := ⟨⟨none, some 7, none⟩, 0⟩)
    (netDevice_documented true) (fun _ _ => rfl) rfl).1.mp ?_
  exact fun h => nomatch congrArg Programs.skb h

end LinkAttach
end AfXdpSwitch
