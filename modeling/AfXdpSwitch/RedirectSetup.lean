import AfXdpSwitch.XdpRedirect

/-!
# Redirect set-up: `packet03-redirecting/xdp_prog_user.c`

The user-space program sets up `xdp_redirect_map_func` for one interface.  It writes the port
into `tx_port[0]` and then the pair of MAC addresses into `redirect_params`, a hash map with room
for one entry.  The return value of the first update is not looked at, and when the second step
fails the first is not undone.

Each invocation comes with what the kernel does with its calls: any of them may fail, and a
failed update does not change the map.
-/

namespace AfXdpSwitch
open Packet03

/-- `EXIT_OK`. -/
def exitOk : Int := 0
/-- `EXIT_FAIL_OPTION`. -/
def exitFailOption : Int := 2
/-- `EXIT_FAIL_BPF`. -/
def exitFailBpf : Int := 40

/-! ## The arguments -/

/-- A text of the command line: the bytes before the zero that ends it. -/
structure CString where
  bytes : List (BitVec 8)
  noZero : 0 ∉ bytes
  deriving DecidableEq

/-- The bytes of a text in ASCII. -/
def ascii (text : String) : List (BitVec 8) := text.toList.map fun c => BitVec.ofNat 8 c.toNat

/-- The part of `struct config` that is used.  A text of `--src-mac` or `--dest-mac` with 18 or more
bytes fills its array and is not terminated there. -/
structure Config where
  ifindex : Int
  ifname : CString
  redirectIfindex : Int
  srcMac : Vector (BitVec 8) 18
  destMac : Vector (BitVec 8) 18

/-- `strncpy` into an array of `n` bytes, the rest of which is filled with zeros. -/
def strncpy (n : Nat) (text : CString) : Vector (BitVec 8) n :=
  Vector.ofFn fun i => text.bytes.getD i 0

/-- `0` to `9`, `a` to `f` and `A` to `F`. -/
def hexDigit (c : BitVec 8) : Option Nat :=
  if 0x30 ≤ c ∧ c ≤ 0x39 then some (c.toNat - 0x30)
  else if 0x61 ≤ c ∧ c ≤ 0x66 then some (c.toNat - 0x61 + 10)
  else if 0x41 ≤ c ∧ c ≤ 0x46 then some (c.toNat - 0x41 + 10)
  else none

/-- The blank and the controls from the tab to the carriage return. -/
def isSpace (c : BitVec 8) : Bool := c ∈ [0x20, 0x09, 0x0A, 0x0B, 0x0C, 0x0D]

/-- The digits up to the first byte that is none. -/
def hexValue : Nat → List (BitVec 8) → Nat
  | z, [] => z
  | z, c :: str =>
      match hexDigit c with
      | some digit => hexValue (16 * z + digit) str
      | none => z

/-- `strtoul` to base 16: white space, a sign, `0x` and the digits.  Too large a number is
`ULONG_MAX`. -/
def strtoul (str : List (BitVec 8)) : Nat :=
  let str := str.dropWhile isSpace
  let (negative, str) := match str with
    | 0x2D :: str => (true, str) -- '-'
    | 0x2B :: str => (false, str) -- '+'
    | str => (false, str)
  let digits := match str with
    -- '0', and 'x' or 'X'
    | 0x30 :: x :: c :: rest => if (x = 0x78 ∨ x = 0x58) ∧ (hexDigit c).isSome then c :: rest else str
    | str => str
  let z := hexValue 0 digits
  if z ≥ 2 ^ 64 then 2 ^ 64 - 1 else if negative then (2 ^ 64 - z) % 2 ^ 64 else z

/-- `parse_u8`. -/
def parseU8 (str : List (BitVec 8)) : Option (BitVec 8) :=
  let z := strtoul str
  if z > 0xff then none else some (BitVec.ofNat 8 z)

/-- `parse_mac`: six groups, each at its place, whatever stands between them. -/
def parseMac (str : List (BitVec 8)) : Option Mac := do
  let b0 ← parseU8 str
  let b1 ← parseU8 (str.drop 3)
  let b2 ← parseU8 (str.drop 6)
  let b3 ← parseU8 (str.drop 9)
  let b4 ← parseU8 (str.drop 12)
  let b5 ← parseU8 (str.drop 15)
  return #v[b0, b1, b2, b3, b4, b5]

/-- What `cfg.src_mac` points to: the array, and behind it `cfg.dest_mac`. -/
def Config.srcText (cfg : Config) : List (BitVec 8) := cfg.srcMac.toList ++ cfg.destMac.toList

/-- What `cfg.dest_mac` points to; it is followed by flags, which are no digits. -/
def Config.destText (cfg : Config) : List (BitVec 8) := cfg.destMac.toList

/-! ## The maps -/

/-- The maps that are pinned for one interface.  `tx_port` has the port in its slot `0`, and
`redirect_params` no entry or one. -/
structure RedirectMaps where
  txPort : BitVec 32 → Option Int
  redirectParams : Option (Mac × Mac)

namespace RedirectMaps

/-- `bpf_map_lookup_elem` of `redirect_params`. -/
def lookup (maps : RedirectMaps) (src : Mac) : Option Mac :=
  match maps.redirectParams with
  | some (key, dest) => if key = src then some dest else none
  | none => none

/-- There is room for the key: it is there already, or no other is. -/
def HasRoom (maps : RedirectMaps) (src : Mac) : Prop :=
  ∀ entry ∈ maps.redirectParams, entry.1 = src

instance (maps : RedirectMaps) (src : Mac) : Decidable (maps.HasRoom src) :=
  inferInstanceAs (Decidable (∀ entry ∈ maps.redirectParams, entry.1 = src))

/-- `bpf_map_update_elem` of `tx_port`, where `done` says whether the kernel does it. -/
def updateTxPort (maps : RedirectMaps) (done : Bool) (key : BitVec 32) (ifindex : Int) :
    Int × RedirectMaps :=
  if done then (0, { maps with txPort := Function.update maps.txPort key (some ifindex) })
  else (-1, maps)

/-- `bpf_map_update_elem` of `redirect_params`. -/
def updateRedirectParams (maps : RedirectMaps) (done : Bool) (src dest : Mac) : Int × RedirectMaps :=
  if done ∧ maps.HasRoom src then (0, { maps with redirectParams := some (src, dest) })
  else (-1, maps)

/-- `bpf_redirect_map` on `tx_port`: an empty slot gives the action in the flags. -/
def bpfRedirectMap (maps : RedirectMaps) (key : BitVec 32) (flags : BitVec 64) : BitVec 32 :=
  if (maps.txPort key).isSome then xdpRedirect else (flags &&& 3).setWidth 32

end RedirectMaps

/-- What the kernel does with the calls of one invocation. -/
structure Outcomes where
  openTxPort : Bool
  updateTxPort : Bool
  openRedirectParams : Bool
  updateRedirectParams : Bool

/-- `write_iface_params`. -/
def writeIfaceParams (out : Outcomes) (maps : RedirectMaps) (src dest : Mac) : Int × RedirectMaps :=
  let (ret, maps) := maps.updateRedirectParams out.updateRedirectParams src dest
  if ret < 0 then (-1, maps) else (0, maps)

/-- The two steps for a redirect. -/
def setupRedirect (cfg : Config) (out : Outcomes) (maps : RedirectMaps) (src dest : Mac) :
    Int × RedirectMaps :=
  -- the result of this update is dropped
  let (_, maps) := maps.updateTxPort out.updateTxPort 0 cfg.redirectIfindex
  if ¬ out.openRedirectParams then (exitFailBpf, maps)
  else
    let (ret, maps) := writeIfaceParams out maps src dest
    if ret < 0 then (1, maps) else (exitOk, maps)

/-- `main`, once the command line is parsed: the exit code and the maps. -/
def setupMain (cfg : Config) (out : Outcomes) (maps : RedirectMaps) : Int × RedirectMaps :=
  if cfg.redirectIfindex > 0 ∧ cfg.ifindex = -1 then (exitFailOption, maps)
  else
    match parseMac cfg.srcText with
    | none => (exitFailOption, maps)
    | some src =>
        match parseMac cfg.destText with
        | none => (exitFailOption, maps)
        | some dest =>
            if ¬ out.openTxPort then (exitFailBpf, maps)
            else if cfg.ifindex > 0 ∧ cfg.redirectIfindex > 0 then setupRedirect cfg out maps src dest
            else (exitOk, maps)

/-! ## Invocations -/

/-- The maps of every interface, which are pinned under its name. -/
abbrev PinnedMaps := CString → RedirectMaps

/-- One invocation, with a `--dev` and a `--redirect-dev` that name interfaces. -/
structure Invocation where
  cfg : Config
  out : Outcomes
  dev : 0 < cfg.ifindex
  redirectDev : 0 < cfg.redirectIfindex

/-- The invocation, on the maps that are pinned for its interface. -/
def Invocation.run (inv : Invocation) (pinned : PinnedMaps) : Int × PinnedMaps :=
  let (exit, maps) := setupMain inv.cfg inv.out (pinned inv.cfg.ifname)
  (exit, Function.update pinned inv.cfg.ifname maps)

/-- `P` holds of every invocation and the maps it finds. -/
def Throughout (P : Invocation → PinnedMaps → Prop) : List Invocation → PinnedMaps → Prop
  | [], _ => True
  | inv :: invs, pinned => P inv pinned ∧ Throughout P invs (inv.run pinned).2

/-- Frames from `src` are rewritten to go to `dest` and redirected, and the port is `port`. -/
def Forwards (maps : RedirectMaps) (src dest : Mac) (port : Int) : Prop :=
  maps.txPort 0 = some port ∧ ∀ s : XdpState, s.ctx.data + 14 ≤ s.ctx.dataEnd →
    s.ctx.mac (s.ctx.data + 6) = src → ∃ s',
      xdpRedirectMapFunc maps.lookup maps.bpfRedirectMap s = .ok (xdpRedirect, s') ∧
      s'.ctx = { s.ctx with mem := s.ctx.mem.write s.ctx.data dest.toList }

/-- An invocation sets up all or changes nothing.  Where it changes nothing, frames that were
forwarded before still are. -/
structure AllOrNothing (inv : Invocation) (pinned : PinnedMaps) : Prop where
  all : (inv.run pinned).1 = exitOk → ∃ src dest, parseMac inv.cfg.srcText = some src ∧
    parseMac inv.cfg.destText = some dest ∧
    ((inv.run pinned).2 inv.cfg.ifname).txPort 0 = some inv.cfg.redirectIfindex ∧
    ((inv.run pinned).2 inv.cfg.ifname).lookup src = some dest ∧
    Forwards ((inv.run pinned).2 inv.cfg.ifname) src dest inv.cfg.redirectIfindex
  nothing : (inv.run pinned).1 ≠ exitOk → (inv.run pinned).2 = pinned

/-- `redirect_params` can be opened and takes the entry. -/
def Accepts (out : Outcomes) (maps : RedirectMaps) (src : Mac) : Prop :=
  out.openRedirectParams = true ∧ out.updateRedirectParams = true ∧ maps.HasRoom src

instance (out : Outcomes) (maps : RedirectMaps) (src : Mac) : Decidable (Accepts out maps src) :=
  inferInstanceAs (Decidable (_ ∧ _))

/-- An invocation that gets to the maps finds its port in `tx_port[0]` already, or the update of
`tx_port` succeeds exactly when `redirect_params` takes the entry. -/
def StepsAgree (inv : Invocation) (pinned : PinnedMaps) : Prop :=
  ∀ src dest, parseMac inv.cfg.srcText = some src → parseMac inv.cfg.destText = some dest →
    inv.out.openTxPort = true →
    (pinned inv.cfg.ifname).txPort 0 = some inv.cfg.redirectIfindex ∨
    (inv.out.updateTxPort = true ↔ Accepts inv.out (pinned inv.cfg.ifname) src)

/-! ## The data path -/

/-- What the maps have to hold for frames to be forwarded. -/
theorem forwards_of_maps {maps : RedirectMaps} {src dest : Mac} {port : Int}
    (hport : maps.txPort 0 = some port) (hlookup : maps.lookup src = some dest) :
    Forwards maps src dest port := by
  refine ⟨hport, fun s hroom hsource => ?_⟩
  have hredirect : maps.bpfRedirectMap 0 0 = xdpRedirect := by
    unfold RedirectMaps.bpfRedirectMap
    rw [if_pos (by rw [hport]; rfl)]
  have hbody := redirectMapAction_ok maps.lookup maps.bpfRedirectMap hroom
  rw [hsource, hlookup] at hbody
  simp only [hredirect] at hbody
  exact ⟨_, recorded_ok hbody (by decide), rfl⟩

/-! ## One invocation -/

section
variable {cfg : Config} {out : Outcomes} {maps : RedirectMaps} {src dest : Mac}

/-- `tx_port` after the first step. -/
def portWritten (cfg : Config) (out : Outcomes) (maps : RedirectMaps) : BitVec 32 → Option Int :=
  if out.updateTxPort then Function.update maps.txPort 0 (some cfg.redirectIfindex) else maps.txPort

theorem portWritten_zero : portWritten cfg out maps 0 = some cfg.redirectIfindex ↔
    maps.txPort 0 = some cfg.redirectIfindex ∨ out.updateTxPort = true := by
  unfold portWritten
  by_cases hupdate : out.updateTxPort = true
  · rw [if_pos hupdate, Function.update_self]
    exact iff_of_true rfl (.inr hupdate)
  · rw [if_neg hupdate]
    exact ⟨.inl, fun h => h.resolve_right hupdate⟩

theorem portWritten_eq : portWritten cfg out maps = maps.txPort ↔
    maps.txPort 0 = some cfg.redirectIfindex ∨ ¬ out.updateTxPort = true := by
  unfold portWritten
  by_cases hupdate : out.updateTxPort = true
  · rw [if_pos hupdate, Function.update_eq_self_iff, eq_comm]
    exact ⟨.inl, fun h => h.resolve_right (not_not_intro hupdate)⟩
  · rw [if_neg hupdate]
    exact iff_of_true rfl (.inr hupdate)

theorem updateTxPort_snd : (maps.updateTxPort out.updateTxPort 0 cfg.redirectIfindex).2 =
    { maps with txPort := portWritten cfg out maps } := by
  unfold RedirectMaps.updateTxPort portWritten
  split
  · rfl
  · rfl

theorem setupRedirect_accepted (cfg : Config) (dest : Mac) (h : Accepts out maps src) :
    setupRedirect cfg out maps src dest =
      (exitOk, ⟨portWritten cfg out maps, some (src, dest)⟩) := by
  obtain ⟨hopen, hupdate, hroom⟩ := h
  have hwrite : ∀ port, RedirectMaps.updateRedirectParams ⟨port, maps.redirectParams⟩
      out.updateRedirectParams src dest = (0, ⟨port, some (src, dest)⟩) :=
    fun port => if_pos ⟨hupdate, hroom⟩
  simp only [setupRedirect, updateTxPort_snd, writeIfaceParams, hwrite, hopen, not_true_eq_false,
    if_false]
  rfl

theorem setupRedirect_refused (cfg : Config) (dest : Mac) (h : ¬ Accepts out maps src) :
    ∃ exit, exit ≠ exitOk ∧ setupRedirect cfg out maps src dest =
      (exit, { maps with txPort := portWritten cfg out maps }) := by
  by_cases hopen : out.openRedirectParams = true
  · have hrefused : ¬ (out.updateRedirectParams = true ∧ maps.HasRoom src) := fun h' => h ⟨hopen, h'⟩
    have hwrite : ∀ port, RedirectMaps.updateRedirectParams ⟨port, maps.redirectParams⟩
        out.updateRedirectParams src dest = (-1, ⟨port, maps.redirectParams⟩) :=
      fun port => if_neg hrefused
    refine ⟨1, by decide, ?_⟩
    simp only [setupRedirect, updateTxPort_snd, writeIfaceParams, hwrite, hopen, not_true_eq_false,
      if_false]
    rfl
  · refine ⟨exitFailBpf, by decide, ?_⟩
    simp only [setupRedirect, updateTxPort_snd]
    rw [if_pos hopen]

end

section
variable {inv : Invocation} {pinned : PinnedMaps} {src dest : Mac}

/-- An invocation gets to the maps when both addresses parse and `tx_port` can be opened. -/
theorem setupMain_reached (hsrc : parseMac inv.cfg.srcText = some src)
    (hdest : parseMac inv.cfg.destText = some dest) (hopen : inv.out.openTxPort = true)
    (maps : RedirectMaps) :
    setupMain inv.cfg inv.out maps = setupRedirect inv.cfg inv.out maps src dest := by
  have hdev := inv.dev
  have hredirect := inv.redirectDev
  unfold setupMain
  rw [if_neg (by omega)]
  simp only [hsrc, hdest, hopen, not_true_eq_false, if_false]
  rw [if_pos ⟨hdev, hredirect⟩]

/-- Else it fails before it has changed anything. -/
theorem setupMain_unreached (h : ∀ src dest, parseMac inv.cfg.srcText = some src →
    parseMac inv.cfg.destText = some dest → inv.out.openTxPort ≠ true) (maps : RedirectMaps) :
    ∃ exit, exit ≠ exitOk ∧ setupMain inv.cfg inv.out maps = (exit, maps) := by
  have hdev := inv.dev
  unfold setupMain
  rw [if_neg (by omega)]
  cases hsrc : parseMac inv.cfg.srcText with
  | none => exact ⟨exitFailOption, by decide, rfl⟩
  | some src =>
      cases hdest : parseMac inv.cfg.destText with
      | none => exact ⟨exitFailOption, by decide, rfl⟩
      | some dest =>
          have hclosed := h src dest hsrc hdest
          exact ⟨exitFailBpf, by decide, if_pos hclosed⟩

theorem run_of_setupMain {exit : Int} {maps : RedirectMaps}
    (h : setupMain inv.cfg inv.out (pinned inv.cfg.ifname) = (exit, maps)) :
    (inv.run pinned).1 = exit ∧ (inv.run pinned).2 = Function.update pinned inv.cfg.ifname maps := by
  unfold Invocation.run
  rw [h]
  exact ⟨rfl, rfl⟩

/-- Both steps done is all there is to do. -/
theorem allOrNothing_accepted (hsrc : parseMac inv.cfg.srcText = some src)
    (hdest : parseMac inv.cfg.destText = some dest) (hopen : inv.out.openTxPort = true)
    (h : Accepts inv.out (pinned inv.cfg.ifname) src) : AllOrNothing inv pinned ↔
      portWritten inv.cfg inv.out (pinned inv.cfg.ifname) 0 = some inv.cfg.redirectIfindex := by
  obtain ⟨hexit, hpinned⟩ := run_of_setupMain ((setupMain_reached hsrc hdest hopen _).trans
    (setupRedirect_accepted inv.cfg dest h))
  have hmaps : (inv.run pinned).2 inv.cfg.ifname =
      ⟨portWritten inv.cfg inv.out (pinned inv.cfg.ifname), some (src, dest)⟩ := by
    rw [hpinned, Function.update_self]
  constructor
  · intro hall
    obtain ⟨_, _, _, _, hport, _⟩ := hall.all hexit
    rwa [hmaps] at hport
  · intro hport
    refine ⟨fun _ => ⟨src, dest, hsrc, hdest, ?_⟩, fun hne => absurd hexit hne⟩
    have hlookup : RedirectMaps.lookup
        ⟨portWritten inv.cfg inv.out (pinned inv.cfg.ifname), some (src, dest)⟩ src = some dest :=
      if_pos rfl
    rw [hmaps]
    exact ⟨hport, hlookup, forwards_of_maps hport hlookup⟩

/-- After a refused entry the port must not have changed. -/
theorem allOrNothing_refused (hsrc : parseMac inv.cfg.srcText = some src)
    (hdest : parseMac inv.cfg.destText = some dest) (hopen : inv.out.openTxPort = true)
    (h : ¬ Accepts inv.out (pinned inv.cfg.ifname) src) : AllOrNothing inv pinned ↔
      portWritten inv.cfg inv.out (pinned inv.cfg.ifname) = (pinned inv.cfg.ifname).txPort := by
  obtain ⟨exit, hne, hrefused⟩ := setupRedirect_refused inv.cfg dest h
  obtain ⟨hexit, hpinned⟩ :=
    run_of_setupMain ((setupMain_reached hsrc hdest hopen _).trans hrefused)
  constructor
  · intro hall
    have hsame := hall.nothing (by rwa [hexit])
    rw [hpinned, Function.update_eq_self_iff] at hsame
    exact congrArg RedirectMaps.txPort hsame
  · intro hport
    refine ⟨fun hok => absurd (hexit.symm.trans hok) hne, fun _ => ?_⟩
    rw [hpinned, Function.update_eq_self_iff, hport]

/-- **One invocation.**  It sets up all or nothing exactly when its two steps agree. -/
theorem allOrNothing_iff (inv : Invocation) (pinned : PinnedMaps) :
    AllOrNothing inv pinned ↔ StepsAgree inv pinned := by
  by_cases hreached : ∃ src dest, parseMac inv.cfg.srcText = some src ∧
      parseMac inv.cfg.destText = some dest ∧ inv.out.openTxPort = true
  · obtain ⟨src, dest, hsrc, hdest, hopen⟩ := hreached
    have hagree : StepsAgree inv pinned ↔
        (pinned inv.cfg.ifname).txPort 0 = some inv.cfg.redirectIfindex ∨
        (inv.out.updateTxPort = true ↔ Accepts inv.out (pinned inv.cfg.ifname) src) := by
      constructor
      · exact fun h => h src dest hsrc hdest hopen
      · intro h src' dest' hsrc' _ _
        obtain rfl : src = src' := Option.some.inj (hsrc.symm.trans hsrc')
        exact h
    rw [hagree]
    by_cases haccepts : Accepts inv.out (pinned inv.cfg.ifname) src
    · rw [allOrNothing_accepted hsrc hdest hopen haccepts, portWritten_zero, iff_true_right haccepts]
    · rw [allOrNothing_refused hsrc hdest hopen haccepts, portWritten_eq, iff_false_right haccepts]
  · have hunreached : ∀ src dest, parseMac inv.cfg.srcText = some src →
        parseMac inv.cfg.destText = some dest → inv.out.openTxPort ≠ true :=
      fun src dest hsrc hdest hopen => hreached ⟨src, dest, hsrc, hdest, hopen⟩
    obtain ⟨exit, hexit, hmain⟩ := setupMain_unreached hunreached (pinned inv.cfg.ifname)
    obtain ⟨hrun, hpinned⟩ := run_of_setupMain hmain
    rw [Function.update_eq_self] at hpinned
    refine iff_of_true ⟨fun hok => absurd (hrun.symm.trans hok) hexit, fun _ => hpinned⟩ ?_
    exact fun src dest hsrc hdest hopen => absurd hopen (hunreached src dest hsrc hdest)

end

/-! ## Sequences of invocations -/

theorem throughout_congr {P Q : Invocation → PinnedMaps → Prop}
    (h : ∀ inv pinned, P inv pinned ↔ Q inv pinned) (invs : List Invocation) (pinned : PinnedMaps) :
    Throughout P invs pinned ↔ Throughout Q invs pinned := by
  induction invs generalizing pinned with
  | nil => exact Iff.rfl
  | cons inv invs ih => exact and_congr (h inv pinned) (ih _)

/-- **Redirect set-up.**  From any maps and over any sequence of invocations, every invocation sets
up all or nothing exactly when at every one of them the two steps agree. -/
theorem setup_all_or_nothing_iff (invs : List Invocation) (pinned : PinnedMaps) :
    Throughout AllOrNothing invs pinned ↔ Throughout StepsAgree invs pinned :=
  throughout_congr allOrNothing_iff invs pinned

/-- The name of an interface. -/
def veth0 : CString := ⟨ascii "veth0", by decide⟩

/-- An invocation for `veth0` whose calls the kernel all carries out. -/
def invocation (redirectIfindex : Nat) (srcMac destMac : CString) : Invocation where
  cfg := ⟨2, veth0, redirectIfindex + 1, strncpy 18 srcMac, strncpy 18 destMac⟩
  out := ⟨true, true, true, true⟩
  dev := show (0 : Int) < 2 by decide
  redirectDev := by
    show (0 : Int) < redirectIfindex + 1
    omega

/-- A first redirect. -/
def firstSetup : Invocation :=
  invocation 2 ⟨ascii "02:00:00:00:00:01", by decide⟩ ⟨ascii "02:00:00:00:00:02", by decide⟩

/-- The same interface, but another source. -/
def secondSetup : Invocation :=
  invocation 6 ⟨ascii "02:00:00:00:00:03", by decide⟩ ⟨ascii "02:00:00:00:00:04", by decide⟩

/-- Before any invocation. -/
def emptyMaps : PinnedMaps := fun _ => ⟨fun _ => none, none⟩

/-- `redirect_params` has no room for the second source.  The invocation fails, and the frames of
the first source now go to its port. -/
theorem setup_second_source :
    ¬ Throughout AllOrNothing [firstSetup, secondSetup] emptyMaps ∧
    ((firstSetup.run emptyMaps).2 veth0).txPort 0 = some 3 ∧
    (secondSetup.run (firstSetup.run emptyMaps).2).1 = 1 ∧
    ((secondSetup.run (firstSetup.run emptyMaps).2).2 veth0).txPort 0 = some 7 ∧
    ((secondSetup.run (firstSetup.run emptyMaps).2).2 veth0).lookup #v[2, 0, 0, 0, 0, 1] =
      some #v[2, 0, 0, 0, 0, 2] := by
  have hport : ((firstSetup.run emptyMaps).2 veth0).txPort 0 = some 3 := by decide
  have hexit : (secondSetup.run (firstSetup.run emptyMaps).2).1 = 1 := by decide
  have hmoved : ((secondSetup.run (firstSetup.run emptyMaps).2).2 veth0).txPort 0 = some 7 := by
    decide
  refine ⟨fun hthroughout => ?_, hport, hexit, hmoved, by decide⟩
  obtain ⟨-, hsecond, -⟩ := hthroughout
  have hsame := hsecond.nothing (by rw [hexit]; decide)
  rw [hsame, hport] at hmoved
  exact absurd hmoved (by decide)

end AfXdpSwitch
