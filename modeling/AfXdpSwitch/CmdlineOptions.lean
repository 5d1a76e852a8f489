import Mathlib.Data.List.Induction
import Mathlib.Algebra.Ring.Int.Defs
import AfXdpSwitch.RedirectSetup

/-!
# `parse_cmdline_args` of `common/common_params.c`

The options are taken one after the other, each on the config that the ones before it have left.
`getopt_long` is the list of the options it returns.

A mode option clears the mode bits of `xdp_flags` before it sets its own, so the last one wins.
The options that choose how the socket is bound are meant to do the same with `XDP_COPY` and
`XDP_ZEROCOPY`, but they keep the bit that they should clear: once a copy option and the
zero-copy option have both been given, both bits stay set.
-/

namespace AfXdpSwitch

/-- `XDP_FLAGS_UPDATE_IF_NOEXIST`. -/
def xdpFlagsUpdateIfNoexist : BitVec 32 := 1 <<< 0
/-- `XDP_FLAGS_SKB_MODE`. -/
def xdpFlagsSkbMode : BitVec 32 := 1 <<< 1
/-- `XDP_FLAGS_DRV_MODE`. -/
def xdpFlagsDrvMode : BitVec 32 := 1 <<< 2
/-- `XDP_FLAGS_HW_MODE`. -/
def xdpFlagsHwMode : BitVec 32 := 1 <<< 3
/-- `XDP_FLAGS_MODES`. -/
def xdpFlagsModes : BitVec 32 := xdpFlagsSkbMode ||| xdpFlagsDrvMode ||| xdpFlagsHwMode
/-- `XDP_COPY`. -/
def xdpCopy : BitVec 16 := 1 <<< 1
/-- `XDP_ZEROCOPY`. -/
def xdpZerocopy : BitVec 16 := 1 <<< 2
/-- `IF_NAMESIZE`. -/
def ifNamesize : Nat := 16

/-- `struct config`, with the global `verbose`.  `ifname` and `redirect_ifname` are the texts in
their buffers; `pin_dir` is not the parser's. -/
structure CmdlineConfig extends Config where
  xdpFlags : BitVec 32
  redirectIfname : CString
  doUnload : Bool
  reuseMaps : Bool
  filename : Vector (BitVec 8) 512
  progsec : Vector (BitVec 8) 32
  xskBindFlags : BitVec 16
  xskIfQueue : Int
  xskPollMode : Bool
  verbose : Bool

/-- What `getopt_long` returns, with its argument. -/
inductive CmdlineOption where
  | d (optarg : CString)
  | r (optarg : CString)
  | A
  | S
  | N
  | offloadMode
  | F
  | M
  | U
  | p
  | q
  | Q (optarg : CString)
  | filename (optarg : CString)
  | progsec (optarg : CString)
  | L (optarg : CString)
  | R (optarg : CString)
  | c
  | z
  | h
  | unknown
  deriving DecidableEq

/-- The decimal digits up to the first byte that is none. -/
def decimalValue : Nat → List (BitVec 8) → Nat
  | n, [] => n
  | n, c :: str =>
      if 0x30 ≤ c ∧ c ≤ 0x39 then decimalValue (10 * n + (c.toNat - 0x30)) str else n

/-- `atoi` is `strtol` to base 10, cut off to an `int`. -/
def atoi (text : CString) : Int :=
  let value : Int := match text.bytes.dropWhile isSpace with
    | 0x2D :: str => max (-(decimalValue 0 str : Int)) (-2 ^ 63) -- '-'
    | 0x2B :: str => min (decimalValue 0 str : Int) (2 ^ 63 - 1) -- '+'
    | str => min (decimalValue 0 str : Int) (2 ^ 63 - 1)
  value.bmod (2 ^ 32)

namespace CmdlineConfig

/-- Clear the mode bits, then set the one of the option. -/
def setMode (cfg : CmdlineConfig) (mode : BitVec 32) : CmdlineConfig :=
  { cfg with xdpFlags := cfg.xdpFlags &&& ~~~xdpFlagsModes ||| mode }

/-- `cfg->xsk_bind_flags &= mask` and `|= flag`. -/
def bindWith (cfg : CmdlineConfig) (mask flag : BitVec 16) : CmdlineConfig :=
  { cfg with xskBindFlags := cfg.xskBindFlags &&& mask ||| flag }

end CmdlineConfig

open CmdlineConfig

/-- One round of the loop, or the exit code. -/
def applyOption (ifNametoindex : CString → BitVec 32) (cfg : CmdlineConfig) :
    CmdlineOption → Except Int CmdlineConfig
  | .d optarg =>
      if optarg.bytes.length ≥ ifNamesize then .error exitFailOption
      else if ifNametoindex optarg = 0 then .error exitFailOption
      else .ok { cfg with ifname := optarg, ifindex := (ifNametoindex optarg).toInt }
  | .r optarg =>
      if optarg.bytes.length ≥ ifNamesize then .error exitFailOption
      else if ifNametoindex optarg = 0 then .error exitFailOption
      else .ok { cfg with
        redirectIfname := optarg, redirectIfindex := (ifNametoindex optarg).toInt }
  | .A => .ok { cfg with xdpFlags := cfg.xdpFlags &&& ~~~xdpFlagsModes }
  | .S => .ok ((cfg.setMode xdpFlagsSkbMode).bindWith xdpZerocopy xdpCopy)
  | .N => .ok (cfg.setMode xdpFlagsDrvMode)
  | .offloadMode => .ok (cfg.setMode xdpFlagsHwMode)
  | .F => .ok { cfg with xdpFlags := cfg.xdpFlags &&& ~~~xdpFlagsUpdateIfNoexist }
  | .M => .ok { cfg with reuseMaps := true }
  | .U => .ok { cfg with doUnload := true }
  | .p => .ok { cfg with xskPollMode := true }
  | .q => .ok { cfg with verbose := false }
  | .Q optarg => .ok { cfg with xskIfQueue := atoi optarg }
  | .filename optarg => .ok { cfg with filename := strncpy 512 optarg }
  | .progsec optarg => .ok { cfg with progsec := strncpy 32 optarg }
  | .L optarg => .ok { cfg with srcMac := strncpy 18 optarg }
  | .R optarg => .ok { cfg with destMac := strncpy 18 optarg }
  | .c => .ok (cfg.bindWith xdpZerocopy xdpCopy)
  | .z => .ok (cfg.bindWith xdpCopy xdpZerocopy)
  | .h | .unknown => .error exitFailOption

/-- The loop over the options, from the config of the caller. -/
def parseCmdlineArgs (ifNametoindex : CString → BitVec 32) (opts : List CmdlineOption)
    (cfg : CmdlineConfig) : Except Int CmdlineConfig :=
  opts.foldlM (applyOption ifNametoindex) cfg

/-! ## The options that touch flags -/

/-- The mode that a mode option asks for. -/
def CmdlineOption.mode : CmdlineOption → Option (BitVec 32)
  | .A => some 0
  | .S => some xdpFlagsSkbMode
  | .N => some xdpFlagsDrvMode
  | .offloadMode => some xdpFlagsHwMode
  | _ => none

/-- How an option asks for the socket to be bound. -/
def CmdlineOption.binding : CmdlineOption → Option (BitVec 16)
  | .S | .c => some xdpCopy
  | .z => some xdpZerocopy
  | _ => none

/-- The options that touch one of the two flag words. -/
def CmdlineOption.IsFlag (opt : CmdlineOption) : Prop :=
  opt ∈ [.A, .S, .N, .offloadMode, .F, .c, .z]

instance (opt : CmdlineOption) : Decidable opt.IsFlag :=
  inferInstanceAs (Decidable (opt ∈ [.A, .S, .N, .offloadMode, .F, .c, .z]))

/-- No two mode bits are set. -/
def OneMode (flags : BitVec 32) : Prop :=
  flags &&& xdpFlagsModes ∈ [0, xdpFlagsSkbMode, xdpFlagsDrvMode, xdpFlagsHwMode]

/-- **The last one wins**, among the mode options and among those that choose a binding. -/
structure LastOneWins (cfg : CmdlineConfig) (opts : List CmdlineOption) (cfg' : CmdlineConfig) :
    Prop where
  oneMode : OneMode cfg'.xdpFlags
  lastMode : cfg'.xdpFlags &&& xdpFlagsModes =
    ((opts.filterMap CmdlineOption.mode).getLast?).getD (cfg.xdpFlags &&& xdpFlagsModes)
  oneBinding : cfg'.xskBindFlags &&& xdpCopy = 0 ∨ cfg'.xskBindFlags &&& xdpZerocopy = 0
  lastBinding : cfg'.xskBindFlags &&& (xdpCopy ||| xdpZerocopy) =
    ((opts.filterMap CmdlineOption.binding).getLast?).getD 0

/-! ## One option -/

section
variable {cfg : CmdlineConfig} {opt : CmdlineOption}
  {opts : List CmdlineOption}

theorem setMode_modes (mode : BitVec 32) (h : mode &&& xdpFlagsModes = mode) :
    (cfg.setMode mode).xdpFlags &&& xdpFlagsModes = mode := by
  show (cfg.xdpFlags &&& ~~~xdpFlagsModes ||| mode) &&& xdpFlagsModes = mode
  rw [BitVec.and_comm, BitVec.and_or_distrib_left, BitVec.and_comm xdpFlagsModes mode, h,
    BitVec.and_comm xdpFlagsModes, BitVec.and_assoc, show ~~~xdpFlagsModes &&& xdpFlagsModes = 0#32 by
      decide, BitVec.and_zero, BitVec.zero_or]

/-- What is left of the flags when the bits of `mask` have been cleared. -/
theorem cleared_modes (flags mask : BitVec 32) :
    flags &&& ~~~mask &&& xdpFlagsModes = flags &&& (~~~mask &&& xdpFlagsModes) :=
  BitVec.and_assoc _ _ _

/-- The bind flags that an option leaves. -/
def CmdlineOption.bindAfter (opt : CmdlineOption) (flags : BitVec 16) : BitVec 16 :=
  match opt.binding with
  | none => flags
  | some flag => flags &&& (if flag = xdpCopy then xdpZerocopy else xdpCopy) ||| flag

/-- What one option does to the mode bits and to the bind flags. -/
theorem applyOption_flag (ifNametoindex : CString → BitVec 32) (h : opt.IsFlag) (cfg : CmdlineConfig) :
    ∃ cfg', applyOption ifNametoindex cfg opt = .ok cfg' ∧
      cfg'.xdpFlags &&& xdpFlagsModes = opt.mode.getD (cfg.xdpFlags &&& xdpFlagsModes) ∧
      cfg'.xskBindFlags = opt.bindAfter cfg.xskBindFlags := by
  simp only [CmdlineOption.IsFlag, List.mem_cons, List.not_mem_nil, or_false] at h
  rcases h with rfl | rfl | rfl | rfl | rfl | rfl | rfl
  · refine ⟨_, rfl, ?_, rfl⟩
    rw [cleared_modes, show ~~~xdpFlagsModes &&& xdpFlagsModes = 0#32 by decide, BitVec.and_zero]
    rfl
  · exact ⟨_, rfl, setMode_modes xdpFlagsSkbMode (by decide), rfl⟩
  · exact ⟨_, rfl, setMode_modes xdpFlagsDrvMode (by decide), rfl⟩
  · exact ⟨_, rfl, setMode_modes xdpFlagsHwMode (by decide), rfl⟩
  · refine ⟨_, rfl, ?_, rfl⟩
    -- the bit that `--force` clears is no mode bit
    rw [cleared_modes, show ~~~xdpFlagsUpdateIfNoexist &&& xdpFlagsModes = xdpFlagsModes by decide]
    rfl
  · exact ⟨_, rfl, rfl, rfl⟩
  · exact ⟨_, rfl, rfl, rfl⟩

/-! ## All options -/

/-- The bindings that have been asked for, as bits. -/
def bindingsSeen (bindings : List (BitVec 16)) : BitVec 16 :=
  (if xdpCopy ∈ bindings then xdpCopy else 0) |||
    if xdpZerocopy ∈ bindings then xdpZerocopy else 0

theorem binding_cases (opt : CmdlineOption) :
    opt.binding = none ∨ opt.binding = some xdpCopy ∨ opt.binding = some xdpZerocopy := by
  cases opt <;> simp [CmdlineOption.binding]

/-- An option adds its bit and takes none away. -/
theorem bindAfter_bindingsSeen (opt : CmdlineOption) (bindings : List (BitVec 16)) :
    opt.bindAfter (bindingsSeen bindings) = bindingsSeen (bindings ++ opt.binding.toList) := by
  unfold CmdlineOption.bindAfter
  rcases binding_cases opt with h | h | h
  · rw [h, Option.toList_none, List.append_nil]
  · rw [h]
    unfold bindingsSeen
    by_cases hc : xdpCopy ∈ bindings <;> by_cases hz : xdpZerocopy ∈ bindings <;>
      simp [hc, hz] <;> decide
  · rw [h]
    unfold bindingsSeen
    by_cases hc : xdpCopy ∈ bindings <;> by_cases hz : xdpZerocopy ∈ bindings <;>
      simp [hc, hz] <;> decide

/-- **The loop.**  By induction from the last option; the mode bits are those of the last mode
option, while the bind flags collect what has been asked for. -/
theorem parseCmdlineArgs_flags (ifNametoindex : CString → BitVec 32)
    (hflags : ∀ opt ∈ opts, opt.IsFlag) (hbind : cfg.xskBindFlags = 0) :
    ∃ cfg', parseCmdlineArgs ifNametoindex opts cfg = .ok cfg' ∧
      cfg'.xdpFlags &&& xdpFlagsModes =
        ((opts.filterMap CmdlineOption.mode).getLast?).getD (cfg.xdpFlags &&& xdpFlagsModes) ∧
      cfg'.xskBindFlags = bindingsSeen (opts.filterMap CmdlineOption.binding) := by
  induction opts using List.reverseRecOn with
  | nil => exact ⟨cfg, rfl, rfl, by rw [hbind]; rfl⟩
  | append_singleton opts opt ih =>
      obtain ⟨mid, hrun, hmode, hseen⟩ := ih fun o ho => hflags o (List.mem_append_left _ ho)
      obtain ⟨cfg', hstep, hmode', hbind'⟩ := applyOption_flag ifNametoindex
        (hflags opt (List.mem_append_right _ List.mem_cons_self)) mid
      refine ⟨cfg', ?_, ?_, ?_⟩
      · unfold parseCmdlineArgs at hrun ⊢
        rw [List.foldlM_append, hrun]
        show (opt :: []).foldlM (applyOption ifNametoindex) mid = _
        rw [List.foldlM_cons, hstep]
        rfl
      · rw [hmode', hmode, List.filterMap_append, List.getLast?_append]
        cases hopt : opt.mode with
        | none => simp [hopt]
        | some mode => simp [hopt]
      · rw [hbind', hseen, bindAfter_bindingsSeen, List.filterMap_append]
        cases hopt : opt.binding with
        | none => simp [hopt]
        | some flag => simp [hopt]

theorem copy_mem_bindings :
    xdpCopy ∈ opts.filterMap CmdlineOption.binding ↔ .S ∈ opts ∨ .c ∈ opts := by
  rw [List.mem_filterMap]
  constructor
  · rintro ⟨opt, hopt, hbinding⟩
    cases opt with
    | S => exact .inl hopt
    | c => exact .inr hopt
    | z => exact absurd hbinding (by decide)
    | _ => cases hbinding
  · rintro (h | h)
    · exact ⟨_, h, rfl⟩
    · exact ⟨_, h, rfl⟩

theorem zerocopy_mem_bindings : xdpZerocopy ∈ opts.filterMap CmdlineOption.binding ↔ .z ∈ opts := by
  rw [List.mem_filterMap]
  constructor
  · rintro ⟨opt, hopt, hbinding⟩
    cases opt with
    | S => exact absurd hbinding (by decide)
    | c => exact absurd hbinding (by decide)
    | z => exact hopt
    | _ => cases hbinding
  · intro h
    exact ⟨_, h, rfl⟩

/-- Of the bits that have been collected one is the last choice and there is no other, unless both
have been asked for. -/
theorem bindingsSeen_last_iff (opts : List CmdlineOption) :
    bindingsSeen (opts.filterMap CmdlineOption.binding) &&& (xdpCopy ||| xdpZerocopy) =
      ((opts.filterMap CmdlineOption.binding).getLast?).getD 0 ↔
    ¬ ((.S ∈ opts ∨ .c ∈ opts) ∧ .z ∈ opts) := by
  rw [← copy_mem_bindings, ← zerocopy_mem_bindings]
  have hall : ∀ flag ∈ opts.filterMap CmdlineOption.binding, flag = xdpCopy ∨ flag = xdpZerocopy := by
    intro flag hflag
    obtain ⟨opt, -, hopt⟩ := List.mem_filterMap.mp hflag
    rcases binding_cases opt with h | h | h
    · rw [h] at hopt
      cases hopt
    · exact .inl (Option.some.inj (hopt.symm.trans h))
    · exact .inr (Option.some.inj (hopt.symm.trans h))
  generalize opts.filterMap CmdlineOption.binding = bindings at hall ⊢
  cases hlast : bindings.getLast? with
  | none =>
      obtain rfl := List.getLast?_eq_none_iff.mp hlast
      exact iff_of_true rfl (fun h => absurd h.1 List.not_mem_nil)
  | some flag =>
      have hflag : flag ∈ bindings := List.mem_of_getLast? hlast
      unfold bindingsSeen
      rcases hall flag hflag with rfl | rfl
      · by_cases hz : xdpZerocopy ∈ bindings
        · rw [if_pos hflag, if_pos hz]
          exact iff_of_false (by decide) (fun h => h ⟨hflag, hz⟩)
        · rw [if_pos hflag, if_neg hz]
          exact iff_of_true (by decide) (fun h => hz h.2)
      · by_cases hc : xdpCopy ∈ bindings
        · rw [if_pos hc, if_pos hflag]
          exact iff_of_false (by decide) (fun h => h ⟨hc, hflag⟩)
        · rw [if_neg hc, if_pos hflag]
          exact iff_of_true (by decide) (fun h => hc h.1)

/-- If the last choice is all there is, it is at most one bit. -/
theorem oneBinding_of_not_both (h : ¬ ((.S ∈ opts ∨ .c ∈ opts) ∧ .z ∈ opts)) :
    bindingsSeen (opts.filterMap CmdlineOption.binding) &&& xdpCopy = 0 ∨
      bindingsSeen (opts.filterMap CmdlineOption.binding) &&& xdpZerocopy = 0 := by
  rw [← copy_mem_bindings, ← zerocopy_mem_bindings] at h
  unfold bindingsSeen
  by_cases hc : xdpCopy ∈ opts.filterMap CmdlineOption.binding
  · rw [if_pos hc, if_neg fun hz => h ⟨hc, hz⟩]
    exact .inr (by decide)
  · rw [if_neg hc]
    split
    · exact .inl (by decide)
    · exact .inl (by decide)

end

/-- **Option order.**  Any sequence of flag options, from a config with at most one mode bit and no
bind flags, is accepted.  The last one wins exactly when the sequence does not ask for copying, by
`-S` or `-c`, and for zero-copy, by `-z`. -/
theorem lastOneWins_iff (ifNametoindex : CString → BitVec 32) (cfg : CmdlineConfig)
    (opts : List CmdlineOption) (hflags : ∀ opt ∈ opts, opt.IsFlag) (hmode : OneMode cfg.xdpFlags)
    (hbind : cfg.xskBindFlags = 0) :
    ∃ cfg', parseCmdlineArgs ifNametoindex opts cfg = .ok cfg' ∧
      (LastOneWins cfg opts cfg' ↔ ¬ ((.S ∈ opts ∨ .c ∈ opts) ∧ .z ∈ opts)) := by
  obtain ⟨cfg', hrun, hlast, hseen⟩ :=
    parseCmdlineArgs_flags ifNametoindex hflags hbind
  refine ⟨cfg', hrun, fun hwins => ?_, fun hcond => ?_⟩
  · rw [← bindingsSeen_last_iff, ← hseen]
    exact hwins.lastBinding
  · refine ⟨?_, hlast, ?_, ?_⟩
    · unfold OneMode
      rw [hlast]
      cases hopt : (opts.filterMap CmdlineOption.mode).getLast? with
      | none => exact hmode
      | some mode =>
          obtain ⟨opt, -, hasks⟩ := List.mem_filterMap.mp (List.mem_of_getLast? hopt)
          show mode ∈ _
          cases opt with
          | A | S | N | offloadMode =>
              obtain rfl := Option.some.inj hasks
              simp
          | _ => cases hasks
    · rw [hseen]
      exact oneBinding_of_not_both hcond
    · rw [hseen]
      exact (bindingsSeen_last_iff opts).mpr hcond

/-- What a loader starts from, but for its default file name: native mode, and no interface. -/
def initialConfig : CmdlineConfig where
  ifindex := -1
  ifname := ⟨[], List.not_mem_nil⟩
  redirectIfindex := 0
  srcMac := Vector.replicate 18 0
  destMac := Vector.replicate 18 0
  xdpFlags := xdpFlagsUpdateIfNoexist ||| xdpFlagsDrvMode
  redirectIfname := ⟨[], List.not_mem_nil⟩
  doUnload := false
  reuseMaps := false
  filename := Vector.replicate 512 0
  progsec := Vector.replicate 32 0
  xskBindFlags := 0
  xskIfQueue := 0
  xskPollMode := false
  verbose := true

theorem lastOneWins_modes :
    ((∀ opt ∈ [.N, .S, .F, .c, .offloadMode], CmdlineOption.IsFlag opt) ∧
      OneMode initialConfig.xdpFlags ∧ initialConfig.xskBindFlags = 0) ∧
    ∃ cfg', parseCmdlineArgs (fun _ => 0) [.N, .S, .F, .c, .offloadMode] initialConfig = .ok cfg' ∧
      LastOneWins initialConfig [.N, .S, .F, .c, .offloadMode] cfg' := by
  have hflags : ∀ opt ∈ [.N, .S, .F, .c, .offloadMode], CmdlineOption.IsFlag opt := by decide
  have hmode : OneMode initialConfig.xdpFlags := by
    unfold OneMode
    decide
  obtain ⟨cfg', hrun, hiff⟩ := lastOneWins_iff (fun _ => 0) initialConfig
    [.N, .S, .F, .c, .offloadMode] hflags hmode rfl
  exact ⟨⟨hflags, hmode, rfl⟩, cfg', hrun, hiff.mpr (by decide)⟩

/-- `-z -c` asks for copying and binds with both bits. -/
theorem lastOneWins_zerocopy_then_copy :
    ((∀ opt ∈ [.z, .c], CmdlineOption.IsFlag opt) ∧ OneMode initialConfig.xdpFlags ∧
      initialConfig.xskBindFlags = 0) ∧
    ∃ cfg', parseCmdlineArgs (fun _ => 0) [.z, .c] initialConfig = .ok cfg' ∧
      cfg'.xskBindFlags = xdpCopy ||| xdpZerocopy ∧ ¬ LastOneWins initialConfig [.z, .c] cfg' := by
  refine ⟨⟨by decide, ?_, rfl⟩, _, rfl, rfl, fun hwins => ?_⟩
  · unfold OneMode
    decide
  · exact absurd hwins.lastBinding (by decide)

end AfXdpSwitch
