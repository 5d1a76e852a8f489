import AfXdpSwitch.XskAccounting

/-!
# Sockets that are to share a UMEM

The programs of `switchtsn` set up a UMEM and then one socket on it (`af_xdp_david_new.c`,
`af_xdp_user.c`) or two (`af_xdp_david_shared.c`, `af_xdp_user_david.c`), always with
`libbpf_flags = 0`.  libbpf then loads its own XDP program for a socket, and for that reason gives a
UMEM no second socket while it has one.  So a UMEM never has two sockets, and the programs that want
two end before they receive anything, whatever the kernel answers.
-/

namespace AfXdpSwitch
namespace Lifecycle
open Prog ResourceLedger

/-! ## Runs that leave the XDP program to libbpf -/

namespace Call

/-- libbpf is not told to leave the XDP program alone. -/
def Plain : Call → Prop
  | socketCreate _ _ _ flags => flags &&& inhibitProgLoad = 0
  | _ => True

end Call

namespace Process
variable {p : Process} {i : Nat} {e : Entry}

/-- No UMEM has two sockets, and no reference was missed. -/
def Single (p : Process) : Prop := ∀ e ∈ p.umems, e.sockets.length ≤ 1 ∧ e.missed = 0

theorem Single.set {e' : Entry} {s : Sys} (hs : p.Single)
    (h : e'.sockets.length ≤ 1 ∧ e'.missed = 0) : (p.after s (p.umems.set i e')).Single := by
  intro x hx
  rcases List.mem_or_eq_of_mem_set hx with hx | rfl
  · exact hs x hx
  · exact h

theorem Single.umemCreate (hs : p.Single) (size : Nat) (pageAligned : Bool) :
    (p.step (.umemCreate size pageAligned)).Single := by
  simp only [step]
  split
  · intro x hx
    rcases List.mem_append.mp hx with hx | hx
    · exact hs x hx
    · rw [List.mem_singleton.mp hx]
      exact ⟨Nat.zero_le 1, rfl⟩
  · exact hs

theorem Single.socketCreate (hs : p.Single) (ha : p.Accounted) (h : p.umems[i]? = some e)
    (rx tx : Bool) {flags : BitVec 32} (hf : flags &&& inhibitProgLoad = 0) :
    (p.step (.socketCreate i rx tx flags)).Single := by
  have hrefs := ha.refs_at h
  have hspec := ha.socketCreate_spec h rx tx flags
  obtain ⟨hlen, hmissed⟩ := hs e (List.mem_of_getElem? h)
  simp only [step, h]
  rcases hr : runLib (xskSocketCreate rx tx flags) (p.sys e.umem e.missed) with ⟨r, s⟩
  rw [hr] at hspec
  cases r with
  | ok x =>
      obtain ⟨hfree, hat⟩ := hspec
      have hzero : e.umem.refcount = 0 := hfree.resolve_right (not_not.mpr hf)
      refine hs.set ⟨?_, ?_⟩
      · rw [List.length_cons]
        omega
      · rw [hat.missed, hmissed]
  | error err =>
      rcases hspec with hat | ⟨hinhibit, -⟩
      · exact hs.set ⟨hlen, by rw [hat.missed, hmissed]⟩
      · exact absurd hf hinhibit

theorem Single.socketDelete (hs : p.Single) (ha : p.Accounted) (h : p.umems[i]? = some e) {j : Nat}
    {x : XskSocket} (hx : e.sockets[j]? = some x) : (p.step (.socketDelete i j)).Single := by
  have hspec := ha.socketDelete_spec h hx
  obtain ⟨hlen, hmissed⟩ := hs e (List.mem_of_getElem? h)
  obtain ⟨hj, -⟩ := List.getElem?_eq_some_iff.mp hx
  simp only [step, h, hx]
  refine hs.set ⟨?_, ?_⟩
  · rw [List.length_eraseIdx_of_lt hj]
    omega
  · rw [hspec.missed, hmissed]

theorem Single.umemDelete (hs : p.Single) (h : p.umems[i]? = some e) :
    (p.step (.umemDelete i)).Single := by
  simp only [step, h]
  intro x hx
  refine hs x ?_
  dsimp only [after] at hx
  split at hx
  · exact List.mem_of_mem_eraseIdx hx
  · exact hx

theorem Single.step (hs : p.Single) (ha : p.Accounted) {c : Call} (hc : c.Plain) :
    (p.step c).Single := by
  cases c with
  | umemCreate size pageAligned => exact hs.umemCreate size pageAligned
  | socketCreate i rx tx flags =>
      cases h : p.umems[i]? with
      | none => simpa only [Process.step, h] using hs
      | some e => exact hs.socketCreate ha h rx tx hc
  | socketDelete i j =>
      cases h : p.umems[i]? with
      | none => simpa only [Process.step, h] using hs
      | some e =>
          cases hx : e.sockets[j]? with
          | none => simpa only [Process.step, h, hx] using hs
          | some x => exact hs.socketDelete ha h hx
  | umemDelete i =>
      cases h : p.umems[i]? with
      | none => simpa only [Process.step, h] using hs
      | some e => exact hs.umemDelete h

theorem Single.run (hs : p.Single) (ha : p.Accounted) {calls : List Call}
    (hc : ∀ c ∈ calls, c.Plain) : (p.run calls).Single := by
  induction calls generalizing p with
  | nil => exact hs
  | cons c calls ih =>
      exact ih (hs.step ha (hc c List.mem_cons_self)) (ha.step c)
        fun c' hc' => hc c' (List.mem_cons_of_mem c hc')

end Process

/-- **A UMEM never has two sockets** in a run that leaves the XDP program to libbpf, and then
`xsk_umem__delete` succeeds as soon as its socket is deleted, and not before. -/
theorem one_socket_per_umem (answers : Nat → Int) {calls : List Call} (hc : ∀ c ∈ calls, c.Plain)
    {e : Entry} (he : e ∈ ((Process.start answers).run calls).umems) :
    e.sockets.length ≤ 1 ∧ (e.umem.refcount = 0 ↔ e.sockets = []) ∧
      ((Process.runLib xskUmemDelete
        (((Process.start answers).run calls).sys e.umem e.missed)).1 = 0 ↔ e.sockets = []) := by
  have ha := Process.Accounted.start answers
  have hnone : (Process.start answers).Single := fun _ h => absurd h List.not_mem_nil
  obtain ⟨hlen, hmissed⟩ := hnone.run ha hc e he
  have hrefs := (ha.run calls).refs e he
  obtain ⟨i, hi⟩ := List.getElem?_of_mem he
  refine ⟨hlen, ?_, ?_⟩
  · rw [hrefs, hmissed, ← List.length_eq_zero_iff]
    omega
  · rcases Process.umemDelete_cases (ha.run calls) hi with ⟨hnil, -, herr, -⟩ | ⟨hne, herr, -⟩
    · exact iff_of_true herr hnil
    · exact iff_of_false (by rw [herr]; decide) fun hnil => hne ⟨hnil, hmissed⟩

/-- The second socket is refused, and the UMEM is busy with the first. -/
theorem one_socket_per_umem_two_asked :
    let p := (Process.start fun _ => 0).run
      [.umemCreate 4096 true, .socketCreate 0 true true 0, .socketCreate 0 true true 0]
    ∃ e ∈ p.umems, e.sockets = [⟨0, some 2, some 3, some (2, 1)⟩] ∧ e.umem.refcount ≠ 0 ∧
      (Process.runLib xskUmemDelete (p.sys e.umem e.missed)).1 ≠ 0 := by
  have hmem : (⟨⟨0, 0, 1, 1⟩, [⟨0, some 2, some 3, some (2, 1)⟩], 0⟩ : Entry) ∈
      ((Process.start fun _ => 0).run [.umemCreate 4096 true, .socketCreate 0 true true 0,
        .socketCreate 0 true true 0]).umems := by
    decide +kernel
  obtain ⟨-, hrefs, hdelete⟩ := one_socket_per_umem (fun _ => 0) (by simp [Call.Plain]) hmem
  exact ⟨_, hmem, rfl, fun h => List.cons_ne_nil _ _ (hrefs.mp h),
    fun h => List.cons_ne_nil _ _ (hdelete.mp h)⟩

/-! ## The programs of `switchtsn` -/

/-- What the command line asks for. -/
structure Setup where
  ifindex : Int
  doUnload : Bool
  /-- A file name was given. -/
  custom : Bool
  verbose : Bool

def exitFailOption : Int := 2

/-- `configure_xsk_umem`, on a buffer of `NUM_FRAMES * FRAME_SIZE` bytes. -/
def configureXskUmem : Lib (Except Int XskUmem) :=
  call (pure ()) (xskUmemCreate (4096 * 4096) true)

/-- `xsk_configure_socket`; what it puts on the fill ring is left out. -/
def xskConfigureSocket : Lib (Except Int XskSocket) :=
  call (pure ()) <| -- calloc
  attempt (xskSocketCreate true true 0) (pure ()) fun xsk =>
  call (pure ()) <| -- bpf_get_link_xdp_id
  call (pure ()) <| -- xsk_ring_prod__reserve
  pure (.ok xsk)

/-- The calls of `xsk_configure_socket` of a program that wants `n` sockets on one UMEM. -/
def configureSockets : Nat → Lib (Except Int Unit)
  | 0 => pure (.ok ())
  | n + 1 => attempt xskConfigureSocket (pure ()) fun _ => configureSockets n

def useUmem (umem : XskUmem) : Lib Unit := modify fun s => { s with umem := umem, missed := 0 }

/-- `main` (in `af_xdp_david_new.c`: `thread_func`) up to `rx_and_process`, for a program with `n`
sockets.  A result is a call of `rx_and_process`, an error an exit before it. -/
def setup (cfg : Setup) (n : Nat) : Lib (Except Int Unit) :=
  if cfg.ifindex = -1 then pure (.error exitFailOption)
  else if cfg.doUnload then do
    pure (.error (← ask)) -- xdp_link_detach
  else
    (if cfg.custom then call (pure ()) else id) <| -- load_bpf_and_xdp_attach
    (if cfg.custom then call (pure ()) else id) <| -- bpf_map__fd
    call (pure ()) <| -- setrlimit
    call (pure ()) <| -- posix_memalign
    attempt configureXskUmem (pure ()) fun umem => do
    useUmem umem
    attempt (configureSockets n) (pure ()) fun _ =>
    (if cfg.verbose then call (pure ()) else id) <| -- pthread_create
    pure (.ok ())

/-- A program begins with nothing. -/
def initial (answers : Nat → Int) : Sys := ⟨⟨[], []⟩, ⟨0, 0, 0, 0⟩, 0, answers, 0⟩

/-- The program comes to `rx_and_process`. -/
def Receives (cfg : Setup) (n : Nat) (answers : Nat → Int) : Prop :=
  (Process.runLib (setup cfg n) (initial answers)).1 = .ok ()

section Programs
variable {own : List Res} {v : XskUmem} {m : Nat}

theorem xskConfigureSocket_spec (hfd : Res.fd v.fd ∈ own) (hpos : 0 ≤ v.refcount) :
    Spec (At own v m) xskConfigureSocket (Returns (fun x s => v.refcount = 0 ∧
      At (x.res v.fd ++ own) v.raised m s) (fun _ => True)) := by
  refine call_spec (Triple.pure fun _ _ => trivial) ?_
  refine attempt_spec (xskSocketCreate_spec true true 0 hfd hpos) (Triple.pure fun _ _ => trivial)
    fun x => ?_
  refine Triple.pure_pre fun hfree => ?_
  have hzero : v.refcount = 0 := hfree.resolve_right (by decide)
  refine call_spec (Triple.pure fun _ _ => trivial) <| call_spec (Triple.pure fun _ _ => trivial) ?_
  exact Triple.pure fun s h => ⟨hzero, h⟩

/-- With a UMEM that is not in use one socket can be configured, and otherwise none. -/
theorem configureSockets_spec (n : Nat) (hfd : Res.fd v.fd ∈ own) (hpos : 0 ≤ v.refcount) :
    Spec (At own v m) (configureSockets n)
      (Returns (fun _ _ => n = 0 ∨ n = 1 ∧ v.refcount = 0) (fun _ => True)) := by
  induction n generalizing own v with
  | zero => exact Triple.pure fun _ _ => .inl rfl
  | succ n ih =>
      refine attempt_spec (xskConfigureSocket_spec hfd hpos) (Triple.pure fun _ _ => trivial)
        fun x => Triple.pure_pre fun hzero => ?_
      have hraised : v.raised.refcount = 1 := by
        rw [XskUmem.raised, hzero]
        rfl
      refine imp (ih (List.mem_append_right _ hfd) (by omega)) (fun _ s h => ?_) fun _ h => h
      rcases h with rfl | ⟨-, h⟩
      · exact .inr ⟨rfl, hzero⟩
      · omega

theorem setup_spec (cfg : Setup) (n : Nat) {s : Sys} (hs : At [] v m s) :
    Returns (fun _ _ => n ≤ 1) (fun _ => True) (Process.runLib (setup cfg n) s).1
      (Process.runLib (setup cfg n) s).2 := by
  have hskip : ∀ {own : List Res}, Spec (At own v m) (pure () : Lib Unit) (fun _ _ => True) :=
    Triple.pure fun _ _ => trivial
  refine runLib_spec (P := At [] v m) ?_ hs
  refine Triple.ite (fun _ => Triple.pure fun _ _ => trivial) fun _ => ?_
  refine Triple.ite (fun _ => Triple.bind ask_spec fun _ => Triple.pure fun _ _ => trivial) fun _ => ?_
  refine callIf_spec hskip <| callIf_spec hskip <| call_spec hskip <| call_spec hskip ?_
  refine attempt_spec (call_spec skip_spec (xskUmemCreate_spec _ _)) hskip fun umem => ?_
  have huse : Spec (fun s => At (umem.res ++ []) v m s ∧ umem.refcount = 0) (useUmem umem)
      (fun _ s => umem.refcount = 0 ∧ At (umem.res ++ []) umem 0 s) :=
    Triple.modify fun s h => ⟨h.2, h.1.holds, rfl, rfl⟩
  refine Triple.bind huse fun _ => Triple.pure_pre fun hzero => ?_
  have hfd : Res.fd umem.fd ∈ umem.res ++ [] := List.mem_cons_self
  refine attempt_spec (configureSockets_spec n hfd (by omega)) (Triple.pure fun _ _ => trivial)
    fun _ => ?_
  -- nothing after the sockets changes how many there are
  have hend : Spec (fun _ => n = 0 ∨ n = 1 ∧ umem.refcount = 0) (pure (.ok ()))
      (Returns (fun _ _ => n ≤ 1) (fun _ => True)) := Triple.pure fun _ h => by
    show n ≤ 1
    omega
  split
  · refine Triple.bind (Triple.modifyGet fun _ h => h) fun err => Triple.ite (fun _ => ?_) fun _ => hend
    exact Triple.bind (Q := fun _ _ => True) (Triple.pure fun _ _ => trivial)
      fun _ => Triple.pure fun _ _ => trivial
  · exact hend

end Programs

/-- **A program receives packets only if it wants at most one socket on its UMEM.**  With two, as
`af_xdp_david_shared.c` and `af_xdp_user_david.c` have them, no answers of the kernel lead to
`rx_and_process`; with one they do. -/
theorem receives_iff {cfg : Setup} (hdev : cfg.ifindex ≠ -1) (hload : cfg.doUnload = false) (n : Nat) :
    (∃ answers, Receives cfg n answers) ↔ n ≤ 1 := by
  constructor
  · rintro ⟨answers, hr⟩
    have hs : At [] (initial answers).umem 0 (initial answers) :=
      ⟨⟨List.nodup_nil, List.Perm.refl _⟩, rfl, rfl⟩
    have h := setup_spec cfg n hs
    unfold Receives at hr
    rw [hr] at h
    exact h
  · intro hn
    refine ⟨fun _ => 0, ?_⟩
    have hsetup : setup cfg n = setup ⟨0, false, cfg.custom, cfg.verbose⟩ n := by
      unfold setup
      rw [if_neg hdev, hload]
      rfl
    unfold Receives
    rw [hsetup]
    generalize cfg.custom = custom
    generalize cfg.verbose = verbose
    revert custom verbose
    obtain rfl | rfl : n = 0 ∨ n = 1 := by omega
    · decide +kernel
    · decide +kernel

theorem no_packets_with_two_sockets :
    ¬ ∃ answers, Receives ⟨11, false, false, true⟩ 2 answers := by
  have h : (∃ answers, Receives ⟨11, false, false, true⟩ 2 answers) ↔ 2 ≤ 1 :=
    receives_iff (by decide) rfl 2
  exact fun hr => absurd (h.mp hr) (by decide)

end Lifecycle
end AfXdpSwitch
