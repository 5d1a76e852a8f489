import AfXdpSwitch.XskLifecycle

/-!
# Every descriptor and every reference of `libbpf/src/xsk.c` is accounted for

What each function of `XskLifecycle` acquires and gives back, on every path through it, and what
follows for whole runs: programs that create and delete UMEMs and sockets in any order, with any
answers of the kernel.

The descriptors and mappings that are open are those of the UMEMs and sockets that are alive, and
the lost ones.  The reference count of a UMEM is the number of its sockets, plus one for every
socket that was refused a descriptor of its own: the error path does not take that reference back,
and from then on the UMEM cannot be deleted.
-/

namespace AfXdpSwitch
namespace Lifecycle
open Prog ResourceLedger

variable {own : List Res} {u : XskUmem} {m : Nat}

/-! ## UMEMs -/

/-- What a UMEM holds. -/
def XskUmem.res (u : XskUmem) : List Res := [.fd u.fd, .mapping u.fill, .mapping u.comp]

theorem xskUmemCreate_spec (size : Nat) (pageAligned : Bool) :
    Spec (At own u m) (xskUmemCreate size pageAligned)
      (Returns (fun v s => At (v.res ++ own) u m s ∧ v.refcount = 0) (At own u m)) := by
  refine Triple.ite (fun _ => Triple.pure fun _ h => h) fun _ => call_spec skip_spec ?_
  refine attempt_spec (acquire_spec fd_injective) skip_spec fun fd => ?_
  refine call_spec release_spec <| call_spec release_spec <| call_spec release_spec <|
    call_spec release_spec ?_
  refine attempt_spec (acquire_spec mapping_injective) release_spec fun fill => ?_
  refine attempt_spec (acquire_spec mapping_injective)
    (Triple.bind lose_spec fun _ => release_spec) fun comp => ?_
  refine Triple.pure fun s h => ⟨h.congr ?_, rfl⟩
  -- the descriptor came first
  exact (List.reverse_perm [Res.fd fd, .mapping fill, .mapping comp]).append_right own

theorem xskUmemDelete_spec : Spec (At (u.res ++ own) u m) xskUmemDelete (fun err s =>
    u.refcount = 0 ∧ err = 0 ∧ At own u m s ∨
      u.refcount ≠ 0 ∧ err = eBusy ∧ At (u.res ++ own) u m s) := by
  have hperm : (u.res ++ own).Perm ([.mapping u.fill, .mapping u.comp] ++ .fd u.fd :: own) := by
    refine (List.Perm.swap _ _ _).trans (.cons _ ?_)
    exact List.Perm.swap _ _ _
  refine Triple.bind (Triple.get fun s (h : At (u.res ++ own) u m s) => ⟨h.umem, h⟩)
    fun s' => Triple.pure_pre fun hu => ?_
  rw [hu]
  refine Triple.ite (fun hne => Triple.pure fun s h => .inr ⟨hne, rfl, h⟩) fun heq => ?_
  refine Triple.bind (weaken (unmapRings_spec _) fun s h => h.congr hperm) fun _ => ?_
  refine Triple.bind release_spec fun _ => ?_
  exact Triple.pure fun s h => .inl ⟨not_not.mp heq, rfl, h⟩

/-! ## The XDP program and its maps -/

theorem xskGetMaxQueues_spec : Spec (At own u m) xskGetMaxQueues
    (Returns (fun _ => At own u m) (At own u m)) := by
  refine attempt_spec (acquire_spec fd_injective) skip_spec fun fd => ?_
  refine Triple.bind ask_spec fun err => Triple.bind release_spec fun _ => ?_
  refine Triple.pure fun s h => ?_
  split
  · exact h
  · exact h

theorem xskCreateBpfMaps_spec : Spec (At own u m) xskCreateBpfMaps
    (Returns (fun n => At (.fd n :: own) u m) (At own u m)) :=
  attempt_spec xskGetMaxQueues_spec skip_spec fun _ => acquire_spec fd_injective

theorem xskLoadXdpProg_spec : Spec (At own u m) xskLoadXdpProg
    (Returns (fun n => At (.fd n :: own) u m) (At own u m)) := by
  refine attempt_spec (acquire_spec fd_injective) skip_spec fun fd => ?_
  exact call_spec release_spec (Triple.pure fun _ h => h)

/-- A round of the lookup holds on to at most one map. -/
theorem lookupRound_spec (i : Nat) (found : Option Nat) :
    Spec (At (found.toList.map .fd ++ own) u m) (lookupRound i found)
      (fun found' => At (found'.toList.map .fd ++ own) u m) := by
  refine Triple.bind (acquire_spec fd_injective) fun r => ?_
  cases r with
  | error err => exact Triple.pure fun _ h => h
  | ok fd =>
      refine Triple.bind ask_spec fun err => Triple.ite (fun _ => ?_) fun _ => ?_
      · exact Triple.bind release_spec fun _ => Triple.pure fun _ h => h
      refine Triple.bind ask_spec fun strcmp => Triple.ite (fun _ => ?_) fun _ => ?_
      · cases found with
        | none => exact Triple.bind skip_spec fun _ => Triple.pure fun _ h => h
        | some old =>
            refine Triple.bind (weaken lose_spec fun s h => h.congr (List.Perm.swap _ _ _)) fun _ => ?_
            exact Triple.pure fun _ h => h
      · exact Triple.bind release_spec fun _ => Triple.pure fun _ h => h

theorem xskLookupBpfMaps_spec : Spec (At own u m) xskLookupBpfMaps
    (Returns (fun n => At (.fd n :: own) u m) (At own u m)) := by
  refine call_spec skip_spec <| call_spec skip_spec <| call_spec skip_spec ?_
  refine Triple.bind ask_spec fun n => ?_
  have hloop := Triple.forLoop (F := fun _ : Empty => False) (n := n.toNat)
    (I := fun _ (found : Option Nat) => At (found.toList.map Res.fd ++ own) u m)
    (fun i found _ => lookupRound_spec i found) none
  refine Triple.bind hloop fun found => ?_
  cases found with
  | none => exact Triple.pure fun _ h => h
  | some fd => exact Triple.pure fun _ h => h

/-- What the program of a socket holds. -/
def progRes (prog : Option (Nat × Nat)) : List Res :=
  prog.toList.flatMap fun p => [.fd p.2, .fd p.1]

theorem closeProg_spec (prog : Option (Nat × Nat)) :
    Spec (At (progRes prog ++ own) u m) (closeProg prog) (fun _ => At own u m) := by
  cases prog with
  | none => exact skip_spec
  | some p => exact Triple.bind release_spec fun _ => release_spec

theorem findProg_spec (progId : Int) : Spec (At own u m) (findProg progId)
    (Returns (fun p => At (progRes (some p) ++ own) u m) (At own u m)) := by
  refine Triple.ite (fun _ => ?_) fun _ => ?_
  · refine attempt_spec xskCreateBpfMaps_spec skip_spec fun mapFd => ?_
    refine attempt_spec xskLoadXdpProg_spec release_spec fun progFd => ?_
    exact Triple.pure fun s h => h.congr (List.Perm.swap _ _ _)
  · refine attempt_spec (acquire_spec fd_injective) skip_spec fun progFd => ?_
    refine attempt_spec xskLookupBpfMaps_spec release_spec fun mapFd => ?_
    exact Triple.pure fun _ h => h

theorem xskSetupXdpProg_spec (rx : Bool) : Spec (At own u m) (xskSetupXdpProg rx)
    (Returns (fun p => At (progRes (some p) ++ own) u m) (At own u m)) := by
  refine call_spec skip_spec <| Triple.bind ask_spec fun progId => ?_
  refine attempt_spec (findProg_spec progId) skip_spec fun p => ?_
  refine Triple.ite (fun _ => ?_) fun _ => Triple.pure fun _ h => h
  exact call_spec (closeProg_spec (some p)) (Triple.pure fun _ h => h)

/-! ## Sockets -/

/-- What a socket holds beside the descriptor of its UMEM. -/
def XskSocket.res (x : XskSocket) (umemFd : Nat) : List Res :=
  progRes x.prog ++ ringRes x.tx ++ ringRes x.rx ++ if x.fd = umemFd then [] else [.fd x.fd]

/-- The UMEM while a socket is being made. -/
def XskUmem.raised (u : XskUmem) : XskUmem := { u with refcount := u.refcount + 1 }

/-- What `xsk_socket__create` holds before the rings: a descriptor, unless it took the UMEM's. -/
def ownFd (u : XskUmem) (fd : Nat) : List Res := if u.refcount = 0 then [] else [.fd fd]

theorem mapRing_spec (wanted : Bool) : Spec (At own u m) (mapRing wanted)
    (Returns (fun ring => At (ringRes ring ++ own) u m) (At own u m)) := by
  refine Triple.ite (fun _ => ?_) fun _ => Triple.pure fun _ h => h
  exact attempt_spec (acquire_spec mapping_injective) skip_spec fun _ => Triple.pure fun _ h => h

/-- **`out_socket` undoes what was done before the rings.** -/
theorem outSocket_spec (fd : Nat) :
    Spec (At (ownFd u fd ++ own) u.raised m) (outSocket fd) (fun _ => At own u m) := by
  have hback : { u.raised with refcount := u.raised.refcount + -1 } = u := by
    show { u with refcount := u.refcount + 1 + -1 } = u
    rw [Int.add_neg_cancel_right]
  refine Triple.bind addRef_spec fun _ => ?_
  rw [hback]
  refine Triple.bind (Triple.get fun s (h : At (ownFd u fd ++ own) u m s) => ⟨h.umem, h⟩)
    fun s' => Triple.pure_pre fun hu => ?_
  rw [hu]
  refine Triple.ite (fun hne => ?_) fun heq => ?_
  · rw [ownFd, if_neg hne]
    exact release_spec
  · rw [ownFd, if_pos (not_not.mp heq)]
    exact skip_spec

theorem releaseAll_spec (rs : List Res) :
    Spec (At (rs ++ own) u m) (releaseAll rs) (fun _ => At own u m) :=
  forM_spec (fun _ _ => release_spec) rs

theorem callIf_spec {α : Type} {R : Sys → Prop} {Q : α → Sys → Prop} {wanted : Bool}
    {cleanup : Lib Unit} {next : Lib (Except Int α)}
    (hcleanup : Spec (At own u m) cleanup (fun _ => R))
    (hnext : Spec (At own u m) next (Returns Q R)) :
    Spec (At own u m) ((if wanted then call cleanup else id) next) (Returns Q R) := by
  split
  · exact call_spec hcleanup hnext
  · exact hnext

theorem xskSocketSetup_spec (rx tx inhibit : Bool) (fd : Nat) :
    Spec (At (ownFd u fd ++ own) u.raised m) (xskSocketSetup rx tx inhibit fd)
      (Returns (fun x s => x.fd = fd ∧ At (progRes x.prog ++ ringRes x.tx ++ ringRes x.rx ++
        (ownFd u fd ++ own)) u.raised m s) (At own u m)) := by
  have hout : Spec (At (ownFd u fd ++ own) u.raised m) (outSocket fd) (fun _ => At own u m) :=
    outSocket_spec fd
  refine call_spec hout <| callIf_spec hout <| callIf_spec hout <| call_spec hout ?_
  refine attempt_spec (mapRing_spec rx) hout fun rxMap => ?_
  have hrx := Triple.bind (releaseAll_spec (ringRes rxMap)) fun _ => hout
  refine attempt_spec (mapRing_spec tx) hrx fun txMap => ?_
  have htx := Triple.bind (releaseAll_spec (ringRes txMap)) fun _ => hrx
  refine call_spec htx (Triple.ite (fun _ => ?_) fun _ => ?_)
  · refine Triple.pure fun s h => ⟨rfl, ?_⟩
    simpa [progRes] using h
  · refine attempt_spec (xskSetupXdpProg_spec rx) htx fun p => Triple.pure fun s h => ⟨rfl, ?_⟩
    simpa using h

/-- **`xsk_socket__create`, on every path.**  A socket that is made holds what it acquired.  If there
is an error, everything is as before, except when the UMEM was in use and there was no descriptor for
the new socket: then the reference stays.  A UMEM that is in use gets no other socket unless libbpf
is told to leave the XDP program alone. -/
theorem xskSocketCreate_spec (rx tx : Bool) (flags : BitVec 32) (hfd : Res.fd u.fd ∈ own)
    (hpos : 0 ≤ u.refcount) : Spec (At own u m) (xskSocketCreate rx tx flags)
      (Returns (fun x s => (u.refcount = 0 ∨ flags &&& inhibitProgLoad ≠ 0) ∧
          At (x.res u.fd ++ own) u.raised m s)
        (fun s => At own u m s ∨
          flags &&& inhibitProgLoad ≠ 0 ∧ At own u.raised (m + 1) s)) := by
  refine Triple.ite (fun _ => Triple.pure fun _ h => .inl h) fun _ => ?_
  refine call_spec (Triple.pure fun _ h => .inl h) ?_
  refine Triple.ite (fun _ => Triple.pure fun _ h => .inl h) fun _ => ?_
  refine Triple.bind (Triple.get fun s (h : At own u m s) => ⟨h.umem, h⟩)
    fun s' => Triple.pure_pre fun hu => ?_
  rw [hu]
  refine Triple.ite (fun _ => Triple.pure fun _ h => .inl h) fun hbusy => ?_
  refine Triple.bind addRef_spec fun _ => Triple.ite (fun hused => ?_) fun hfree => ?_
  · have hinhibit : flags &&& inhibitProgLoad ≠ 0 :=
      not_not.mp fun hi => hbusy ⟨Int.ne_of_gt hused, hi⟩
    refine attempt_spec (acquire_spec fd_injective)
      (Triple.conseq miss_spec (fun _ h => h) fun _ _ h => .inr ⟨hinhibit, h⟩) fun fd => ?_
    have hown : ownFd u fd = [.fd fd] := if_neg (Int.ne_of_gt hused)
    have hsetup : Spec (At (ownFd u fd ++ own) u.raised m) _ _ :=
      xskSocketSetup_spec rx tx (flags &&& inhibitProgLoad ≠ 0) fd
    rw [hown] at hsetup
    refine imp hsetup (fun x s hx => ?_) fun s h => .inl h
    obtain ⟨rfl, h⟩ := hx
    -- the descriptor is not the UMEM's, which is in use
    have hne : x.fd ≠ u.fd := by
      intro he
      have hh := h.holds.congr List.perm_middle
      rw [he] at hh
      exact hh.not_mem (List.mem_append_right _ hfd)
    refine ⟨.inr hinhibit, ?_⟩
    unfold XskSocket.res
    rw [if_neg hne, List.append_assoc]
    exact h
  · have hzero : u.refcount = 0 := by omega
    have hown : ownFd u u.fd = [] := if_pos hzero
    have hsetup : Spec (At (ownFd u u.fd ++ own) u.raised m) _ _ :=
      xskSocketSetup_spec rx tx (flags &&& inhibitProgLoad ≠ 0) u.fd
    rw [hown] at hsetup
    refine Triple.bind (Triple.get fun s h => ⟨h.umem, h⟩) fun s' => Triple.pure_pre fun hu' => ?_
    rw [hu']
    refine imp hsetup (fun x s hx => ?_) fun s h => .inl h
    refine ⟨.inl hzero, ?_⟩
    unfold XskSocket.res
    rw [if_pos hx.1, List.append_nil]
    exact hx.2

theorem xskSocketDelete_spec (x : XskSocket) : Spec (At (x.res u.fd ++ own) u m) (xskSocketDelete x)
    (fun _ => At own { u with refcount := u.refcount + -1 } m) := by
  have hperm : (x.res u.fd ++ own).Perm (progRes x.prog ++ ((ringRes x.rx ++ ringRes x.tx) ++
      ((if x.fd = u.fd then [] else [Res.fd x.fd]) ++ own))) := by
    unfold XskSocket.res
    simp only [List.append_assoc]
    refine .append_left _ ?_
    rw [← List.append_assoc, ← List.append_assoc (ringRes x.rx)]
    exact .append_right _ List.perm_append_comm
  refine Triple.bind (weaken (closeProg_spec _) fun s h => h.congr hperm) fun _ => ?_
  refine Triple.bind (unmapRings_spec _) fun _ => Triple.bind addRef_spec fun _ => ?_
  refine Triple.bind (Triple.get fun s h => ⟨h.umem, h⟩) fun s' => Triple.pure_pre fun hu => ?_
  rw [hu]
  refine Triple.ite (fun hne => ?_) fun heq => ?_
  · rw [if_neg hne]
    exact release_spec
  · rw [if_pos (not_not.mp heq)]
    exact skip_spec

/-! ## Runs -/

/-- A UMEM that is alive, with its sockets. -/
structure Entry where
  umem : XskUmem
  sockets : List XskSocket
  missed : Nat
deriving DecidableEq

/-- A program that uses the library. -/
structure Process where
  res : Ledger Res
  umems : List Entry
  answers : Nat → Int
  asked : Nat

/-- The calls a program can make.  UMEMs and sockets are given by their places; each socket is
deleted at most once, and nothing is done with a UMEM that is gone. -/
inductive Call where
  | umemCreate (size : Nat) (pageAligned : Bool)
  | socketCreate (i : Nat) (rx tx : Bool) (libbpfFlags : BitVec 32)
  | socketDelete (i j : Nat)
  | umemDelete (i : Nat)

namespace Entry

def res (e : Entry) : List Res := e.umem.res ++ e.sockets.flatMap (·.res e.umem.fd)

end Entry

namespace Process

/-- Before the first call. -/
def start (answers : Nat → Int) : Process := ⟨⟨[], []⟩, [], answers, 0⟩

def owned (p : Process) : List Res := p.umems.flatMap Entry.res

/-- What a call on a UMEM sees. -/
def sys (p : Process) (umem : XskUmem) (missed : Nat) : Sys :=
  ⟨p.res, umem, missed, p.answers, p.asked⟩

/-- The process after a call, with these UMEMs. -/
def after (p : Process) (s : Sys) (umems : List Entry) : Process :=
  { p with res := s.res, asked := s.asked, umems := umems }

/-- Run a call of the library; it always returns. -/
def runLib {α : Type} (c : Lib α) (s : Sys) : α × Sys :=
  match c s with
  | .ok r => r

def step (p : Process) : Call → Process
  | .umemCreate size pageAligned =>
      match runLib (xskUmemCreate size pageAligned) (p.sys ⟨0, 0, 0, 0⟩ 0) with
      | (.ok umem, s) => p.after s (p.umems ++ [⟨umem, [], 0⟩])
      | (.error _, s) => p.after s p.umems
  | .socketCreate i rx tx flags =>
      match p.umems[i]? with
      | none => p
      | some e =>
          match runLib (xskSocketCreate rx tx flags) (p.sys e.umem e.missed) with
          | (.ok xsk, s) => p.after s (p.umems.set i ⟨s.umem, xsk :: e.sockets, s.missed⟩)
          | (.error _, s) => p.after s (p.umems.set i ⟨s.umem, e.sockets, s.missed⟩)
  | .socketDelete i j =>
      match p.umems[i]? with
      | none => p
      | some e =>
          match e.sockets[j]? with
          | none => p
          | some xsk =>
              let (_, s) := runLib (xskSocketDelete xsk) (p.sys e.umem e.missed)
              p.after s (p.umems.set i ⟨s.umem, e.sockets.eraseIdx j, s.missed⟩)
  | .umemDelete i =>
      match p.umems[i]? with
      | none => p
      | some e =>
          let (err, s) := runLib xskUmemDelete (p.sys e.umem e.missed)
          p.after s (if err = 0 then p.umems.eraseIdx i else p.umems)

def run (p : Process) (calls : List Call) : Process := calls.foldl step p

/-- What is open is what the UMEMs and sockets hold and what is lost, and the references of a UMEM
are those of its sockets and those that were missed. -/
structure Accounted (p : Process) : Prop where
  holds : Holds p.owned p.res
  refs : ∀ e ∈ p.umems, e.umem.refcount = e.sockets.length + e.missed

end Process

theorem runLib_spec {α : Type} {P : Sys → Prop} {c : Lib α} {Q : α → Sys → Prop} (h : Spec P c Q)
    {s : Sys} (hs : P s) : Q (Process.runLib c s).1 (Process.runLib c s).2 := by
  obtain ⟨a, s', hc, hq⟩ := h.exists_ok hs
  unfold Process.runLib
  rw [hc]
  exact hq

namespace Process
variable {p : Process} {i : Nat} {e e' : Entry} {s : Sys}

/-- What the other UMEMs hold. -/
def others (p : Process) (i : Nat) : List Res := (p.umems.eraseIdx i).flatMap Entry.res

theorem owned_perm (h : p.umems[i]? = some e) : p.owned.Perm (e.res ++ p.others i) := by
  obtain ⟨hi, rfl⟩ := List.getElem?_eq_some_iff.mp h
  exact ((List.getElem_cons_eraseIdx_perm hi).symm.flatMap_right _)

/-- What a call on the UMEM at place `i` starts from. -/
theorem Accounted.at (ha : p.Accounted) (h : p.umems[i]? = some e) :
    At (e.res ++ p.others i) e.umem e.missed (p.sys e.umem e.missed) :=
  ⟨ha.holds.congr (owned_perm h), rfl, rfl⟩

theorem Accounted.refs_at (ha : p.Accounted) (h : p.umems[i]? = some e) :
    e.umem.refcount = e.sockets.length + e.missed :=
  ha.refs e (List.mem_of_getElem? h)

/-- A call on one UMEM leaves the others as they are. -/
theorem Accounted.set (ha : p.Accounted) (h : p.umems[i]? = some e)
    (hs : Holds (e'.res ++ p.others i) s.res)
    (hr : e'.umem.refcount = e'.sockets.length + e'.missed) :
    (p.after s (p.umems.set i e')).Accounted := by
  obtain ⟨hi, -⟩ := List.getElem?_eq_some_iff.mp h
  constructor
  · have hget : (p.after s (p.umems.set i e')).umems[i]? = some e' :=
      List.getElem?_set_self hi
    refine hs.congr (List.Perm.symm ?_)
    have hp := owned_perm hget
    unfold others at hp
    rwa [show (p.after s (p.umems.set i e')).umems.eraseIdx i = p.umems.eraseIdx i from
      List.eraseIdx_set_eq] at hp
  · intro x hx
    rcases List.mem_or_eq_of_mem_set hx with hx | rfl
    · exact ha.refs x hx
    · exact hr

theorem Accounted.start (answers : Nat → Int) : (start answers).Accounted :=
  ⟨⟨List.nodup_nil, List.Perm.refl _⟩, fun _ h => absurd h List.not_mem_nil⟩

theorem Accounted.umemCreate (ha : p.Accounted) (size : Nat) (pageAligned : Bool) :
    (p.step (.umemCreate size pageAligned)).Accounted := by
  have hat : At p.owned ⟨0, 0, 0, 0⟩ 0 (p.sys ⟨0, 0, 0, 0⟩ 0) := ⟨ha.holds, rfl, rfl⟩
  have h := runLib_spec (xskUmemCreate_spec size pageAligned) hat
  unfold step
  dsimp only
  rcases hr : runLib (xskUmemCreate size pageAligned) (p.sys ⟨0, 0, 0, 0⟩ 0) with ⟨r, s⟩
  rw [hr] at h
  cases r with
  | error err => exact ⟨h.holds, ha.refs⟩
  | ok v =>
      obtain ⟨hv, hzero⟩ := h
      refine ⟨hv.holds.congr ?_, fun x hx => ?_⟩
      · show (v.res ++ p.owned).Perm ((p.umems ++ [Entry.mk v [] 0]).flatMap Entry.res)
        rw [List.flatMap_append, List.flatMap_singleton]
        simp only [Entry.res, List.flatMap_nil, List.append_nil]
        exact List.perm_append_comm
      · rcases List.mem_append.mp hx with hx | hx
        · exact ha.refs x hx
        · rw [List.mem_singleton.mp hx]
          exact hzero

/-- What `xsk_socket__create` does to the UMEM at place `i`. -/
theorem Accounted.socketCreate_spec (ha : p.Accounted) (h : p.umems[i]? = some e) (rx tx : Bool)
    (flags : BitVec 32) :
    Returns (fun x s => (e.umem.refcount = 0 ∨ flags &&& inhibitProgLoad ≠ 0) ∧
        At (x.res e.umem.fd ++ (e.res ++ p.others i)) e.umem.raised e.missed s)
      (fun s => At (e.res ++ p.others i) e.umem e.missed s ∨ flags &&& inhibitProgLoad ≠ 0 ∧
        At (e.res ++ p.others i) e.umem.raised (e.missed + 1) s)
      (runLib (xskSocketCreate rx tx flags) (p.sys e.umem e.missed)).1
      (runLib (xskSocketCreate rx tx flags) (p.sys e.umem e.missed)).2 := by
  have hrefs := ha.refs_at h
  have hfd : Res.fd e.umem.fd ∈ e.res ++ p.others i :=
    List.mem_append_left _ (List.mem_append_left _ List.mem_cons_self)
  exact runLib_spec (xskSocketCreate_spec rx tx flags hfd (by omega)) (ha.at h)

theorem Accounted.socketCreate (ha : p.Accounted) (h : p.umems[i]? = some e) (rx tx : Bool)
    (flags : BitVec 32) : (p.step (.socketCreate i rx tx flags)).Accounted := by
  have hrefs := ha.refs_at h
  have hspec := ha.socketCreate_spec h rx tx flags
  simp only [step, h]
  rcases hr : runLib (xskSocketCreate rx tx flags) (p.sys e.umem e.missed) with ⟨r, s⟩
  rw [hr] at hspec
  cases r with
  | ok x =>
      obtain ⟨-, hspec⟩ := hspec
      refine ha.set h ?_ ?_
      · rw [hspec.umem]
        refine hspec.holds.congr ?_
        show (x.res e.umem.fd ++ ((e.umem.res ++ _) ++ p.others i)).Perm
          (e.umem.res ++ (x.res e.umem.fd ++ _) ++ p.others i)
        rw [← List.append_assoc]
        exact (List.perm_append_comm_assoc _ _ _).append_right _
      · dsimp only
        rw [hspec.umem, hspec.missed, XskUmem.raised, List.length_cons]
        dsimp only
        omega
  | error err =>
      rcases hspec with hs | ⟨-, hs⟩
      · refine ha.set h ?_ ?_
        · rw [hs.umem]
          exact hs.holds
        · dsimp only
          rw [hs.umem, hs.missed]
          exact hrefs
      · refine ha.set h ?_ ?_
        · rw [hs.umem]
          exact hs.holds
        · dsimp only
          rw [hs.umem, hs.missed, XskUmem.raised]
          dsimp only
          omega

/-- What `xsk_socket__delete` does to the UMEM at place `i`. -/
theorem Accounted.socketDelete_spec (ha : p.Accounted) (h : p.umems[i]? = some e) {j : Nat}
    {x : XskSocket} (hx : e.sockets[j]? = some x) :
    At (Entry.res ⟨{ e.umem with refcount := e.umem.refcount + -1 }, e.sockets.eraseIdx j, e.missed⟩ ++
        p.others i) { e.umem with refcount := e.umem.refcount + -1 } e.missed
      (runLib (xskSocketDelete x) (p.sys e.umem e.missed)).2 := by
  obtain ⟨hj, hget⟩ := List.getElem?_eq_some_iff.mp hx
  have hsock := (List.getElem_cons_eraseIdx_perm hj).symm.flatMap_right (·.res e.umem.fd)
  rw [hget] at hsock
  have hperm : e.res.Perm (x.res e.umem.fd ++
      (e.umem.res ++ (e.sockets.eraseIdx j).flatMap (·.res e.umem.fd))) :=
    (hsock.append_left e.umem.res).trans (List.perm_append_comm_assoc _ _ _)
  have hat := (ha.at h).congr ((hperm.append_right _).trans (.of_eq (List.append_assoc _ _ _)))
  exact runLib_spec (xskSocketDelete_spec x) hat

theorem Accounted.socketDelete (ha : p.Accounted) (h : p.umems[i]? = some e) {j : Nat}
    {x : XskSocket} (hx : e.sockets[j]? = some x) : (p.step (.socketDelete i j)).Accounted := by
  have hrefs := ha.refs_at h
  have hspec := ha.socketDelete_spec h hx
  obtain ⟨hj, -⟩ := List.getElem?_eq_some_iff.mp hx
  simp only [step, h, hx]
  refine ha.set h ?_ ?_
  · rw [hspec.umem]
    exact hspec.holds
  · dsimp only
    rw [hspec.umem, hspec.missed, List.length_eraseIdx_of_lt hj]
    dsimp only
    omega

/-- **A UMEM can be deleted exactly when no reference is left.** -/
theorem umemDelete_cases (ha : p.Accounted) (h : p.umems[i]? = some e) :
    e.sockets = [] ∧ e.missed = 0 ∧
        (runLib xskUmemDelete (p.sys e.umem e.missed)).1 = 0 ∧
        Holds (p.others i) (runLib xskUmemDelete (p.sys e.umem e.missed)).2.res ∨
      ¬ (e.sockets = [] ∧ e.missed = 0) ∧
        (runLib xskUmemDelete (p.sys e.umem e.missed)).1 = eBusy ∧
        Holds p.owned (runLib xskUmemDelete (p.sys e.umem e.missed)).2.res := by
  have hrefs := ha.refs_at h
  have hat := (ha.at h).congr (.of_eq (List.append_assoc _ _ _))
  rcases runLib_spec xskUmemDelete_spec hat with ⟨hzero, herr, hs⟩ | ⟨hne, herr, hs⟩
  · have hlen : e.sockets.length = 0 := by omega
    have hnil : e.sockets = [] := List.length_eq_zero_iff.mp hlen
    refine .inl ⟨hnil, by omega, herr, ?_⟩
    have hh := hs.holds
    rwa [hnil] at hh
  · refine .inr ⟨fun ⟨hnil, hm⟩ => hne ?_, herr, hs.holds.congr ?_⟩
    · rw [hrefs, hnil, hm]
      rfl
    · exact (List.Perm.of_eq (List.append_assoc _ _ _).symm).trans (owned_perm h).symm

theorem Accounted.umemDelete (ha : p.Accounted) (h : p.umems[i]? = some e) :
    (p.step (.umemDelete i)).Accounted := by
  simp only [step, h]
  rcases umemDelete_cases ha h with ⟨-, -, herr, hs⟩ | ⟨-, herr, hs⟩
  · rw [if_pos herr]
    exact ⟨hs, fun x hx => ha.refs x (List.mem_of_mem_eraseIdx hx)⟩
  · rw [if_neg (by rw [herr]; decide)]
    exact ⟨hs, ha.refs⟩

/-- **Every call keeps the accounts.** -/
theorem Accounted.step (ha : p.Accounted) (c : Call) : (p.step c).Accounted := by
  cases c with
  | umemCreate size pageAligned => exact ha.umemCreate size pageAligned
  | socketCreate i rx tx flags =>
      cases h : p.umems[i]? with
      | none => simpa only [Process.step, h] using ha
      | some e => exact ha.socketCreate h rx tx flags
  | socketDelete i j =>
      cases h : p.umems[i]? with
      | none => simpa only [Process.step, h] using ha
      | some e =>
          cases hx : e.sockets[j]? with
          | none => simpa only [Process.step, h, hx] using ha
          | some x => exact ha.socketDelete h hx
  | umemDelete i =>
      cases h : p.umems[i]? with
      | none => simpa only [Process.step, h] using ha
      | some e => exact ha.umemDelete h

theorem Accounted.run (ha : p.Accounted) (calls : List Call) : (p.run calls).Accounted := by
  induction calls generalizing p with
  | nil => exact ha
  | cons c calls ih => exact ih (ha.step c)

end Process

variable (answers : Nat → Int) (calls : List Call)

/-- **Descriptors and mappings over whole runs.**  Whatever the kernel answers and whatever a program
creates and deletes, what is open is what the UMEMs and sockets that are alive hold, and what was
lost; nothing is held twice.  So no call closes or unmaps what belongs to another. -/
theorem open_iff_held :
    ((Process.start answers).run calls).res.opened.Nodup ∧
      ((Process.start answers).run calls).res.opened.Perm
        (((Process.start answers).run calls).owned ++
          ((Process.start answers).run calls).res.lost) := by
  have ha := (Process.Accounted.start answers).run calls
  exact ⟨ha.holds.nodup, ha.holds.perm⟩

/-- **References over whole runs.**  The reference count of a UMEM is the number of its sockets plus
the number of sockets that got no descriptor; `xsk_umem__delete` succeeds exactly when both are
zero, and says that the UMEM is busy otherwise. -/
theorem umem_deletable_iff {i : Nat} {e : Entry}
    (h : ((Process.start answers).run calls).umems[i]? = some e) :
    let p := (Process.start answers).run calls
    let err := (Process.runLib xskUmemDelete (p.sys e.umem e.missed)).1
    e.umem.refcount = e.sockets.length + e.missed ∧
      (err = 0 ↔ e.sockets = [] ∧ e.missed = 0) ∧ (err = 0 ∨ err = eBusy) := by
  have ha := (Process.Accounted.start answers).run calls
  refine ⟨ha.refs_at h, ?_⟩
  rcases Process.umemDelete_cases ha h with ⟨hnil, hm, herr, -⟩ | ⟨hne, herr, -⟩
  · exact ⟨iff_of_true herr ⟨hnil, hm⟩, .inl herr⟩
  · exact ⟨iff_of_false (by rw [herr]; decide) hne, .inr herr⟩

/-- There is no descriptor for the second socket. -/
def noSecondFd (n : Nat) : Int := if n = 17 then -24 else 0

/-- Once a second socket got no descriptor, the UMEM is busy even when it has no socket. -/
theorem umem_busy_after_refusal :
    let p := (Process.start noSecondFd).run [.umemCreate 4096 true, .socketCreate 0 true true 1,
      .socketCreate 0 true true 1, .socketDelete 0 0]
    p.umems[0]? = some ⟨⟨0, 0, 1, 1⟩, [], 1⟩ ∧
      (Process.runLib xskUmemDelete (p.sys ⟨0, 0, 1, 1⟩ 1)).1 = eBusy := by
  have h : ((Process.start noSecondFd).run [.umemCreate 4096 true, .socketCreate 0 true true 1,
      .socketCreate 0 true true 1, .socketDelete 0 0]).umems[0]? =
        some ⟨⟨0, 0, 1, 1⟩, [], 1⟩ := by decide +kernel
  obtain ⟨-, hiff, hor⟩ := umem_deletable_iff noSecondFd _ h
  exact ⟨h, hor.resolve_left fun herr => absurd (hiff.mp herr).2 (by decide)⟩

end Lifecycle
end AfXdpSwitch
