import AfXdpSwitch.XdpSocket
import AfXdpSwitch.XskAccounting

/-!
# The life of a socket in `go-approach/xdp.go`

`NewSocket` makes a descriptor, the UMEM and two to four rings; `Close` closes the descriptor and
unmaps the UMEM.  The slices of the rings are variables of `NewSocket`, and nothing else has them:
a ring stays mapped after `Close`, and after every error that comes later than its mapping.  One
error, that for a socket without an RX and a TX ring, returns without `Close`, and the descriptor
stays open.

The system calls are those of `XskLifecycle`; the UMEM of that library is not used.
-/

namespace AfXdpSwitch
namespace GoLifecycle
open Prog ResourceLedger Lifecycle

/-- What a `Socket` has: `fd` is `none` for -1 and `umem` for `nil`.  The rings are those that
`Descs` lie in. -/
structure Socket where
  fd : Option Nat
  umem : Option Nat
  rings : List Nat
deriving DecidableEq

def Socket.closed : Socket := ⟨none, none, []⟩

/-- "RxRingNumDescs and TxRingNumDescs cannot both be set to zero"; errors of the system are
negative. -/
def eNoRing : Int := 1

/-! ## `Close` -/

/-- `unix.Close`, after which the descriptor is gone in any case; the rings are forgotten. -/
def closeFd (xsk : Socket) : Lib Int :=
  match xsk.fd with
  | none => pure 0
  | some fd => do
      let err ← ask
      release (.fd fd)
      xsk.rings.forM fun ring => lose (.mapping ring)
      pure err

/-- `syscall.Munmap` with its result; what it could not unmap is forgotten. -/
def munmap (umem : Nat) (err : Int) : Lib Unit :=
  if err < 0 then lose (.mapping umem) else release (.mapping umem)

def unmapUmem (xsk : Socket) : Lib Int :=
  match xsk.umem with
  | none => pure 0
  | some umem => do
      let err ← ask
      munmap umem err
      pure err

/-- `Close`, with the first error. -/
def close (xsk : Socket) : Lib Int := do
  let err ← closeFd xsk
  let err' ← unmapUmem xsk
  pure (if err < 0 then err else err')

/-! ## `NewSocket` -/

/-- `xsk.Close()` on the way out. -/
def bail (xsk : Socket) : Lib Unit := do
  let _ ← close xsk

/-- `NewSocket` from `XDP_MMAP_OFFSETS` on. -/
def mapRings (rx tx : Bool) (fd umem : Nat) : Lib (Except Int Socket) :=
  call (bail ⟨fd, umem, []⟩) <| -- XDP_MMAP_OFFSETS
  attempt (acquire .mapping) (bail ⟨fd, umem, []⟩) fun fill =>
  attempt (acquire .mapping) (bail ⟨fd, umem, [fill]⟩) fun completion =>
  attempt (mapRing rx) (bail ⟨fd, umem, [completion, fill]⟩) fun rxMap =>
  attempt (mapRing tx) (bail ⟨fd, umem, rxMap.toList ++ [completion, fill]⟩) fun txMap =>
  let rings := txMap.toList ++ (rxMap.toList ++ [completion, fill])
  call (bail ⟨fd, umem, rings⟩) <| -- Bind
  pure (.ok ⟨fd, umem, rings⟩)

/-- The return without `xsk.Close()`. -/
def refuse (fd umem : Nat) : Lib (Except Int Socket) := do
  lose (.fd fd)
  lose (.mapping umem)
  pure (.error eNoRing)

/-- `NewSocket`. -/
def newSocket (options : Xdp.SocketOptions) : Lib (Except Int Socket) :=
  let rxRing := decide (options.rxRingNumDescs > 0)
  let txRing := decide (options.txRingNumDescs > 0)
  attempt (acquire .fd) (pure ()) fun fd =>
  attempt (acquire .mapping) (bail ⟨fd, none, []⟩) fun umem =>
  call (bail ⟨fd, umem, []⟩) <| -- XDP_UMEM_REG
  call (bail ⟨fd, umem, []⟩) <| -- XDP_UMEM_FILL_RING
  call (bail ⟨fd, umem, []⟩) <| -- XDP_UMEM_COMPLETION_RING
  (if rxRing then call (bail ⟨fd, umem, []⟩) else id) <| -- XDP_RX_RING
  (if txRing then call (bail ⟨fd, umem, []⟩) else id) <| -- XDP_TX_RING
  if !(rxRing || txRing) then refuse fd umem
  else mapRings rxRing txRing fd umem

/-! ## What the system calls do -/

/-- Some system call fails. -/
def Fails (answers : Nat → Int) : Prop := ∃ n, answers n < 0

/-- The process owns `own` and has lost `lost`. -/
structure Stands (own lost : List Res) (answers : Nat → Int) (s : Sys) : Prop where
  holds : Holds own s.res
  lost : s.res.lost = lost
  answers : s.answers = answers

section Rules
variable {α β : Type} {own own' lost : List Res} {answers : Nat → Int} {r : Res}
  {P : Sys → Prop} {Q : Except Int α → Sys → Prop} {C : Except Int β → Sys → Prop}

theorem Stands.congr {s : Sys} (h : Stands own lost answers s) (hp : own.Perm own') :
    Stands own' lost answers s := { h with holds := h.holds.congr hp }

theorem ask_stands : Spec (Stands own lost answers) ask
    (fun err s => (err < 0 → Fails answers) ∧ Stands own lost answers s) :=
  Triple.modifyGet fun s h => ⟨fun he => ⟨s.asked, h.answers ▸ he⟩, h.holds, h.lost, h.answers⟩

/-- One condition for a result, another for each error. -/
def Gives (Q : α → Sys → Prop) (R : Int → Sys → Prop) : Except Int α → Sys → Prop
  | .ok a => Q a
  | .error err => R err

theorem acquire_stands {mk : Nat → Res} (hmk : Function.Injective mk) :
    Spec (Stands own lost answers) (acquire mk) (Gives (fun n => Stands (mk n :: own) lost answers)
      fun err s => (err < 0 ∧ Fails answers) ∧ Stands own lost answers s) := by
  refine Triple.modifyGet fun s h => ?_
  by_cases herr : s.answers s.asked < 0
  · dsimp only
    rw [if_pos herr]
    exact ⟨⟨herr, ⟨s.asked, h.answers ▸ herr⟩⟩, h.holds, h.lost, h.answers⟩
  · dsimp only
    rw [if_neg herr]
    exact ⟨h.holds.acquire (unused_not_mem hmk _ _), h.lost, h.answers⟩

theorem release_stands : Spec (Stands (r :: own) lost answers) (release r)
    (fun _ => Stands own lost answers) :=
  Triple.modify fun _ h => ⟨h.holds.release, h.lost, h.answers⟩

theorem lose_stands : Spec (Stands (r :: own) lost answers) (lose r)
    (fun _ => Stands own (r :: lost) answers) :=
  Triple.modify fun _ h => ⟨h.holds.lose, congrArg (r :: ·) h.lost, h.answers⟩

theorem attempt_rule {c : Lib (Except Int β)} {cleanup : Lib Unit} {next : β → Lib (Except Int α)}
    (hc : Spec P c C) (herr : ∀ err, Spec (C (.error err)) cleanup (fun _ => Q (.error err)))
    (hok : ∀ b, Spec (C (.ok b)) (next b) Q) : Spec P (attempt c cleanup next) Q := by
  refine Triple.bind hc fun r => ?_
  cases r with
  | error err => exact Triple.bind (herr err) fun _ => Triple.pure fun _ h => h
  | ok b => exact hok b

theorem call_rule {cleanup : Lib Unit} {next : Lib (Except Int α)}
    (herr : ∀ err, err < 0 → Fails answers →
      Spec (Stands own lost answers) cleanup (fun _ => Q (.error err)))
    (hnext : Spec (Stands own lost answers) next Q) :
    Spec (Stands own lost answers) (call cleanup next) Q := by
  refine Triple.bind ask_stands fun err => Triple.ite (fun hneg => ?_) fun _ => ?_
  · refine Triple.pure_pre fun hfails => ?_
    exact Triple.bind (herr err hneg (hfails hneg)) fun _ => Triple.pure fun _ h => h
  · exact Triple.pure_pre fun _ => hnext

theorem callIf_rule {wanted : Bool} {cleanup : Lib Unit} {next : Lib (Except Int α)}
    (herr : ∀ err, err < 0 → Fails answers →
      Spec (Stands own lost answers) cleanup (fun _ => Q (.error err)))
    (hnext : Spec (Stands own lost answers) next Q) :
    Spec (Stands own lost answers) ((if wanted then call cleanup else id) next) Q := by
  split
  · exact call_rule herr hnext
  · exact hnext

end Rules

/-! ## `Close` and `NewSocket`, on every path -/

variable {own lost : List Res} {answers : Nat → Int}

/-- What a socket holds. -/
def Socket.res (xsk : Socket) : List Res :=
  xsk.rings.map .mapping ++ (xsk.umem.toList.map .mapping ++ xsk.fd.toList.map .fd)

def isMapping : Res → Bool
  | .fd _ => false
  | .mapping _ => true

/-- The rings of a socket with these options. -/
def ringCount (options : Xdp.SocketOptions) : Nat :=
  2 + (decide (options.rxRingNumDescs > 0)).toNat + (decide (options.txRingNumDescs > 0)).toNat

/-- What is left behind: mappings, and without failing calls those of `rings`. -/
structure Left (answers : Nat → Int) (rings : List Nat) (left : List Res) : Prop where
  mappings : ∀ r ∈ left, isMapping r = true
  perm : ¬ Fails answers → left.Perm (rings.map .mapping)

theorem loseRings_stands (rings : List Nat) :
    Spec (Stands (rings.map .mapping ++ own) lost answers)
      (rings.forM fun ring => lose (.mapping ring))
      (fun _ => Stands own ((rings.map .mapping).reverse ++ lost) answers) := by
  induction rings generalizing lost with
  | nil => exact Triple.pure fun _ h => h
  | cons ring rings ih =>
      refine Triple.bind lose_stands fun _ => Triple.conseq ih (fun _ h => h) fun _ s h => ?_
      rwa [List.map_cons, List.reverse_cons, List.append_assoc]

/-- A socket that has a descriptor or has no rings. -/
def Socket.Ok (xsk : Socket) : Prop := xsk.fd = none → xsk.rings = []

theorem closeFd_stands (xsk : Socket) (hok : xsk.Ok) :
    Spec (Stands (xsk.res ++ own) lost answers) (closeFd xsk)
      (fun _ => Stands (xsk.umem.toList.map .mapping ++ own)
        ((xsk.rings.map .mapping).reverse ++ lost) answers) := by
  obtain ⟨fd, umem, rings⟩ := xsk
  cases fd with
  | none =>
      obtain rfl : rings = [] := hok rfl
      refine Triple.pure fun s h => h.congr ?_
      simp [Socket.res]
  | some fd =>
      have hperm : (Socket.res ⟨some fd, umem, rings⟩ ++ own).Perm
          (.fd fd :: (rings.map .mapping ++ (umem.toList.map .mapping ++ own))) := by
        have hmiddle : (rings.map Res.mapping ++ umem.toList.map Res.mapping ++ Res.fd fd :: own).Perm
            (Res.fd fd :: (rings.map Res.mapping ++ umem.toList.map Res.mapping ++ own)) :=
          List.perm_middle
        simpa [Socket.res] using hmiddle
      refine Triple.bind ask_stands fun err => Triple.pure_pre fun _ => ?_
      refine Triple.bind (weaken release_stands fun s h => h.congr hperm) fun _ => ?_
      exact Triple.bind (loseRings_stands rings) fun _ => Triple.pure fun _ h => h

theorem munmap_stands (umem : Nat) {err : Int} (hfails : err < 0 → Fails answers) :
    Spec (Stands (.mapping umem :: own) lost answers) (munmap umem err)
      (fun _ s => ∃ left, Left answers [] left ∧ Stands own (left ++ lost) answers s) := by
  refine Triple.ite (fun hneg => ?_) fun _ => ?_
  · refine Triple.conseq lose_stands (fun _ h => h) fun _ s h => ⟨[.mapping umem], ⟨?_, ?_⟩, h⟩
    · intro r hr
      rw [List.mem_singleton.mp hr]
      rfl
    · exact fun hnot => absurd (hfails hneg) hnot
  · refine Triple.conseq release_stands (fun _ h => h) fun _ s h => ⟨[], ⟨?_, fun _ => .refl _⟩, h⟩
    exact fun r hr => absurd hr List.not_mem_nil

theorem unmapUmem_stands (xsk : Socket) :
    Spec (Stands (xsk.umem.toList.map .mapping ++ own) lost answers) (unmapUmem xsk)
      (fun _ s => ∃ left, Left answers [] left ∧ Stands own (left ++ lost) answers s) := by
  obtain ⟨fd, umem, rings⟩ := xsk
  cases umem with
  | none =>
      refine Triple.pure fun s h => ⟨[], ⟨fun r hr => absurd hr List.not_mem_nil, fun _ => .refl _⟩, h⟩
  | some umem =>
      refine Triple.bind ask_stands fun err => Triple.pure_pre fun hfails => ?_
      exact Triple.bind (munmap_stands umem hfails) fun _ => Triple.pure fun s h => h

/-- **`Close` leaves the rings.** -/
theorem close_stands (xsk : Socket) (hok : xsk.Ok) :
    Spec (Stands (xsk.res ++ own) lost answers) (close xsk) (fun _ s =>
      ∃ left, Left answers xsk.rings left ∧ Stands own (left ++ lost) answers s) := by
  refine Triple.bind (closeFd_stands xsk hok) fun err => ?_
  refine Triple.bind (unmapUmem_stands xsk) fun err' => Triple.pure fun s h => ?_
  obtain ⟨left, hleft, h⟩ := h
  rw [← List.append_assoc] at h
  refine ⟨_, ⟨fun r hr => ?_, fun hnot => ?_⟩, h⟩
  · rcases List.mem_append.mp hr with hr | hr
    · exact hleft.mappings r hr
    · obtain ⟨ring, -, rfl⟩ := List.mem_map.mp (List.mem_reverse.mp hr)
      rfl
  · have hnone := (hleft.perm hnot).append_right (xsk.rings.map Res.mapping).reverse
    exact hnone.trans (List.reverse_perm _)

/-- A socket that was not made: a call has failed, and mappings are left. -/
def Failed (own lost : List Res) (answers : Nat → Int) (err : Int) (s : Sys) : Prop :=
  err < 0 ∧ Fails answers ∧ ∃ left : List Res, (∀ r ∈ left, isMapping r = true) ∧
    Stands own (left ++ lost) answers s

theorem bail_failed (xsk : Socket) (hok : xsk.Ok) {err : Int} (herr : err < 0)
    (hfails : Fails answers) : Spec (Stands (xsk.res ++ own) lost answers)
      (bail xsk) (fun _ => Failed own lost answers err) := by
  refine Triple.bind (close_stands xsk hok) fun _ => Triple.pure fun s h => ?_
  obtain ⟨left, hleft, h⟩ := h
  exact ⟨herr, hfails, left, hleft.mappings, h⟩

/-- A socket that was made. -/
structure Made (own lost : List Res) (answers : Nat → Int) (rings : Nat) (xsk : Socket) (s : Sys) :
    Prop where
  fd : xsk.fd.isSome = true
  umem : xsk.umem.isSome = true
  rings : xsk.rings.length = rings
  stands : Stands (xsk.res ++ own) lost answers s

theorem mapRing_stands (wanted : Bool) : Spec (Stands own lost answers) (mapRing wanted)
    (Gives (fun ring s => ring.isSome = wanted ∧
        Stands (ring.toList.map .mapping ++ own) lost answers s)
      fun err s => (err < 0 ∧ Fails answers) ∧ Stands own lost answers s) := by
  refine Triple.ite (fun hw => ?_) fun hw => Triple.pure fun s h => ⟨?_, h⟩
  · refine attempt_rule (acquire_stands mapping_injective) (fun err => skip_spec) fun n => ?_
    exact Triple.pure fun s h => ⟨hw.symm, h⟩
  · exact (Bool.eq_false_iff.mpr hw).symm

theorem mapRings_stands (rx tx : Bool) (fd umem : Nat) :
    Spec (Stands (.mapping umem :: .fd fd :: own) lost answers) (mapRings rx tx fd umem)
      (Gives (Made own lost answers (2 + rx.toNat + tx.toNat)) (Failed own lost answers)) := by
  have hbail : ∀ rings err, err < 0 ∧ Fails answers →
      Spec (Stands (rings.map .mapping ++ (.mapping umem :: .fd fd :: own)) lost answers)
        (bail ⟨fd, umem, rings⟩) (fun _ => Failed own lost answers err) := by
    intro rings err h
    refine weaken (bail_failed ⟨some fd, some umem, rings⟩ (fun h => by cases h) h.1 h.2) ?_
    exact fun s hs => hs.congr (by simp [Socket.res])
  refine call_rule (fun err h h' => hbail [] err ⟨h, h'⟩) ?_
  refine attempt_rule (acquire_stands mapping_injective)
    (fun err => Triple.pure_pre (hbail [] err)) fun fill => ?_
  refine attempt_rule (acquire_stands mapping_injective)
    (fun err => Triple.pure_pre (hbail [fill] err)) fun completion => ?_
  refine attempt_rule (mapRing_stands rx)
    (fun err => Triple.pure_pre (hbail [completion, fill] err)) fun rxMap => ?_
  refine Triple.pure_pre fun hrx => ?_
  refine attempt_rule (mapRing_stands tx) (fun err => Triple.pure_pre fun h => ?_) fun txMap => ?_
  · refine weaken (hbail (rxMap.toList ++ [completion, fill]) err h) fun s hs => ?_
    rwa [List.map_append, List.append_assoc]
  refine Triple.pure_pre fun htx => ?_
  have hrings : ∀ s, Stands (txMap.toList.map .mapping ++ (rxMap.toList.map .mapping ++
      (.mapping completion :: .mapping fill :: .mapping umem :: .fd fd :: own))) lost answers s →
      Stands ((txMap.toList ++ (rxMap.toList ++ [completion, fill])).map .mapping ++
        (.mapping umem :: .fd fd :: own)) lost answers s := by
    intro s h
    simpa using h
  refine weaken (call_rule (fun err h h' => hbail _ err ⟨h, h'⟩) ?_) hrings
  refine Triple.pure fun s h => ⟨rfl, rfl, ?_, by simpa [Socket.res] using h⟩
  have hlen : ∀ ring : Option Nat, ring.toList.length = ring.isSome.toNat := by
    intro ring
    cases ring <;> rfl
  rw [List.length_append, List.length_append, hlen, hlen, hrx, htx]
  show tx.toNat + (rx.toNat + 2) = _
  omega

/-- The options have a ring. -/
def HasRing (options : Xdp.SocketOptions) : Prop :=
  options.rxRingNumDescs > 0 ∨ options.txRingNumDescs > 0

instance (options : Xdp.SocketOptions) : Decidable (HasRing options) :=
  inferInstanceAs (Decidable (_ ∨ _))

/-- What the error for a socket without rings leaves: its descriptor and its UMEM. -/
def Refused (own lost : List Res) (answers : Nat → Int) (options : Xdp.SocketOptions) (err : Int)
    (s : Sys) : Prop :=
  err = eNoRing ∧ ¬ HasRing options ∧
    ∃ fd umem, Stands own (.mapping umem :: .fd fd :: lost) answers s

theorem refuse_stands (fd umem : Nat) :
    Spec (Stands (.mapping umem :: .fd fd :: own) lost answers) (refuse fd umem)
      (Gives (fun _ _ => False) fun err s =>
        err = eNoRing ∧ Stands own (.mapping umem :: .fd fd :: lost) answers s) := by
  refine Triple.bind (weaken lose_stands fun s h => h.congr (List.Perm.swap _ _ _)) fun _ => ?_
  exact Triple.bind lose_stands fun _ => Triple.pure fun s h => ⟨rfl, h⟩

/-- **`NewSocket`, on every path.** -/
theorem newSocket_stands (options : Xdp.SocketOptions) :
    Spec (Stands own lost answers) (newSocket options)
      (Gives (fun xsk s => HasRing options ∧ Made own lost answers (ringCount options) xsk s)
        fun err s => Failed own lost answers err s ∨ Refused own lost answers options err s) := by
  have hbail : ∀ fd umem err, err < 0 → Fails answers →
      Spec (Stands (.mapping umem :: .fd fd :: own) lost answers) (bail ⟨some fd, some umem, []⟩)
        (fun _ s => Failed own lost answers err s ∨ Refused own lost answers options err s) := by
    intro fd umem err herr hfails
    refine Triple.conseq (bail_failed ⟨some fd, some umem, []⟩ (fun h => by cases h) herr hfails)
      (fun s hs => hs) fun _ s h => .inl h
  refine attempt_rule (acquire_stands fd_injective) (fun err => ?_) fun fd => ?_
  · exact Triple.pure fun s h => .inl ⟨h.1.1, h.1.2, [], fun r hr => absurd hr List.not_mem_nil, h.2⟩
  refine attempt_rule (acquire_stands mapping_injective) (fun err => ?_) fun umem => ?_
  · refine Triple.pure_pre fun h => ?_
    exact Triple.conseq (bail_failed ⟨some fd, none, []⟩ (fun h => by cases h) h.1 h.2)
      (fun s hs => hs) fun _ s h => .inl h
  have hout := hbail fd umem
  refine call_rule hout <| call_rule hout <| call_rule hout <| callIf_rule hout <|
    callIf_rule hout ?_
  refine Triple.ite (fun hnone => ?_) fun hring => ?_
  · have hno : ¬ HasRing options := by
      simpa [HasRing] using hnone
    refine Triple.conseq (refuse_stands fd umem) (fun s h => h) fun r s h => ?_
    cases r with
    | ok xsk => exact absurd h id
    | error err => exact .inr ⟨h.1, hno, fd, umem, h.2⟩
  · have hhas : HasRing options := by
      simpa [HasRing, or_iff_not_imp_left, Nat.pos_iff_ne_zero] using hring
    refine Triple.conseq (mapRings_stands _ _ fd umem) (fun s h => h) fun r s h => ?_
    cases r with
    | ok xsk => exact ⟨hhas, h⟩
    | error err => exact .inl h

/-! ## Runs -/

/-- A program that uses the package.  A socket that is closed keeps its place; `errors` has what
`NewSocket` returned. -/
structure Process where
  res : Ledger Res
  sockets : List Socket
  errors : List Int
  answers : Nat → Int
  asked : Nat

inductive Call where
  | newSocket (options : Xdp.SocketOptions)
  | close (i : Nat)

namespace Process

/-- Before the first call. -/
def start (answers : Nat → Int) : Process := ⟨⟨[], []⟩, [], [], answers, 0⟩

/-- What a call sees; there is no UMEM of `xsk.c`. -/
def sys (p : Process) : Sys := ⟨p.res, ⟨0, 0, 0, 0⟩, 0, p.answers, p.asked⟩

def after (p : Process) (s : Sys) (sockets : List Socket) (errors : List Int) : Process :=
  { p with res := s.res, asked := s.asked, sockets := sockets, errors := errors }

def step (p : Process) : Call → Process
  | .newSocket options =>
      match Lifecycle.Process.runLib (newSocket options) p.sys with
      | (.ok xsk, s) => p.after s (p.sockets ++ [xsk]) p.errors
      | (.error err, s) => p.after s p.sockets (err :: p.errors)
  | .close i =>
      match p.sockets[i]? with
      | none => p
      | some xsk =>
          let (_, s) := Lifecycle.Process.runLib (GoLifecycle.close xsk) p.sys
          p.after s (p.sockets.set i .closed) p.errors

def run (p : Process) (calls : List Call) : Process := calls.foldl step p

def owned (p : Process) : List Res := p.sockets.flatMap Socket.res

theorem step_answers (p : Process) (c : Call) : (p.step c).answers = p.answers := by
  cases c with
  | newSocket options =>
      rw [step]
      split <;> rfl
  | close i =>
      rw [step]
      split <;> rfl

theorem run_answers (p : Process) (calls : List Call) : (p.run calls).answers = p.answers := by
  induction calls generalizing p with
  | nil => rfl
  | cons c calls ih => exact (ih (p.step c)).trans (p.step_answers c)

end Process

def isFd (r : Res) : Bool := !isMapping r

/-- How many mappings a call makes that no `Close` takes back. -/
def Call.leaves : Call → Nat
  | .newSocket options => if HasRing options then ringCount options else 1
  | .close _ => 0

namespace Process

/-- The mappings that a call makes and no `Close` takes back: the rings of the socket it gives, and if
it gives none, what is mapped after the call and was not before. -/
def leftBy (p : Process) : Call → List Res
  | .newSocket options =>
      match Lifecycle.Process.runLib (newSocket options) p.sys with
      | (.ok xsk, _) => xsk.rings.map .mapping
      | (.error _, s) => s.res.opened.filter fun r => isMapping r && decide (r ∉ p.res.opened)
  | .close _ => []

/-- Those of a run, call by call. -/
def leftIn (p : Process) : List Call → List Res
  | [] => []
  | c :: calls => p.leftBy c ++ (p.step c).leftIn calls

/-- The UMEMs of the sockets that are not closed. -/
def umems (p : Process) : List Res := p.sockets.flatMap fun xsk => xsk.umem.toList.map .mapping

/-- The rings of the sockets that are not closed. -/
def rings (p : Process) : List Res := p.sockets.flatMap fun xsk => xsk.rings.map .mapping

end Process

/-- What is open is what the sockets hold and what is lost: a descriptor for every socket that was
refused, and, as long as no call fails, with the rings of the sockets the mappings that were left. -/
structure Accounted (left : List Res) (p : Process) : Prop where
  holds : Holds p.owned p.res
  ok : ∀ xsk ∈ p.sockets, xsk.Ok
  fds : p.res.lost.countP isFd = p.errors.count eNoRing
  mappings : ¬ Fails p.answers → (p.res.lost.filter isMapping ++ p.rings).Perm left

section Counts
variable {left : List Res}

theorem countP_isFd (h : ∀ r ∈ left, isMapping r = true) : left.countP isFd = 0 := by
  rw [List.countP_eq_zero]
  intro r hr
  simp [isFd, h r hr]

theorem countP_res_isFd (xsk : Socket) : xsk.res.countP isFd = xsk.fd.isSome.toNat := by
  obtain ⟨fd, umem, rings⟩ := xsk
  have hrings : (rings.map Res.mapping).countP isFd = 0 := by
    refine countP_isFd fun r hr => ?_
    obtain ⟨n, -, rfl⟩ := List.mem_map.mp hr
    rfl
  cases fd <;> cases umem <;> simp [Socket.res, hrings, isFd, isMapping]

theorem countP_held_isFd (sockets : List Socket) :
    (sockets.flatMap Socket.res).countP isFd = sockets.countP (·.fd.isSome) := by
  induction sockets with
  | nil => rfl
  | cons xsk sockets ih =>
      rw [List.flatMap_cons, List.countP_append, ih, countP_res_isFd, List.countP_cons]
      cases xsk.fd.isSome
      · exact Nat.zero_add _
      · exact Nat.add_comm _ _

theorem filter_mappings (ns : List Nat) :
    (ns.map Res.mapping).filter isMapping = ns.map Res.mapping := by
  refine List.filter_eq_self.mpr fun r hr => ?_
  obtain ⟨n, -, rfl⟩ := List.mem_map.mp hr
  rfl

theorem filter_res (xsk : Socket) :
    xsk.res.filter isMapping = xsk.rings.map .mapping ++ xsk.umem.toList.map .mapping := by
  have hfd : (xsk.fd.toList.map Res.fd).filter isMapping = [] := by
    refine List.filter_eq_nil_iff.mpr fun r hr => ?_
    obtain ⟨fd, -, rfl⟩ := List.mem_map.mp hr
    exact Bool.false_ne_true
  unfold Socket.res
  rw [List.filter_append, List.filter_append, filter_mappings, filter_mappings, hfd, List.append_nil]

/-- The mappings that sockets hold are their UMEMs and their rings. -/
theorem filter_held (sockets : List Socket) :
    ((sockets.flatMap Socket.res).filter isMapping).Perm
      (sockets.flatMap (fun xsk => xsk.umem.toList.map .mapping) ++
        sockets.flatMap fun xsk => xsk.rings.map .mapping) := by
  rw [List.filter_flatMap]
  simp only [filter_res]
  exact (List.flatMap_append_perm sockets _ _).symm.trans List.perm_append_comm

end Counts

namespace Accounted
variable {p : Process} {left : List Res} {i : Nat} {xsk : Socket}

theorem start (answers : Nat → Int) : Accounted [] (Process.start answers) :=
  ⟨⟨List.nodup_nil, List.Perm.refl _⟩, fun _ h => absurd h List.not_mem_nil, rfl, fun _ => .refl _⟩

theorem stands (ha : Accounted left p) : Stands p.owned p.res.lost p.answers p.sys :=
  ⟨ha.holds, rfl, rfl⟩

/-- Of what a refused call has opened, the UMEM is the mapping. -/
theorem opened_by_refused (ha : Accounted left p) {umem fd : Nat} {s : Sys}
    (hs : Stands p.owned (.mapping umem :: .fd fd :: p.res.lost) p.answers s) :
    (s.res.opened.filter fun r => isMapping r && decide (r ∉ p.res.opened)).Perm
      [.mapping umem] := by
  have hperm : s.res.opened.Perm (.mapping umem :: .fd fd :: (p.owned ++ p.res.lost)) := by
    have hp := hs.holds.perm
    rw [hs.lost] at hp
    exact hp.trans (List.perm_middle.trans (List.perm_middle.cons _))
  have hnew : Res.mapping umem ∉ p.res.opened := by
    have hnodup := hperm.nodup_iff.mp hs.holds.nodup
    intro hmem
    exact (List.nodup_cons.mp hnodup).1 (List.mem_cons_of_mem _ (ha.holds.perm.mem_iff.mp hmem))
  have hold : (p.owned ++ p.res.lost).filter
      (fun r => isMapping r && decide (r ∉ p.res.opened)) = [] := by
    refine List.filter_eq_nil_iff.mpr fun r hr => ?_
    simp [ha.holds.perm.mem_iff.mpr hr]
  refine (hperm.filter _).trans ?_
  rw [List.filter_cons_of_pos (by simpa [isMapping] using hnew),
    List.filter_cons_of_neg (by simp [isMapping]), hold]

/-- The rings of a socket that was made are left. -/
theorem made (ha : Accounted left p) {rings : Nat} {s : Sys}
    (h : Made p.owned p.res.lost p.answers rings xsk s) :
    Accounted (left ++ xsk.rings.map .mapping) (p.after s (p.sockets ++ [xsk]) p.errors) := by
  refine ⟨h.stands.holds.congr ?_, fun x hx => ?_, ?_, fun hnot => ?_⟩
  · show (xsk.res ++ p.owned).Perm ((p.sockets ++ [xsk]).flatMap Socket.res)
    rw [List.flatMap_append, List.flatMap_singleton]
    exact List.perm_append_comm
  · rcases List.mem_append.mp hx with hx | hx
    · exact ha.ok x hx
    · rw [List.mem_singleton.mp hx]
      exact fun hfd => absurd h.fd (by rw [hfd]; decide)
  · show s.res.lost.countP isFd = _
    rw [h.stands.lost]
    exact ha.fds
  · show (s.res.lost.filter isMapping ++
      (p.sockets ++ [xsk]).flatMap fun xsk : Socket => xsk.rings.map Res.mapping).Perm _
    rw [h.stands.lost, List.flatMap_append, List.flatMap_singleton, ← List.append_assoc]
    exact (ha.mappings hnot).append_right _

/-- After a failed call nothing is said about mappings. -/
theorem failed (ha : Accounted left p) {err : Int} {s : Sys} {left' : List Res}
    (h : Failed p.owned p.res.lost p.answers err s) :
    Accounted left' (p.after s p.sockets (err :: p.errors)) := by
  obtain ⟨herr, hfails, behind, hmaps, hs⟩ := h
  refine ⟨hs.holds, ha.ok, ?_, fun hnot => absurd hfails hnot⟩
  show s.res.lost.countP isFd = (err :: p.errors).count eNoRing
  have hne : err ≠ eNoRing := by
    unfold eNoRing
    omega
  rw [hs.lost, List.countP_append, countP_isFd hmaps, Nat.zero_add, List.count_cons_of_ne hne]
  exact ha.fds

/-- The descriptor and the UMEM of a refused call are left. -/
theorem refused (ha : Accounted left p) {umem fd : Nat} {s : Sys}
    (hs : Stands p.owned (.mapping umem :: .fd fd :: p.res.lost) p.answers s) :
    Accounted (left ++ [.mapping umem]) (p.after s p.sockets (eNoRing :: p.errors)) := by
  refine ⟨hs.holds, ha.ok, ?_, fun hnot => ?_⟩
  · show s.res.lost.countP isFd = (eNoRing :: p.errors).count eNoRing
    rw [hs.lost, List.count_cons_self, ← ha.fds]
    simp [isFd, isMapping]
  · show (s.res.lost.filter isMapping ++ p.rings).Perm _
    have hlost : (Res.mapping umem :: Res.fd fd :: p.res.lost).filter isMapping =
        .mapping umem :: p.res.lost.filter isMapping := rfl
    rw [hs.lost, hlost]
    exact ((ha.mappings hnot).cons _).trans (List.perm_append_singleton _ _).symm

theorem perm_left {left' : List Res} (ha : Accounted left p) (h : left.Perm left') :
    Accounted left' p := { ha with mappings := fun hnot => (ha.mappings hnot).trans h }

/-- **`NewSocket` keeps the accounts**, and leaves as many mappings as it should. -/
theorem newSocket (ha : Accounted left p) (options : Xdp.SocketOptions) :
    Accounted (left ++ p.leftBy (.newSocket options)) (p.step (.newSocket options)) ∧
      (¬ Fails p.answers →
        (p.leftBy (.newSocket options)).length = (Call.newSocket options).leaves) := by
  have h := runLib_spec (newSocket_stands options) ha.stands
  unfold Process.step Process.leftBy
  dsimp only
  rcases hr : Lifecycle.Process.runLib (GoLifecycle.newSocket options) p.sys with ⟨r, s⟩
  rw [hr] at h
  cases r with
  | ok xsk =>
      obtain ⟨hring, hmade⟩ := h
      have hleaves : (Call.newSocket options).leaves = ringCount options := if_pos hring
      refine ⟨ha.made hmade, fun _ => ?_⟩
      rw [List.length_map, hleaves]
      exact hmade.rings
  | error err =>
      rcases h with hfailed | ⟨rfl, hno, fd, umem, hs⟩
      · exact ⟨ha.failed hfailed, fun hnot => absurd hfailed.2.1 hnot⟩
      · have hleaves : (Call.newSocket options).leaves = 1 := if_neg hno
        have hnew := ha.opened_by_refused hs
        refine ⟨(ha.refused hs).perm_left (hnew.symm.append_left left), fun _ => ?_⟩
        rw [hleaves, hnew.length_eq]
        rfl

/-- The socket at place `i` and the others. -/
theorem perm_at (h : p.sockets[i]? = some xsk) :
    p.sockets.Perm (xsk :: p.sockets.eraseIdx i) := by
  obtain ⟨hi, rfl⟩ := List.getElem?_eq_some_iff.mp h
  exact (List.getElem_cons_eraseIdx_perm hi).symm

theorem perm_set (h : p.sockets[i]? = some xsk) (x : Socket) :
    (p.sockets.set i x).Perm (x :: p.sockets.eraseIdx i) := by
  obtain ⟨hi, -⟩ := List.getElem?_eq_some_iff.mp h
  exact List.set_perm_cons_eraseIdx hi x

theorem close (ha : Accounted left p) (h : p.sockets[i]? = some xsk) :
    Accounted left (p.step (.close i)) := by
  have hheld := (perm_at h).flatMap_right Socket.res
  have hs : Stands (xsk.res ++ (p.sockets.eraseIdx i).flatMap Socket.res) p.res.lost p.answers
      p.sys := ha.stands.congr hheld
  obtain ⟨behind, hbehind, hs⟩ :=
    runLib_spec (close_stands xsk (ha.ok xsk (List.mem_of_getElem? h))) hs
  simp only [Process.step, h]
  refine ⟨hs.holds.congr ?_, fun x hx => ?_, ?_, fun hnot => ?_⟩
  · exact ((perm_set h .closed).flatMap_right Socket.res).symm
  · rcases List.mem_or_eq_of_mem_set hx with hx | rfl
    · exact ha.ok x hx
    · exact fun _ => rfl
  · show (Lifecycle.Process.runLib (GoLifecycle.close xsk) p.sys).2.res.lost.countP isFd = _
    rw [hs.lost, List.countP_append, countP_isFd hbehind.mappings, Nat.zero_add]
    exact ha.fds
  · -- the rings of the socket are lost, and those of the others are its others
    show ((Lifecycle.Process.runLib (GoLifecycle.close xsk) p.sys).2.res.lost.filter isMapping ++
      (p.sockets.set i .closed).flatMap fun xsk : Socket => xsk.rings.map Res.mapping).Perm left
    have hbefore := (perm_at h).flatMap_right fun xsk => xsk.rings.map Res.mapping
    have hafter := (perm_set h .closed).flatMap_right fun xsk => xsk.rings.map Res.mapping
    rw [List.flatMap_cons] at hbefore hafter
    rw [hs.lost, List.filter_append, List.filter_eq_self.mpr hbehind.mappings]
    refine List.Perm.trans ?_ (ha.mappings hnot)
    refine (List.perm_append_comm.append_right _).trans ?_
    rw [List.append_assoc]
    refine List.Perm.append_left _ ?_
    exact ((hbehind.perm hnot).append hafter).trans hbefore.symm

/-- **Every call keeps the accounts.** -/
theorem step (ha : Accounted left p) (c : Call) :
    Accounted (left ++ p.leftBy c) (p.step c) ∧
      (¬ Fails p.answers → (p.leftBy c).length = c.leaves) := by
  cases c with
  | newSocket options => exact ha.newSocket options
  | close i =>
      refine ⟨?_, fun _ => rfl⟩
      rw [Process.leftBy, List.append_nil]
      cases h : p.sockets[i]? with
      | none => simpa only [Process.step, h] using ha
      | some xsk => exact ha.close h

theorem run (ha : Accounted left p) (calls : List Call) :
    Accounted (left ++ p.leftIn calls) (p.run calls) := by
  induction calls generalizing left p with
  | nil => rwa [Process.leftIn, List.append_nil]
  | cons c calls ih =>
      have h := ih (ha.step c).1
      rwa [List.append_assoc] at h

theorem leftIn_length (ha : Accounted left p) (calls : List Call) (hnot : ¬ Fails p.answers) :
    (p.leftIn calls).length = (calls.map Call.leaves).sum := by
  induction calls generalizing left p with
  | nil => rfl
  | cons c calls ih =>
      obtain ⟨hstep, hlength⟩ := ha.step c
      have hrest := ih hstep (by rwa [Process.step_answers])
      rw [Process.leftIn, List.length_append, hlength hnot, hrest, List.map_cons, List.sum_cons]

end Accounted

variable (answers : Nat → Int) (calls : List Call)

theorem Process.fd_mem_owned {p : Process} {xsk : Socket} (hx : xsk ∈ p.sockets) {fd : Nat}
    (hfd : xsk.fd = some fd) : Res.fd fd ∈ p.owned := by
  refine List.mem_flatMap.mpr ⟨xsk, hx, ?_⟩
  simp [Socket.res, hfd]

/-- The open descriptors of a process are those of its sockets, but for one for each `NewSocket` that
was asked for no ring. -/
structure Process.FdsOfSockets (p : Process) : Prop where
  opened : ∀ xsk ∈ p.sockets, ∀ fd, xsk.fd = some fd → Res.fd fd ∈ p.res.opened
  count : p.res.opened.countP isFd = p.sockets.countP (·.fd.isSome) + p.errors.count eNoRing
  held_iff : (∀ fd, Res.fd fd ∈ p.res.opened → ∃ xsk ∈ p.sockets, xsk.fd = some fd) ↔
    eNoRing ∉ p.errors

/-- **Descriptors over whole runs.**  Whatever the kernel answers and in whatever order sockets are
made and closed, there is one open descriptor for every socket that is not closed and one for every
`NewSocket` that was asked for no ring.  So if there was none, every open descriptor is that of a
socket. -/
theorem descriptors_eq : ((Process.start answers).run calls).FdsOfSockets := by
  have ha := (Accounted.start answers).run calls
  generalize (Process.start answers).run calls = p at ha
  refine ⟨fun xsk hx fd hfd => ?_, ?_, fun hall => ?_, fun hno fd hfd => ?_⟩
  · exact ha.holds.mem (Process.fd_mem_owned hx hfd)
  · rw [ha.holds.perm.countP_eq, List.countP_append, ha.fds]
    exact congrArg (· + _) (countP_held_isFd p.sockets)
  · -- a lost descriptor would be held as well
    intro hmem
    have hpos : 0 < p.res.lost.countP isFd := by
      rw [ha.fds]
      exact List.count_pos_iff.mpr hmem
    obtain ⟨r, hr, hisFd⟩ := List.countP_pos_iff.mp hpos
    cases r with
    | mapping n => cases hisFd
    | fd n =>
        have hopen := ha.holds.perm.mem_iff.mpr (List.mem_append_right p.owned hr)
        obtain ⟨xsk, hx, hfd⟩ := hall n hopen
        have hn := ha.holds.perm.nodup_iff.mp ha.holds.nodup
        exact (List.disjoint_of_nodup_append hn) (Process.fd_mem_owned hx hfd) hr
  · rcases List.mem_append.mp (ha.holds.perm.mem_iff.mp hfd) with hown | hlost
    · obtain ⟨xsk, hx, hr⟩ := List.mem_flatMap.mp hown
      exact ⟨xsk, hx, by simpa [Socket.res] using hr⟩
    · have hcount : p.res.lost.countP isFd = 0 := by
        rw [ha.fds, List.count_eq_zero]
        exact hno
      exact absurd rfl (List.countP_eq_zero.mp hcount _ hlost)

/-- The open mappings of a process are the UMEMs of its sockets that are not closed and those in
`left`, each once. -/
structure Process.MappingsOf (p : Process) (left : List Res) : Prop where
  nodup : p.res.opened.Nodup
  opened : (p.res.opened.filter isMapping).Perm (p.umems ++ left)

/-- **Mappings over whole runs.**  If no call fails, the mappings that are open are the UMEMs of the
sockets that are not closed and, closed or not, the rings of every socket there was, two to four of
them; a `NewSocket` that was asked for no ring leaves its UMEM. -/
theorem mappings_eq (hanswers : ¬ Fails answers) :
    ((Process.start answers).run calls).MappingsOf ((Process.start answers).leftIn calls) ∧
      ((Process.start answers).leftIn calls).length = (calls.map Call.leaves).sum := by
  have ha := (Accounted.start answers).run calls
  have hm := ha.mappings (by rwa [Process.run_answers])
  refine ⟨⟨ha.holds.nodup, ?_⟩, (Accounted.start answers).leftIn_length calls hanswers⟩
  have hheld := filter_held ((Process.start answers).run calls).sockets
  refine (ha.holds.perm.filter isMapping).trans ?_
  rw [List.filter_append]
  refine (hheld.append_right _).trans ?_
  rw [List.append_assoc]
  exact List.Perm.append_left _ (List.perm_append_comm.trans hm)

/-- One socket that is closed, and one that was asked for no ring: of six mappings five are left, the
rings of the one and the UMEM of the other. -/
theorem mappings_eq_closed :
    (((Process.start fun _ => 0).run [.newSocket Xdp.defaultSocketOptions,
      .newSocket ⟨8, 64, 8, 8, 0, 0⟩, .close 0]).res.opened.filter isMapping).Perm
      [.mapping 4, .mapping 3, .mapping 2, .mapping 1, .mapping 5] := by
  have hanswers : ¬ Fails fun _ => 0 := by
    rintro ⟨n, hn⟩
    exact absurd hn (Int.lt_irrefl 0)
  exact (mappings_eq (fun _ => 0) _ hanswers).1.opened.trans (.of_eq (by decide +kernel))

end GoLifecycle
end AfXdpSwitch
