import AfXdpSwitch.Hoare
import AfXdpSwitch.ResourceLedger

/-!
# The life of UMEMs and sockets in `libbpf/src/xsk.c`

`xsk_umem__create` and `xsk_socket__create` acquire file descriptors and mappings one after the
other, and on every error give back what they have by then; `xsk_socket__delete` and
`xsk_umem__delete` give back the rest.  How many sockets a UMEM has is counted in `refcount`: the
first one uses the descriptor of the UMEM, the others have one of their own.

Every system call is answered by the environment, `answers`: a negative number is an error, and the
descriptor or mapping that a call returns is one that is not in use.  Two fields of the state are
not read by the code: `lost` has the resources that are open but named by no variable any more, and
`missed` counts how often `refcount` was raised for a socket that was then not made.

Null pointers and the contents of the rings are left out, as is the return value of calls whose
result the code ignores.
-/

namespace AfXdpSwitch
namespace Lifecycle
open Prog ResourceLedger

/-- `-EINVAL`. -/
def eInval : Int := -22
/-- `-EBUSY`. -/
def eBusy : Int := -16
/-- `-ENOENT`. -/
def eNoEnt : Int := -2
/-- `-EFAULT`. -/
def eFault : Int := -14
/-- `-EOPNOTSUPP`. -/
def eOpNotSupp : Int := -95

/-- `XSK_LIBBPF_FLAGS__INHIBIT_PROG_LOAD`. -/
def inhibitProgLoad : BitVec 32 := 1

/-- A file descriptor or a mapping. -/
inductive Res where
  | fd (n : Nat)
  | mapping (n : Nat)
deriving DecidableEq

/-- `struct xsk_umem`; the rings by their mappings. -/
structure XskUmem where
  fd : Nat
  fill : Nat
  comp : Nat
  refcount : Int
deriving DecidableEq

/-- `struct xsk_socket`; the rings by their mappings.  `prog` has `prog_fd` and `xsks_map_fd`, and is
`none` where `prog_fd` is -1. -/
structure XskSocket where
  fd : Nat
  rx : Option Nat
  tx : Option Nat
  prog : Option (Nat × Nat)
deriving DecidableEq

/-- What a call sees: the resources of the process, and the UMEM it is given. -/
structure Sys where
  res : Ledger Res
  umem : XskUmem
  missed : Nat
  answers : Nat → Int
  asked : Nat

/-- Functions of the library; none of them faults. -/
abbrev Lib := Prog Empty Sys

/-! ## System calls -/

/-- The answer to the next system call. -/
def ask : Lib Int := modifyGet fun s => (s.answers s.asked, { s with asked := s.asked + 1 })

/-- A system call that returns a new resource. -/
def acquire (mk : Nat → Res) : Lib (Except Int Nat) := modifyGet fun s =>
  let a := s.answers s.asked
  if a < 0 then (.error a, { s with asked := s.asked + 1 })
  else
    let n := unused mk s.res.opened a.toNat
    (.ok n, { s with res := s.res.acquire (mk n), asked := s.asked + 1 })

/-- `close` and `munmap`. -/
def release (r : Res) : Lib Unit := modify fun s => { s with res := s.res.release r }

/-- No variable names `r` from here on. -/
def lose (r : Res) : Lib Unit := modify fun s => { s with res := s.res.lose r }

/-- One after the other. -/
def releaseAll (rs : List Res) : Lib Unit := rs.forM release

/-- `refcount` of the UMEM. -/
def addRef (d : Int) : Lib Unit :=
  modify fun s => { s with umem := { s.umem with refcount := s.umem.refcount + d } }

/-- The reference count was raised for a socket that there is not. -/
def miss : Lib Unit := modify fun s => { s with missed := s.missed + 1 }

/-- Go on with `next` unless `err` is an error; then clean up and return it. -/
def check {α : Type} (err : Int) (cleanup : Lib Unit) (next : Lib (Except Int α)) :
    Lib (Except Int α) :=
  if err < 0 then do
    cleanup
    pure (.error err)
  else next

/-- Go on with what a call has returned; on error clean up and return it. -/
def attempt {α β : Type} (call : Lib (Except Int α)) (cleanup : Lib Unit)
    (next : α → Lib (Except Int β)) : Lib (Except Int β) := do
  match ← call with
  | .error err => do
      cleanup
      pure (.error err)
  | .ok a => next a

/-- A system call that returns no more than an error. -/
def call {α : Type} (cleanup : Lib Unit) (next : Lib (Except Int α)) : Lib (Except Int α) := do
  check (← ask) cleanup next

/-! ## `xsk_umem__create` and `xsk_umem__delete` -/

/-- `xsk_umem__create`, for an area of this size. -/
def xskUmemCreate (size : Nat) (pageAligned : Bool) : Lib (Except Int XskUmem) :=
  if size = 0 ∧ ¬ pageAligned then pure (.error eInval)
  else call (pure ()) <| -- calloc
    attempt (acquire .fd) (pure ()) fun fd =>
    let outSocket := release (.fd fd)
    call outSocket <| -- XDP_UMEM_REG
    call outSocket <| -- XDP_UMEM_FILL_RING
    call outSocket <| -- XDP_UMEM_COMPLETION_RING
    call outSocket <| -- xsk_get_mmap_offsets
    attempt (acquire .mapping) outSocket fun fill =>
    -- `map` is `MAP_FAILED` by now, so `munmap` does not reach the fill ring
    let outMmap := do
      lose (.mapping fill)
      outSocket
    attempt (acquire .mapping) outMmap fun comp =>
    pure (.ok ⟨fd, fill, comp, 0⟩)

/-- Rings are unmapped only if `xsk_get_mmap_offsets` says where they begin. -/
def unmapRings (rings : List Res) : Lib Unit := do
  let err ← ask
  if err < 0 then rings.forM lose else releaseAll rings

/-- `xsk_umem__delete`. -/
def xskUmemDelete : Lib Int := do
  let umem := (← get).umem
  if umem.refcount ≠ 0 then pure eBusy
  else do
    unmapRings [.mapping umem.fill, .mapping umem.comp]
    release (.fd umem.fd)
    pure 0

/-! ## The XDP program and its maps -/

/-- `xsk_get_max_queues`, on a socket of its own. -/
def xskGetMaxQueues : Lib (Except Int Unit) :=
  attempt (acquire .fd) (pure ()) fun fd => do
    let err ← ask
    release (.fd fd)
    pure (if err < 0 ∧ err ≠ eOpNotSupp then .error err else .ok ())

/-- `xsk_create_bpf_maps`. -/
def xskCreateBpfMaps : Lib (Except Int Nat) :=
  attempt xskGetMaxQueues (pure ()) fun _ => acquire .fd

/-- `xsk_delete_bpf_maps`. -/
def xskDeleteBpfMaps (xsksMapFd : Nat) : Lib Unit := release (.fd xsksMapFd)

/-- `xsk_load_xdp_prog`: load the program and attach it. -/
def xskLoadXdpProg : Lib (Except Int Nat) :=
  attempt (acquire .fd) (pure ()) fun progFd =>
    call (release (.fd progFd)) (pure (.ok progFd))

/-- One round of the loop of `xsk_lookup_bpf_maps`.  A map with the name takes the place of one that
was found before, which stays open. -/
def lookupRound (_ : Nat) (xsksMapFd : Option Nat) : Lib (Option Nat) := do
  match ← acquire .fd with
  | .error _ => pure xsksMapFd
  | .ok fd => do
      let err ← ask
      if err < 0 then do
        release (.fd fd)
        pure xsksMapFd
      else do
        let strcmp ← ask
        if strcmp = 0 then do
          match xsksMapFd with
          | some old => lose (.fd old)
          | none => pure ()
          pure (some fd)
        else do
          release (.fd fd)
          pure xsksMapFd

/-- `xsk_lookup_bpf_maps`, over the maps of the program that is attached. -/
def xskLookupBpfMaps : Lib (Except Int Nat) :=
  call (pure ()) <| -- bpf_obj_get_info_by_fd
  call (pure ()) <| -- calloc
  call (pure ()) <| do -- bpf_obj_get_info_by_fd
    let nrMapIds ← ask
    match ← forLoop nrMapIds.toNat lookupRound none with
    | none => pure (.error eNoEnt)
    | some fd => pure (.ok fd)

/-- The program on the interface, `progId`, with its map; if there is none, a new one. -/
def findProg (progId : Int) : Lib (Except Int (Nat × Nat)) :=
  if progId = 0 then
    attempt xskCreateBpfMaps (pure ()) fun mapFd =>
    attempt xskLoadXdpProg (xskDeleteBpfMaps mapFd) fun progFd =>
    pure (.ok (progFd, mapFd))
  else
    attempt (acquire .fd) (pure ()) fun progFd => -- bpf_prog_get_fd_by_id
    attempt xskLookupBpfMaps (release (.fd progFd)) fun mapFd =>
    pure (.ok (progFd, mapFd))

/-- The program and its map, if the socket has set them up. -/
def closeProg : Option (Nat × Nat) → Lib Unit
  | some (progFd, mapFd) => do
      xskDeleteBpfMaps mapFd
      release (.fd progFd)
  | none => pure ()

/-- `xsk_setup_xdp_prog`; the result is `prog_fd` and `xsks_map_fd`. -/
def xskSetupXdpProg (rx : Bool) : Lib (Except Int (Nat × Nat)) :=
  call (pure ()) <| do -- bpf_get_link_xdp_id
    let progId ← ask
    attempt (findProg progId) (pure ()) fun prog =>
      if rx then call (closeProg (some prog)) (pure (.ok prog)) -- xsk_set_bpf_maps
      else pure (.ok prog)

/-! ## `xsk_socket__create` and `xsk_socket__delete` -/

/-- A ring is mapped if the caller wants it. -/
def mapRing (wanted : Bool) : Lib (Except Int (Option Nat)) :=
  if wanted then attempt (acquire .mapping) (pure ()) fun m => pure (.ok (some m))
  else pure (.ok none)

/-- The resource of a ring that is mapped. -/
def ringRes (ring : Option Nat) : List Res := ring.toList.map .mapping

/-- `out_socket`. -/
def outSocket (fd : Nat) : Lib Unit := do
  addRef (-1)
  if (← get).umem.refcount ≠ 0 then release (.fd fd) else pure ()

/-- The rings, the address and the program of a socket that has its descriptor. -/
def xskSocketSetup (rx tx inhibit : Bool) (fd : Nat) : Lib (Except Int XskSocket) :=
  call (outSocket fd) <| -- if_nametoindex
  (if rx then call (outSocket fd) else id) <| -- XDP_RX_RING
  (if tx then call (outSocket fd) else id) <| -- XDP_TX_RING
  call (outSocket fd) <| -- xsk_get_mmap_offsets
  attempt (mapRing rx) (outSocket fd) fun rxMap =>
  let outMmapRx := do
    releaseAll (ringRes rxMap)
    outSocket fd
  attempt (mapRing tx) outMmapRx fun txMap =>
  let outMmapTx := do
    releaseAll (ringRes txMap)
    outMmapRx
  call outMmapTx <| -- bind
  if inhibit then pure (.ok ⟨fd, rxMap, txMap, none⟩)
  else attempt (xskSetupXdpProg rx) outMmapTx fun prog => pure (.ok ⟨fd, rxMap, txMap, some prog⟩)

/-- `xsk_socket__create`.  Only the first socket of a UMEM uses its descriptor. -/
def xskSocketCreate (rx tx : Bool) (libbpfFlags : BitVec 32) : Lib (Except Int XskSocket) :=
  if ¬ (rx || tx) then pure (.error eFault)
  else call (pure ()) <| -- calloc
    if libbpfFlags &&& ~~~inhibitProgLoad ≠ 0 then pure (.error eInval)
    else do
      let inhibit := libbpfFlags &&& inhibitProgLoad ≠ 0
      let refcount := (← get).umem.refcount
      if refcount ≠ 0 ∧ ¬ inhibit then pure (.error eBusy)
      else do
        addRef 1
        if refcount > 0 then
          -- from here the error goes to `out_xsk_alloc`, and `refcount` stays raised
          attempt (acquire .fd) miss (xskSocketSetup rx tx inhibit)
        else do
          let fd := (← get).umem.fd
          xskSocketSetup rx tx inhibit fd

/-- `xsk_socket__delete`. -/
def xskSocketDelete (xsk : XskSocket) : Lib Unit := do
  closeProg xsk.prog
  unmapRings (ringRes xsk.rx ++ ringRes xsk.tx)
  addRef (-1)
  if xsk.fd ≠ (← get).umem.fd then release (.fd xsk.fd) else pure ()

/-! ## What a call returns -/

/-- Programs that always return. -/
abbrev Spec {α : Type} (P : Sys → Prop) (c : Lib α) (Q : α → Sys → Prop) : Prop :=
  Triple (fun _ => False) P c Q

/-- One condition for a result, another for an error. -/
def Returns {α : Type} (Q : α → Sys → Prop) (R : Sys → Prop) : Except Int α → Sys → Prop
  | .ok a => Q a
  | .error _ => R

/-- The process owns `own`, and the UMEM at hand is `u`. -/
structure At (own : List Res) (u : XskUmem) (m : Nat) (s : Sys) : Prop where
  holds : Holds own s.res
  umem : s.umem = u
  missed : s.missed = m

section Rules
variable {α β : Type} {own own' : List Res} {u : XskUmem} {m : Nat} {r : Res}
  {P P' R R' : Sys → Prop} {Q : α → Sys → Prop} {Q' : β → Sys → Prop}

theorem At.congr {s : Sys} (h : At own u m s) (hp : own.Perm own') : At own' u m s :=
  { h with holds := h.holds.congr hp }

theorem ask_spec : Spec (At own u m) ask (fun _ => At own u m) :=
  Triple.modifyGet fun _ h => ⟨h.holds, h.umem, h.missed⟩

theorem acquire_spec {mk : Nat → Res} (hmk : Function.Injective mk) : Spec (At own u m) (acquire mk)
    (Returns (fun n => At (mk n :: own) u m) (At own u m)) := by
  refine Triple.modifyGet fun s h => ?_
  dsimp only
  split
  · exact ⟨h.holds, h.umem, h.missed⟩
  · exact ⟨h.holds.acquire (unused_not_mem hmk _ _), h.umem, h.missed⟩

theorem fd_injective : Function.Injective Res.fd := fun _ _ h => Res.fd.inj h

theorem mapping_injective : Function.Injective Res.mapping := fun _ _ h => Res.mapping.inj h

theorem release_spec : Spec (At (r :: own) u m) (release r) (fun _ => At own u m) :=
  Triple.modify fun _ h => ⟨h.holds.release, h.umem, h.missed⟩

theorem lose_spec : Spec (At (r :: own) u m) (lose r) (fun _ => At own u m) :=
  Triple.modify fun _ h => ⟨h.holds.lose, h.umem, h.missed⟩

/-- Resources go one by one. -/
theorem forM_spec {f : Res → Lib Unit}
    (hf : ∀ r own, Spec (At (r :: own) u m) (f r) (fun _ => At own u m)) (rs : List Res) :
    Spec (At (rs ++ own) u m) (rs.forM f) (fun _ => At own u m) := by
  induction rs with
  | nil => exact Triple.pure fun _ h => h
  | cons r rs ih => exact Triple.bind (hf r _) fun _ => ih

theorem unmapRings_spec (rs : List Res) :
    Spec (At (rs ++ own) u m) (unmapRings rs) (fun _ => At own u m) :=
  Triple.bind ask_spec fun _ => Triple.ite (fun _ => forM_spec (fun _ _ => lose_spec) rs)
    fun _ => forM_spec (fun _ _ => release_spec) rs

theorem addRef_spec {d : Int} : Spec (At own u m) (addRef d)
    (fun _ => At own { u with refcount := u.refcount + d } m) :=
  Triple.modify fun _ h => ⟨h.holds, by rw [h.umem], h.missed⟩

theorem miss_spec : Spec (At own u m) miss (fun _ => At own u (m + 1)) :=
  Triple.modify fun _ h => ⟨h.holds, h.umem, by rw [h.missed]⟩

theorem attempt_spec {c : Lib (Except Int β)} {cleanup : Lib Unit} {next : β → Lib (Except Int α)}
    (hc : Spec P c (Returns Q' R')) (hcleanup : Spec R' cleanup (fun _ => R))
    (hnext : ∀ b, Spec (Q' b) (next b) (Returns Q R)) :
    Spec P (attempt c cleanup next) (Returns Q R) := by
  refine Triple.bind hc fun r => ?_
  cases r with
  | error err => exact Triple.bind hcleanup fun _ => Triple.pure fun _ h => h
  | ok b => exact hnext b

theorem call_spec {cleanup : Lib Unit} {next : Lib (Except Int α)}
    (hcleanup : Spec (At own u m) cleanup (fun _ => R))
    (hnext : Spec (At own u m) next (Returns Q R)) :
    Spec (At own u m) (call cleanup next) (Returns Q R) := by
  refine Triple.bind ask_spec fun err => Triple.ite (fun _ => ?_) fun _ => hnext
  exact Triple.bind hcleanup fun _ => Triple.pure fun _ h => h

theorem skip_spec : Spec P (pure () : Lib Unit) (fun _ => P) := Triple.pure fun _ h => h

theorem weaken {c : Lib α} (h : Spec P c Q) (hp : ∀ s, P' s → P s) : Spec P' c Q :=
  Triple.conseq h hp fun _ _ hq => hq

theorem imp {c : Lib (Except Int α)} {Q' : α → Sys → Prop} (h : Spec P c (Returns Q R))
    (hq : ∀ a s, Q a s → Q' a s) (hr : ∀ s, R s → R' s) : Spec P c (Returns Q' R') := by
  refine Triple.conseq h (fun _ hs => hs) fun r s hs => ?_
  cases r with
  | error err => exact hr s hs
  | ok a => exact hq a s hs

end Rules

end Lifecycle
end AfXdpSwitch
