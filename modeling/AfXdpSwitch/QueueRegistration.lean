import AfXdpSwitch.PacketAccess
import Mathlib.Data.List.Induction
import Mathlib.Logic.Function.Basic

/-!
# Queue registration: `go-approach/program.go` and `ebpf.c` of the TSN switch

`Program.Register` puts a socket into the XSKMAP and marks its queue in an array map;
`Program.Unregister` is to take both back.  The XDP program `xdp_redirect` looks its queue up in
the array and redirects to the socket of that queue.

An array map has all its entries at all times: a lookup of a key in range finds one, and entries
cannot be deleted.  So the test of the XDP program says nothing about a queue, and `Unregister`,
which begins with the array, returns with an error before it comes to the socket.
-/

namespace AfXdpSwitch
namespace Registration

/-- `MAX_SOCKS`, the size of both maps. -/
def maxSocks : Nat := 64

/-- Errors of the map operations, as the kernel gives them. -/
inductive MapError where
  | invalid
  | tooBig
  deriving DecidableEq

/-- The maps of a `Program`: `qidconf_map`, and the sockets in `xsks_map`. -/
structure Program where
  queues : BitVec 32 → BitVec 32
  sockets : BitVec 32 → Option (BitVec 32)

namespace Program

/-- `p.Queues.Put`, of an array map. -/
def queuesPut (p : Program) (key value : BitVec 32) : Except MapError Program :=
  if key.toNat < maxSocks then .ok { p with queues := Function.update p.queues key value }
  else .error .tooBig

/-- `p.Queues.Delete`: an array map refuses. -/
def queuesDelete (_ : Program) (_ : BitVec 32) : Except MapError Program := .error .invalid

/-- `p.Sockets.Put`, of an XSKMAP. -/
def socketsPut (p : Program) (key fd : BitVec 32) : Except MapError Program :=
  if key.toNat < maxSocks then .ok { p with sockets := Function.update p.sockets key (some fd) }
  else .error .tooBig

/-- `p.Sockets.Delete`. -/
def socketsDelete (p : Program) (key : BitVec 32) : Except MapError Program :=
  if key.toNat < maxSocks then .ok { p with sockets := Function.update p.sockets key none }
  else .error .invalid

end Program

/-- What `Register` returns; `%v` is the map's error. -/
inductive RegisterError where
  | failedToUpdateXsksMap (err : MapError)
  | failedToUpdateQidconfMap (err : MapError)

/-- `uint32(...)` of an `int`. -/
def uint32 (n : Int) : BitVec 32 := BitVec.ofInt 32 n

namespace Program

/-- `Register`. -/
def register (p : Program) (queueID fd : Int) : Option RegisterError × Program :=
  match p.socketsPut (uint32 queueID) (uint32 fd) with
  | .error err => (some (.failedToUpdateXsksMap err), p)
  | .ok p =>
      match p.queuesPut (uint32 queueID) (uint32 1) with
      | .error err => (some (.failedToUpdateQidconfMap err), p)
      | .ok p => (none, p)

/-- `Unregister`. -/
def unregister (p : Program) (queueID : Int) : Option MapError × Program :=
  match p.queuesDelete (uint32 queueID) with
  | .error err => (some err, p)
  | .ok p =>
      match p.socketsDelete (uint32 queueID) with
      | .error err => (some err, p)
      | .ok p => (none, p)

/-- `bpf_map_lookup_elem(&qidconf_map, &index)`. -/
def lookupQidconf (p : Program) (index : BitVec 32) : Option (BitVec 32) :=
  if index.toNat < maxSocks then some (p.queues index) else none

end Program

/-- What becomes of a packet: it goes to a socket, or the kernel takes the action. -/
inductive Verdict where
  | socket (fd : BitVec 32)
  | action (act : BitVec 32)
  deriving DecidableEq

/-- `bpf_redirect_map(&xsks_map, index, flags)`: only an occupied slot redirects. -/
def bpfRedirectMap (p : Program) (index : BitVec 32) (flags : BitVec 64) : Verdict :=
  match p.sockets index with
  | some fd => .socket fd
  | none => .action ((flags &&& 3).setWidth 32)

/-- The XDP program `xdp_redirect`, on a packet of queue `rxQueueIndex`. -/
def xdpRedirect (p : Program) (rxQueueIndex : BitVec 32) : Verdict :=
  match p.lookupQidconf rxQueueIndex with
  | some _ => bpfRedirectMap p rxQueueIndex 0
  | none => .action xdpDrop

/-! ## Sequences of calls -/

/-- Calls with a queue that exists. -/
inductive Call where
  | register (q : Fin maxSocks) (fd : Int)
  | unregister (q : Fin maxSocks)

namespace Call

/-- The queue of a call. -/
def queue : Call → Fin maxSocks
  | register q _ => q
  | unregister q => q

/-- A call, whose error is not looked at. -/
def run (p : Program) : Call → Program
  | register q fd => (p.register q.val fd).2
  | unregister q => (p.unregister q.val).2

end Call

/-- A `Program` that was just loaded. -/
def loaded : Program := ⟨fun _ => 0, fun _ => none⟩

/-- The calls in order, on a program that was just loaded. -/
def runCalls (calls : List Call) : Program := calls.foldl Call.run loaded

/-- The last call that was made for `q`. -/
def lastCall (calls : List Call) (q : Fin maxSocks) : Option Call :=
  (calls.filter (·.queue = q)).getLast?

/-- Packets of `q` go to a socket exactly when the last call for `q` has registered it, and to none
after the queue was unregistered. -/
structure FollowsLastCall (calls : List Call) (q : Fin maxSocks) : Prop where
  socket : ∀ fd, xdpRedirect (runCalls calls) (uint32 q.val) = .socket (uint32 fd) ↔
    ∃ fd', lastCall calls q = some (.register q fd') ∧ uint32 fd' = uint32 fd
  none : lastCall calls q = some (.unregister q) →
    ∀ fd, xdpRedirect (runCalls calls) (uint32 q.val) ≠ .socket fd

/-! ## One call -/

variable {p : Program} {q : Fin maxSocks}

theorem toNat_uint32 (q : Fin maxSocks) : (uint32 q.val).toNat = q.val := by
  have hlt : q.val < 64 := q.isLt
  unfold uint32
  rw [BitVec.ofInt_natCast, BitVec.toNat_ofNat]
  omega

/-- A queue that exists is a key of both maps. -/
theorem toNat_uint32_lt (q : Fin maxSocks) : (uint32 q.val).toNat < maxSocks := by
  rw [toNat_uint32]
  exact q.isLt

theorem uint32_inj {q q' : Fin maxSocks} (h : uint32 q.val = uint32 q'.val) : q = q' := by
  have := congrArg BitVec.toNat h
  rw [toNat_uint32, toNat_uint32] at this
  exact Fin.ext this

/-- `Register` occupies the slot of its queue. -/
theorem register_sockets (fd : Int) : (p.register q.val fd).2.sockets =
    Function.update p.sockets (uint32 q.val) (some (uint32 fd)) := by
  simp only [Program.register, Program.socketsPut, Program.queuesPut, if_pos (toNat_uint32_lt q)]

/-- `Unregister` fails at the array map and leaves both maps alone. -/
theorem unregister_eq : p.unregister q.val = (some .invalid, p) := rfl

/-- **One call.**  Only a registration of the queue changes its slot. -/
theorem sockets_run (call : Call) : (call.run p).sockets (uint32 q.val) = match call with
    | .register q' fd => if q' = q then some (uint32 fd) else p.sockets (uint32 q.val)
    | .unregister _ => p.sockets (uint32 q.val) := by
  cases call with
  | register q' fd =>
      simp only [Call.run]
      rw [register_sockets]
      by_cases heq : q' = q
      · rw [if_pos heq, heq, Function.update_self]
      · rw [if_neg heq, Function.update_of_ne fun h => heq (uint32_inj h).symm]
  | unregister q' =>
      simp only [Call.run]
      rw [unregister_eq]

/-- The array map finds every queue, so that the slot decides. -/
theorem xdpRedirect_eq : xdpRedirect p (uint32 q.val) = bpfRedirectMap p (uint32 q.val) 0 := by
  simp only [xdpRedirect, Program.lookupQidconf, if_pos (toNat_uint32_lt q)]

theorem xdpRedirect_socket {fd : BitVec 32} :
    xdpRedirect p (uint32 q.val) = .socket fd ↔ p.sockets (uint32 q.val) = some fd := by
  rw [xdpRedirect_eq, bpfRedirectMap]
  cases p.sockets (uint32 q.val) with
  | none => simp
  | some fd' => simp

/-! ## All calls -/

variable {calls : List Call} {call : Call}

theorem runCalls_concat : runCalls (calls ++ [call]) = call.run (runCalls calls) := by
  unfold runCalls
  rw [List.foldl_concat]

theorem lastCall_concat :
    lastCall (calls ++ [call]) q = if call.queue = q then some call else lastCall calls q := by
  unfold lastCall
  rw [List.filter_append]
  by_cases heq : call.queue = q
  · rw [if_pos heq, List.filter_cons_of_pos (by simpa using heq), List.filter_nil,
      List.getLast?_concat]
  · rw [if_neg heq, List.filter_cons_of_neg (by simpa using heq), List.filter_nil, List.append_nil]

/-- A slot is empty as long as its queue was never registered. -/
theorem sockets_eq_none_iff (calls : List Call) : (runCalls calls).sockets (uint32 q.val) = none ↔
    ∀ fd, Call.register q fd ∉ calls := by
  induction calls using List.reverseRecOn with
  | nil => exact iff_of_true rfl fun fd => List.not_mem_nil
  | append_singleton calls call ih =>
      rw [runCalls_concat, sockets_run]
      cases call with
      | register q' fd =>
          simp only [List.mem_append, List.mem_singleton, not_or]
          by_cases heq : q' = q
          · rw [if_pos heq, heq]
            exact iff_of_false (by simp) fun h => (h fd).2 rfl
          · rw [if_neg heq, ih]
            refine ⟨fun h fd' => ⟨h fd', fun hcall => ?_⟩, fun h fd' => (h fd').1⟩
            cases hcall
            exact heq rfl
      | unregister q' =>
          simp only [ih, List.mem_append, List.mem_singleton, reduceCtorEq, or_false]

/-- After a registration the slot has its socket. -/
theorem sockets_of_lastCall {fd : Int} (h : lastCall calls q = some (.register q fd)) :
    (runCalls calls).sockets (uint32 q.val) = some (uint32 fd) := by
  induction calls using List.reverseRecOn with
  | nil => cases h
  | append_singleton calls call ih =>
      rw [lastCall_concat] at h
      rw [runCalls_concat, sockets_run]
      cases call with
      | register q' fd' =>
          by_cases heq : q' = q
          · rw [if_pos (show (Call.register q' fd').queue = q from heq)] at h
            cases h
            simp only [if_true]
          · rw [if_neg (show ¬ (Call.register q' fd').queue = q from heq)] at h
            simp only [if_neg heq]
            exact ih h
      | unregister q' =>
          by_cases heq : q' = q
          · rw [if_pos (show (Call.unregister q').queue = q from heq)] at h
            cases h
          · rw [if_neg (show ¬ (Call.unregister q').queue = q from heq)] at h
            exact ih h

theorem lastCall_queue (h : lastCall calls q = some call) : call.queue = q := by
  have hmem := List.mem_of_getLast? h
  simp only [List.mem_filter, decide_eq_true_eq] at hmem
  exact hmem.2

theorem queue_ne_of_lastCall_none (h : lastCall calls q = none) (hmem : call ∈ calls) :
    call.queue ≠ q := by
  have hnil : calls.filter (·.queue = q) = [] := List.getLast?_eq_none_iff.mp h
  have := List.filter_eq_nil_iff.mp hnil call hmem
  simpa using this

/-- Without a last registration no packet goes to a socket, unless an unregistered queue had been
registered. -/
theorem sockets_eq_none
    (hnot : ¬ (lastCall calls q = some (.unregister q) ∧ ∃ fd, Call.register q fd ∈ calls))
    (hlast : ∀ fd, lastCall calls q ≠ some (.register q fd)) :
    (runCalls calls).sockets (uint32 q.val) = none := by
  rw [sockets_eq_none_iff]
  intro fd hmem
  cases hcall : lastCall calls q with
  | none => exact queue_ne_of_lastCall_none hcall hmem rfl
  | some call =>
      obtain rfl := lastCall_queue hcall
      cases call with
      | register q' fd' => exact hlast fd' hcall
      | unregister q' => exact hnot ⟨hcall, fd, hmem⟩

/-- **Queue registration.**  After any calls the packets of a queue go where its last call says,
exactly unless that call was `Unregister` and the queue had been registered before: then they
still go to the socket. -/
theorem follows_last_call_iff (calls : List Call) (q : Fin maxSocks) : FollowsLastCall calls q ↔
    ¬ (lastCall calls q = some (.unregister q) ∧ ∃ fd, Call.register q fd ∈ calls) := by
  constructor
  · rintro hfollows ⟨hlast, fd, hmem⟩
    have hnone : (runCalls calls).sockets (uint32 q.val) = none := by
      cases hslot : (runCalls calls).sockets (uint32 q.val) with
      | none => rfl
      | some fd' => exact absurd (xdpRedirect_socket.mpr hslot) (hfollows.none hlast fd')
    exact (sockets_eq_none_iff calls).mp hnone fd hmem
  · intro hnot
    by_cases hregister : ∃ fd, lastCall calls q = some (.register q fd)
    · obtain ⟨fd, hlast⟩ := hregister
      have hslot := sockets_of_lastCall hlast
      refine ⟨fun fd' => ?_, fun hun => absurd (hlast.symm.trans hun) (by simp)⟩
      rw [xdpRedirect_socket, hslot, hlast, Option.some.injEq]
      refine ⟨fun h => ⟨fd, rfl, h⟩, ?_⟩
      rintro ⟨fd'', hcall, hfd⟩
      cases hcall
      exact hfd
    · have hlast := not_exists.mp hregister
      have hslot := sockets_eq_none hnot hlast
      refine ⟨fun fd => iff_of_false ?_ ?_, fun _ fd => ?_⟩
      · rw [xdpRedirect_socket, hslot]
        simp
      · rintro ⟨fd', hcall, -⟩
        exact hlast fd' hcall
      · rw [ne_eq, xdpRedirect_socket, hslot]
        simp

/-- The switch's calls for one of its queues, at start and at exit. -/
def startAndExit : List Call := [.register ⟨0, by decide⟩ 5, .unregister ⟨0, by decide⟩]

/-- After the exit the packets of the queue still go to the socket. -/
theorem redirected_after_unregister : ¬ FollowsLastCall startAndExit ⟨0, by decide⟩ ∧
    xdpRedirect (runCalls startAndExit) 0 = .socket 5 := by
  have hsocket : xdpRedirect (runCalls startAndExit) 0 = .socket 5 := by decide
  exact ⟨fun hfollows => hfollows.none rfl 5 hsocket, hsocket⟩

end Registration
end AfXdpSwitch
