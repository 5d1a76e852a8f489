import AfXdpSwitch.PacketAccess
import Mathlib.Logic.Relation
import Mathlib.Logic.Function.Basic

/-!
# `xdp_sock_prog` of `switchtsn/af_xdp_kern_david.c`

The program counts the packets of each queue in a per-CPU array and sends every second one out
of interface 9; of the others those whose queue has a socket go to the socket.

It runs on all CPUs at once, one packet at a time on each, while sockets are put into
`xsks_map` and taken out of it.  The counters belong to one CPU, so each call up to the lookup
in `xsks_map` is one step; that lookup and `bpf_redirect_map` are two, and the entry may be gone
in between.
-/

namespace AfXdpSwitch.SockProg

/-- `MAX_SOCKS`, which is also the number of entries of `xdp_stats_map`. -/
def maxSocks : BitVec 32 := 64

/-- What becomes of a packet. -/
inductive Verdict
  | redirect (ifindex : Nat)
  | socket (index : BitVec 32)
  | pass
  | aborted
deriving DecidableEq

/-- Where a CPU is in `xdp_sock_prog`. -/
inductive Pc
  | idle
  | lookup (index : BitVec 32)
  | redirectMap (index : BitVec 32)
deriving DecidableEq

structure State where
  /-- `xdp_stats_map`: the counter of a CPU for a queue. -/
  pktCount : Nat → BitVec 32 → BitVec 32
  /-- Whether `xsks_map` has an entry for a queue. -/
  xsks : BitVec 32 → Bool
  pc : Nat → Pc
  /-- What was decided on each CPU, oldest first. -/
  log : Nat → List (BitVec 32 × Verdict)

def start : State := ⟨fun _ _ => 0, fun _ => false, fun _ => .idle, fun _ => []⟩

namespace State

/-- The program returns. -/
def finish (s : State) (cpu : Nat) (index : BitVec 32) (v : Verdict) : State :=
  { s with
    pc := Function.update s.pc cpu .idle
    log := Function.update s.log cpu (s.log cpu ++ [(index, v)]) }

def goto (s : State) (cpu : Nat) (pc : Pc) : State :=
  { s with pc := Function.update s.pc cpu pc }

/-- `(*pkt_count)++`. -/
def count (s : State) (cpu : Nat) (index : BitVec 32) : State :=
  let counts := Function.update (s.pktCount cpu) index (s.pktCount cpu index + 1)
  { s with pktCount := Function.update s.pktCount cpu counts }

/-- A packet arrives: the program up to the lookup in `xsks_map`. -/
def packet (s : State) (cpu : Nat) (index : BitVec 32) : State :=
  if index < maxSocks then
    if s.pktCount cpu index &&& 1 ≠ 0 then (s.count cpu index).finish cpu index (.redirect 9)
    else (s.count cpu index).goto cpu (.lookup index)
  else s.goto cpu (.lookup index)

/-- The next call of the program on a CPU. -/
def next (s : State) (cpu : Nat) : State :=
  match s.pc cpu with
  | .idle => s
  | .lookup index =>
      if index < maxSocks ∧ s.xsks index then s.goto cpu (.redirectMap index)
      else s.finish cpu index .pass
  | .redirectMap index =>
      s.finish cpu index (if index < maxSocks ∧ s.xsks index then .socket index else .aborted)

/-- What was decided on a CPU about the packets of a queue. -/
def verdicts (s : State) (cpu : Nat) (index : BitVec 32) : List Verdict :=
  ((s.log cpu).filter fun x => x.1 = index).map Prod.snd

end State

/-- A step of some CPU, or an update of `xsks_map`, if updates to `b` are `allowed`. -/
inductive Step (allowed : Bool → Prop) : State → State → Prop
  | packet {s} (cpu : Nat) (index : BitVec 32) (h : s.pc cpu = .idle) :
      Step allowed s (s.packet cpu index)
  | next {s} (cpu : Nat) : Step allowed s (s.next cpu)
  | update {s} (index : BitVec 32) (b : Bool) (h : allowed b) :
      Step allowed s { s with xsks := Function.update s.xsks index b }

def Reachable (allowed : Bool → Prop) : State → Prop := Relation.ReflTransGen (Step allowed) start

/-! ## The invariant -/

/-- Whether a CPU is at work on a packet of a queue. -/
def Pc.On (index : BitVec 32) : Pc → Prop
  | idle => False
  | lookup i | redirectMap i => i = index

instance (index : BitVec 32) (pc : Pc) : Decidable (pc.On index) := by
  unfold Pc.On
  split <;> infer_instance

/-- The packets of a queue that a CPU has begun with. -/
def State.begun (s : State) (cpu : Nat) (index : BitVec 32) : Nat :=
  (s.verdicts cpu index).length + if (s.pc cpu).On index then 1 else 0

/-- Every second verdict is the redirection. -/
def Alternating (l : List Verdict) : Prop :=
  ∀ i (hi : i < l.length), l[i] = .redirect 9 ↔ i % 2 = 1

/-- What holds of one CPU and one queue that has a counter. -/
structure Counted (s : State) (cpu : Nat) (index : BitVec 32) : Prop where
  num : s.pktCount cpu index = BitVec.ofNat 32 (s.begun cpu index)
  turn : (s.pc cpu).On index → (s.verdicts cpu index).length % 2 = 0
  alternating : Alternating (s.verdicts cpu index)

/-- What holds of one CPU and one queue that has none. -/
structure Uncounted (s : State) (cpu : Nat) (index : BitVec 32) : Prop where
  pc : s.pc cpu ≠ .redirectMap index
  pass : ∀ v ∈ s.verdicts cpu index, v = .pass

structure Inv (s : State) : Prop where
  counted : ∀ cpu index, index < maxSocks → Counted s cpu index
  uncounted : ∀ cpu index, ¬ index < maxSocks → Uncounted s cpu index

variable {s : State} {cpu cpu' : Nat} {index index' : BitVec 32} {v : Verdict} {pc : Pc}

/-! ## One step, seen from one CPU and one queue -/

theorem not_on_idle : ¬ Pc.idle.On index := id

theorem verdicts_finish : (s.finish cpu index v).verdicts cpu' index' =
    if cpu' = cpu ∧ index' = index then s.verdicts cpu' index' ++ [v]
    else s.verdicts cpu' index' := by
  unfold State.verdicts State.finish
  dsimp only
  by_cases hc : cpu' = cpu
  · subst hc
    by_cases hi : index' = index
    · subst hi
      simp
    · have hi' : ¬ index = index' := fun h => hi h.symm
      simp [hi, hi']
  · simp [hc]

theorem alternating_append {l : List Verdict} (h : Alternating l)
    (hv : v = .redirect 9 ↔ l.length % 2 = 1) : Alternating (l ++ [v]) := by
  intro i hi
  rw [List.length_append, List.length_singleton] at hi
  rcases Nat.lt_or_ge i l.length with hl | hl
  · rw [List.getElem_append_left hl]
    exact h i hl
  · obtain rfl : i = l.length := by omega
    rw [List.getElem_append_right hl]
    simpa using hv

/-- The lowest bit of a counter says how many packets it has counted, also after it has
wrapped. -/
theorem odd_iff (n : Nat) : BitVec.ofNat 32 n &&& 1 ≠ 0 ↔ n % 2 = 1 := by
  have hbit : (BitVec.ofNat 32 n &&& 1).toNat = n % 2 := by
    rw [BitVec.toNat_and, BitVec.toNat_ofNat]
    show n % 2 ^ 32 &&& 1 = n % 2
    rw [Nat.and_one_is_mod]
    omega
  rw [ne_eq, ← BitVec.toNat_inj, hbit]
  show ¬ n % 2 = 0 ↔ _
  omega

/-- Nothing about this CPU and this queue differs. -/
structure Same (s s' : State) (cpu : Nat) (index : BitVec 32) : Prop where
  num : s'.pktCount cpu index = s.pktCount cpu index
  on : (s'.pc cpu).On index ↔ (s.pc cpu).On index
  verdicts : s'.verdicts cpu index = s.verdicts cpu index

theorem Counted.same {s' : State} (h : Counted s cpu index) (hs : Same s s' cpu index) :
    Counted s' cpu index := by
  refine ⟨?_, ?_, ?_⟩
  · unfold State.begun
    rw [hs.num, hs.verdicts, if_congr hs.on rfl rfl]
    exact h.num
  · rw [hs.on, hs.verdicts]
    exact h.turn
  · rw [hs.verdicts]
    exact h.alternating

theorem Counted.packet (h : Counted s cpu index) (hidle : s.pc cpu = .idle)
    (hi : index < maxSocks) : Counted (s.packet cpu index) cpu index := by
  have hoff : ¬ (s.pc cpu).On index := by rw [hidle]; exact not_on_idle
  have hnum : s.pktCount cpu index = BitVec.ofNat 32 (s.verdicts cpu index).length := by
    rw [h.num, State.begun, if_neg hoff, Nat.add_zero]
  have hsucc : s.pktCount cpu index + 1 =
      BitVec.ofNat 32 ((s.verdicts cpu index).length + 1) := by
    rw [hnum, BitVec.ofNat_add]
    rfl
  have hcount : (s.count cpu index).pktCount cpu index = s.pktCount cpu index + 1 := by
    simp [State.count]
  unfold State.packet
  rw [if_pos hi]
  split
  · rename_i hodd
    rw [hnum, odd_iff] at hodd
    have hlog : ((s.count cpu index).finish cpu index (.redirect 9)).verdicts cpu index =
        s.verdicts cpu index ++ [.redirect 9] := by
      rw [verdicts_finish, if_pos ⟨rfl, rfl⟩]
      rfl
    have hidle' : ((s.count cpu index).finish cpu index (.redirect 9)).pc cpu = .idle := by
      simp [State.finish]
    refine ⟨?_, ?_, ?_⟩
    · unfold State.begun
      rw [hlog, hidle', if_neg not_on_idle, List.length_append]
      exact hcount.trans hsucc
    · rw [hidle']
      exact False.elim
    · rw [hlog]
      exact alternating_append h.alternating (iff_of_true rfl hodd)
  · rename_i heven
    rw [hnum, odd_iff] at heven
    have hpc : ((s.count cpu index).goto cpu (.lookup index)).pc cpu = .lookup index := by
      simp [State.goto]
    have hon : (((s.count cpu index).goto cpu (.lookup index)).pc cpu).On index := by
      rw [hpc]
      exact rfl
    refine ⟨?_, fun _ => ?_, h.alternating⟩
    · unfold State.begun
      rw [if_pos hon]
      exact hcount.trans hsucc
    · show (s.verdicts cpu index).length % 2 = 0
      omega

/-- The other verdicts of the program are not redirections. -/
theorem Counted.finish (h : Counted s cpu index) (hon : (s.pc cpu).On index)
    (hv : v ≠ .redirect 9) : Counted (s.finish cpu index v) cpu index := by
  have hturn := h.turn hon
  have hlog : (s.finish cpu index v).verdicts cpu index = s.verdicts cpu index ++ [v] := by
    rw [verdicts_finish, if_pos ⟨rfl, rfl⟩]
  have hidle : (s.finish cpu index v).pc cpu = .idle := by simp [State.finish]
  refine ⟨?_, ?_, ?_⟩
  · unfold State.begun
    rw [hlog, hidle, if_neg not_on_idle, List.length_append, List.length_singleton, Nat.add_zero]
    have hnum := h.num
    rw [State.begun, if_pos hon] at hnum
    exact hnum
  · rw [hidle]
    exact False.elim
  · rw [hlog]
    exact alternating_append h.alternating (iff_of_false hv (by omega))

/-! ## What a step leaves alone -/

theorem Same.finish (h : ¬ (cpu' = cpu ∧ index' = index))
    (hon : cpu' = cpu → ¬ (s.pc cpu).On index') :
    Same s (s.finish cpu index v) cpu' index' := by
  refine ⟨rfl, ?_, by rw [verdicts_finish, if_neg h]⟩
  by_cases hc : cpu' = cpu
  · subst hc
    have hidle : (s.finish cpu' index v).pc cpu' = .idle := by simp [State.finish]
    rw [hidle]
    exact iff_of_false not_on_idle (hon rfl)
  · have hpc : (s.finish cpu index v).pc cpu' = s.pc cpu' := by simp [State.finish, hc]
    rw [hpc]

theorem Same.goto (hon : cpu' = cpu → (pc.On index' ↔ (s.pc cpu).On index')) :
    Same s (s.goto cpu pc) cpu' index' := by
  refine ⟨rfl, ?_, rfl⟩
  by_cases hc : cpu' = cpu
  · subst hc
    have hpc : (s.goto cpu' pc).pc cpu' = pc := by simp [State.goto]
    rw [hpc]
    exact hon rfl
  · have hpc : (s.goto cpu pc).pc cpu' = s.pc cpu' := by simp [State.goto, hc]
    rw [hpc]

theorem Same.trans {s' s'' : State} (h : Same s s' cpu index) (h' : Same s' s'' cpu index) :
    Same s s'' cpu index :=
  ⟨h'.num.trans h.num, h'.on.trans h.on, h'.verdicts.trans h.verdicts⟩

theorem Same.count (h : ¬ (cpu' = cpu ∧ index' = index)) :
    Same s (s.count cpu index) cpu' index' := by
  refine ⟨?_, Iff.rfl, rfl⟩
  show Function.update s.pktCount cpu _ cpu' index' = _
  by_cases hc : cpu' = cpu
  · subst hc
    have hi : index' ≠ index := fun hi => h ⟨rfl, hi⟩
    rw [Function.update_self, Function.update_of_ne hi]
  · rw [Function.update_of_ne hc]

theorem Same.packet (h : ¬ (cpu' = cpu ∧ index' = index)) (hidle : s.pc cpu = .idle) :
    Same s (s.packet cpu index) cpu' index' := by
  have hlookup : cpu' = cpu → ((Pc.lookup index).On index' ↔ (s.pc cpu).On index') := by
    intro hc
    rw [hidle]
    exact iff_of_false (fun hi => h ⟨hc, hi.symm⟩) not_on_idle
  unfold State.packet
  split
  · split
    · refine (Same.count h).trans (Same.finish h fun _ => ?_)
      show ¬ (s.pc cpu).On index'
      rw [hidle]
      exact not_on_idle
    · exact (Same.count h).trans (Same.goto hlookup)
  · exact Same.goto hlookup

theorem Uncounted.update (h : Uncounted s cpu' index') (hpc : pc ≠ .redirectMap index') :
    Function.update s.pc cpu pc cpu' ≠ .redirectMap index' := by
  by_cases hc : cpu' = cpu
  · rw [hc, Function.update_self]
    exact hpc
  · rw [Function.update_of_ne hc]
    exact h.pc

theorem Uncounted.of_pass {s' : State} (h : Uncounted s cpu index)
    (hpc : s'.pc cpu ≠ .redirectMap index)
    (hv : ∀ v ∈ s'.verdicts cpu index, v ∈ s.verdicts cpu index ∨ v = .pass) :
    Uncounted s' cpu index := by
  refine ⟨hpc, fun v hm => ?_⟩
  rcases hv v hm with hm | hp
  · exact h.pass v hm
  · exact hp

/-! ## Whole runs -/

theorem Inv.start : Inv start where
  counted := fun _ _ _ => ⟨rfl, False.elim, fun i hi => absurd hi (Nat.not_lt_zero i)⟩
  uncounted := fun _ _ _ => ⟨Pc.noConfusion, fun _ hv => absurd hv List.not_mem_nil⟩

theorem Inv.packet (h : Inv s) (hidle : s.pc cpu = .idle) : Inv (s.packet cpu index) where
  counted := fun cpu' index' hi => by
    by_cases he : cpu' = cpu ∧ index' = index
    · obtain ⟨rfl, rfl⟩ := he
      exact (h.counted _ _ hi).packet hidle hi
    · exact (h.counted _ _ hi).same (Same.packet he hidle)
  uncounted := fun cpu' index' hi => by
    have hu := h.uncounted cpu' index' hi
    have hgoto : ∀ s' : State, Uncounted s' cpu' index' →
        Uncounted (s'.goto cpu (.lookup index)) cpu' index' := by
      intro s' hu'
      exact hu'.of_pass (hu'.update Pc.noConfusion) fun v hv => .inl hv
    unfold State.packet
    split
    · rename_i hlt
      -- the packet is of another queue than this one
      have hne : ¬ (cpu' = cpu ∧ index' = index) := fun he => hi (he.2 ▸ hlt)
      split
      · refine hu.of_pass (hu.update Pc.noConfusion) fun v hv => .inl ?_
        rw [verdicts_finish, if_neg hne] at hv
        exact hv
      · exact hgoto _ (hu.of_pass hu.pc fun v hv => .inl hv)
    · exact hgoto _ hu

/-- A verdict after the lookup. -/
theorem Inv.finish (h : Inv s) (hon : (s.pc cpu).On index) (hv : index < maxSocks → v ≠ .redirect 9)
    (hp : ¬ index < maxSocks → v = .pass) : Inv (s.finish cpu index v) where
  counted := fun cpu' index' hi => by
    by_cases he : cpu' = cpu ∧ index' = index
    · obtain ⟨rfl, rfl⟩ := he
      exact (h.counted _ _ hi).finish hon (hv hi)
    · refine (h.counted _ _ hi).same (Same.finish he fun hc hon' => he ⟨hc, ?_⟩)
      cases hpc : s.pc cpu with
      | idle => rw [hpc] at hon; exact hon.elim
      | lookup i | redirectMap i =>
          rw [hpc] at hon hon'
          exact hon'.symm.trans hon
  uncounted := fun cpu' index' hi => by
    have hu := h.uncounted cpu' index' hi
    refine hu.of_pass (hu.update Pc.noConfusion) fun w hw => ?_
    rw [verdicts_finish] at hw
    split at hw
    · rename_i he
      rcases List.mem_append.mp hw with hw | hw
      · exact .inl hw
      · right
        rw [List.mem_singleton.mp hw]
        exact hp (he.2 ▸ hi)
    · exact .inl hw

theorem Inv.next (h : Inv s) (cpu : Nat) : Inv (s.next cpu) := by
  cases hpc : s.pc cpu with
  | idle =>
      unfold State.next
      rw [hpc]
      exact h
  | lookup index =>
      have hon : ∀ i, (s.pc cpu).On i ↔ index = i := fun i => by rw [hpc]; exact Iff.rfl
      unfold State.next
      rw [hpc]
      dsimp only
      split
      · rename_i hx
        have hsame : ∀ cpu' index', Same s (s.goto cpu (.redirectMap index)) cpu' index' :=
          fun cpu' index' => Same.goto fun _ => (hon index').symm
        refine ⟨fun cpu' index' hi => (h.counted _ _ hi).same (hsame _ _), ?_⟩
        intro cpu' index' hi
        have hu := h.uncounted cpu' index' hi
        refine hu.of_pass (hu.update fun he => ?_) fun v hv => .inl hv
        cases he
        exact hi hx.1
      · exact h.finish ((hon index).mpr rfl) (fun hi => Verdict.noConfusion) fun _ => rfl
  | redirectMap index =>
      have hlt : index < maxSocks := by
        refine Decidable.byContradiction fun hn => ?_
        exact (h.uncounted cpu index hn).pc hpc
      unfold State.next
      rw [hpc]
      dsimp only
      refine h.finish (by rw [hpc]; exact rfl) (fun _ => ?_) fun hn => absurd hlt hn
      split <;> exact Verdict.noConfusion

theorem Inv.step {allowed : Bool → Prop} {s' : State} (h : Inv s) (hs : Step allowed s s') :
    Inv s' := by
  cases hs with
  | packet cpu index hidle => exact h.packet hidle
  | next cpu => exact h.next cpu
  | update index b hb =>
      refine ⟨fun cpu index hi => ?_, fun cpu index hi => ?_⟩
      · exact (h.counted cpu index hi).same ⟨rfl, Iff.rfl, rfl⟩
      · exact ⟨(h.uncounted cpu index hi).pc, (h.uncounted cpu index hi).pass⟩

theorem Inv.of_reachable {allowed : Bool → Prop} (h : Reachable allowed s) : Inv s := by
  induction h with
  | refl => exact Inv.start
  | tail _ hs ih => exact ih.step hs

/-- **On each CPU exactly every second packet of a queue below 64 leaves through interface 9**,
whatever the other CPUs and the owners of `xsks_map` do and however long it goes on; packets of
other queues are passed. -/
theorem every_second_redirected {allowed : Bool → Prop} {s : State} (h : Reachable allowed s)
    (cpu : Nat) (index : BitVec 32) :
    if index < maxSocks then
      ∀ i (hi : i < (s.verdicts cpu index).length),
        (s.verdicts cpu index)[i] = .redirect 9 ↔ i % 2 = 1
    else ∀ v ∈ s.verdicts cpu index, v = .pass := by
  have hinv := Inv.of_reachable h
  split
  · exact (hinv.counted cpu index ‹_›).alternating
  · exact (hinv.uncounted cpu index ‹_›).pass

/-- CPU 0 at work on a first packet of queue 0, whose socket is bound. -/
def bound : State :=
  (State.packet { start with xsks := Function.update start.xsks 0 true } 0 0).next 0

theorem bound_reachable {allowed : Bool → Prop} (h : allowed true) : Reachable allowed bound :=
  Relation.ReflTransGen.refl.tail (.update 0 true h) |>.tail (.packet 0 0 rfl) |>.tail (.next 0)

theorem every_second_redirected_two :
    (((bound.next 0).packet 0 0).verdicts 0 0) = [.socket 0, .redirect 9] ∧
      ∀ i (hi : i < (((bound.next 0).packet 0 0).verdicts 0 0).length),
        (((bound.next 0).packet 0 0).verdicts 0 0)[i] = .redirect 9 ↔ i % 2 = 1 := by
  have hr : Reachable (fun _ => True) ((bound.next 0).packet 0 0) :=
    ((bound_reachable trivial).tail (.next 0)).tail (.packet 0 0 (by decide))
  have h := every_second_redirected hr 0 0
  rw [if_pos (by decide)] at h
  exact ⟨by decide, h⟩

/-! ## Lost packets -/

/-- The entry that was looked up is still there. -/
structure Kept (s : State) : Prop where
  found : ∀ cpu index, s.pc cpu = .redirectMap index → index < maxSocks ∧ s.xsks index = true
  served : ∀ cpu x, x ∈ s.log cpu → x.2 ≠ .aborted

theorem Kept.finish (h : Kept s) (hv : v ≠ .aborted) : Kept (s.finish cpu index v) := by
  refine ⟨fun cpu' index' hpc => ?_, fun cpu' x hx => ?_⟩
  · have hpc : Function.update s.pc cpu .idle cpu' = .redirectMap index' := hpc
    by_cases hc : cpu' = cpu
    · rw [hc, Function.update_self] at hpc
      cases hpc
    · rw [Function.update_of_ne hc] at hpc
      exact h.found cpu' index' hpc
  · have hx : x ∈ Function.update s.log cpu (s.log cpu ++ [(index, v)]) cpu' := hx
    by_cases hc : cpu' = cpu
    · subst hc
      rw [Function.update_self] at hx
      rcases List.mem_append.mp hx with hx | hx
      · exact h.served cpu' x hx
      · rw [List.mem_singleton.mp hx]
        exact hv
    · rw [Function.update_of_ne hc] at hx
      exact h.served cpu' x hx

theorem Kept.goto (h : Kept s)
    (hpc : ∀ i, pc = .redirectMap i → i < maxSocks ∧ s.xsks i = true) :
    Kept (s.goto cpu pc) := by
  refine ⟨fun cpu' index' he => ?_, h.served⟩
  have he : Function.update s.pc cpu pc cpu' = .redirectMap index' := he
  by_cases hc : cpu' = cpu
  · rw [hc, Function.update_self] at he
    exact hpc index' he
  · rw [Function.update_of_ne hc] at he
    exact h.found cpu' index' he

theorem Kept.step {s' : State} (h : Kept s) (hs : Step (fun b => b = true) s s') : Kept s' := by
  cases hs with
  | packet cpu index hidle =>
      have hcount : Kept (s.count cpu index) := ⟨h.found, h.served⟩
      unfold State.packet
      split
      · split
        · exact hcount.finish Verdict.noConfusion
        · exact hcount.goto fun i he => Pc.noConfusion he
      · exact h.goto fun i he => Pc.noConfusion he
  | next cpu =>
      unfold State.next
      split
      · exact h
      · split
        · rename_i hx
          refine h.goto fun i he => ?_
          cases he
          exact hx
        · exact h.finish Verdict.noConfusion
      · rename_i hpc
        rw [if_pos (h.found cpu _ hpc)]
        exact h.finish Verdict.noConfusion
  | update index b hb =>
      subst hb
      refine ⟨fun cpu i hpc => ?_, h.served⟩
      obtain ⟨hlt, hx⟩ := h.found cpu i hpc
      refine ⟨hlt, ?_⟩
      show Function.update s.xsks index true i = true
      by_cases hi : i = index
      · rw [hi, Function.update_self]
      · rw [Function.update_of_ne hi]
        exact hx

/-- **As long as no socket is taken out of `xsks_map`, no packet is dropped.** -/
theorem not_aborted {s : State} (h : Reachable (fun b => b = true) s) (cpu : Nat)
    (index : BitVec 32) : .aborted ∉ s.verdicts cpu index := by
  have hkept : Kept s := by
    induction h with
    | refl => exact ⟨fun _ _ h => Pc.noConfusion h, fun _ _ h => absurd h List.not_mem_nil⟩
    | tail _ hs ih => exact ih.step hs
  intro hm
  obtain ⟨x, hx, he⟩ := List.mem_map.mp hm
  exact hkept.served cpu x (List.mem_of_mem_filter hx) he

theorem not_aborted_bound : (bound.next 0).verdicts 0 0 = [.socket 0] ∧
    .aborted ∉ (bound.next 0).verdicts 0 0 := by
  have hb : Reachable (fun b => b = true) bound := bound_reachable rfl
  have hr : Reachable (fun b => b = true) (bound.next 0) := hb.tail (.next 0)
  exact ⟨by decide, not_aborted hr 0 0⟩

/-- A socket that is taken out right after it was found. -/
theorem aborted_of_removed : ∃ s, Reachable (fun _ => True) s ∧ .aborted ∈ s.verdicts 0 0 := by
  refine ⟨_, ((bound_reachable trivial).tail (.update 0 false trivial)).tail (.next 0), ?_⟩
  decide

end AfXdpSwitch.SockProg
