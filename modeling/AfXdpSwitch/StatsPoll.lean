import AfXdpSwitch.Hoare
import AfXdpSwitch.XdpStats

/-!
# Failing calls under `stats_poll` of `basic04-pinning-maps/xdp_stats.c`

`stats_poll` opens the pinned map anew in every round, compares the id of what it got with the one
that `main` has checked, reads the record of every action and prints the totals.  All it knows of
the kernel is what `bpf_obj_get`, `bpf_obj_get_info_by_fd` and `bpf_map_lookup_elem` return.

A call may fail, and two failures pass for success.  `open_bpf_map_file` reports a failed
`bpf_obj_get_info_by_fd` by the positive number `EXIT_FAIL_BPF`, and leaves in `info` what the
round before has put there: the caller then reads through descriptor 40.  And when a lookup fails,
`map_collect` stores a local variable that nobody has set.

What the calls return is a function of all that has happened so far, the trace.  The trace is also
what the theorem speaks about.
-/

namespace AfXdpSwitch
open Prog

namespace StatsPoll

/-- `EXIT_FAIL` and `EXIT_FAIL_BPF`. -/
def exitFail : Int := 1
def exitFailBpf : Int := 40

def bpfMapTypeArray : BitVec 32 := 2
def bpfMapTypePercpuArray : BitVec 32 := 6

/-- What `stats_poll` reads of `struct bpf_map_info`. -/
structure BpfMapInfo where
  id : BitVec 32
  deriving DecidableEq

/-- What a lookup gives: a value for each possible CPU.  An array map has only the first. -/
structure Values where
  first : DataRec
  others : List DataRec
  deriving DecidableEq

/-- What happens in a run: calls with their outcome, totals put into the record of an action, and
totals printed. -/
inductive Event where
  | clock (ns : Option (BitVec 64))
  | objGet (fd : Int)
  | infoByFd (fd : Int) (info : Option BpfMapInfo)
  | lookup (fd : Int) (key : Nat) (values : Option Values)
  | stored (key : Nat) (before after : DataRec)
  | shown (key : Nat) (total : DataRec)
  | close (fd : Int)
  deriving DecidableEq

/-- The events so far, the last one first. -/
abbrev Trace := List Event

/-- The outcome of every call, by what happened before, and what an uninitialised `struct datarec`
on the stack holds.  `none` is a failure. -/
structure Host where
  clockGettime : Trace → Option (BitVec 64)
  snprintf : Trace → Int
  bpfObjGet : Trace → Int
  bpfObjGetInfoByFd : Trace → Int → Option BpfMapInfo
  bpfMapLookupElem : Trace → Int → Nat → Option Values
  stack : Trace → DataRec

/-- A program that may `exit`, with its trace. -/
abbrev Poll := Prog Trace Trace

/-- A call and its event. -/
def call {α : Type} (outcome : Trace → α) (event : α → Event) : Poll α :=
  modifyGet fun t => (outcome t, event (outcome t) :: t)

def emit (e : Event) : Poll Unit := call (fun _ => ()) fun _ => e

structure Record where
  timestamp : BitVec 64
  total : DataRec

/-- `struct stats_record`: a record for each action. -/
abbrev StatsRecord := Nat → Record

/-- The arguments of `stats_poll` that it uses beside `pin_dir` and `interval`. -/
structure Args where
  mapFd : Int
  id : BitVec 32
  mapType : BitVec 32

/-- The variables of `stats_poll` that live from one round to the next. -/
structure Locals where
  info : BpfMapInfo
  record : StatsRecord

section Source
variable (host : Host)

def gettime : Poll (BitVec 64) := do
  match ← call host.clockGettime .clock with
  | some ns => return ns
  | none => throw (← get)

/-- The sum over the CPUs. -/
def Values.sum (values : Values) : DataRec :=
  (values.first :: values.others).foldl
    (fun sum v => ⟨sum.rxPackets + v.rxPackets, sum.rxBytes + v.rxBytes⟩) ⟨0, 0⟩

/-- What the two functions below have in common.  `value` stays as it is when the lookup fails. -/
def mapGetValueBy (take : Values → DataRec) (fd : Int) (key : Nat) (value : DataRec) :
    Poll DataRec := do
  match ← call (host.bpfMapLookupElem · fd key) (.lookup fd key) with
  | some values => return take values
  | none => return value

def mapGetValueArray (fd : Int) (key : Nat) (value : DataRec) : Poll DataRec :=
  mapGetValueBy host Values.first fd key value

def mapGetValuePercpuArray (fd : Int) (key : Nat) (value : DataRec) : Poll DataRec :=
  mapGetValueBy host Values.sum fd key value

/-- The `switch` of `map_collect`; `none` for a map type it does not know. -/
def mapGetValue (fd : Int) (mapType : BitVec 32) (key : Nat) (value : DataRec) :
    Poll (Option DataRec) :=
  if mapType = bpfMapTypeArray then do
    let value ← mapGetValueArray host fd key value
    return some value
  else if mapType = bpfMapTypePercpuArray then do
    let value ← mapGetValuePercpuArray host fd key value
    return some value
  else return none

def mapCollect (fd : Int) (mapType : BitVec 32) (key : Nat) (record : Record) :
    Poll (Bool × Record) := do
  let value := host.stack (← get)
  let timestamp ← gettime host
  match ← mapGetValue host fd mapType key value with
  | none => return (false, { record with timestamp := timestamp })
  | some value =>
      emit (.stored key record.total value)
      return (true, ⟨timestamp, value⟩)

def statsCollect (fd : Int) (mapType : BitVec 32) (stats : StatsRecord) : Poll StatsRecord :=
  forLoop xdpActionMax.toNat (fun key (stats : StatsRecord) => do
    let (_, record) ← mapCollect host fd mapType key (stats key)
    return Function.update stats key record) stats

/-- The period in nanoseconds; the source has it in seconds, and 0 if it is 0. -/
def calcPeriod (r p : Record) : BitVec 64 := r.timestamp - p.timestamp

/-- `stats_print` for these actions.  Rates are not modelled. -/
def statsPrint (rec prev : StatsRecord) : List Nat → Poll Unit
  | [] => return ()
  | i :: is => do
      if calcPeriod (rec i) (prev i) = 0 then return ()
      emit (.shown i (rec i).total)
      statsPrint rec prev is

/-- `open_bpf_map_file(pin_dir, "xdp_stats_map", &info)`. -/
def openBpfMapFile (info : BpfMapInfo) : Poll (Int × BpfMapInfo) := do
  let len := host.snprintf (← get)
  if len < 0 then return (-1, info)
  let fd ← call host.bpfObjGet .objGet
  if fd < 0 then return (fd, info)
  match ← call (host.bpfObjGetInfoByFd · fd) (.infoByFd fd) with
  | none => return (exitFailBpf, info)
  | some info => return (fd, info)

/-- The body of the loop; a number is what the function returns. -/
def pollRound (args : Args) (l : Locals) : Poll (Option Int × Locals) := do
  let prev := l.record
  let (mapFd, info) ← openBpfMapFile host l.info
  if mapFd < 0 then return (some exitFailBpf, { l with info := info })
  if args.id ≠ info.id then
    emit (.close mapFd)
    return (some 0, { l with info := info })
  let record ← statsCollect host mapFd args.mapType l.record
  statsPrint record prev (List.range xdpActionMax.toNat)
  emit (.close mapFd)
  return (none, ⟨info, record⟩)

/-- At most so many rounds. -/
def pollRounds (args : Args) : Nat → Locals → Poll (Option Int)
  | 0, _ => return none
  | n + 1, l => do
      match ← pollRound host args l with
      | (some code, _) => return some code
      | (none, l) => pollRounds args n l

/-- `stats_poll`, up to its `n`-th round. -/
def statsPoll (args : Args) (n : Nat) : Poll (Option Int) := do
  let record ← statsCollect host args.mapFd args.mapType fun _ => ⟨0, ⟨0, 0⟩⟩
  pollRounds host args n ⟨⟨0⟩, record⟩

/-- What a run of `n` rounds returns, if it has returned, and its trace. -/
def pollRun (args : Args) (n : Nat) : Option Int × Trace :=
  match statsPoll host args n [] with
  | .ok r => r
  | .error t => (some exitFail, t)

end Source

/-! ## What is asked of a trace -/

/-- `P` holds of every event and what came before it. -/
def Along (P : Trace → Event → Prop) : Trace → Prop
  | [] => True
  | e :: older => P older e ∧ Along P older

/-- A call failed that `stats_poll` is to give up on. -/
def Event.Failed : Event → Prop
  | objGet fd => fd < 0
  | infoByFd _ info => info = none
  | _ => False

/-- A call: nothing is stored or shown by it. -/
def Event.IsCall : Event → Prop
  | stored .. | shown .. => False
  | _ => True

/-- Reading and printing, which happen between the opening of a descriptor and its closing. -/
def Event.Quiet : Event → Prop
  | clock _ | lookup .. | stored .. | shown .. => True
  | _ => False

/-- The open descriptor, if `bpf_obj_get` has returned it, with the id that was reported for it. -/
def openMap : Trace → Option (Int × BitVec 32)
  | .infoByFd fd (some info) :: .objGet fd' :: _ =>
      if fd = fd' ∧ 0 ≤ fd then some (fd, info.id) else none
  | .clock _ :: older | .lookup _ _ _ :: older | .stored _ _ _ :: older | .shown _ _ :: older =>
      openMap older
  | _ => none

/-- The id in `info`: the last one reported in this call of `stats_poll`. -/
def infoId : Trace → BitVec 32
  | [] => 0
  | .infoByFd _ (some info) :: _ => info.id
  | _ :: older => infoId older

/-- The total that a lookup has read. -/
def totalOf (mapType : BitVec 32) (values : Values) : DataRec :=
  if mapType = bpfMapTypeArray then values.first else values.sum

/-- `total` was read for `key` by a lookup that succeeded, through a descriptor that `bpf_obj_get`
has returned and for which the id `args.id` was reported. -/
def ReadFrom (args : Args) (key : Nat) (total : DataRec) (t : Trace) : Prop :=
  ∃ fd values later older, t = later ++ .lookup fd key (some values) :: older ∧
    openMap older = some (fd, args.id) ∧ total = totalOf args.mapType values

/-- What is asked of one event. -/
structure Justified (args : Args) (older : Trace) (e : Event) : Prop where
  /-- Every total that is shown was read. -/
  shown : ∀ key total, e = .shown key total → ReadFrom args key total older
  /-- After a failed open or info call nothing happens any more, but for a `close`. -/
  gaveUp : (∃ f ∈ older, f.Failed) → ∃ fd, e = .close fd
  /-- When a lookup fails the total is kept. -/
  kept : ∀ key before after, e = .stored key before after →
    ∀ fd, older.head? = some (.lookup fd key none) → after = before

/-- **What a run is to be**, given its trace and what it has returned. -/
structure Right (args : Args) (result : Option Int) (t : Trace) : Prop where
  justified : Along (Justified args) t
  returned : (∃ f ∈ t, f.Failed) → result ≠ none

/-- What the run needs of the outcome of one call. -/
def CleanStep (args : Args) (older : Trace) : Event → Prop
  | .lookup _ _ values => values ≠ none
  | .infoByFd _ none => infoId older ≠ args.id
  | _ => True

/-- **What the run needs**: a type of map that `map_collect` knows, lookups that succeed, and no
failure of `bpf_obj_get_info_by_fd` while `info` still holds the id that is compared. -/
structure Clean (args : Args) (t : Trace) : Prop where
  known : args.mapType = bpfMapTypeArray ∨ args.mapType = bpfMapTypePercpuArray
  steps : Along (CleanStep args) t

instance : DecidablePred Event.Failed
  | .objGet fd => inferInstanceAs (Decidable (fd < 0))
  | .infoByFd _ info => inferInstanceAs (Decidable (info = none))
  | .clock _ | .lookup .. | .stored .. | .shown .. | .close _ => inferInstanceAs (Decidable False)

instance (args : Args) (older : Trace) : DecidablePred (CleanStep args older)
  | .lookup _ _ values => inferInstanceAs (Decidable (values ≠ none))
  | .infoByFd _ none => inferInstanceAs (Decidable (infoId older ≠ args.id))
  | .infoByFd _ (some _) | .clock _ | .objGet _ | .stored .. | .shown .. | .close _ =>
      inferInstanceAs (Decidable True)

instance Along.decide (P : Trace → Event → Prop) [∀ older, DecidablePred (P older)] :
    DecidablePred (Along P)
  | [] => inferInstanceAs (Decidable True)
  | e :: older => @instDecidableAnd (P older e) (Along P older) _ (Along.decide P older)

/-! ## Traces -/

theorem Along.drop {P : Trace → Event → Prop} {t : Trace} (h : Along P t) (n : Nat) :
    Along P (t.drop n) := by
  induction n generalizing t with
  | zero => exact h
  | succ n ih =>
      cases t with
      | nil => exact trivial
      | cons e older => exact ih h.2

section
variable {args : Args} {t : Trace} {e : Event} {key : Nat} {total : DataRec}

theorem Clean.tail (h : Clean args (e :: t)) : Clean args t := ⟨h.known, h.steps.2⟩

theorem openMap_quiet (he : e.Quiet) : openMap (e :: t) = openMap t := by
  cases e with
  | clock | lookup | stored | shown => rfl
  | objGet | infoByFd | close => cases he

theorem infoId_quiet (he : e.Quiet) : infoId (e :: t) = infoId t := by
  cases e with
  | clock | lookup | stored | shown => rfl
  | objGet | infoByFd | close => cases he

theorem ReadFrom.cons (h : ReadFrom args key total t) (e : Event) :
    ReadFrom args key total (e :: t) := by
  obtain ⟨fd, values, later, older, rfl, hopen, htotal⟩ := h
  exact ⟨fd, values, e :: later, older, rfl, hopen, htotal⟩

theorem justified_call (hlive : ∀ f ∈ t, ¬ f.Failed) (he : e.IsCall) : Justified args t e where
  shown := fun key total hshown => by
    rw [hshown] at he
    cases he
  gaveUp := fun ⟨f, hf, hfailed⟩ => absurd hfailed (hlive f hf)
  kept := fun key before after hstored => by
    rw [hstored] at he
    cases he

theorem justified_close (fd : Int) : Justified args t (.close fd) where
  shown := fun _ _ he => by cases he
  gaveUp := fun _ => ⟨fd, rfl⟩
  kept := fun _ _ _ he => by cases he

end

/-! ## The functions, one by one

Whatever is said of a trace is said of a clean one.  `Live` is what holds while no call has
failed, with a further condition `X`; reading and printing keep such a condition if it is `Stable`,
which what is known about the open descriptor is. -/

/-- A run may end here. -/
def Final (args : Args) (t : Trace) : Prop := Clean args t → Along (Justified args) t

def Live (args : Args) (X : Trace → Prop) (t : Trace) : Prop :=
  Clean args t → Along (Justified args) t ∧ (∀ f ∈ t, ¬ f.Failed) ∧ X t

def Stable (X : Trace → Prop) : Prop := ∀ t e, Event.Quiet e → X t → X (e :: t)

section
variable {host : Host} {args : Args} {X Y : Trace → Prop} {t : Trace} {e : Event} {key : Nat}
  {fd : Int}

theorem Live.final (h : Live args X t) : Final args t := fun hclean => (h hclean).1

theorem Live.mono (h : Live args X t) (hxy : Clean args t → X t → Y t) : Live args Y t := by
  intro hclean
  obtain ⟨hjust, hlive, hx⟩ := h hclean
  exact ⟨hjust, hlive, hxy hclean hx⟩

/-- **One more event.** -/
theorem Live.cons (h : Live args X t) (hfailed : Clean args (e :: t) → ¬ e.Failed)
    (hjust : Clean args (e :: t) → (∀ f ∈ t, ¬ f.Failed) → X t → Justified args t e)
    (hy : Clean args (e :: t) → X t → Y (e :: t)) : Live args Y (e :: t) := by
  intro hclean
  obtain ⟨hdone, hlive, hx⟩ := h hclean.tail
  refine ⟨⟨hjust hclean hlive hx, hdone⟩, fun f hf => ?_, hy hclean hx⟩
  rcases List.mem_cons.mp hf with rfl | hf
  · exact hfailed hclean
  · exact hlive f hf

/-- A call that has not failed. -/
theorem Live.call (h : Live args X t) (he : e.IsCall) (hfailed : Clean args (e :: t) → ¬ e.Failed)
    (hy : Clean args (e :: t) → X t → Y (e :: t)) : Live args Y (e :: t) :=
  h.cons hfailed (fun _ hlive _ => justified_call hlive he) hy

/-- A call that fails may be made, but nothing is promised after it. -/
theorem Live.call_final (h : Live args X t) (he : e.IsCall) : Final args (e :: t) := by
  intro hclean
  obtain ⟨hdone, hlive, -⟩ := h hclean.tail
  exact ⟨justified_call hlive he, hdone⟩

theorem call_spec {α : Type} {F P : Trace → Prop} {Q : α → Trace → Prop} {outcome : Trace → α}
    {event : α → Event} (h : ∀ t, P t → Q (outcome t) (event (outcome t) :: t)) :
    Triple F P (call outcome event) Q := Triple.modifyGet h

theorem gettime_spec (hX : Stable X) :
    Triple (Final args) (Live args X) (gettime host) (fun _ => Live args X) := by
  refine Triple.bind (Q := fun _ => Live args X) (call_spec fun t ht => ?_) fun ns => ?_
  · exact ht.call trivial (fun _ => id) fun _ hx => hX _ _ trivial hx
  · cases ns with
    | some ns => exact Triple.pure fun _ ht => ht
    | none =>
        refine Triple.bind (Q := fun r _ => Final args r) (Triple.get fun _ ht => ht.final) fun r => ?_
        exact Triple.throw fun _ ht => ht

/-- The last event is a lookup that has read these values. -/
def JustRead (fd : Int) (key : Nat) (values : Values) (t : Trace) : Prop :=
  ∃ older, t = .lookup fd key (some values) :: older

theorem lookup_spec (hX : Stable X) {F : Trace → Prop} :
    Triple F (Live args X) (call (host.bpfMapLookupElem · fd key) (.lookup fd key))
      (fun values => Live args fun t => X t ∧ ∃ v, values = some v ∧ JustRead fd key v t) := by
  refine call_spec fun t ht => ?_
  refine ht.call trivial (fun _ => id) fun hclean hx => ⟨hX _ _ trivial hx, ?_⟩
  -- a clean lookup succeeds
  obtain ⟨v, hv⟩ := Option.ne_none_iff_exists'.mp hclean.steps.1
  exact ⟨v, hv, t, by rw [hv]⟩

theorem mapGetValueBy_spec (hX : Stable X) (take : Values → DataRec) (value : DataRec)
    {F : Trace → Prop} :
    Triple F (Live args X) (mapGetValueBy host take fd key value)
      (fun value => Live args fun t => X t ∧ ∃ v, value = take v ∧ JustRead fd key v t) := by
  refine Triple.bind (lookup_spec hX) fun values => ?_
  cases values with
  | some values =>
      refine Triple.pure fun t ht => ht.mono ?_
      rintro - ⟨hx, v, hv, hread⟩
      exact ⟨hx, v, by rw [Option.some.inj hv], hread⟩
  | none =>
      refine Triple.pure fun t ht => ht.mono ?_
      rintro - ⟨-, v, hv, -⟩
      cases hv

theorem mapGetValue_spec (hX : Stable X) (value : DataRec) {F : Trace → Prop} :
    Triple F (Live args X) (mapGetValue host fd args.mapType key value)
      (fun value => Live args fun t => X t ∧
        ∃ v, value = some (totalOf args.mapType v) ∧ JustRead fd key v t) := by
  unfold mapGetValue totalOf
  refine Triple.ite (fun harray => ?_) fun harray => Triple.ite (fun hpercpu => ?_) fun hpercpu => ?_
  · refine Triple.bind (mapGetValueBy_spec hX Values.first value) fun value => ?_
    refine Triple.pure fun t ht => ht.mono ?_
    rintro - ⟨hx, v, rfl, hread⟩
    exact ⟨hx, v, by rw [if_pos harray], hread⟩
  · refine Triple.bind (mapGetValueBy_spec hX Values.sum value) fun value => ?_
    refine Triple.pure fun t ht => ht.mono ?_
    rintro - ⟨hx, v, rfl, hread⟩
    exact ⟨hx, v, by rw [if_neg harray], hread⟩
  · refine Triple.pure fun t _ hclean => ?_
    rcases hclean.known with h | h
    · exact absurd h harray
    · exact absurd h hpercpu

/-- **`map_collect`** puts what it has just read into the record. -/
theorem mapCollect_spec (hX : Stable X) (record : Record) :
    Triple (Final args) (Live args X) (mapCollect host fd args.mapType key record)
      (fun r => Live args fun t => X t ∧
        (openMap t = some (fd, args.id) → ReadFrom args key r.2.total t)) := by
  refine Triple.bind (Q := fun _ => Live args X) (Triple.get fun _ ht => ht) fun t₀ => ?_
  refine Triple.bind (gettime_spec hX) fun timestamp => ?_
  refine Triple.bind (mapGetValue_spec hX _) fun value => ?_
  cases value with
  | none =>
      refine Triple.pure fun t ht => ht.mono ?_
      rintro - ⟨-, v, hv, -⟩
      cases hv
  | some value =>
      refine Triple.bind (call_spec (Q := fun _ => Live args fun t => X t ∧
        (openMap t = some (fd, args.id) → ReadFrom args key value t)) fun t ht => ?_) fun _ => ?_
      · refine ht.cons (fun _ => id) ?_ ?_
        · rintro - hlive ⟨-, v, -, older, rfl⟩
          refine ⟨?_, fun ⟨f, hf, hfailed⟩ => absurd hfailed (hlive f hf), ?_⟩
          · intro _ _ he
            cases he
          · intro _ _ _ _ _ hhead
            cases hhead
        · rintro - ⟨hx, v, hv, older, rfl⟩
          refine ⟨hX _ _ trivial hx, fun hopen => ?_⟩
          exact ⟨fd, v, [_], older, rfl, hopen, Option.some.inj hv⟩
      · exact Triple.pure fun _ ht => ht

/-- What was read through a descriptor, for these actions. -/
def AllRead (args : Args) (fd : Int) (stats : StatsRecord) (n : Nat) (t : Trace) : Prop :=
  ∀ key, key < n → openMap t = some (fd, args.id) → ReadFrom args key (stats key).total t

theorem AllRead.stable (fd : Int) (stats : StatsRecord) (n : Nat) :
    Stable (AllRead args fd stats n) := by
  intro t e he h key hkey hopen
  rw [openMap_quiet he] at hopen
  exact (h key hkey hopen).cons e

/-- **`stats_collect`** does so for every action. -/
theorem statsCollect_spec (hX : Stable X) (stats : StatsRecord) :
    Triple (Final args) (Live args X) (statsCollect host fd args.mapType stats)
      (fun stats => Live args fun t => X t ∧ AllRead args fd stats xdpActionMax.toNat t) := by
  refine (Triple.forLoop (I := fun n stats => Live args fun t => X t ∧ AllRead args fd stats n t)
    ?_ stats).conseq (fun t ht => ?_) fun _ _ ht => ht
  · intro key stats _
    have hstable : Stable fun t => X t ∧ AllRead args fd stats key t := fun t e he h =>
      ⟨hX t e he h.1, AllRead.stable fd stats key t e he h.2⟩
    refine Triple.bind (mapCollect_spec hstable (stats key)) fun r => ?_
    refine Triple.pure fun t ht => ht.mono ?_
    rintro - ⟨⟨hx, hall⟩, hread⟩
    refine ⟨hx, fun j hj hopen => ?_⟩
    by_cases hjk : j = key
    · subst hjk
      rw [Function.update_self]
      exact hread hopen
    · rw [Function.update_of_ne hjk]
      exact hall j (by omega) hopen
  · exact ht.mono fun _ hx => ⟨hx, fun _ hkey => absurd hkey (Nat.not_lt_zero _)⟩

/-- **`stats_print`** shows what was read. -/
theorem statsPrint_spec (hX : Stable X) (rec prev : StatsRecord) (is : List Nat)
    (hread : ∀ t, X t → ∀ i ∈ is, ReadFrom args i (rec i).total t) {F : Trace → Prop} :
    Triple F (Live args X) (statsPrint rec prev is) (fun _ => Live args X) := by
  induction is with
  | nil => exact Triple.pure fun _ ht => ht
  | cons i is ih =>
      refine Triple.ite (fun _ => Triple.pure fun _ ht => ht) fun _ => ?_
      refine Triple.bind (call_spec (Q := fun _ => Live args X) fun t ht => ?_) fun _ => ?_
      · refine ht.cons (fun _ => id) ?_ fun _ hx => hX _ _ trivial hx
        intro _ hlive hx
        refine ⟨?_, fun ⟨f, hf, hfailed⟩ => absurd hfailed (hlive f hf), ?_⟩
        · intro key total he
          obtain ⟨rfl, rfl⟩ := Event.shown.inj he
          exact hread t hx i List.mem_cons_self
        · intro _ _ _ he
          cases he
      · exact ih fun t hx j hj => hread t hx j (List.mem_cons_of_mem i hj)

/-- What the caller of `open_bpf_map_file` has, if it goes on with the result: no call has failed,
and the descriptor is the one that `info` belongs to. -/
def Opened (args : Args) (r : Int × BpfMapInfo) (t : Trace) : Prop :=
  Clean args t → Along (Justified args) t ∧ (¬ r.1 < 0 → args.id = r.2.id →
    (∀ f ∈ t, ¬ f.Failed) ∧ openMap t = some (r.1, args.id) ∧ infoId t = r.2.id)

/-- **`open_bpf_map_file`.** -/
theorem openBpfMapFile_spec (info : BpfMapInfo) {F : Trace → Prop} :
    Triple F (Live args fun t => infoId t = info.id) (openBpfMapFile host info) (Opened args) := by
  refine Triple.bind (Q := fun _ => Live args fun t => infoId t = info.id)
    (Triple.get fun _ ht => ht) fun t₀ => ?_
  refine Triple.ite (fun _ => Triple.pure fun t ht hclean => ?_) fun _ => ?_
  · exact ⟨ht.final hclean, fun hfd => absurd (show (-1 : Int) < 0 by decide) hfd⟩
  refine Triple.bind (Q := fun fd t => (fd < 0 → Final args t) ∧ (¬ fd < 0 →
    Live args (fun t => infoId t = info.id ∧ ∃ older, t = .objGet fd :: older) t))
    (call_spec fun t ht => ⟨fun _ => ?_, fun hfd => ?_⟩) fun fd => ?_
  · exact ht.call_final trivial
  · exact ht.call trivial (fun _ => hfd) fun _ hx => ⟨hx, t, rfl⟩
  refine Triple.ite (fun hfd => Triple.pure fun t ht hclean => ?_) fun hfd => ?_
  · exact ⟨ht.1 hfd hclean, fun hpos => absurd hfd hpos⟩
  -- the info call may fail while `info` holds another id than the one compared
  refine Triple.bind (Q := fun result t => (result = none → Final args t ∧
    (Clean args t → info.id ≠ args.id)) ∧ ∀ info, result = some info →
      Live args (fun t => openMap t = some (fd, info.id) ∧ infoId t = info.id) t)
    (call_spec fun t ht => ?_) fun result => ?_
  · have ht := ht.2 hfd
    refine ⟨fun hnone => ⟨?_, fun hclean => ?_⟩, fun info' hsome => ?_⟩
    · exact ht.call_final trivial
    · obtain ⟨-, -, hid, -⟩ := ht hclean.tail
      rw [hnone] at hclean
      rw [← hid]
      exact hclean.steps.1
    · rw [hsome]
      refine ht.call trivial (fun _ he => by cases he) ?_
      rintro - ⟨-, older, rfl⟩
      exact ⟨if_pos ⟨rfl, Int.not_lt.mp hfd⟩, rfl⟩
  · cases result with
    | none =>
        refine Triple.pure fun t ht hclean => ?_
        obtain ⟨hfinal, hid⟩ := ht.1 rfl
        exact ⟨hfinal hclean, fun _ he => absurd he.symm (hid hclean)⟩
    | some info =>
        refine Triple.pure fun t ht hclean => ?_
        obtain ⟨hdone, hlive, hopen, hid⟩ := ht.2 info rfl hclean
        exact ⟨hdone, fun _ he => ⟨hlive, by rw [he]; exact hopen, hid⟩⟩

/-- **One round.**  If the loop goes on, no call has failed, and `info` is up to date. -/
theorem pollRound_spec (l : Locals) :
    Triple (Final args) (Live args fun t => infoId t = l.info.id) (pollRound host args l)
      (fun r t => Final args t ∧ (r.1 = none → Live args (fun t => infoId t = r.2.info.id) t)) := by
  have hclose : ∀ {t : Trace} (fd : Int), Final args t → Final args (.close fd :: t) :=
    fun fd ht hclean => ⟨justified_close fd, ht hclean.tail⟩
  refine Triple.bind (openBpfMapFile_spec l.info) fun r => ?_
  obtain ⟨fd, info⟩ := r
  refine Triple.ite (fun _ => Triple.pure fun t ht => ?_) fun hfd => ?_
  · exact ⟨fun hclean => (ht hclean).1, fun he => by cases he⟩
  refine Triple.ite (fun _ => ?_) fun hid => ?_
  · refine Triple.bind (call_spec (Q := fun _ => Final args) fun t ht => ?_) fun _ => ?_
    · exact hclose fd fun hclean => (ht hclean).1
    · exact Triple.pure fun t ht => ⟨ht, fun he => by cases he⟩
  -- the descriptor is good: all that is shown is read through it
  have hid : args.id = info.id := Decidable.not_not.mp hid
  have hstable : Stable fun t => openMap t = some (fd, args.id) ∧ infoId t = info.id :=
    fun t e he h => ⟨(openMap_quiet he).trans h.1, (infoId_quiet he).trans h.2⟩
  refine Triple.bind (Q := fun record => Live args fun t =>
    (openMap t = some (fd, args.id) ∧ infoId t = info.id) ∧
      AllRead args fd record xdpActionMax.toNat t)
    ((statsCollect_spec hstable l.record).conseq (fun t ht hclean => ?_) fun _ _ ht => ht)
    fun record => ?_
  · obtain ⟨hdone, hgood⟩ := ht hclean
    obtain ⟨hlive, hopen, hinfo⟩ := hgood hfd hid
    exact ⟨hdone, hlive, hopen, hinfo⟩
  have hstable' : Stable fun t => (openMap t = some (fd, args.id) ∧ infoId t = info.id) ∧
      AllRead args fd record xdpActionMax.toNat t :=
    fun t e he h => ⟨hstable t e he h.1, AllRead.stable fd record _ t e he h.2⟩
  refine Triple.bind (statsPrint_spec hstable' record l.record _ fun t hx i hi =>
    hx.2 i (List.mem_range.mp hi) hx.1.1) fun _ => ?_
  refine Triple.bind (call_spec (Q := fun _ => Live args fun t => infoId t = info.id)
    fun t ht => ?_) fun _ => ?_
  · exact ht.cons (fun _ => id) (fun _ _ _ => justified_close fd) fun _ hx => hx.1.2
  · exact Triple.pure fun t ht => ⟨ht.final, fun _ => ht⟩

/-- **Any number of rounds.** -/
theorem pollRounds_spec (n : Nat) (l : Locals) :
    Triple (Final args) (Live args fun t => infoId t = l.info.id) (pollRounds host args n l)
      (fun r t => Clean args t → Right args r t) := by
  induction n generalizing l with
  | zero =>
      refine Triple.pure fun t ht hclean => ?_
      obtain ⟨hdone, hlive, -⟩ := ht hclean
      exact ⟨hdone, fun ⟨f, hf, hfailed⟩ => absurd hfailed (hlive f hf)⟩
  | succ n ih =>
      refine Triple.bind (pollRound_spec l) fun r => ?_
      obtain ⟨result, l'⟩ := r
      cases result with
      | some code =>
          exact Triple.pure fun t ht hclean => ⟨ht.1 hclean, fun _ he => by cases he⟩
      | none => exact (ih l').conseq (fun t ht => ht.2 rfl) fun _ _ ht => ht

/-- **Runs of `stats_poll`.** -/
theorem statsPoll_spec (host : Host) (args : Args) (n : Nat) :
    Triple (Final args) (fun t => t = []) (statsPoll host args n)
      (fun r t => Clean args t → Right args r t) := by
  have hstable : Stable fun t => infoId t = 0 := fun t e he h => (infoId_quiet he).trans h
  refine Triple.bind ((statsCollect_spec (X := fun t => infoId t = 0) hstable _).conseq
    (fun t ht hclean => ?_) fun _ _ ht => ht) fun record => ?_
  · subst ht
    exact ⟨trivial, fun f hf => absurd hf List.not_mem_nil, rfl⟩
  · exact (pollRounds_spec n ⟨⟨0⟩, record⟩).conseq (fun t ht => ht.mono fun _ hx => hx.1)
      fun _ _ ht => ht

end

/-! ## Every run -/

/-- **Totals are what was read, and failures end the run**, in every run with these outcomes: the
type of the map is one that `map_collect` knows, no lookup fails, and no info call fails while `info`
holds the id that `main` has checked.  At every point of the run, every total that was shown was read
by a lookup that succeeded, through a descriptor that `bpf_obj_get` has returned, from a map with
that id; nothing was read or shown after a failed open or info call, and the function has returned;
and no total was replaced when a lookup failed. -/
theorem statsPoll_right (host : Host) (args : Args) (n : Nat)
    (h : Clean args (pollRun host args n).2) :
    Right args (pollRun host args n).1 (pollRun host args n).2 := by
  have hspec := statsPoll_spec host args n [] rfl
  unfold pollRun at h ⊢
  cases hrun : statsPoll host args n [] with
  | ok r =>
      rw [hrun] at hspec h
      exact hspec h
  | error t =>
      rw [hrun] at hspec h
      exact ⟨hspec h, fun _ he => by cases he⟩

/-- A kernel with one map, of id 7.  `main` has it open as 3, and it is opened as 4 in every round.
The info calls at these points fail. -/
def Host.oneMap (infoFails : Trace → Bool) : Host where
  clockGettime := fun t => some (BitVec.ofNat 64 t.length)
  snprintf := fun _ => 40
  bpfObjGet := fun _ => 4
  bpfObjGetInfoByFd := fun t _ => if infoFails t then none else some ⟨7⟩
  bpfMapLookupElem := fun _ fd _ =>
    if fd = 3 ∨ fd = 4 then some ⟨⟨2, 120⟩, [⟨1, 60⟩]⟩ else none
  stack := fun _ => ⟨99, 999⟩

/-- What `main` passes for that map. -/
def oneMapArgs : Args := ⟨3, 7, bpfMapTypePercpuArray⟩

/-- Two rounds without a failure. -/
theorem statsPoll_right_two : Clean oneMapArgs (pollRun (.oneMap fun _ => false) oneMapArgs 2).2 ∧
    .shown 2 ⟨3, 180⟩ ∈ (pollRun (.oneMap fun _ => false) oneMapArgs 2).2 ∧
    Right oneMapArgs (pollRun (.oneMap fun _ => false) oneMapArgs 2).1
      (pollRun (.oneMap fun _ => false) oneMapArgs 2).2 := by
  have hclean : Clean oneMapArgs (pollRun (.oneMap fun _ => false) oneMapArgs 2).2 :=
    ⟨.inr rfl, by decide +kernel⟩
  exact ⟨hclean, by decide +kernel, statsPoll_right _ _ 2 hclean⟩

/-- **The info call of the second round fails.**  The lookups go through descriptor 40, which is not
open, and what is shown is whatever was on the stack. -/
theorem statsPoll_shows_stack :
    .shown 4 ⟨99, 999⟩ ∈ (pollRun (.oneMap fun t => infoId t = 7) oneMapArgs 2).2 ∧
      ¬ Right oneMapArgs (pollRun (.oneMap fun t => infoId t = 7) oneMapArgs 2).1
        (pollRun (.oneMap fun t => infoId t = 7) oneMapArgs 2).2 := by
  refine ⟨by decide +kernel, fun hright => ?_⟩
  have hshown : (pollRun (.oneMap fun t => infoId t = 7) oneMapArgs 2).2.drop 1 =
      .shown 4 ⟨99, 999⟩ :: (pollRun (.oneMap fun t => infoId t = 7) oneMapArgs 2).2.drop 2 := by
    decide +kernel
  have hfailed : ∃ f ∈ (pollRun (.oneMap fun t => infoId t = 7) oneMapArgs 2).2.drop 2,
      f.Failed := by decide +kernel
  generalize pollRun (.oneMap fun t => infoId t = 7) oneMapArgs 2 = r at hright hshown hfailed
  have hjust := hright.justified.drop 1
  rw [hshown] at hjust
  obtain ⟨fd, he⟩ := hjust.1.gaveUp hfailed
  cases he

end StatsPoll

end AfXdpSwitch
