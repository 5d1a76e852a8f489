import AfXdpSwitch.PacketParsing
import AfXdpSwitch.PacketRewriting
import AfXdpSwitch.XdpIcmpEcho
import AfXdpSwitch.XdpRedirect
import AfXdpSwitch.XdpRouter
import Mathlib.Algebra.BigOperators.Fin
import Mathlib.Data.BitVec

/-!
# Conservation of the XDP statistics

The programs of the three lessons that end in `xdp_stats_record_action` process packets on any
number of CPUs, each counting into the records of its own.  `xdp_stats.c` reads the map key by
key and adds up the records of all CPUs.

One processed packet adds one to what the reader reports for its verdict, and its length to the
bytes, and changes nothing else.  By induction over the packets the reader reports, modulo `2^64`,
the packets with each verdict.

A program sees no records but those of its CPU, and the answers of the helpers are part of a
packet's arrival, so that programs running at the same time on several CPUs do what they would do
one after the other.
-/

namespace AfXdpSwitch
open Packet03

/-! ## The programs -/

/-- What the kernel answers while one packet is processed; its redirects are valid actions. -/
structure XdpHelpers extends RouterHelpers where
  redirectParams : Mac → Option Mac
  bpfRedirectMap : BitVec 32 → BitVec 64 → BitVec 32
  validRedirect : ∀ ifindex flags, bpfRedirect ifindex flags < xdpActionMax
  validRedirectMap : ∀ key flags, bpfRedirectMap key flags < xdpActionMax

/-- The programs that end in `xdp_stats_record_action`.  Those of `xdp_prog_kern_sol.c` are the ones
of `xdp_prog_kern.c`, but for what its `xdp_redirect_func` is built with. -/
inductive XdpProgram where
  | packet01Parser
  | packet02PortRewrite
  | packet02Parser
  | packet03IcmpEcho
  | packet03Redirect
  | packet03RedirectSol
  | packet03RedirectMap
  | packet03Router

namespace XdpProgram

def run (helpers : XdpHelpers) (ingressIfindex : BitVec 32) : XdpProgram → Xdp (BitVec 32)
  | packet01Parser => Packet01.xdpParserFunc
  | packet02PortRewrite => Packet02.xdpPortRewriteFunc
  | packet02Parser => Packet02.xdpParserFunc
  | packet03IcmpEcho => xdpIcmpEchoFunc
  | packet03Redirect => xdpRedirectFunc helpers.bpfRedirect
  | packet03RedirectSol => xdpRedirectFuncSol helpers.bpfRedirect
  | packet03RedirectMap => xdpRedirectMapFunc helpers.redirectParams helpers.bpfRedirectMap
  | packet03Router => xdpRouterFunc helpers.toRouterHelpers ingressIfindex

/-- Each of them is a body that works on the packet and then records what it decided on. -/
theorem run_eq (helpers : XdpHelpers) (ingressIfindex : BitVec 32) (program : XdpProgram) :
    ∃ body, program.run helpers ingressIfindex = recorded body ∧
      ∀ d e, d ≤ e → Keeps d e body (· < xdpActionMax) := by
  cases program with
  | packet01Parser => exact ⟨_, rfl, fun d e => packet01_parserAction_keeps⟩
  | packet02PortRewrite => exact ⟨_, rfl, fun d e => portRewriteAction_keeps⟩
  | packet02Parser => exact ⟨_, rfl, fun d e => packet02_parserAction_keeps⟩
  | packet03IcmpEcho => exact ⟨_, rfl, fun d e _ => icmpEchoAction_keeps d e⟩
  | packet03Redirect => exact ⟨_, rfl, fun d e => redirectAction_keeps _ _ helpers.validRedirect⟩
  | packet03RedirectSol => exact ⟨_, rfl, fun d e => redirectAction_keeps _ _ helpers.validRedirect⟩
  | packet03RedirectMap =>
      exact ⟨_, rfl, fun d e => redirectMapAction_keeps _ helpers.validRedirectMap⟩
  | packet03Router =>
      exact ⟨_, rfl, fun d e _ => routerAction_keeps helpers.validRedirect ingressIfindex d e⟩

end XdpProgram

/-! ## Packets and CPUs -/

/-- `xdp_stats_map`: for each CPU its records by action. -/
abbrev PercpuStats (nrCpus : Nat) := Fin nrCpus → Nat → DataRec

/-- A packet, the CPU and the program it comes to, and what the kernel answers there.  `data` and
`data_end` are `__u32` fields. -/
structure Arrival (nrCpus : Nat) where
  cpu : Fin nrCpus
  program : XdpProgram
  helpers : XdpHelpers
  ingressIfindex : BitVec 32
  ctx : XdpMd
  data_le : ctx.data ≤ ctx.dataEnd
  dataEnd_lt : ctx.dataEnd < 2 ^ 32

namespace Arrival
variable {nrCpus : Nat}

/-- The bytes of the packet. -/
def length (arrival : Arrival nrCpus) : Nat := arrival.ctx.dataEnd - arrival.ctx.data

/-- One packet is processed. -/
def process (arrival : Arrival nrCpus) (stats : PercpuStats nrCpus) :
    Except Fault (BitVec 32 × PercpuStats nrCpus) := do
  let (verdict, s) ← arrival.program.run arrival.helpers arrival.ingressIfindex
    ⟨arrival.ctx, stats arrival.cpu⟩
  return (verdict, Function.update stats arrival.cpu s.stats)

end Arrival

/-- The packets one after the other, and their verdicts. -/
def processAll {nrCpus : Nat} : List (Arrival nrCpus) → PercpuStats nrCpus →
    Except Fault (List (BitVec 32) × PercpuStats nrCpus)
  | [], stats => return ([], stats)
  | arrival :: arrivals, stats => do
      let (verdict, stats) ← arrival.process stats
      let (verdicts, stats) ← processAll arrivals stats
      return (verdict :: verdicts, stats)

/-- The loop of the reader over the CPUs. -/
def sumValues (values : List DataRec) : DataRec :=
  values.foldl (fun sum value => ⟨sum.rxPackets + value.rxPackets, sum.rxBytes + value.rxBytes⟩) ⟨0, 0⟩

/-- What is left in `value`, which a failing lookup does not set. -/
def mapGetValuePercpuArray {nrCpus : Nat} (stats : PercpuStats nrCpus) (key : BitVec 32)
    (value : DataRec) : DataRec :=
  match lookupStats key with
  | none => value
  | some key => sumValues (List.ofFn fun cpu => stats cpu key)

/-! ## One packet -/

variable {nrCpus : Nat}

theorem Arrival.setWidth_length32 (arrival : Arrival nrCpus) :
    arrival.ctx.length32.setWidth 64 = BitVec.ofNat 64 arrival.length := by
  have hle := arrival.data_le
  have hlt := arrival.dataEnd_lt
  apply BitVec.eq_of_toNat_eq
  unfold XdpMd.length32 Arrival.length
  rw [BitVec.toNat_setWidth, BitVec.toNat_sub, BitVec.toNat_ofNat, BitVec.toNat_ofNat,
    BitVec.toNat_ofNat]
  omega

/-- A record after a packet of `n` bytes. -/
def DataRec.plus (record : DataRec) (n : Nat) : DataRec :=
  ⟨record.rxPackets + 1, record.rxBytes + BitVec.ofNat 64 n⟩

/-- **One packet.**  The program returns a valid verdict, and exactly the record of that verdict on
that CPU counts the packet. -/
theorem Arrival.process_ok (arrival : Arrival nrCpus) (stats : PercpuStats nrCpus) :
    ∃ verdict, verdict < xdpActionMax ∧ arrival.process stats = .ok (verdict,
      Function.update stats arrival.cpu (Function.update (stats arrival.cpu) verdict.toNat
        ((stats arrival.cpu verdict.toNat).plus arrival.length))) := by
  obtain ⟨body, hrun, hbody⟩ := arrival.program.run_eq arrival.helpers arrival.ingressIfindex
  obtain ⟨verdict, ctx', hok, hvalid, hdata, hend⟩ := (hbody _ _ arrival.data_le).exists_ok
  have hcount : ∀ record : DataRec, record.count ctx' = record.plus arrival.length := by
    intro record
    unfold DataRec.count DataRec.plus
    rw [← arrival.setWidth_length32, XdpMd.length32, hdata, hend]
    rfl
  have hrecorded := recorded_ok (s := ⟨arrival.ctx, stats arrival.cpu⟩) hok hvalid
  refine ⟨verdict, hvalid, ?_⟩
  unfold Arrival.process
  rw [hrun, hrecorded, ← hcount]
  rfl

/-! ## What the reader sees -/

theorem sumValues_ofFn (f : Fin nrCpus → DataRec) : sumValues (List.ofFn f) =
    ⟨∑ cpu, (f cpu).rxPackets, ∑ cpu, (f cpu).rxBytes⟩ := by
  have hfold : ∀ (values : List DataRec) (p b : BitVec 64),
      values.foldl (fun sum value =>
        (⟨sum.rxPackets + value.rxPackets, sum.rxBytes + value.rxBytes⟩ : DataRec)) ⟨p, b⟩ =
      ⟨p + (values.map (·.rxPackets)).sum, b + (values.map (·.rxBytes)).sum⟩ := by
    intro values
    induction values with
    | nil =>
        intro p b
        simp
    | cons value values ih =>
        intro p b
        rw [List.foldl_cons, ih]
        simp only [List.map_cons, List.sum_cons, add_assoc]
  unfold sumValues
  rw [hfold, zero_add, zero_add, List.map_ofFn, List.map_ofFn, List.sum_ofFn, List.sum_ofFn]
  rfl

/-- A sum over the CPUs, when one of them counts `x` more. -/
theorem sum_update_add (f : DataRec → BitVec 64) (records : Fin nrCpus → DataRec) (cpu : Fin nrCpus)
    {record : DataRec} {x : BitVec 64} (h : f record = f (records cpu) + x) :
    ∑ c, f (Function.update records cpu record c) = ∑ c, f (records c) + x := by
  have hcomp : ∀ c, f (Function.update records cpu record c) =
      Function.update (fun c => f (records c)) cpu (f record) c :=
    fun c => Function.apply_update (fun _ => f) records cpu record c
  have hold := Finset.sum_update_of_mem (Finset.mem_univ cpu) (fun c => f (records c)) (f (records cpu))
  rw [Function.update_eq_self] at hold
  rw [Finset.sum_congr rfl fun c _ => hcomp c, Finset.sum_update_of_mem (Finset.mem_univ cpu), hold, h]
  exact add_right_comm _ _ _

/-- **What one packet adds.**  The reader reports it under its verdict and under no other. -/
theorem mapGetValuePercpuArray_plus (stats : PercpuStats nrCpus) (cpu : Fin nrCpus)
    (verdict : BitVec 32) {action : BitVec 32} (haction : action < xdpActionMax) (n : Nat)
    (value : DataRec) :
    mapGetValuePercpuArray (Function.update stats cpu (Function.update (stats cpu) verdict.toNat
      ((stats cpu verdict.toNat).plus n))) action value =
    if verdict = action then (mapGetValuePercpuArray stats action value).plus n
    else mapGetValuePercpuArray stats action value := by
  unfold mapGetValuePercpuArray lookupStats
  simp only [if_pos haction, sumValues_ofFn]
  by_cases heq : verdict = action
  · subst heq
    have hupdate : ∀ c, Function.update stats cpu (Function.update (stats cpu) verdict.toNat
        ((stats cpu verdict.toNat).plus n)) c verdict.toNat =
        Function.update (fun c => stats c verdict.toNat) cpu
          ((stats cpu verdict.toNat).plus n) c := by
      intro c
      by_cases hc : c = cpu
      · subst hc
        rw [Function.update_self, Function.update_self, Function.update_self]
      · rw [Function.update_of_ne hc, Function.update_of_ne hc]
    rw [if_pos rfl]
    simp only [hupdate]
    rw [sum_update_add (·.rxPackets) _ cpu rfl, sum_update_add (·.rxBytes) _ cpu rfl]
    rfl
  · have hupdate : ∀ c, Function.update stats cpu (Function.update (stats cpu) verdict.toNat
        ((stats cpu verdict.toNat).plus n)) c action.toNat = stats c action.toNat := by
      intro c
      by_cases hc : c = cpu
      · subst hc
        rw [Function.update_self, Function.update_of_ne fun h => heq (BitVec.eq_of_toNat_eq h.symm)]
      · rw [Function.update_of_ne hc]
    rw [if_neg heq]
    simp only [hupdate]

/-! ## All packets -/

/-- The sum of `f` over the packets that got the verdict `action`. -/
def totalWith (f : Arrival nrCpus → Nat) (action : BitVec 32)
    (log : List (Arrival nrCpus × BitVec 32)) : Nat :=
  ((log.filter (·.2 = action)).map fun entry => f entry.1).sum

/-- How many packets got the verdict `action`. -/
def packetsWith (action : BitVec 32) (log : List (Arrival nrCpus × BitVec 32)) : Nat :=
  totalWith (fun _ => 1) action log

/-- And their bytes. -/
def bytesWith (action : BitVec 32) (log : List (Arrival nrCpus × BitVec 32)) : Nat :=
  totalWith Arrival.length action log

theorem totalWith_cons (f : Arrival nrCpus → Nat) (action verdict : BitVec 32)
    (arrival : Arrival nrCpus) (log : List (Arrival nrCpus × BitVec 32)) :
    totalWith f action ((arrival, verdict) :: log) =
      (if verdict = action then f arrival else 0) + totalWith f action log := by
  unfold totalWith
  by_cases heq : verdict = action
  · rw [List.filter_cons_of_pos (by simpa using heq), if_pos heq]
    rfl
  · rw [List.filter_cons_of_neg (by simpa using heq), if_neg heq, Nat.zero_add]

/-- Over the valid actions every packet is counted once. -/
theorem sum_totalWith (f : Arrival nrCpus → Nat) (arrivals : List (Arrival nrCpus))
    (verdicts : List (BitVec 32)) (hlength : verdicts.length = arrivals.length)
    (hvalid : ∀ verdict ∈ verdicts, verdict < xdpActionMax) :
    ∑ action : Fin 5, totalWith f (BitVec.ofNat 32 action) (arrivals.zip verdicts) =
      (arrivals.map f).sum := by
  induction arrivals generalizing verdicts with
  | nil => simp [totalWith]
  | cons arrival arrivals ih =>
      obtain ⟨verdict, verdicts, rfl⟩ : ∃ v vs, verdicts = v :: vs := by
        cases verdicts with
        | nil => exact absurd hlength (by simp)
        | cons v vs => exact ⟨v, vs, rfl⟩
      have hrest := ih verdicts (by simpa using hlength) fun v hv => hvalid v (.tail _ hv)
      have hlt : verdict.toNat < 5 := hvalid verdict (.head _)
      have hone : ∀ action : Fin 5,
          verdict = BitVec.ofNat 32 action ↔ action = ⟨verdict.toNat, hlt⟩ := by
        intro action
        have haction := action.isLt
        rw [← BitVec.toNat_inj, BitVec.toNat_ofNat, Fin.ext_iff, Nat.mod_eq_of_lt (by omega)]
        exact eq_comm
      simp only [List.zip_cons_cons, totalWith_cons, hone, Finset.sum_add_distrib]
      rw [hrest, Finset.sum_ite_eq' , if_pos (Finset.mem_univ _), List.map_cons, List.sum_cons]

/-- What was reported before, with the packets of the log. -/
theorem processAll_ok (arrivals : List (Arrival nrCpus)) (stats : PercpuStats nrCpus) :
    ∃ verdicts stats', processAll arrivals stats = .ok (verdicts, stats') ∧
      verdicts.length = arrivals.length ∧ (∀ verdict ∈ verdicts, verdict < xdpActionMax) ∧
      ∀ action < xdpActionMax, ∀ value,
        mapGetValuePercpuArray stats' action value =
          ⟨(mapGetValuePercpuArray stats action value).rxPackets +
              BitVec.ofNat 64 (packetsWith action (arrivals.zip verdicts)),
            (mapGetValuePercpuArray stats action value).rxBytes +
              BitVec.ofNat 64 (bytesWith action (arrivals.zip verdicts))⟩ := by
  induction arrivals generalizing stats with
  | nil =>
      refine ⟨[], stats, rfl, rfl, by simp, fun action _ value => ?_⟩
      simp [packetsWith, bytesWith, totalWith]
  | cons arrival arrivals ih =>
      obtain ⟨verdict, hvalid, hprocess⟩ := arrival.process_ok stats
      obtain ⟨verdicts, stats', hall, hlength, hvalids, hreport⟩ := ih (Function.update stats
        arrival.cpu (Function.update (stats arrival.cpu) verdict.toNat
          ((stats arrival.cpu verdict.toNat).plus arrival.length)))
      refine ⟨verdict :: verdicts, stats', ?_, by simp [hlength], ?_, fun action haction value => ?_⟩
      · rw [processAll, hprocess]
        show (do
          let (verdicts, stats) ← processAll arrivals _
          return (verdict :: verdicts, stats)) = _
        rw [hall]
        rfl
      · intro v hv
        obtain rfl | hv := List.mem_cons.mp hv
        · exact hvalid
        · exact hvalids v hv
      · rw [hreport action haction value, mapGetValuePercpuArray_plus _ _ _ haction, packetsWith,
          packetsWith, bytesWith, bytesWith, List.zip_cons_cons, totalWith_cons, totalWith_cons]
        by_cases heq : verdict = action
        · rw [if_pos heq, if_pos heq, if_pos heq, DataRec.plus, BitVec.ofNat_add, BitVec.ofNat_add,
            ← add_assoc, ← add_assoc]
          rfl
        · rw [if_neg heq, if_neg heq, if_neg heq, Nat.zero_add, Nat.zero_add]

/-- What the statistics say about the packets that came in and their verdicts. -/
structure StatsAccounted (arrivals : List (Arrival nrCpus)) (verdicts : List (BitVec 32))
    (stats : PercpuStats nrCpus) : Prop where
  length : verdicts.length = arrivals.length
  reported : ∀ action < xdpActionMax, ∀ value, mapGetValuePercpuArray stats action value =
    ⟨BitVec.ofNat 64 (packetsWith action (arrivals.zip verdicts)),
      BitVec.ofNat 64 (bytesWith action (arrivals.zip verdicts))⟩
  packets : ∑ action : Fin 5, packetsWith (BitVec.ofNat 32 action) (arrivals.zip verdicts) =
    arrivals.length
  bytes : ∑ action : Fin 5, bytesWith (BitVec.ofNat 32 action) (arrivals.zip verdicts) =
    (arrivals.map Arrival.length).sum

/-- **Conservation.**  Whatever packets come in, to whatever CPUs and programs, every program
returns, and for each action the reader reports the packets with that verdict and their bytes,
modulo `2^64`.  Over all actions this is every packet once. -/
theorem xdp_stats_conserved (arrivals : List (Arrival nrCpus)) : ∃ verdicts stats,
    processAll arrivals (fun _ _ => ⟨0, 0⟩) = .ok (verdicts, stats) ∧
    StatsAccounted arrivals verdicts stats := by
  obtain ⟨verdicts, stats, hall, hlength, hvalid, hreport⟩ :=
    processAll_ok arrivals (fun _ _ => ⟨0, 0⟩)
  refine ⟨verdicts, stats, hall, hlength, fun action haction value => ?_, ?_, ?_⟩
  · have hzero : mapGetValuePercpuArray (fun (_ : Fin nrCpus) _ => ⟨0, 0⟩) action value = ⟨0, 0⟩ := by
      unfold mapGetValuePercpuArray lookupStats
      simp only [if_pos haction, sumValues_ofFn, Finset.sum_const_zero]
    rw [hreport action haction value, hzero, zero_add, zero_add]
  · unfold packetsWith
    rw [sum_totalWith _ _ _ hlength hvalid, List.map_const', List.sum_replicate, smul_eq_mul, mul_one]
  · exact sum_totalWith _ _ _ hlength hvalid

/-- The helpers of a host with one neighbour, whose redirects all succeed. -/
def redirectingHelpers : XdpHelpers where
  toRouterHelpers := oneNeighbour
  redirectParams := fun _ => none
  bpfRedirectMap := fun _ _ => xdpRedirect
  validRedirect := fun _ _ => show xdpRedirect < xdpActionMax by decide
  validRedirectMap := fun _ _ => show xdpRedirect < xdpActionMax by decide

/-- A datagram that is routed on the first CPU, one that is redirected on the second, and there an
echo request that is answered. -/
def threeArrivals : List (Arrival 2) :=
  [⟨0, .packet03Router, redirectingHelpers, 3, udpCtx, by decide, by decide⟩,
    ⟨1, .packet03Redirect, redirectingHelpers, 3, udpCtx, by decide, by decide⟩,
    ⟨1, .packet03IcmpEcho, redirectingHelpers, 3, zeroReplyCtx, by decide, by decide⟩]

/-- The reader adds up the redirected packets of both CPUs. -/
theorem xdp_stats_conserved_two_cpus : ∃ stats,
    processAll threeArrivals (fun _ _ => ⟨0, 0⟩) = .ok ([xdpRedirect, xdpRedirect, xdpTx], stats) ∧
    (stats 0 xdpRedirect.toNat = ⟨1, 42⟩ ∧ stats 1 xdpRedirect.toNat = ⟨1, 42⟩) ∧
    ∀ value, mapGetValuePercpuArray stats xdpRedirect value = ⟨2, 84⟩ ∧
      mapGetValuePercpuArray stats xdpTx value = ⟨1, 42⟩ ∧
      mapGetValuePercpuArray stats xdpPass value = ⟨0, 0⟩ := by
  obtain ⟨verdicts, stats, hall, haccounted⟩ := xdp_stats_conserved threeArrivals
  have hverdicts : (processAll threeArrivals (fun _ _ => ⟨0, 0⟩)).map Prod.fst =
      .ok [xdpRedirect, xdpRedirect, xdpTx] := rfl
  have hcpus : (processAll threeArrivals (fun _ _ => ⟨0, 0⟩)).map
      (fun r => (r.2 0 xdpRedirect.toNat, r.2 1 xdpRedirect.toNat)) = .ok (⟨1, 42⟩, ⟨1, 42⟩) := rfl
  rw [hall] at hverdicts hcpus
  obtain rfl : verdicts = [xdpRedirect, xdpRedirect, xdpTx] := Except.ok.inj hverdicts
  refine ⟨stats, hall, Prod.mk.inj (Except.ok.inj hcpus), fun value => ⟨?_, ?_, ?_⟩⟩
  · exact haccounted.reported xdpRedirect (by decide) value
  · exact haccounted.reported xdpTx (by decide) value
  · exact haccounted.reported xdpPass (by decide) value

end AfXdpSwitch
