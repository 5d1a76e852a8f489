import AfXdpSwitch.PacketAccess

/-!
# Statistics of XDP programs: `common/xdp_stats_kern.h`

An XDP program decides on an action while it works on the packet, and ends by recording that
action in the per-CPU map `xdp_stats_map`.  A program is therefore a body, which only knows the
packet, followed by `xdp_stats_record_action`; `recorded` puts the two together.

`Xdp` programs run on one CPU: of the map they see the records of that CPU.
-/

namespace AfXdpSwitch

/-- `struct datarec`. -/
structure DataRec where
  rxPackets : BitVec 64
  rxBytes : BitVec 64
  deriving DecidableEq

/-- The packet of a program run, and the records of its CPU by action. -/
structure XdpState where
  ctx : XdpMd
  stats : Nat → DataRec

/-- XDP programs. -/
abbrev Xdp := Prog Fault XdpState

/-- The part of a program that works on the packet. -/
def onPacket {α : Type} (c : Bpf α) : Xdp α := fun s =>
  match c s.ctx with
  | .ok (a, ctx) => .ok (a, { s with ctx := ctx })
  | .error e => .error e

/-- `bpf_map_lookup_elem` of `xdp_stats_map`, which has `XDP_ACTION_MAX` entries. -/
def lookupStats (key : BitVec 32) : Option Nat :=
  if key < xdpActionMax then some key.toNat else none

/-- `ctx->data_end - ctx->data`, both of them `__u32`. -/
def XdpMd.length32 (ctx : XdpMd) : BitVec 32 :=
  BitVec.ofNat 32 ctx.dataEnd - BitVec.ofNat 32 ctx.data

/-- A record after one more packet. -/
def DataRec.count (record : DataRec) (ctx : XdpMd) : DataRec where
  rxPackets := record.rxPackets + 1
  rxBytes := record.rxBytes + ctx.length32.setWidth 64

def xdpStatsRecordAction (action : BitVec 32) : Xdp (BitVec 32) := do
  if action ≥ xdpActionMax then return xdpAborted
  match lookupStats action with
  | none => return xdpAborted
  | some key =>
      modify fun s : XdpState =>
        { s with stats := Function.update s.stats key ((s.stats key).count s.ctx) }
      return action

/-- A program that ends in `return xdp_stats_record_action(ctx, action)`. -/
def recorded (body : Bpf (BitVec 32)) : Xdp (BitVec 32) := do
  let action ← onPacket body
  xdpStatsRecordAction action

/-! ## What a recorded program does -/

variable {s : XdpState} {action : BitVec 32} {ctx : XdpMd}

theorem onPacket_ok {α : Type} {c : Bpf α} {a : α} (h : c s.ctx = .ok (a, ctx)) :
    onPacket c s = .ok (a, { s with ctx := ctx }) := by
  unfold onPacket
  rw [h]

/-- A valid action is recorded once and returned. -/
theorem xdpStatsRecordAction_ok (h : action < xdpActionMax) :
    xdpStatsRecordAction action s = .ok (action, { s with
      stats := Function.update s.stats action.toNat ((s.stats action.toNat).count s.ctx) }) := by
  have hvalid : ¬ action ≥ xdpActionMax := fun hge => absurd h (Nat.not_lt.mpr hge)
  unfold xdpStatsRecordAction lookupStats
  simp only [if_neg hvalid, if_pos h]
  rfl

/-- **A recorded program.**  What its body decides is what it returns and what it counts. -/
theorem recorded_ok {body : Bpf (BitVec 32)} (h : body s.ctx = .ok (action, ctx))
    (hvalid : action < xdpActionMax) : recorded body s = .ok (action,
      ⟨ctx, Function.update s.stats action.toNat ((s.stats action.toNat).count ctx)⟩) := by
  unfold recorded
  rw [Prog.bind_ok (onPacket_ok h), xdpStatsRecordAction_ok hvalid]

end AfXdpSwitch
