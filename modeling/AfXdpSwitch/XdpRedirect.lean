import AfXdpSwitch.ParsingHelpers
import AfXdpSwitch.XdpStats

/-!
# `xdp_redirect_func` and `xdp_redirect_map_func` of `packet03-redirecting/xdp_prog_kern.c`

Both write a destination address into the frame and redirect it.  The first has the address and
the interface compiled in.  The second looks the address up in `redirect_params` under the
frame's source, passes a frame whose source it does not know, and redirects the others to
whatever port is in `tx_port[0]`.
-/

namespace AfXdpSwitch
open ByteMemory

/-- Ethernet addresses, `ETH_ALEN` bytes. -/
abbrev Mac := Vector (BitVec 8) 6

/-- The address at `a`. -/
def XdpMd.mac (ctx : XdpMd) (a : Nat) : Mac := Vector.ofFn fun i => ctx.mem (a + i)

/-- The address at `a`, the key of a lookup. -/
def loadMac (a : Nat) : Bpf Mac := access a 6 fun ctx => (ctx.mac a, ctx)

namespace Packet03

/-- The action that `xdp_redirect_func` decides on, for the address and interface it is built
with. -/
def redirectAction (dst : Mac) (ifindex : BitVec 32)
    (bpfRedirect : BitVec 32 → BitVec 64 → BitVec 32) : Bpf (BitVec 32) := do
  let ctx ← get
  let eth ← parseEthhdr ctx.data ctx.dataEnd
  if eth.ret = -1 then return xdpPass
  let ethhdr ← header eth.hdr
  storeBytes ethhdr dst.toList
  return bpfRedirect ifindex 0

/-- `xdp_redirect_func`. -/
def xdpRedirectFunc (bpfRedirect : BitVec 32 → BitVec 64 → BitVec 32) : Xdp (BitVec 32) :=
  recorded (redirectAction #v[0xe2, 0xab, 0x44, 0xea, 0x6d, 0x16] 5 bpfRedirect)

/-- `xdp_redirect_func` of `xdp_prog_kern_sol.c`. -/
def xdpRedirectFuncSol (bpfRedirect : BitVec 32 → BitVec 64 → BitVec 32) : Xdp (BitVec 32) :=
  recorded (redirectAction #v[0xa2, 0x2e, 0x35, 0x20, 0x8c, 0xda] 18 bpfRedirect)

/-- The action that `xdp_redirect_map_func` decides on; `bpfRedirectMap` is the helper on
`tx_port`. -/
def redirectMapAction (redirectParams : Mac → Option Mac)
    (bpfRedirectMap : BitVec 32 → BitVec 64 → BitVec 32) : Bpf (BitVec 32) := do
  let ctx ← get
  let eth ← parseEthhdr ctx.data ctx.dataEnd
  if eth.ret = -1 then return xdpPass
  let ethhdr ← header eth.hdr
  let hSource ← loadMac (ethhdr + 6)
  match redirectParams hSource with
  | none => return xdpPass
  | some dst =>
      storeBytes ethhdr dst.toList
      return bpfRedirectMap 0 0

/-- `xdp_redirect_map_func`. -/
def xdpRedirectMapFunc (redirectParams : Mac → Option Mac)
    (bpfRedirectMap : BitVec 32 → BitVec 64 → BitVec 32) : Xdp (BitVec 32) :=
  recorded (redirectMapAction redirectParams bpfRedirectMap)

end Packet03

open Packet03

/-! ## What they do -/

section
variable {ctx : XdpMd}

/-- A frame with an Ethernet header is taken to the map. -/
theorem redirectMapAction_ok (redirectParams : Mac → Option Mac)
    (bpfRedirectMap : BitVec 32 → BitVec 64 → BitVec 32) (h : ctx.data + 14 ≤ ctx.dataEnd) :
    redirectMapAction redirectParams bpfRedirectMap ctx =
      match redirectParams (ctx.mac (ctx.data + 6)) with
      | none => .ok (xdpPass, ctx)
      | some dst => .ok (bpfRedirectMap 0 0, { ctx with mem := ctx.mem.write ctx.data dst.toList }) := by
  have heth : parseEthhdr ctx.data ctx.dataEnd ctx = .ok (parsedEthhdr ctx ctx.data, ctx) :=
    parseEthhdr_ok (Nat.le_refl _)
  have hmac : loadMac (ctx.data + 6) ctx = .ok (ctx.mac (ctx.data + 6), ctx) :=
    access_ok ⟨by omega, by omega⟩
  unfold parsedEthhdr at heth
  rw [if_neg (by omega)] at heth
  unfold redirectMapAction
  rw [Prog.bind_ok (get_ok ctx), Prog.bind_ok heth, if_neg (by simp only; omega),
    Prog.bind_ok (header_ok ctx.data ctx), Prog.bind_ok hmac]
  cases redirectParams (ctx.mac (ctx.data + 6)) with
  | none => rfl
  | some dst =>
      have hstore : storeBytes ctx.data dst.toList ctx = .ok ((),
          { ctx with mem := ctx.mem.write ctx.data dst.toList }) :=
        storeVector_ok dst ⟨Nat.le_refl _, by omega⟩
      simp only
      rw [Prog.bind_ok hstore]
      rfl

end

section
variable {d e : Nat}

/-- `parse_ethhdr` fails with `-1` and with nothing else. -/
theorem parseEthhdr_keeps (h : d ≤ e) : Keeps d e (parseEthhdr d e)
    (fun eth => CursorFits e d 14 eth ∧ (¬ eth.ret = -1 → 0 ≤ eth.ret)) := by
  refine .of_runs fun ctx hspans => ?_
  obtain ⟨rfl, rfl⟩ := hspans
  refine ⟨_, ctx, parseEthhdr_ok (Nat.le_refl _), ⟨?_, ?_⟩, rfl, rfl⟩
  · exact (Prog.Triple.of_ok (ParseCall.ethhdr.run_keeps (Nat.le_refl _) h) ⟨rfl, rfl⟩
      (parseEthhdr_ok (Nat.le_refl _))).1
  · unfold parsedEthhdr
    split
    · exact fun hret => absurd rfl hret
    · exact fun _ => Int.natCast_nonneg _

/-- The address is written where the Ethernet header was found. -/
theorem redirectAction_keeps (dst : Mac) (ifindex : BitVec 32)
    {bpfRedirect : BitVec 32 → BitVec 64 → BitVec 32}
    (hvalid : ∀ i flags, bpfRedirect i flags < xdpActionMax) (h : d ≤ e) :
    Keeps d e (redirectAction dst ifindex bpfRedirect) (· < xdpActionMax) := by
  refine .bind .get fun ctx hspans => ?_
  obtain ⟨rfl, rfl⟩ := hspans
  refine .bind (parseEthhdr_keeps h) fun eth heth => ?_
  obtain ⟨hfits, hfound⟩ := heth
  refine .ite (fun _ => .pure (by decide)) fun hret => ?_
  refine hfits.header_keeps (hfound hret) fun hroom => ?_
  exact .bind (.storeVector dst ⟨Nat.le_refl _, by omega⟩) fun _ _ => .pure (hvalid _ _)

theorem redirectMapAction_keeps (redirectParams : Mac → Option Mac)
    {bpfRedirectMap : BitVec 32 → BitVec 64 → BitVec 32}
    (hvalid : ∀ key flags, bpfRedirectMap key flags < xdpActionMax) (h : d ≤ e) :
    Keeps d e (redirectMapAction redirectParams bpfRedirectMap) (· < xdpActionMax) := by
  refine .bind .get fun ctx hspans => ?_
  obtain ⟨rfl, rfl⟩ := hspans
  refine .bind (parseEthhdr_keeps h) fun eth heth => ?_
  obtain ⟨hfits, hfound⟩ := heth
  refine .ite (fun _ => .pure (by decide)) fun hret => ?_
  refine hfits.header_keeps (hfound hret) fun hroom => ?_
  refine .bind (.access ⟨by omega, by omega⟩ fun _ => ⟨rfl, rfl⟩) fun hSource _ => ?_
  cases redirectParams hSource with
  | none => exact .pure (by decide)
  | some dst =>
      exact .bind (.storeVector dst ⟨Nat.le_refl _, by omega⟩) fun _ _ => .pure (hvalid _ _)

end

end AfXdpSwitch
