import AfXdpSwitch.OnesComplement
import AfXdpSwitch.ParsingHelpers
import AfXdpSwitch.ProcessPacket
import AfXdpSwitch.XdpStats

/-!
# `xdp_router_func` of `packet03-redirecting/xdp_prog_kern.c`

The router asks the kernel's forwarding table where an IPv4 or IPv6 packet goes.  On success it
takes one off the TTL or the hop limit, writes the MAC addresses it was told and redirects; all
other outcomes leave the packet to the stack or drop it.

`bpf_fib_lookup` may answer anything, so that it is a parameter, and so is `bpf_redirect`, which
says whether the redirect was accepted.

`ip_decrease_ttl` adds `1` to the checksum as the host reads it, and one more when that gives
`0xFFFF` or more.  For every 16-bit checksum this is addition of `1` modulo `65535`.
-/

namespace AfXdpSwitch
open ByteMemory OnesComplement

def afInet : BitVec 8 := 2
def afInet6 : BitVec 8 := 10
/-- `bpf_htonl(0x0FFFFFFF)`. -/
def ipv6FlowinfoMask : BitVec 32 := 0xFFFFFF0F

/-- `struct bpf_fib_lookup`, as the lookup is asked.  Of its unions each family sets its own
members, the others are zero. -/
structure FibParams where
  family : BitVec 8
  l4Protocol : BitVec 8
  sport : BitVec 16
  dport : BitVec 16
  totLen : BitVec 16
  ifindex : BitVec 32
  tos : BitVec 8
  flowinfo : BitVec 32
  src : List (BitVec 8)
  dst : List (BitVec 8)

/-- What the lookup answers. -/
structure FibAnswer where
  rc : BitVec 32
  dmac : Vector (BitVec 8) 6
  smac : Vector (BitVec 8) 6
  ifindex : BitVec 32

/-- The helpers of the kernel that the router calls. -/
structure RouterHelpers where
  bpfFibLookup : XdpMd → FibParams → FibAnswer
  bpfRedirect : BitVec 32 → BitVec 64 → BitVec 32

namespace Packet03

def ipDecreaseTtl (iph : Nat) : Bpf (BitVec 8) := do
  let check16 ← load16 (iph + 10)
  let check := check16.setWidth 32 + (swap16 0x0100).setWidth 32
  store16 (iph + 10) ((check + if check ≥ 0xFFFF then 1 else 0).setWidth 16)
  let ttl ← load8 (iph + 8)
  store8 (iph + 8) (ttl - 1)
  return ttl - 1

/-- `ip6h->hop_limit--`. -/
def decreaseHopLimit (ip6h : Nat) : Bpf (BitVec 8) := do
  let hopLimit ← load8 (ip6h + 7)
  store8 (ip6h + 7) (hopLimit - 1)
  return hopLimit - 1

/-- One hop less, by the protocol. -/
def decreaseHops (hProto : BitVec 16) (iph : Nat) : Bpf Unit := do
  if hProto = swap16 ethPIp then
    let _ ← ipDecreaseTtl iph
    return ()
  else if hProto = swap16 ethPIpv6 then
    let _ ← decreaseHopLimit iph
    return ()
  else return ()

/-- The lookup and the `switch` over its return code. -/
def route (helpers : RouterHelpers) (eth : Nat) (hProto : BitVec 16) (iph : Nat)
    (params : FibParams) : Bpf (BitVec 32) := do
  let ctx ← get
  let fib := helpers.bpfFibLookup ctx params
  if fib.rc = 0 then
    decreaseHops hProto iph
    storeBytes eth fib.dmac.toList
    storeBytes (eth + 6) fib.smac.toList
    return helpers.bpfRedirect fib.ifindex 0
  else if fib.rc = 1 ∨ fib.rc = 2 ∨ fib.rc = 3 then return xdpDrop
  else return xdpPass

/-- The branch of IPv4. -/
def routeIp (helpers : RouterHelpers) (ingressIfindex : BitVec 32) (dataEnd eth : Nat)
    (hProto : BitVec 16) (iph : Nat) : Bpf (BitVec 32) := do
  if iph + sizeofIphdr > dataEnd then return xdpDrop
  let ttl ← load8 (iph + 8)
  if ttl ≤ 1 then return xdpPass
  let tos ← load8 (iph + 1)
  let protocol ← load8 (iph + 9)
  let totLen ← load16 (iph + 2)
  let saddr ← loadBytes (iph + 12) 4
  let daddr ← loadBytes (iph + 16) 4
  route helpers eth hProto iph ⟨afInet, protocol, 0, 0, swap16 totLen, ingressIfindex, tos, 0,
    saddr, daddr⟩

/-- The branch of IPv6. -/
def routeIp6 (helpers : RouterHelpers) (ingressIfindex : BitVec 32) (dataEnd eth : Nat)
    (hProto : BitVec 16) (ip6h : Nat) : Bpf (BitVec 32) := do
  if ip6h + sizeofIpv6hdr > dataEnd then return xdpDrop
  let hopLimit ← load8 (ip6h + 7)
  if hopLimit ≤ 1 then return xdpPass
  let flow ← load32 ip6h
  let nexthdr ← load8 (ip6h + 6)
  let payloadLen ← load16 (ip6h + 4)
  let saddr ← loadBytes (ip6h + 8) 16
  let daddr ← loadBytes (ip6h + 24) 16
  route helpers eth hProto ip6h ⟨afInet6, nexthdr, 0, 0, swap16 payloadLen, ingressIfindex, 0,
    flow &&& ipv6FlowinfoMask, saddr, daddr⟩

/-- The action that `xdp_router_func` decides on. -/
def routerAction (helpers : RouterHelpers) (ingressIfindex : BitVec 32) : Bpf (BitVec 32) := do
  let ctx ← get
  let nhOff := sizeofEthhdr
  if ctx.data + nhOff > ctx.dataEnd then return xdpDrop
  let hProto ← load16 (ctx.data + 12)
  if hProto = swap16 ethPIp then
    routeIp helpers ingressIfindex ctx.dataEnd ctx.data hProto (ctx.data + nhOff)
  else if hProto = swap16 ethPIpv6 then
    routeIp6 helpers ingressIfindex ctx.dataEnd ctx.data hProto (ctx.data + nhOff)
  else return xdpPass

def xdpRouterFunc (helpers : RouterHelpers) (ingressIfindex : BitVec 32) : Xdp (BitVec 32) :=
  recorded (routerAction helpers ingressIfindex)

end Packet03

open Packet03

/-! ## What forwarding changes -/

/-- The checksum that `ip_decrease_ttl` stores. -/
def decreasedCheck (check16 : BitVec 16) : BitVec 16 :=
  let check := check16.setWidth 32 + (swap16 0x0100).setWidth 32
  (check + if check ≥ 0xFFFF then 1 else 0).setWidth 16

/-- The constant and the carry test are addition of `1` modulo `65535`, for both representations
of zero. -/
theorem decreasedCheck_mod (c : BitVec 16) :
    (decreasedCheck c).toNat % 65535 = (c.toNat + 1) % 65535 := by
  have hc := c.isLt
  have hone : ((swap16 0x0100).setWidth 32 : BitVec 32) = 1 := by decide
  have hcheck : (c.setWidth 32 + 1).toNat = c.toNat + 1 := by
    rw [BitVec.toNat_add, BitVec.toNat_setWidth, show (1 : BitVec 32).toNat = 1 from rfl]
    omega
  have hiff : c.setWidth 32 + 1 ≥ (0xFFFF : BitVec 32) ↔ 65535 ≤ c.toNat + 1 := by
    rw [← hcheck]
    exact BitVec.le_def
  unfold decreasedCheck
  simp only [hone]
  by_cases hcarry : c.setWidth 32 + 1 ≥ (0xFFFF : BitVec 32)
  · have hge := hiff.mp hcarry
    rw [if_pos hcarry, BitVec.toNat_setWidth, BitVec.toNat_add, hcheck,
      show (1 : BitVec 32).toNat = 1 from rfl]
    omega
  · have hlt := mt hiff.mpr hcarry
    rw [if_neg hcarry, BitVec.toNat_setWidth, BitVec.toNat_add, hcheck,
      show (0 : BitVec 32).toNat = 0 from rfl]
    omega

/-- What forwarding changes: the MAC addresses at `eth` are those of the lookup, the hop count at
`hop` is one less and not zero, and else only the bytes in `csum` may differ. -/
structure Forwarded (m m' : ByteMemory) (eth hop : Nat) (csum : Nat → Prop) (fib : FibAnswer) :
    Prop where
  hDest : m'.read eth 6 = fib.dmac.toList
  hSource : m'.read (eth + 6) 6 = fib.smac.toList
  less : (m' hop).toNat + 1 = (m hop).toNat
  alive : 1 ≤ (m' hop).toNat
  others : ∀ a, (a < eth ∨ eth + 12 ≤ a) → a ≠ hop → ¬ csum a → m' a = m a

/-- The MAC addresses of the lookup. -/
def writeMacs (m : ByteMemory) (eth : Nat) (fib : FibAnswer) : ByteMemory :=
  (m.write eth fib.dmac.toList).write (eth + 6) fib.smac.toList

/-- An IPv4 header with one hop less. -/
def lessTtl (m : ByteMemory) (iph : Nat) : ByteMemory :=
  let m := m.store16 (iph + 10) (decreasedCheck (m.load16 (iph + 10)))
  m.write (iph + 8) [m (iph + 8) - 1]

/-- An IPv6 header with one hop less. -/
def lessHops (m : ByteMemory) (iph : Nat) : ByteMemory := m.write (iph + 7) [m (iph + 7) - 1]

section
variable {m : ByteMemory} {eth iph hop : Nat} {fib : FibAnswer}

theorem writeMacs_of_not_mem {a : Nat} (h : a < eth ∨ eth + 12 ≤ a) :
    writeMacs m eth fib a = m a := by
  unfold writeMacs
  rw [write_of_not_mem _ (by rw [Vector.length_toList]; omega),
    write_of_not_mem _ (by rw [Vector.length_toList]; omega)]

theorem read_writeMacs : (writeMacs m eth fib).read eth 6 = fib.dmac.toList ∧
    (writeMacs m eth fib).read (eth + 6) 6 = fib.smac.toList := by
  have hdest : (m.write eth fib.dmac.toList).read eth fib.dmac.toList.length = fib.dmac.toList :=
    read_write_self m
  have hsource : ((m.write eth fib.dmac.toList).write (eth + 6) fib.smac.toList).read (eth + 6)
      fib.smac.toList.length = fib.smac.toList := read_write_self _
  rw [Vector.length_toList] at hdest hsource
  refine ⟨?_, hsource⟩
  unfold writeMacs
  rw [read_write_of_disjoint _ (.inl (Nat.le_refl _)), hdest]

/-- One less, of a byte that is more than one. -/
theorem toNat_sub_one {v : BitVec 8} (h : ¬ v ≤ 1) :
    (v - 1).toNat + 1 = v.toNat ∧ 1 ≤ (v - 1).toNat := by
  have hone : (1 : BitVec 8).toNat = 1 := rfl
  have hlt := v.isLt
  rw [BitVec.le_def] at h
  rw [BitVec.toNat_sub]
  omega

theorem forwarded_ip (heth : eth + 14 ≤ iph) (httl : ¬ m (iph + 8) ≤ 1) :
    Forwarded m (writeMacs (lessTtl m iph) eth fib) eth (iph + 8)
      (fun a => iph + 10 ≤ a ∧ a < iph + 12) fib := by
  have hkept : ∀ v, (m.store16 (iph + 10) v) (iph + 8) = m (iph + 8) := fun v =>
    write_of_not_mem _ (.inl (by omega))
  obtain ⟨hless, halive⟩ := toNat_sub_one httl
  have hhop : writeMacs (lessTtl m iph) eth fib (iph + 8) = m (iph + 8) - 1 := by
    unfold lessTtl
    rw [writeMacs_of_not_mem (by omega), write_singleton, hkept]
  refine ⟨read_writeMacs.1, read_writeMacs.2, by rwa [hhop], by rwa [hhop], fun a ha hne hcsum => ?_⟩
  unfold lessTtl
  rw [writeMacs_of_not_mem ha, write_of_not_mem _ (by simp; omega), ByteMemory.store16,
    write_of_not_mem _ (by simp; omega)]

theorem forwarded_ip6 (heth : eth + 14 ≤ iph) (hhops : ¬ m (iph + 7) ≤ 1) :
    Forwarded m (writeMacs (lessHops m iph) eth fib) eth (iph + 7) (fun _ => False) fib := by
  obtain ⟨hless, halive⟩ := toNat_sub_one hhops
  have hhop : writeMacs (lessHops m iph) eth fib (iph + 7) = m (iph + 7) - 1 := by
    unfold lessHops
    rw [writeMacs_of_not_mem (by omega), write_singleton]
  refine ⟨read_writeMacs.1, read_writeMacs.2, by rwa [hhop], by rwa [hhop], fun a ha hne _ => ?_⟩
  unfold lessHops
  rw [writeMacs_of_not_mem ha, write_of_not_mem _ (by simp; omega)]

/-- The checksum of a forwarded IPv4 header. -/
theorem load16_lessTtl (m : ByteMemory) (fib : FibAnswer) (heth : eth + 14 ≤ iph) :
    (writeMacs (lessTtl m iph) eth fib).load16 (iph + 10) = decreasedCheck (m.load16 (iph + 10)) := by
  apply load16_eq
  have hmacs : ∀ x : ByteMemory, (writeMacs x eth fib).read (iph + 10) 2 = x.read (iph + 10) 2 :=
    fun x => read_congr fun i hi => writeMacs_of_not_mem (by omega)
  unfold lessTtl
  rw [hmacs, read_write_of_disjoint _ (by simp), read_store16_self]

/-- **The header checksum.**  What the TTL takes off the sum the field puts on it, and the sum is
not zero, since the header begins with its own length. -/
theorem verifies_lessTtl (fib : FibAnswer) (heth : eth + 14 ≤ iph) (httl : ¬ m (iph + 8) ≤ 1)
    {n : Nat} (hn : 20 ≤ n) (hihl : (m iph).toNat ≠ 0) (hv : Verifies (m.read iph n)) :
    Verifies ((writeMacs (lessTtl m iph) eth fib).read iph n) := by
  obtain ⟨k, rfl⟩ := Nat.exists_eq_add_of_le hn
  have hfwd : Forwarded m (writeMacs (lessTtl m iph) eth fib) eth (iph + 8)
    (fun a => iph + 10 ≤ a ∧ a < iph + 12) fib := forwarded_ip heth httl
  have hfield := load16_lessTtl m fib heth
  generalize writeMacs (lessTtl m iph) eth fib = m' at hfwd hfield ⊢
  have hsplit : ∀ x : ByteMemory, total (x.read iph (20 + k)) = total (x.read iph 8) +
      ((x (iph + 8)).toNat * 256 + (x (iph + 9)).toNat + (swap16 (x.load16 (iph + 10))).toNat +
        total (x.read (iph + 12) (8 + k))) := by
    intro x
    rw [show 20 + k = 8 + (4 + (8 + k)) by omega, total_read_add _ _ _ (by decide),
      total_read_field x (iph + 8)]
  have hfirst : total (m.read iph 8) ≠ 0 := by
    have hhead : total (m.read iph 8) = _ := total_read_field m iph 4
    omega
  have hsame : ∀ a, iph ≤ a → a ≠ iph + 8 → ¬ (iph + 10 ≤ a ∧ a < iph + 12) → m' a = m a :=
    fun a ha => hfwd.others a (by omega)
  have hhead : m'.read iph 8 = m.read iph 8 :=
    read_congr fun i hi => hsame _ (by omega) (by omega) (by omega)
  have hrest : m'.read (iph + 12) (8 + k) = m.read (iph + 12) (8 + k) :=
    read_congr fun i hi => hsame _ (by omega) (by omega) (by omega)
  have hold := hsplit m
  have hnew := hsplit m'
  rw [hsame (iph + 9) (by omega) (by omega) (by omega), hhead, hrest, hfield] at hnew
  have hless := hfwd.less
  have hmod := decreasedCheck_mod (m.load16 (iph + 10))
  have hswap := toNat_swap16 (m.load16 (iph + 10))
  have hswap' := toNat_swap16 (decreasedCheck (m.load16 (iph + 10)))
  rw [verifies_iff] at hv ⊢
  omega

end

/-! ## Runs of the router -/

/-- The question about an IPv4 packet with its header at `iph`. -/
def ipFibParams (m : ByteMemory) (iph : Nat) (ingressIfindex : BitVec 32) : FibParams where
  family := afInet
  l4Protocol := m (iph + 9)
  sport := 0
  dport := 0
  totLen := swap16 (m.load16 (iph + 2))
  ifindex := ingressIfindex
  tos := m (iph + 1)
  flowinfo := 0
  src := m.read (iph + 12) 4
  dst := m.read (iph + 16) 4

/-- The question about an IPv6 packet with its header at `ip6h`. -/
def ip6FibParams (m : ByteMemory) (ip6h : Nat) (ingressIfindex : BitVec 32) : FibParams where
  family := afInet6
  l4Protocol := m (ip6h + 6)
  sport := 0
  dport := 0
  totLen := swap16 (m.load16 (ip6h + 4))
  ifindex := ingressIfindex
  tos := 0
  flowinfo := m.load32 ip6h &&& ipv6FlowinfoMask
  src := m.read (ip6h + 8) 16
  dst := m.read (ip6h + 24) 16

/-- How a branch ends, where `fib` is the answer about the packet, `hop` its hop count and `m'` what
it holds if it is sent on. -/
inductive RouteEnd (helpers : RouterHelpers) (ctx : XdpMd) (hop : Nat) (fib : FibAnswer)
    (m' : ByteMemory) : BitVec 32 → XdpMd → Prop
  | kept {verdict : BitVec 32} (h : verdict = xdpPass ∨ verdict = xdpDrop) :
      RouteEnd helpers ctx hop fib m' verdict ctx
  | sent (hhop : ¬ ctx.mem hop ≤ 1) (hrc : fib.rc = 0) :
      RouteEnd helpers ctx hop fib m' (helpers.bpfRedirect fib.ifindex 0) { ctx with mem := m' }

section
variable {helpers : RouterHelpers} {ctx : XdpMd} {eth iph : Nat} {hProto : BitVec 16}
  {params : FibParams} {m' : ByteMemory}

theorem decreaseHops_ip (h : ctx.Inside iph 20) :
    decreaseHops (swap16 ethPIp) iph ctx = .ok ((), { ctx with mem := lessTtl ctx.mem iph }) := by
  obtain ⟨hdata, hend⟩ := h
  unfold decreaseHops ipDecreaseTtl
  rw [if_pos rfl]
  simp only [bind_assoc, pure_bind]
  rw [Prog.bind_ok (load16_ok ⟨by omega, by omega⟩),
    Prog.bind_ok (store16_ok _ ⟨by omega, by omega⟩),
    Prog.bind_ok (load8_ok ⟨by simp only; omega, by simp only; omega⟩),
    Prog.bind_ok (store8_ok _ ⟨by simp only; omega, by simp only; omega⟩)]
  rfl

theorem decreaseHops_ip6 (h : ctx.Inside iph 40) :
    decreaseHops (swap16 ethPIpv6) iph ctx = .ok ((), { ctx with mem := lessHops ctx.mem iph }) := by
  obtain ⟨hdata, hend⟩ := h
  unfold decreaseHops decreaseHopLimit
  rw [if_neg (by decide), if_pos rfl]
  simp only [bind_assoc, pure_bind]
  rw [Prog.bind_ok (load8_ok ⟨by omega, by omega⟩), Prog.bind_ok (store8_ok _ ⟨by omega, by omega⟩)]
  rfl

/-- **The lookup.**  Its return code decides between forwarding, dropping and passing. -/
theorem route_ok {m : ByteMemory} {hop : Nat} (heth : ctx.Inside eth 12) (hhop : ¬ ctx.mem hop ≤ 1)
    (hhops : decreaseHops hProto iph ctx = .ok ((), { ctx with mem := m })) :
    ∃ verdict ctx', route helpers eth hProto iph params ctx = .ok (verdict, ctx') ∧
      RouteEnd helpers ctx hop (helpers.bpfFibLookup ctx params)
        (writeMacs m eth (helpers.bpfFibLookup ctx params)) verdict ctx' := by
  unfold route
  rw [Prog.bind_ok (get_ok ctx)]
  generalize helpers.bpfFibLookup ctx params = fib
  by_cases hrc : fib.rc = 0
  · have hdmac : storeBytes eth fib.dmac.toList { ctx with mem := m } = .ok ((),
        { ctx with mem := m.write eth fib.dmac.toList }) :=
      storeVector_ok fib.dmac ⟨heth.1, Nat.le_trans (by omega) heth.2⟩
    have hsmac : storeBytes (eth + 6) fib.smac.toList { ctx with mem := m.write eth fib.dmac.toList } =
        .ok ((), { ctx with mem := writeMacs m eth fib }) :=
      storeVector_ok fib.smac ⟨Nat.le_trans heth.1 (by omega), Nat.le_trans (by omega) heth.2⟩
    rw [if_pos hrc, Prog.bind_ok hhops, Prog.bind_ok hdmac, Prog.bind_ok hsmac]
    exact ⟨_, _, rfl, .sent hhop hrc⟩
  · rw [if_neg hrc]
    by_cases hdrop : fib.rc = 1 ∨ fib.rc = 2 ∨ fib.rc = 3
    · rw [if_pos hdrop]
      exact ⟨_, _, rfl, .kept (.inr rfl)⟩
    · rw [if_neg hdrop]
      exact ⟨_, _, rfl, .kept (.inl rfl)⟩

variable (helpers) (ingressIfindex : BitVec 32)

theorem routeIp_ok (heth : ctx.Inside eth 12) (hiph : ctx.data ≤ iph) : ∃ verdict ctx',
    routeIp helpers ingressIfindex ctx.dataEnd eth (swap16 ethPIp) iph ctx = .ok (verdict, ctx') ∧
    RouteEnd helpers ctx (iph + 8)
      (helpers.bpfFibLookup ctx (ipFibParams ctx.mem iph ingressIfindex))
      (writeMacs (lessTtl ctx.mem iph) eth
        (helpers.bpfFibLookup ctx (ipFibParams ctx.mem iph ingressIfindex))) verdict ctx' := by
  unfold routeIp
  by_cases hshort : iph + sizeofIphdr > ctx.dataEnd
  · rw [if_pos hshort]
    exact ⟨_, _, rfl, .kept (.inr rfl)⟩
  · have hroom : iph + 20 ≤ ctx.dataEnd := Nat.le_of_not_lt hshort
    rw [if_neg hshort, Prog.bind_ok (load8_ok ⟨by omega, by omega⟩)]
    by_cases httl : ctx.mem (iph + 8) ≤ 1
    · rw [if_pos httl]
      exact ⟨_, _, rfl, .kept (.inl rfl)⟩
    · rw [if_neg httl, Prog.bind_ok (load8_ok ⟨by omega, by omega⟩),
        Prog.bind_ok (load8_ok ⟨by omega, by omega⟩), Prog.bind_ok (load16_ok ⟨by omega, by omega⟩),
        Prog.bind_ok (loadBytes_ok ⟨by omega, by omega⟩),
        Prog.bind_ok (loadBytes_ok ⟨by omega, by omega⟩)]
      exact route_ok heth httl (decreaseHops_ip ⟨hiph, hroom⟩)

theorem routeIp6_ok (heth : ctx.Inside eth 12) (hiph : ctx.data ≤ iph) : ∃ verdict ctx',
    routeIp6 helpers ingressIfindex ctx.dataEnd eth (swap16 ethPIpv6) iph ctx =
      .ok (verdict, ctx') ∧
    RouteEnd helpers ctx (iph + 7)
      (helpers.bpfFibLookup ctx (ip6FibParams ctx.mem iph ingressIfindex))
      (writeMacs (lessHops ctx.mem iph) eth
        (helpers.bpfFibLookup ctx (ip6FibParams ctx.mem iph ingressIfindex))) verdict ctx' := by
  unfold routeIp6
  by_cases hshort : iph + sizeofIpv6hdr > ctx.dataEnd
  · rw [if_pos hshort]
    exact ⟨_, _, rfl, .kept (.inr rfl)⟩
  · have hroom : iph + 40 ≤ ctx.dataEnd := Nat.le_of_not_lt hshort
    rw [if_neg hshort, Prog.bind_ok (load8_ok ⟨by omega, by omega⟩)]
    by_cases hhops : ctx.mem (iph + 7) ≤ 1
    · rw [if_pos hhops]
      exact ⟨_, _, rfl, .kept (.inl rfl)⟩
    · rw [if_neg hhops, Prog.bind_ok (load32_ok ⟨hiph, by omega⟩),
        Prog.bind_ok (load8_ok ⟨by omega, by omega⟩), Prog.bind_ok (load16_ok ⟨by omega, by omega⟩),
        Prog.bind_ok (loadBytes_ok ⟨by omega, by omega⟩),
        Prog.bind_ok (loadBytes_ok ⟨by omega, by omega⟩)]
      exact route_ok heth hhops (decreaseHops_ip6 ⟨hiph, hroom⟩)

end

/-- How a run of the router ends: before it asks, or with the branch of a protocol. -/
inductive RouterEnd (helpers : RouterHelpers) (ingressIfindex : BitVec 32) (ctx : XdpMd)
    (verdict : BitVec 32) (ctx' : XdpMd) : Prop
  | unasked (h : verdict = xdpPass ∨ verdict = xdpDrop) (hkept : ctx' = ctx)
  | ip (hproto : ctx.mem.load16 (ctx.data + 12) = swap16 ethPIp) (fib : FibAnswer)
      (hfib : fib = helpers.bpfFibLookup ctx (ipFibParams ctx.mem (ctx.data + 14) ingressIfindex))
      (hend : RouteEnd helpers ctx (ctx.data + 14 + 8) fib
        (writeMacs (lessTtl ctx.mem (ctx.data + 14)) ctx.data fib) verdict ctx')
  | ip6 (hproto : ctx.mem.load16 (ctx.data + 12) = swap16 ethPIpv6) (fib : FibAnswer)
      (hfib : fib = helpers.bpfFibLookup ctx (ip6FibParams ctx.mem (ctx.data + 14) ingressIfindex))
      (hend : RouteEnd helpers ctx (ctx.data + 14 + 7) fib
        (writeMacs (lessHops ctx.mem (ctx.data + 14)) ctx.data fib) verdict ctx')

/-- The body of the router, over all its exits. -/
theorem routerAction_ok (helpers : RouterHelpers) (ingressIfindex : BitVec 32) (ctx : XdpMd) :
    ∃ verdict ctx', routerAction helpers ingressIfindex ctx = .ok (verdict, ctx') ∧
      RouterEnd helpers ingressIfindex ctx verdict ctx' := by
  unfold routerAction
  rw [Prog.bind_ok (get_ok ctx)]
  by_cases hshort : ctx.data + sizeofEthhdr > ctx.dataEnd
  · rw [if_pos hshort]
    exact ⟨_, _, rfl, .unasked (.inr rfl) rfl⟩
  have hroom : ctx.data + 14 ≤ ctx.dataEnd := Nat.le_of_not_lt hshort
  have heth : ctx.Inside ctx.data 12 := ⟨Nat.le_refl _, by omega⟩
  rw [if_neg hshort, Prog.bind_ok (load16_ok ⟨by omega, by omega⟩)]
  by_cases hip : ctx.mem.load16 (ctx.data + 12) = swap16 ethPIp
  · obtain ⟨verdict, ctx', hrun, hend⟩ :=
      routeIp_ok helpers ingressIfindex heth (Nat.le_add_right ctx.data 14)
    rw [if_pos hip, hip]
    exact ⟨verdict, ctx', hrun, .ip hip _ rfl hend⟩
  rw [if_neg hip]
  by_cases hip6 : ctx.mem.load16 (ctx.data + 12) = swap16 ethPIpv6
  · obtain ⟨verdict, ctx', hrun, hend⟩ :=
      routeIp6_ok helpers ingressIfindex heth (Nat.le_add_right ctx.data 14)
    rw [if_pos hip6, hip6]
    exact ⟨verdict, ctx', hrun, .ip6 hip6 _ rfl hend⟩
  · rw [if_neg hip6]
    exact ⟨_, _, rfl, .unasked (.inl rfl) rfl⟩

/-- The router keeps to the packet, and its action is valid if those of the kernel are. -/
theorem routerAction_keeps {helpers : RouterHelpers}
    (hvalid : ∀ ifindex flags, helpers.bpfRedirect ifindex flags < xdpActionMax)
    (ingressIfindex : BitVec 32) (d e : Nat) :
    Keeps d e (routerAction helpers ingressIfindex) (· < xdpActionMax) := by
  have hkept : ∀ verdict, verdict = xdpPass ∨ verdict = xdpDrop → verdict < xdpActionMax := by
    rintro verdict (rfl | rfl)
    · decide
    · decide
  refine .of_runs fun ctx hspans => ?_
  obtain ⟨verdict, ctx', hrun, hend⟩ := routerAction_ok helpers ingressIfindex ctx
  refine ⟨verdict, ctx', hrun, ?_⟩
  cases hend with
  | unasked h heq => exact ⟨hkept _ h, by rwa [heq]⟩
  | ip hproto fib hfib hend | ip6 hproto fib hfib hend =>
      cases hend with
      | kept h => exact ⟨hkept _ h, hspans⟩
      | sent hhop hrc => exact ⟨hvalid _ _, hspans⟩

/-! ## The router -/

/-- An IPv4 packet was sent on as `fib` says: but for the MAC addresses, the TTL and the header
checksum it is as it came, and a header that verified does so again. -/
structure IpSent (ctx ctx' : XdpMd) (fib : FibAnswer) : Prop where
  success : fib.rc = 0
  bounds : ctx'.data = ctx.data ∧ ctx'.dataEnd = ctx.dataEnd
  proto : ctx.mem.load16 (ctx.data + 12) = swap16 ethPIp
  forwarded : Forwarded ctx.mem ctx'.mem ctx.data (ctx.data + 22)
    (fun a => ctx.data + 24 ≤ a ∧ a < ctx.data + 26) fib
  verifies : 20 ≤ ihlBytes ctx (ctx.data + 14) →
    ctx.Inside (ctx.data + 14) (ihlBytes ctx (ctx.data + 14)) →
    Verifies (ctx.mem.read (ctx.data + 14) (ihlBytes ctx (ctx.data + 14))) →
    Verifies (ctx'.mem.read (ctx.data + 14) (ihlBytes ctx' (ctx.data + 14)))

/-- An IPv6 packet was sent on as `fib` says. -/
structure Ip6Sent (ctx ctx' : XdpMd) (fib : FibAnswer) : Prop where
  success : fib.rc = 0
  bounds : ctx'.data = ctx.data ∧ ctx'.dataEnd = ctx.dataEnd
  proto : ctx.mem.load16 (ctx.data + 12) = swap16 ethPIpv6
  forwarded : Forwarded ctx.mem ctx'.mem ctx.data (ctx.data + 21) (fun _ => False) fib

/-- What the verdict of the router tells about the packet. -/
structure RouterServed (helpers : RouterHelpers) (ingressIfindex : BitVec 32) (ctx : XdpMd)
    (verdict : BitVec 32) (ctx' : XdpMd) : Prop where
  redirected : verdict = xdpRedirect →
    IpSent ctx ctx' (helpers.bpfFibLookup ctx (ipFibParams ctx.mem (ctx.data + 14) ingressIfindex)) ∨
    Ip6Sent ctx ctx'
      (helpers.bpfFibLookup ctx (ip6FibParams ctx.mem (ctx.data + 14) ingressIfindex))
  kept : verdict = xdpPass ∨ verdict = xdpDrop → ctx' = ctx
  others : verdict = xdpRedirect ∨ verdict = xdpPass ∨ verdict = xdpDrop ∨
    verdict = xdpAborted ∧ ∃ ifindex, helpers.bpfRedirect ifindex 0 = xdpAborted

section
variable {helpers : RouterHelpers} {ingressIfindex : BitVec 32} {ctx ctx' : XdpMd} {fib : FibAnswer}
  {verdict : BitVec 32}

theorem ipSent (hproto : ctx.mem.load16 (ctx.data + 12) = swap16 ethPIp)
    (httl : ¬ ctx.mem (ctx.data + 14 + 8) ≤ 1) (hrc : fib.rc = 0) :
    IpSent ctx { ctx with mem := writeMacs (lessTtl ctx.mem (ctx.data + 14)) ctx.data fib } fib := by
  have hfwd : Forwarded ctx.mem (writeMacs (lessTtl ctx.mem (ctx.data + 14)) ctx.data fib) ctx.data
      (ctx.data + 14 + 8) (fun a => ctx.data + 14 + 10 ≤ a ∧ a < ctx.data + 14 + 12) fib :=
    forwarded_ip (Nat.le_refl _) httl
  refine ⟨hrc, ⟨rfl, rfl⟩, hproto, hfwd, fun hihl _ hv => ?_⟩
  have hfirst : writeMacs (lessTtl ctx.mem (ctx.data + 14)) ctx.data fib (ctx.data + 14) =
      ctx.mem (ctx.data + 14) := hfwd.others _ (by omega) (by omega) (by omega)
  have hne : (ctx.mem (ctx.data + 14)).toNat ≠ 0 := by
    intro hzero
    have hbyte : ctx.mem (ctx.data + 14) = 0 := BitVec.toNat_inj.mp hzero
    unfold ihlBytes at hihl
    rw [hbyte] at hihl
    exact absurd hihl (by decide)
  have hlen : ihlBytes { ctx with mem := writeMacs (lessTtl ctx.mem (ctx.data + 14)) ctx.data fib }
      (ctx.data + 14) = ihlBytes ctx (ctx.data + 14) := by
    unfold ihlBytes
    simp only [hfirst]
  rw [hlen]
  exact verifies_lessTtl fib (Nat.le_refl _) httl hihl hne hv

theorem ip6Sent (hproto : ctx.mem.load16 (ctx.data + 12) = swap16 ethPIpv6)
    (hhops : ¬ ctx.mem (ctx.data + 14 + 7) ≤ 1) (hrc : fib.rc = 0) :
    Ip6Sent ctx { ctx with mem := writeMacs (lessHops ctx.mem (ctx.data + 14)) ctx.data fib } fib :=
  ⟨hrc, ⟨rfl, rfl⟩, hproto, forwarded_ip6 (Nat.le_refl _) hhops⟩

theorem RouterServed.of_kept (h : verdict = xdpPass ∨ verdict = xdpDrop) :
    RouterServed helpers ingressIfindex ctx verdict ctx := by
  refine ⟨fun hredirect => ?_, fun _ => rfl, .inr (h.imp_right .inl)⟩
  rcases h with rfl | rfl
  · exact absurd hredirect (by decide)
  · exact absurd hredirect (by decide)

/-- A redirect that the kernel took or refused is neither a pass nor a drop. -/
theorem RouterServed.of_sent {ifindex : BitVec 32}
    (hhelper : helpers.bpfRedirect ifindex 0 = xdpRedirect ∨
      helpers.bpfRedirect ifindex 0 = xdpAborted)
    (h : IpSent ctx ctx'
        (helpers.bpfFibLookup ctx (ipFibParams ctx.mem (ctx.data + 14) ingressIfindex)) ∨
      Ip6Sent ctx ctx'
        (helpers.bpfFibLookup ctx (ip6FibParams ctx.mem (ctx.data + 14) ingressIfindex))) :
    RouterServed helpers ingressIfindex ctx (helpers.bpfRedirect ifindex 0) ctx' := by
  refine ⟨fun _ => h, fun hkept => ?_, ?_⟩
  · rcases hhelper with hr | hr
    · rw [hr] at hkept
      exact absurd hkept (by decide)
    · rw [hr] at hkept
      exact absurd hkept (by decide)
  · rcases hhelper with hr | hr
    · exact .inl hr
    · exact .inr (.inr (.inr ⟨hr, ifindex, hr⟩))

/-- What each exit tells, when the kernel answers the redirect as it says. -/
theorem RouterEnd.served (h : RouterEnd helpers ingressIfindex ctx verdict ctx')
    (hhelper : ∀ ifindex, helpers.bpfRedirect ifindex 0 = xdpRedirect ∨
      helpers.bpfRedirect ifindex 0 = xdpAborted) :
    RouterServed helpers ingressIfindex ctx verdict ctx' := by
  cases h with
  | unasked h hkept =>
      subst hkept
      exact .of_kept h
  | ip hproto fib hfib hend =>
      subst hfib
      cases hend with
      | kept h => exact .of_kept h
      | sent hhop hrc => exact .of_sent (hhelper _) (.inl (ipSent hproto hhop hrc))
  | ip6 hproto fib hfib hend =>
      subst hfib
      cases hend with
      | kept h => exact .of_kept h
      | sent hhop hrc => exact .of_sent (hhelper _) (.inr (ip6Sent hproto hhop hrc))

end

/-- **The router.**  On every packet and for every answer of the forwarding table
`xdp_router_func` returns.  A redirected packet was sent on as the lookup says, and a packet that
is passed or dropped is untouched.  No other verdict comes up, but the one of a kernel that
refuses the redirect. -/
theorem xdpRouterFunc_forwards (helpers : RouterHelpers)
    (hhelper : ∀ ifindex, helpers.bpfRedirect ifindex 0 = xdpRedirect ∨
      helpers.bpfRedirect ifindex 0 = xdpAborted)
    (ingressIfindex : BitVec 32) (s : XdpState) : ∃ verdict s',
    xdpRouterFunc helpers ingressIfindex s = .ok (verdict, s') ∧
    RouterServed helpers ingressIfindex s.ctx verdict s'.ctx := by
  obtain ⟨verdict, ctx', hrun, hend⟩ := routerAction_ok helpers ingressIfindex s.ctx
  have hserved := hend.served hhelper
  have hvalid : verdict < xdpActionMax := by
    rcases hserved.others with rfl | rfl | rfl | ⟨rfl, -⟩ <;> decide
  exact ⟨verdict, _, recorded_ok hrun hvalid, hserved⟩

/-- A forwarding table with one neighbour, behind interface `7`. -/
def oneNeighbour : RouterHelpers where
  bpfFibLookup _ _ := ⟨0, #v[0x02, 0, 0, 0, 0, 0xB], #v[0x02, 0, 0, 0, 0, 0xA], 7⟩
  bpfRedirect _ _ := xdpRedirect

/-- A UDP packet without data from `10.0.0.1` to `10.0.0.2`, whose header verifies. -/
def udpCtx : XdpMd where
  mem a := [0x02, 0, 0, 0, 0, 1, 0x02, 0, 0, 0, 0, 2, 0x08, 0x00,
    0x45, 0, 0, 28, 0, 0, 0, 0, 64, 17, 0x66, 0xCF, 10, 0, 0, 1, 10, 0, 0, 2,
    0, 7, 0, 7, 0, 8, 0, 0].getD a 0
  data := 0
  dataEnd := 42

/-- The packet is redirected, and sent on as the lookup says. -/
theorem xdpRouterFunc_forwards_udp : Verifies (udpCtx.mem.read 14 (ihlBytes udpCtx 14)) ∧
    ∃ s', xdpRouterFunc oneNeighbour 3 ⟨udpCtx, fun _ => ⟨0, 0⟩⟩ = .ok (xdpRedirect, s') ∧
      RouterServed oneNeighbour 3 udpCtx xdpRedirect s'.ctx := by
  obtain ⟨verdict, s', hrun, hserved⟩ :=
    xdpRouterFunc_forwards oneNeighbour (fun _ => .inl rfl) 3 ⟨udpCtx, fun _ => ⟨0, 0⟩⟩
  have hredirect : (xdpRouterFunc oneNeighbour 3 ⟨udpCtx, fun _ => ⟨0, 0⟩⟩).map Prod.fst =
      .ok xdpRedirect := rfl
  rw [hrun] at hredirect
  obtain rfl : verdict = xdpRedirect := Except.ok.inj hredirect
  exact ⟨by unfold Verifies; decide, s', hrun, hserved⟩

end AfXdpSwitch
