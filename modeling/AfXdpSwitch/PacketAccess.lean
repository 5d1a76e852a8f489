import AfXdpSwitch.Hoare
import AfXdpSwitch.RewriteHelpers

/-!
# Direct packet access of an XDP program

An XDP program reads and writes the packet through plain pointers.  The accesses here are
checked: one that does not lie between `data` and `data_end` halts the program with a
`Fault`, and so does the use of a header pointer that no parser has set.  A program that is
shown to return on every packet has therefore touched no byte outside of it.
-/

namespace AfXdpSwitch
open ByteMemory

/-! ## The actions a program may ask for -/

/-- `XDP_ABORTED`, which the kernel takes for an error of the program. -/
def xdpAborted : BitVec 32 := 0
/-- `XDP_DROP`. -/
def xdpDrop : BitVec 32 := 1
/-- `XDP_PASS`: up the stack. -/
def xdpPass : BitVec 32 := 2
/-- `XDP_TX`: out of the interface it came in by. -/
def xdpTx : BitVec 32 := 3
/-- `XDP_REDIRECT`. -/
def xdpRedirect : BitVec 32 := 4
/-- `XDP_ACTION_MAX`, the number of actions. -/
def xdpActionMax : BitVec 32 := 5

/-! ## Checked accesses -/

/-- What an XDP program must never do. -/
inductive Fault where
  | outOfBounds (a n : Nat)
  | unset

/-- Programs that work on one packet. -/
abbrev Bpf := Prog Fault XdpMd

/-- The `n` bytes from `a` on belong to the packet. -/
def XdpMd.Inside (ctx : XdpMd) (a n : Nat) : Prop := ctx.data ≤ a ∧ a + n ≤ ctx.dataEnd

instance (ctx : XdpMd) (a n : Nat) : Decidable (ctx.Inside a n) :=
  inferInstanceAs (Decidable (_ ∧ _))

/-- An access to the `n` bytes from `a` on. -/
def access {α : Type} (a n : Nat) (f : XdpMd → α × XdpMd) : Bpf α := do
  let ctx ← get
  if ctx.Inside a n then modifyGet f else throw (.outOfBounds a n)

/-- The byte at `a`. -/
def load8 (a : Nat) : Bpf (BitVec 8) := access a 1 fun ctx => (ctx.mem a, ctx)

/-- Two bytes, the first one low. -/
def load16 (a : Nat) : Bpf (BitVec 16) := access a 2 fun ctx => (ctx.mem.load16 a, ctx)

/-- Four bytes, the first one low. -/
def load32 (a : Nat) : Bpf (BitVec 32) := access a 4 fun ctx => (ctx.mem.load32 a, ctx)

/-- A `memcpy` out of the packet. -/
def loadBytes (a n : Nat) : Bpf (List (BitVec 8)) := access a n fun ctx => (ctx.mem.read a n, ctx)

/-- A `memcpy` into the packet. -/
def storeBytes (a : Nat) (bs : List (BitVec 8)) : Bpf Unit :=
  access a bs.length fun ctx => ((), { ctx with mem := ctx.mem.write a bs })

/-- One byte is stored. -/
def store8 (a : Nat) (v : BitVec 8) : Bpf Unit := storeBytes a [v]

/-- Two bytes are stored, the low one first. -/
def store16 (a : Nat) (v : BitVec 16) : Bpf Unit := storeBytes a (bytes16 v)

/-- The header a parser has handed back. -/
def header : Option Nat → Bpf Nat
  | some a => pure a
  | none => throw .unset

/-! ## Accesses inside the packet -/

variable {ctx : XdpMd} {a n : Nat}

theorem get_ok (ctx : XdpMd) : (get : Bpf XdpMd) ctx = .ok (ctx, ctx) := rfl

theorem access_ok {α : Type} {f : XdpMd → α × XdpMd} (h : ctx.Inside a n) :
    access a n f ctx = .ok (f ctx) := by
  show (if ctx.Inside a n then modifyGet f else throw (.outOfBounds a n) : Bpf α) ctx = .ok (f ctx)
  rw [if_pos h]
  rfl

theorem load8_ok (h : ctx.Inside a 1) : load8 a ctx = .ok (ctx.mem a, ctx) := access_ok h

theorem load16_ok (h : ctx.Inside a 2) : load16 a ctx = .ok (ctx.mem.load16 a, ctx) := access_ok h

theorem load32_ok (h : ctx.Inside a 4) : load32 a ctx = .ok (ctx.mem.load32 a, ctx) := access_ok h

theorem loadBytes_ok (h : ctx.Inside a n) :
    loadBytes a n ctx = .ok (ctx.mem.read a n, ctx) := access_ok h

theorem storeBytes_ok {bs : List (BitVec 8)} (h : ctx.Inside a bs.length) :
    storeBytes a bs ctx = .ok ((), { ctx with mem := ctx.mem.write a bs }) := access_ok h

/-- Bytes of a fixed length, such as an address. -/
theorem storeVector_ok (v : Vector (BitVec 8) n) (h : ctx.Inside a n) :
    storeBytes a v.toList ctx = .ok ((), { ctx with mem := ctx.mem.write a v.toList }) :=
  storeBytes_ok (by rwa [Vector.length_toList])

theorem store8_ok (v : BitVec 8) (h : ctx.Inside a 1) :
    store8 a v ctx = .ok ((), { ctx with mem := ctx.mem.write a [v] }) := storeBytes_ok h

theorem store16_ok (v : BitVec 16) (h : ctx.Inside a 2) :
    store16 a v ctx = .ok ((), { ctx with mem := ctx.mem.store16 a v }) := storeBytes_ok h

theorem header_ok (a : Nat) (ctx : XdpMd) : header (some a) ctx = .ok (a, ctx) := rfl

/-! ## Programs that keep to the packet -/

/-- The packet lies from `d` to `e`. -/
def XdpMd.Spans (ctx : XdpMd) (d e : Nat) : Prop := ctx.data = d ∧ ctx.dataEnd = e

/-- On every packet from `d` to `e` the program returns something with `Q`, and the packet still
lies there. -/
def Keeps {α : Type} (d e : Nat) (c : Bpf α) (Q : α → Prop) : Prop :=
  Prog.Triple (fun _ => False) (·.Spans d e) c (fun r ctx => Q r ∧ ctx.Spans d e)

namespace Keeps
variable {α β : Type} {d e : Nat} {Q : α → Prop} {R : β → Prop}

theorem pure {r : α} (h : Q r) : Keeps d e (pure r) Q :=
  Prog.Triple.pure fun _ hspans => ⟨h, hspans⟩

theorem bind {c : Bpf α} {f : α → Bpf β} (hc : Keeps d e c Q)
    (hf : ∀ r, Q r → Keeps d e (f r) R) : Keeps d e (c >>= f) R :=
  Prog.Triple.bind hc fun r => Prog.Triple.pure_pre (hf r)

theorem ite {b : Prop} [Decidable b] {c c' : Bpf α} (h : b → Keeps d e c Q)
    (h' : ¬ b → Keeps d e c' Q) : Keeps d e (if b then c else c') Q := Prog.Triple.ite h h'

theorem get : Keeps d e (get : Bpf XdpMd) (·.Spans d e) :=
  Prog.Triple.get fun _ hspans => ⟨hspans, hspans⟩

theorem header : Keeps d e (header (some a)) (· = a) := pure rfl

theorem access {f : XdpMd → α × XdpMd} (h : d ≤ a ∧ a + n ≤ e)
    (hf : ∀ ctx, (f ctx).2.data = ctx.data ∧ (f ctx).2.dataEnd = ctx.dataEnd) :
    Keeps d e (access a n f) (fun _ => True) := by
  rintro ctx ⟨rfl, rfl⟩
  rw [access_ok h]
  exact ⟨trivial, hf ctx⟩

theorem load16 (h : d ≤ a ∧ a + 2 ≤ e) : Keeps d e (load16 a) (fun _ => True) :=
  access h fun _ => ⟨rfl, rfl⟩

theorem storeBytes {bs : List (BitVec 8)} (h : d ≤ a ∧ a + bs.length ≤ e) :
    Keeps d e (storeBytes a bs) (fun _ => True) := access h fun _ => ⟨rfl, rfl⟩

theorem storeVector (v : Vector (BitVec 8) n) (h : d ≤ a ∧ a + n ≤ e) :
    Keeps d e (AfXdpSwitch.storeBytes a v.toList) (fun _ => True) :=
  storeBytes (by rwa [Vector.length_toList])

/-- The run on one packet. -/
theorem exists_ok {c : Bpf α} (h : Keeps ctx.data ctx.dataEnd c Q) :
    ∃ r ctx', c ctx = .ok (r, ctx') ∧ Q r ∧ ctx'.Spans ctx.data ctx.dataEnd :=
  Prog.Triple.exists_ok h ⟨rfl, rfl⟩

/-- A program is known by its runs. -/
theorem of_runs {c : Bpf α} (h : ∀ ctx : XdpMd, ctx.Spans d e →
    ∃ r ctx', c ctx = .ok (r, ctx') ∧ Q r ∧ ctx'.Spans d e) : Keeps d e c Q := by
  intro ctx hspans
  obtain ⟨r, ctx', hrun, hr⟩ := h ctx hspans
  rw [hrun]
  exact hr

end Keeps

end AfXdpSwitch
