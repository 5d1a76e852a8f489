import Mathlib

/-!
# A machine for eBPF programs

A program is a list of 64-bit slots.  `decode` reads an instruction from a slot, `exec` says what
it does, and `run` executes until the program exits.  Only the instructions that the programs of
this development are written in are decoded; any other slot is a fault.

Registers hold values with a tag: a number, or a pointer that remembers what it points into.  A
program that confuses the two, reads a register or a stack word that nothing was written to, or
leaves its stack frame, faults.  So a program that is shown to exit uses memory as it should.
Memory is accessed in aligned 32-bit words.  A helper call leaves a result in `r0` and clobbers
`r1` to `r5`.  What the helpers do and what the context holds is up to the environment.
-/

namespace Bpf

/-- One slot, `struct bpf_insn`. -/
structure Insn where
  code : BitVec 8
  dstReg : BitVec 4
  srcReg : BitVec 4
  off : BitVec 16
  imm : BitVec 32
deriving DecidableEq

/-- The eleven registers. -/
abbrev Reg := Fin 11

/-- The numerals of registers. -/
instance instNeZeroReg : NeZero (11 : Nat) := ⟨Nat.succ_ne_zero 10⟩

/-- The frame pointer `r10`. -/
def fp : Reg := 10

/-- The frame pointer is read-only. -/
def writable (r : Reg) : Bool := r != fp

/-- What a register can hold: a number, or a pointer that the kernel knows the kind of. -/
inductive Val where
  | scalar (v : BitVec 64)
  /-- Into the context the program is called with. -/
  | ctx (off : BitVec 64)
  /-- Relative to the frame pointer. -/
  | stack (off : BitVec 64)
  | map (fd : BitVec 32)
  /-- Into the value of a key of a map. -/
  | mapValue (fd key : BitVec 32) (off : BitVec 64)
deriving DecidableEq

/-- The instructions that are modelled. -/
inductive Op where
  | mov64 (dst src : Reg)
  | mov64Imm (dst : Reg) (imm : BitVec 32)
  | mov32Imm (dst : Reg) (imm : BitVec 32)
  | add64Imm (dst : Reg) (imm : BitVec 32)
  /-- Takes two slots. -/
  | loadMapFd (dst : Reg) (fd : BitVec 32)
  | load (dst src : Reg) (off : BitVec 16)
  | store (dst src : Reg) (off : BitVec 16)
  | jeqImm (dst : Reg) (imm : BitVec 32) (off : BitVec 16)
  | jsgt32Imm (dst : Reg) (imm : BitVec 32) (off : BitVec 16)
  | call (func : BitVec 32)
  | exit
deriving DecidableEq

/-- `r0` to `r10`. -/
def reg? (r : BitVec 4) : Option Reg :=
  if h : r.toNat < 11 then some ⟨r.toNat, h⟩ else none

/-- The instruction in a slot. -/
def decode (i : Insn) : Option Op := do
  let dst ← reg? i.dstReg
  let src ← reg? i.srcReg
  match i.code.toNat with
  | 0x07 => some (.add64Imm dst i.imm) -- ALU64 | ADD | K
  | 0xb4 => some (.mov32Imm dst i.imm) -- ALU | MOV | K
  | 0xb7 => some (.mov64Imm dst i.imm) -- ALU64 | MOV | K
  | 0xbf => some (.mov64 dst src) -- ALU64 | MOV | X
  | 0x18 => if src = 1 then some (.loadMapFd dst i.imm) else none -- LD | DW | IMM
  | 0x61 => some (.load dst src i.off) -- LDX | W | MEM
  | 0x63 => some (.store dst src i.off) -- STX | W | MEM
  | 0x15 => some (.jeqImm dst i.imm i.off) -- JMP | JEQ | K
  | 0x66 => some (.jsgt32Imm dst i.imm i.off) -- JMP32 | JSGT | K
  | 0x85 => some (.call i.imm) -- JMP | CALL
  | 0x95 => some .exit -- JMP | EXIT
  | _ => none

/-- The registers; `none` is one that was not written yet. -/
abbrev Regs := Reg → Option Val
/-- The stack, word by word. -/
abbrev Stack := BitVec 64 → Option (BitVec 32)

/-- A state of the machine. -/
structure State where
  pc : Nat
  regs : Regs
  stack : Stack

/-- What surrounds a program. -/
structure Env where
  /-- The words of the context. -/
  ctx : BitVec 64 → Option (BitVec 32)
  /-- The words of the map values. -/
  value : BitVec 32 → BitVec 32 → BitVec 64 → Option (BitVec 32)
  /-- What a helper returns. -/
  call : BitVec 32 → Regs → Stack → Option Val

/-- The words of a stack frame: 512 bytes below the frame pointer. -/
def inFrame (off : BitVec 64) : Bool := -512 ≤ off.toInt && off.toInt ≤ -4 && off.toNat % 4 == 0

/-- The word a pointer points to. -/
def Env.word (env : Env) (s : State) : Val → Option (BitVec 32)
  | .ctx off => env.ctx off
  | .stack off => if inFrame off then s.stack off else none
  | .mapValue fd key off => env.value fd key off
  | _ => none

namespace Val

/-- Pointer or number, moved by `d`. -/
def add (d : BitVec 64) : Val → Option Val
  | .scalar v => some (.scalar (v + d))
  | .ctx off => some (.ctx (off + d))
  | .stack off => some (.stack (off + d))
  | .mapValue fd key off => some (.mapValue fd key (off + d))
  | .map _ => none

/-- Comparison with a number; pointers may only be compared with null, which they are not. -/
def eqImm (v : Val) (imm : BitVec 64) : Option Bool :=
  match v with
  | .scalar x => some (x == imm)
  | _ => if imm = 0 then some false else none

end Val

/-- What one instruction leads to. -/
inductive Next where
  | at (s : State)
  | exit (r0 : BitVec 64)

namespace State

/-- A write to a register. -/
def setReg (s : State) (r : Reg) (v : Val) : Option State :=
  if writable r then some { s with regs := Function.update s.regs r (some v) } else none

/-- Go on `n` slots further. -/
def skip (s : State) (n : Nat) : State := { s with pc := s.pc + n }

/-- The target of a jump. -/
def jump (s : State) (off : BitVec 16) : State := { s with pc := (s.pc + 1 + off.toInt).toNat }

end State

/-- The registers after a call. -/
def clobbered (regs : Regs) (r0 : Val) : Regs := fun r =>
  if r = 0 then some r0 else if r.val ≤ 5 then none else regs r

/-- What an instruction does; `none` is a fault. -/
def exec (env : Env) (s : State) : Op → Option Next
  | .mov64 dst src => do
      let s ← s.setReg dst (← s.regs src)
      some (.at (s.skip 1))
  | .mov64Imm dst imm => do
      let s ← s.setReg dst (.scalar (imm.signExtend 64))
      some (.at (s.skip 1))
  | .mov32Imm dst imm => do
      let s ← s.setReg dst (.scalar (imm.setWidth 64))
      some (.at (s.skip 1))
  | .add64Imm dst imm => do
      let v ← (← s.regs dst).add (imm.signExtend 64)
      let s ← s.setReg dst v
      some (.at (s.skip 1))
  | .loadMapFd dst fd => do
      let s ← s.setReg dst (.map fd)
      some (.at (s.skip 2))
  | .load dst src off => do
      let p ← (← s.regs src).add (off.signExtend 64)
      let w ← env.word s p
      let s ← s.setReg dst (.scalar (w.setWidth 64))
      some (.at (s.skip 1))
  | .store dst src off => do
      match ← (← s.regs dst).add (off.signExtend 64), ← s.regs src with
      | .stack o, .scalar v =>
          if inFrame o then
            some (.at ({ s with stack := Function.update s.stack o (some (v.setWidth 32)) }.skip 1))
          else none
      | _, _ => none
  | .jeqImm dst imm off => do
      let b ← (← s.regs dst).eqImm (imm.signExtend 64)
      some (.at (if b then s.jump off else s.skip 1))
  | .jsgt32Imm dst imm off => do
      match ← s.regs dst with
      | .scalar v =>
          some (.at (if imm.toInt < (v.setWidth 32).toInt then s.jump off else s.skip 1))
      | _ => none
  | .call func => do
      let r0 ← env.call func s.regs s.stack
      some (.at ({ s with regs := clobbered s.regs r0 }.skip 1))
  | .exit => do
      match ← s.regs 0 with
      | .scalar v => some (.exit v)
      | _ => none

/-- The instruction at a slot. -/
def fetch (prog : List Insn) (pc : Nat) : Option Op := prog[pc]?.bind decode

/-- One step of a program. -/
def step (env : Env) (prog : List Insn) (s : State) : Option Next :=
  (fetch prog s.pc).bind (exec env s)

/-- How a run ends. -/
inductive Outcome where
  | exited (r0 : BitVec 64)
  | fault
  | outOfFuel
deriving DecidableEq

/-- A run of at most this many steps. -/
def run (env : Env) (prog : List Insn) : Nat → State → Outcome
  | 0, _ => .outOfFuel
  | n + 1, s =>
      match step env prog s with
      | some (.at s') => run env prog n s'
      | some (.exit v) => .exited v
      | none => .fault

/-- A program starts with its context in `r1` and an empty stack. -/
def start : State where
  pc := 0
  regs := fun r => if r = 1 then some (.ctx 0) else if r = fp then some (.stack 0) else none
  stack := fun _ => none

/-! ## One rule for each instruction -/

section Rules
variable {env : Env} {prog : List Insn} {pc : Nat} {regs : Regs} {stack : Stack} {dst src : Reg}
  {imm : BitVec 32} {off : BitVec 16} {v w : Val}

theorem setReg_eq (hd : writable dst) :
    (⟨pc, regs, stack⟩ : State).setReg dst v = some ⟨pc, Function.update regs dst (some v), stack⟩ :=
  if_pos hd

theorem step_mov64 (hi : fetch prog pc = some (.mov64 dst src)) (hd : writable dst)
    (hs : regs src = some v) : step env prog ⟨pc, regs, stack⟩ =
      some (.at ⟨pc + 1, Function.update regs dst (some v), stack⟩) := by
  simp only [step, hi, Option.bind_some, exec, hs, Option.bind_eq_bind, setReg_eq hd]
  rfl

theorem step_mov64Imm (hi : fetch prog pc = some (.mov64Imm dst imm)) (hd : writable dst) :
    step env prog ⟨pc, regs, stack⟩ = some (.at ⟨pc + 1,
      Function.update regs dst (some (.scalar (imm.signExtend 64))), stack⟩) := by
  simp only [step, hi, Option.bind_some, exec, Option.bind_eq_bind, setReg_eq hd]
  rfl

theorem step_mov32Imm (hi : fetch prog pc = some (.mov32Imm dst imm)) (hd : writable dst) :
    step env prog ⟨pc, regs, stack⟩ = some (.at ⟨pc + 1,
      Function.update regs dst (some (.scalar (imm.setWidth 64))), stack⟩) := by
  simp only [step, hi, Option.bind_some, exec, Option.bind_eq_bind, setReg_eq hd]
  rfl

theorem step_add64Imm (hi : fetch prog pc = some (.add64Imm dst imm)) (hd : writable dst)
    (hv : regs dst = some v) (hw : v.add (imm.signExtend 64) = some w) :
    step env prog ⟨pc, regs, stack⟩ =
      some (.at ⟨pc + 1, Function.update regs dst (some w), stack⟩) := by
  simp only [step, hi, Option.bind_some, exec, hv, hw, Option.bind_eq_bind, setReg_eq hd]
  rfl

theorem step_loadMapFd {fd : BitVec 32} (hi : fetch prog pc = some (.loadMapFd dst fd))
    (hd : writable dst) : step env prog ⟨pc, regs, stack⟩ =
      some (.at ⟨pc + 2, Function.update regs dst (some (.map fd)), stack⟩) := by
  simp only [step, hi, Option.bind_some, exec, Option.bind_eq_bind, setReg_eq hd]
  rfl

theorem step_load {x : BitVec 32} (hi : fetch prog pc = some (.load dst src off)) (hd : writable dst)
    (hv : regs src = some v) (hw : v.add (off.signExtend 64) = some w)
    (hx : env.word ⟨pc, regs, stack⟩ w = some x) :
    step env prog ⟨pc, regs, stack⟩ = some (.at ⟨pc + 1,
      Function.update regs dst (some (.scalar (x.setWidth 64))), stack⟩) := by
  simp only [step, hi, Option.bind_some, exec, hv, hw, hx, Option.bind_eq_bind, setReg_eq hd]
  rfl

theorem step_store {o x : BitVec 64} (hi : fetch prog pc = some (.store dst src off))
    (hv : regs dst = some v) (hw : v.add (off.signExtend 64) = some (.stack o))
    (ho : inFrame o = true) (hs : regs src = some (.scalar x)) :
    step env prog ⟨pc, regs, stack⟩ = some (.at ⟨pc + 1, regs,
      Function.update stack o (some (x.setWidth 32))⟩) := by
  simp only [step, hi, Option.bind_some, exec, hv, hw, hs, ho, Option.bind_eq_bind, if_true]
  rfl

theorem step_jeqImm {b : Bool} (hi : fetch prog pc = some (.jeqImm dst imm off))
    (hv : regs dst = some v) (hb : v.eqImm (imm.signExtend 64) = some b) :
    step env prog ⟨pc, regs, stack⟩ =
      some (.at ⟨if b then (pc + 1 + off.toInt).toNat else pc + 1, regs, stack⟩) := by
  simp only [step, hi, Option.bind_some, exec, hv, hb, Option.bind_eq_bind]
  cases b with
  | false | true => rfl

theorem step_jsgt32Imm {x : BitVec 64} (hi : fetch prog pc = some (.jsgt32Imm dst imm off))
    (hv : regs dst = some (.scalar x)) : step env prog ⟨pc, regs, stack⟩ =
      some (.at ⟨if imm.toInt < (x.setWidth 32).toInt then (pc + 1 + off.toInt).toNat else pc + 1,
        regs, stack⟩) := by
  simp only [step, hi, Option.bind_some, exec, hv, Option.bind_eq_bind]
  split
  · rfl
  · rfl

theorem step_call {func : BitVec 32} (hi : fetch prog pc = some (.call func))
    (hv : env.call func regs stack = some v) : step env prog ⟨pc, regs, stack⟩ =
      some (.at ⟨pc + 1, clobbered regs v, stack⟩) := by
  simp only [step, hi, Option.bind_some, exec, hv, Option.bind_eq_bind]
  rfl

theorem step_exit {x : BitVec 64} (hi : fetch prog pc = some .exit)
    (hv : regs 0 = some (.scalar x)) : step env prog ⟨pc, regs, stack⟩ = some (.exit x) := by
  simp only [step, hi, Option.bind_some, exec, hv, Option.bind_eq_bind]

end Rules

/-! ## Runs in pieces -/

variable {env : Env} {prog : List Insn} {s s' : State} {v : BitVec 64}

/-- The program gets from one state to another within `n` steps. -/
inductive Steps (env : Env) (prog : List Insn) : Nat → State → State → Prop
  | refl (s : State) : Steps env prog 0 s s
  | cons {n : Nat} {s s' t : State} (h : step env prog s = some (.at s'))
      (hs : Steps env prog n s' t) : Steps env prog (n + 1) s t

theorem Steps.one (h : step env prog s = some (.at s')) : Steps env prog 1 s s' :=
  .cons h (.refl s')

theorem Steps.trans {n k : Nat} {t : State} (h : Steps env prog n s s')
    (h' : Steps env prog k s' t) : Steps env prog (n + k) s t := by
  induction h with
  | refl s => rwa [Nat.zero_add]
  | cons hs _ ih =>
      rw [Nat.add_right_comm]
      exact .cons hs (ih h')

/-- **A run that comes to an exit.**  More fuel than needed does no harm. -/
theorem Steps.run_eq {n fuel : Nat} (h : Steps env prog n s s')
    (he : step env prog s' = some (.exit v)) (hn : n < fuel) :
    run env prog fuel s = .exited v := by
  induction h generalizing fuel with
  | refl s =>
      obtain ⟨fuel, rfl⟩ := Nat.exists_eq_succ_of_ne_zero (Nat.ne_zero_of_lt hn)
      rw [run, he]
  | cons hs _ ih =>
      obtain ⟨fuel, rfl⟩ := Nat.exists_eq_succ_of_ne_zero (Nat.ne_zero_of_lt hn)
      rw [run, hs]
      exact ih he (by omega)

end Bpf
