import AfXdpSwitch.BpfMachine
import AfXdpSwitch.PacketAccess

/-!
# The XDP programs that come as bytecode

Two programs of the repository are not compiled but written down as eBPF instructions, each next
to a comment with the C program it stands for: the one `xsk_load_xdp_prog` of `libbpf/src/xsk.c`
attaches when the interface has none, and the one `NewProgram` of `go-approach/program.go` loads.
Jump offsets count slots, and loading a map takes two of them.

Both are run on `Bpf` machines and compared with the C programs, whatever the maps hold and
whatever `bpf_redirect_map` returns.  The second calls itself a translation of the first; when the
two decide alike is `verdicts_agree_iff`.
-/

namespace AfXdpSwitch
namespace DefaultProgram
open Bpf

/-! ## The instruction macros of `linux/filter.h` -/

/-- `BPF_LDX_MEM`: `BPF_LDX`, the size and `BPF_MEM`. -/
def bpfLdxMem (size : BitVec 8) (dst src : BitVec 4) (off : BitVec 16) : Insn :=
  ⟨0x01 ||| (size &&& 0x18) ||| 0x60, dst, src, off, 0⟩

/-- `BPF_STX_MEM`. -/
def bpfStxMem (size : BitVec 8) (dst src : BitVec 4) (off : BitVec 16) : Insn :=
  ⟨0x03 ||| (size &&& 0x18) ||| 0x60, dst, src, off, 0⟩

/-- `BPF_LD_IMM64_RAW_FULL` with `BPF_PSEUDO_MAP_FD`. -/
def bpfLdMapFd (dst : BitVec 4) (mapFd : BitVec 32) : List Insn :=
  [⟨0x00 ||| 0x18 ||| 0x00, dst, 1, 0, mapFd⟩, ⟨0, 0, 0, 0, 0⟩]

/-- `BPF_MOV64_IMM`: `BPF_ALU64`, `BPF_MOV` and `BPF_K`. -/
def bpfMov64Imm (dst : BitVec 4) (imm : BitVec 32) : Insn := ⟨0x07 ||| 0xb0 ||| 0x00, dst, 0, 0, imm⟩

/-- `BPF_MOV64_REG`, with `BPF_X` in place of `BPF_K`. -/
def bpfMov64Reg (dst src : BitVec 4) : Insn := ⟨0x07 ||| 0xb0 ||| 0x08, dst, src, 0, 0⟩

/-- `BPF_ALU64_IMM`. -/
def bpfAlu64Imm (op : BitVec 8) (dst : BitVec 4) (imm : BitVec 32) : Insn :=
  ⟨0x07 ||| (op &&& 0xf0) ||| 0x00, dst, 0, 0, imm⟩

/-- `BPF_JMP_IMM`; the offset counts from the next slot. -/
def bpfJmpImm (op : BitVec 8) (dst : BitVec 4) (imm : BitVec 32) (off : BitVec 16) : Insn :=
  ⟨0x05 ||| (op &&& 0xf0) ||| 0x00, dst, 0, off, imm⟩

/-- `BPF_JMP32_IMM`, which compares the lower halves. -/
def bpfJmp32Imm (op : BitVec 8) (dst : BitVec 4) (imm : BitVec 32) (off : BitVec 16) : Insn :=
  ⟨0x06 ||| (op &&& 0xf0) ||| 0x00, dst, 0, off, imm⟩

/-- `BPF_EMIT_CALL`. -/
def bpfEmitCall (func : BitVec 32) : Insn := ⟨0x05 ||| 0x80, 0, 0, 0, func⟩

/-- `BPF_EXIT_INSN`. -/
def bpfExitInsn : Insn := ⟨0x05 ||| 0x90, 0, 0, 0, 0⟩

/-- `BPF_W`, a word of 32 bits. -/
def bpfW : BitVec 8 := 0x00
/-- `BPF_ADD`. -/
def bpfAdd : BitVec 8 := 0x00
/-- `BPF_JEQ`. -/
def bpfJeq : BitVec 8 := 0x10
/-- `BPF_JSGT`, greater as signed numbers. -/
def bpfJsgt : BitVec 8 := 0x60
/-- `BPF_FUNC_map_lookup_elem`. -/
def bpfFuncMapLookupElem : BitVec 32 := 1
/-- `BPF_FUNC_redirect_map`. -/
def bpfFuncRedirectMap : BitVec 32 := 51

/-! ## The programs -/

/-- `prog[]` of `xsk_load_xdp_prog`. -/
def xskLoadXdpProg (xsksMapFd : BitVec 32) : List Insn :=
  [bpfLdxMem bpfW 2 1 16, bpfStxMem bpfW 10 2 (-4)] ++
  bpfLdMapFd 1 xsksMapFd ++
  [bpfMov64Imm 3 2, bpfEmitCall bpfFuncRedirectMap, bpfJmp32Imm bpfJsgt 0 0 13,
    bpfMov64Reg 2 10, bpfAlu64Imm bpfAdd 2 (-4)] ++
  bpfLdMapFd 1 xsksMapFd ++
  [bpfEmitCall bpfFuncMapLookupElem, bpfMov64Reg 1 0, bpfMov64Imm 0 2, bpfJmpImm bpfJeq 1 0 5,
    bpfLdxMem bpfW 2 10 (-4)] ++
  bpfLdMapFd 1 xsksMapFd ++
  [bpfMov64Imm 3 0, bpfEmitCall bpfFuncRedirectMap, bpfExitInsn]

/-- An `asm.Instruction`; `NewProgram` gives each field it leaves out the value zero. -/
structure AsmInstruction where
  opCode : BitVec 8
  dst : BitVec 4
  src : BitVec 4
  offset : BitVec 16
  constant : BitVec 64

/-- The slots of an instruction: the load of a 64-bit constant has the upper half of it in a slot
of its own. -/
def AsmInstruction.marshal (i : AsmInstruction) : List Insn :=
  let slot : Insn := ⟨i.opCode, i.dst, i.src, i.offset, i.constant.setWidth 32⟩
  if i.opCode = 24 then [slot, ⟨0, 0, 0, 0, (i.constant >>> 32).setWidth 32⟩] else [slot]

/-- `Instructions` of `NewProgram`, for maps with these file descriptors. -/
def newProgramInstructions (qidconfMapFd xsksMapFd : BitVec 32) : List AsmInstruction :=
  [⟨97, 1, 1, 16, 0⟩, ⟨99, 10, 1, -4, 0⟩, ⟨191, 2, 10, 0, 0⟩, ⟨7, 2, 0, 0, -4⟩,
    ⟨24, 1, 1, 0, qidconfMapFd.setWidth 64⟩, ⟨133, 0, 0, 0, 1⟩, ⟨191, 1, 0, 0, 0⟩,
    ⟨180, 0, 0, 0, 0⟩, ⟨21, 1, 0, 8, 0⟩, ⟨180, 0, 0, 0, 2⟩, ⟨97, 1, 1, 0, 0⟩, ⟨21, 1, 0, 5, 0⟩,
    ⟨24, 1, 1, 0, xsksMapFd.setWidth 64⟩, ⟨97, 2, 10, -4, 0⟩, ⟨180, 3, 0, 0, 0⟩,
    ⟨133, 0, 0, 0, 51⟩, ⟨149, 0, 0, 0, 0⟩]

/-- The slots that `NewProgram` loads. -/
def newProgram (qidconfMapFd xsksMapFd : BitVec 32) : List Insn :=
  (newProgramInstructions qidconfMapFd xsksMapFd).flatMap AsmInstruction.marshal

/-! ## What the kernel gives to an XDP program -/

/-- The queue of the packet, the maps, and the helper `bpf_redirect_map`. -/
structure XdpKernel where
  rxQueueIndex : BitVec 32
  /-- Whether a map has an entry for a key. -/
  lookup : (map key : BitVec 32) → Bool
  /-- The value of an entry of an array map. -/
  value : (map key : BitVec 32) → BitVec 32
  redirectMap : (map key : BitVec 32) → (flags : BitVec 64) → BitVec 64

namespace XdpKernel

/-- `bpf_map_lookup_elem` reads its key from the stack. -/
def lookupElem (k : XdpKernel) (map : BitVec 32) (key : Option (BitVec 32)) : Option Val :=
  key.map fun key => if k.lookup map key then .mapValue map key 0 else .scalar 0

/-- What the machine asks the kernel for: the context, the values of maps, and the two helpers, with
their arguments in the registers of the calling convention. -/
def env (k : XdpKernel) : Env where
  -- of `struct xdp_md` only `rx_queue_index`
  ctx off := if off = 16 then some k.rxQueueIndex else none
  value map key off := if off = 0 then some (k.value map key) else none
  call func regs stack :=
    match func.toNat, regs 1, regs 2, regs 3 with
    | 1, some (.map fd), some (.stack off), _ => k.lookupElem fd (stack off)
    | 51, some (.map fd), some (.scalar key), some (.scalar flags) =>
        some (.scalar (k.redirectMap fd (key.setWidth 32) flags))
    | _, _, _, _ => none

/-- The action of a program, given one step for each of its slots; `none` if it does not exit. -/
def verdict (k : XdpKernel) (prog : List Insn) : Option (BitVec 32) :=
  match run k.env prog prog.length start with
  | .exited r0 => some (r0.setWidth 32)
  | _ => none

end XdpKernel

/-! ## The C programs of the comments -/

/-- `xdp_sock_prog` of the comment in `xsk.c`. -/
def xdpSockProg (k : XdpKernel) (xsksMap : BitVec 32) : BitVec 32 :=
  let index := k.rxQueueIndex
  let ret := (k.redirectMap xsksMap index (xdpPass.setWidth 64)).setWidth 32
  if 0 < ret.toInt then ret
  else if k.lookup xsksMap index then (k.redirectMap xsksMap index 0).setWidth 32
  else xdpPass

/-- `xdp_sock_prog` of the comment in `program.go`. -/
def xdpSockProgQidconf (k : XdpKernel) (qidconfMap xsksMap : BitVec 32) : BitVec 32 :=
  let index := k.rxQueueIndex
  if k.lookup qidconfMap index then
    if k.value qidconfMap index ≠ 0 then (k.redirectMap xsksMap index 0).setWidth 32
    else xdpPass
  else xdpAborted

/-! ## The bytecode of `xsk.c` -/

variable (k : XdpKernel) (fd qfd : BitVec 32)

theorem low_word (x : BitVec 32) : (x.setWidth 64).setWidth 32 = x := by
  rw [BitVec.setWidth_setWidth_of_le x (by omega), BitVec.setWidth_eq]

/-- The frame pointer is in place, and the word below it is the index of the queue. -/
structure Indexed (regs : Regs) (stack : Stack) : Prop where
  fp : regs fp = some (.stack 0)
  key : stack (-4) = some k.rxQueueIndex

theorem verdict_eq {prog : List Insn} {n : Nat} {s : State} {r0 : BitVec 64}
    (h : Steps k.env prog n start s) (he : step k.env prog s = some (.exit r0))
    (hn : n < prog.length) : k.verdict prog = some (r0.setWidth 32) := by
  unfold XdpKernel.verdict
  rw [h.run_eq he hn]

/-- The first redirect, with `XDP_PASS` as default action. -/
theorem xsk_first : ∃ regs stack, Steps k.env (xskLoadXdpProg fd) 5 start ⟨6, regs, stack⟩ ∧
    regs 0 = some (.scalar (k.redirectMap fd k.rxQueueIndex (xdpPass.setWidth 64))) ∧
    Indexed k regs stack := by
  have hs : Steps k.env (xskLoadXdpProg fd) 5 start _ :=
    .cons (step_load rfl rfl rfl rfl rfl) <|
    .cons (step_store rfl rfl rfl rfl rfl) <|
    .cons (step_loadMapFd rfl rfl) <|
    .cons (step_mov64Imm rfl rfl) <|
    .one (step_call rfl rfl)
  refine ⟨_, _, hs, ?_, rfl, ?_⟩
  · show some (Val.scalar (k.redirectMap fd ((k.rxQueueIndex.setWidth 64).setWidth 32) _)) = _
    rw [low_word]
    rfl
  · show some ((k.rxQueueIndex.setWidth 64).setWidth 32) = _
    rw [low_word]

/-- The fallback looks the index up. -/
theorem xsk_lookup {regs : Regs} {stack : Stack} (hi : Indexed k regs stack) :
    ∃ regs', Steps k.env (xskLoadXdpProg fd) 6 ⟨7, regs, stack⟩ ⟨14, regs', stack⟩ ∧
      regs' 0 = some (.scalar 2) ∧
      regs' 1 = some (if k.lookup fd k.rxQueueIndex then .mapValue fd k.rxQueueIndex 0
        else .scalar 0) ∧
      Indexed k regs' stack := by
  have hc : k.lookupElem fd (stack (-4)) = some (if k.lookup fd k.rxQueueIndex then
      .mapValue fd k.rxQueueIndex 0 else .scalar 0) := by
    rw [hi.key]
    rfl
  have hs : Steps k.env (xskLoadXdpProg fd) 6 ⟨7, regs, stack⟩ _ :=
    .cons (step_mov64 rfl rfl hi.fp) <|
    .cons (step_add64Imm rfl rfl rfl rfl) <|
    .cons (step_loadMapFd rfl rfl) <|
    .cons (step_call rfl hc) <|
    .cons (step_mov64 rfl rfl rfl) <|
    .one (step_mov64Imm rfl rfl)
  exact ⟨_, hs, rfl, rfl, hi.fp, hi.key⟩

/-- The second redirect, without a default action. -/
theorem xsk_second {regs : Regs} {stack : Stack} (hi : Indexed k regs stack) :
    ∃ regs', Steps k.env (xskLoadXdpProg fd) 4 ⟨15, regs, stack⟩ ⟨20, regs', stack⟩ ∧
      regs' 0 = some (.scalar (k.redirectMap fd k.rxQueueIndex 0)) := by
  have hs : Steps k.env (xskLoadXdpProg fd) 4 ⟨15, regs, stack⟩ _ :=
    .cons (step_load rfl rfl hi.fp rfl hi.key) <|
    .cons (step_loadMapFd rfl rfl) <|
    .cons (step_mov64Imm rfl rfl) <|
    .one (step_call rfl rfl)
  refine ⟨_, hs, ?_⟩
  show some (Val.scalar (k.redirectMap fd ((k.rxQueueIndex.setWidth 64).setWidth 32) _)) = _
  rw [low_word]
  rfl

/-- **The bytecode of `xsk_load_xdp_prog` is the C program of its comment**: it exits, without a
fault and within one step for each slot, with the action that the C program returns. -/
theorem verdict_xskLoadXdpProg : k.verdict (xskLoadXdpProg fd) = some (xdpSockProg k fd) := by
  obtain ⟨regs, stack, hfirst, hr0, hi⟩ := xsk_first k fd
  have hfetch : fetch (xskLoadXdpProg fd) 6 = some (.jsgt32Imm 0 0 13) := rfl
  have hjump : step k.env (xskLoadXdpProg fd) ⟨6, regs, stack⟩ = some (.at ⟨if 0 <
      ((k.redirectMap fd k.rxQueueIndex (xdpPass.setWidth 64)).setWidth 32).toInt then 20 else 7,
      regs, stack⟩) := step_jsgt32Imm hfetch hr0
  unfold xdpSockProg
  dsimp only
  by_cases hpos : 0 < ((k.redirectMap fd k.rxQueueIndex (xdpPass.setWidth 64)).setWidth 32).toInt
  · rw [if_pos hpos] at hjump
    rw [if_pos hpos]
    exact verdict_eq k (hfirst.trans (.one hjump)) (step_exit rfl hr0) (show 6 < 21 by decide)
  · rw [if_neg hpos] at hjump
    rw [if_neg hpos]
    obtain ⟨regs', hlookup, hr0', hr1, hi'⟩ := xsk_lookup k fd hi
    have hfetch' : fetch (xskLoadXdpProg fd) 14 = some (.jeqImm 1 0 5) := rfl
    have hto := (hfirst.trans (.one hjump)).trans hlookup
    cases hf : k.lookup fd k.rxQueueIndex with
    | false =>
        rw [hf] at hr1
        have hnull : step k.env (xskLoadXdpProg fd) ⟨14, regs', stack⟩ =
            some (.at ⟨20, regs', stack⟩) := step_jeqImm hfetch' hr1 rfl
        exact verdict_eq k (hto.trans (.one hnull)) (step_exit rfl hr0') (show 13 < 21 by decide)
    | true =>
        rw [hf] at hr1
        have hfound : step k.env (xskLoadXdpProg fd) ⟨14, regs', stack⟩ =
            some (.at ⟨15, regs', stack⟩) := step_jeqImm hfetch' hr1 rfl
        obtain ⟨regs'', hsecond, hr0''⟩ := xsk_second k fd hi'
        exact verdict_eq k ((hto.trans (.one hfound)).trans hsecond) (step_exit rfl hr0'')
          (show 17 < 21 by decide)

/-! ## The bytecode of `program.go` -/

theorem new_fetch_qidconf : fetch (newProgram qfd fd) 4 = some (.loadMapFd 1 qfd) := by
  show some (Op.loadMapFd 1 ((qfd.setWidth 64).setWidth 32)) = _
  rw [low_word]

theorem new_fetch_xsks : fetch (newProgram qfd fd) 13 = some (.loadMapFd 1 fd) := by
  show some (Op.loadMapFd 1 ((fd.setWidth 64).setWidth 32)) = _
  rw [low_word]

/-- The index is stored and looked up in the queue map. -/
theorem new_lookup : ∃ regs stack, Steps k.env (newProgram qfd fd) 8 start ⟨9, regs, stack⟩ ∧
    regs 0 = some (.scalar 0) ∧
    regs 1 = some (if k.lookup qfd k.rxQueueIndex then .mapValue qfd k.rxQueueIndex 0
      else .scalar 0) ∧
    Indexed k regs stack := by
  have hc : k.lookupElem qfd (some ((k.rxQueueIndex.setWidth 64).setWidth 32)) =
      some (if k.lookup qfd k.rxQueueIndex then .mapValue qfd k.rxQueueIndex 0 else .scalar 0) := by
    rw [low_word]
    rfl
  have hs : Steps k.env (newProgram qfd fd) 8 start _ :=
    .cons (step_load rfl rfl rfl rfl rfl) <|
    .cons (step_store rfl rfl rfl rfl rfl) <|
    .cons (step_mov64 rfl rfl rfl) <|
    .cons (step_add64Imm rfl rfl rfl rfl) <|
    .cons (step_loadMapFd (new_fetch_qidconf fd qfd) rfl) <|
    .cons (step_call rfl hc) <|
    .cons (step_mov64 rfl rfl rfl) <|
    .one (step_mov32Imm rfl rfl)
  refine ⟨_, _, hs, rfl, rfl, rfl, ?_⟩
  show some ((k.rxQueueIndex.setWidth 64).setWidth 32) = _
  rw [low_word]

/-- The value that was found is loaded. -/
theorem new_value {regs : Regs} {stack : Stack} (hi : Indexed k regs stack)
    (hr1 : regs 1 = some (.mapValue qfd k.rxQueueIndex 0)) :
    ∃ regs', Steps k.env (newProgram qfd fd) 2 ⟨10, regs, stack⟩ ⟨12, regs', stack⟩ ∧
      regs' 0 = some (.scalar 2) ∧
      regs' 1 = some (.scalar ((k.value qfd k.rxQueueIndex).setWidth 64)) ∧
      Indexed k regs' stack := by
  have hs : Steps k.env (newProgram qfd fd) 2 ⟨10, regs, stack⟩ _ :=
    .cons (step_mov32Imm rfl rfl) <|
    .one (step_load rfl rfl hr1 rfl rfl)
  exact ⟨_, hs, rfl, rfl, hi.fp, hi.key⟩

/-- The packet of a configured queue is redirected. -/
theorem new_redirect {regs : Regs} {stack : Stack} (hi : Indexed k regs stack) :
    ∃ regs', Steps k.env (newProgram qfd fd) 4 ⟨13, regs, stack⟩ ⟨18, regs', stack⟩ ∧
      regs' 0 = some (.scalar (k.redirectMap fd k.rxQueueIndex 0)) := by
  have hs : Steps k.env (newProgram qfd fd) 4 ⟨13, regs, stack⟩ _ :=
    .cons (step_loadMapFd (new_fetch_xsks fd qfd) rfl) <|
    .cons (step_load rfl rfl hi.fp rfl hi.key) <|
    .cons (step_mov32Imm rfl rfl) <|
    .one (step_call rfl rfl)
  refine ⟨_, hs, ?_⟩
  show some (Val.scalar (k.redirectMap fd ((k.rxQueueIndex.setWidth 64).setWidth 32) _)) = _
  rw [low_word]
  rfl

theorem setWidth_beq_zero (x : BitVec 32) : (x.setWidth 64 == 0) = (x == 0) := by
  rw [Bool.eq_iff_iff, beq_iff_eq, beq_iff_eq]
  constructor
  · intro h
    rw [← low_word x, h]
    rfl
  · rintro rfl
    rfl

/-- **The bytecode of `NewProgram` is the C program of its comment.** -/
theorem verdict_newProgram :
    k.verdict (newProgram qfd fd) = some (xdpSockProgQidconf k qfd fd) := by
  obtain ⟨regs, stack, hlookup, hr0, hr1, hi⟩ := new_lookup k fd qfd
  have hfetch : fetch (newProgram qfd fd) 9 = some (.jeqImm 1 0 8) := rfl
  unfold xdpSockProgQidconf
  dsimp only
  cases hf : k.lookup qfd k.rxQueueIndex with
  | false =>
      rw [hf] at hr1
      have hnull : step k.env (newProgram qfd fd) ⟨9, regs, stack⟩ =
          some (.at ⟨18, regs, stack⟩) := step_jeqImm hfetch hr1 rfl
      exact verdict_eq k (hlookup.trans (.one hnull)) (step_exit rfl hr0) (show 9 < 19 by decide)
  | true =>
      rw [hf] at hr1
      have hfound : step k.env (newProgram qfd fd) ⟨9, regs, stack⟩ =
          some (.at ⟨10, regs, stack⟩) := step_jeqImm hfetch hr1 rfl
      obtain ⟨regs', hvalue, hr0', hr1', hi'⟩ := new_value k fd qfd hi hr1
      have hto := (hlookup.trans (.one hfound)).trans hvalue
      have hfetch' : fetch (newProgram qfd fd) 12 = some (.jeqImm 1 0 5) := rfl
      have hjump : step k.env (newProgram qfd fd) ⟨12, regs', stack⟩ = some (.at
          ⟨if (k.value qfd k.rxQueueIndex).setWidth 64 == 0 then 18 else 13, regs', stack⟩) :=
        step_jeqImm hfetch' hr1' rfl
      rw [setWidth_beq_zero] at hjump
      by_cases hv : k.value qfd k.rxQueueIndex = 0
      · rw [if_pos (beq_iff_eq.mpr hv)] at hjump
        rw [if_pos rfl, if_neg (not_not.mpr hv)]
        exact verdict_eq k (hto.trans (.one hjump)) (step_exit rfl hr0') (show 12 < 19 by decide)
      · rw [if_neg (by rwa [beq_iff_eq])] at hjump
        rw [if_pos rfl, if_pos hv]
        obtain ⟨regs'', hredirect, hr0''⟩ := new_redirect k fd qfd hi'
        exact verdict_eq k ((hto.trans (.one hjump)).trans hredirect) (step_exit rfl hr0'')
          (show 16 < 19 by decide)

/-- **Both bytecodes are the C programs of their comments.**  They exit, without a fault and
within one step for each slot, with the action the C program returns, whatever the maps hold and
whatever `bpf_redirect_map` answers. -/
theorem bytecode_eq_source :
    k.verdict (xskLoadXdpProg fd) = some (xdpSockProg k fd) ∧
      k.verdict (newProgram qfd fd) = some (xdpSockProgQidconf k qfd fd) :=
  ⟨verdict_xskLoadXdpProg k fd, verdict_newProgram k fd qfd⟩

/-! ## What becomes of a packet -/

section Verdicts
variable {k fd}

/-- `bpf_redirect_map` as `uapi/linux/bpf.h` describes it: the lower two bits of the flags are the
result if the map has no entry. -/
structure DefaultAction (k : XdpKernel) (map : BitVec 32) : Prop where
  found : k.lookup map k.rxQueueIndex = true → ∀ flags, flags.toNat < 4 →
    k.redirectMap map k.rxQueueIndex flags = xdpRedirect.setWidth 64
  missing : k.lookup map k.rxQueueIndex = false → ∀ flags, flags.toNat < 4 →
    k.redirectMap map k.rxQueueIndex flags = flags

/-- `bpf_redirect_map` of a kernel that knows no default action: flags are an error, and without
them the map is not looked at before the program has returned. -/
structure NoDefaultAction (k : XdpKernel) (map : BitVec 32) : Prop where
  refused : ∀ flags, flags ≠ 0 →
    k.redirectMap map k.rxQueueIndex flags = xdpAborted.setWidth 64
  accepted : k.redirectMap map k.rxQueueIndex 0 = xdpRedirect.setWidth 64

theorem xdpSockProg_eq (hk : DefaultAction k fd ∨ NoDefaultAction k fd) :
    xdpSockProg k fd = if k.lookup fd k.rxQueueIndex then xdpRedirect else xdpPass := by
  unfold xdpSockProg
  dsimp only
  rcases hk with hk | hk
  · cases hf : k.lookup fd k.rxQueueIndex with
    | false =>
        rw [hk.missing hf _ (by decide)]
        rfl
    | true =>
        rw [hk.found hf _ (by decide)]
        rfl
  · rw [hk.refused _ (by decide), hk.accepted]
    rfl

/-- **A packet goes to the socket of its queue if there is one, and up the stack if not**, on
kernels that know the default action of `bpf_redirect_map` and on those that do not. -/
theorem xskLoadXdpProg_redirects (hk : DefaultAction k fd ∨ NoDefaultAction k fd) :
    k.verdict (xskLoadXdpProg fd) =
      some (if k.lookup fd k.rxQueueIndex then xdpRedirect else xdpPass) := by
  rw [verdict_xskLoadXdpProg, xdpSockProg_eq hk]

/-- Queue 3 has a socket in map 5 of this kernel, and no other queue does. -/
def oneSocket (queue : BitVec 32) : XdpKernel where
  rxQueueIndex := queue
  lookup map key := if map = 5 then key == 3 else decide (key.toNat < 4)
  value _ key := if key = 3 then 1 else 0
  redirectMap _ key flags := if key = 3 then 4 else flags &&& 3

theorem oneSocket_defaultAction_three : DefaultAction (oneSocket 3) 5 where
  found := fun _ _ _ => rfl
  missing := fun h => absurd h (by decide)

/-- The same on a kernel that refuses flags. -/
def oneSocketNoFlags (queue : BitVec 32) : XdpKernel :=
  { oneSocket queue with redirectMap := fun _ _ flags => if flags = 0 then 4 else 0 }

theorem oneSocketNoFlags_noDefaultAction (queue : BitVec 32) :
    NoDefaultAction (oneSocketNoFlags queue) 5 where
  refused := fun _ hflags => if_neg hflags
  accepted := rfl

/-- Queue 3 is redirected on both kernels, and where flags are refused queue 2 is passed on. -/
theorem xskLoadXdpProg_redirects_queue_three :
    (oneSocket 3).verdict (xskLoadXdpProg 5) = some xdpRedirect ∧
      (oneSocketNoFlags 3).verdict (xskLoadXdpProg 5) = some xdpRedirect ∧
      (oneSocketNoFlags 2).verdict (xskLoadXdpProg 5) = some xdpPass :=
  ⟨xskLoadXdpProg_redirects (.inl oneSocket_defaultAction_three),
    xskLoadXdpProg_redirects (.inr (oneSocketNoFlags_noDefaultAction 3)),
    xskLoadXdpProg_redirects (.inr (oneSocketNoFlags_noDefaultAction 2))⟩

/-- What the program of `program.go` does when a queue is configured without a socket depends on
the kernel; it never passes the packet on. -/
theorem redirectMap_ne_pass (hk : DefaultAction k fd ∨ NoDefaultAction k fd) :
    (k.redirectMap fd k.rxQueueIndex 0).setWidth 32 ≠ xdpPass ∧
      (k.lookup fd k.rxQueueIndex = true →
        (k.redirectMap fd k.rxQueueIndex 0).setWidth 32 = xdpRedirect) := by
  rcases hk with hk | hk
  · cases hf : k.lookup fd k.rxQueueIndex with
    | false =>
        rw [hk.missing hf 0 (by decide)]
        exact ⟨by decide, fun h => absurd h Bool.false_ne_true⟩
    | true =>
        rw [hk.found hf 0 (by decide)]
        exact ⟨by decide, fun _ => rfl⟩
  · rw [hk.accepted]
    exact ⟨by decide, fun _ => rfl⟩

/-- **When the translation decides as the original does**: exactly for packets of a queue that the
queue map has an entry for, and whose entry says that there is a socket if and only if there is. -/
theorem verdicts_agree_iff (qfd : BitVec 32) (hk : DefaultAction k fd ∨ NoDefaultAction k fd) :
    k.verdict (newProgram qfd fd) = k.verdict (xskLoadXdpProg fd) ↔
      k.lookup qfd k.rxQueueIndex = true ∧
        (k.value qfd k.rxQueueIndex ≠ 0 ↔ k.lookup fd k.rxQueueIndex = true) := by
  obtain ⟨hpass, hredirect⟩ := redirectMap_ne_pass hk
  rw [verdict_newProgram, verdict_xskLoadXdpProg, xdpSockProg_eq hk, Option.some_inj]
  unfold xdpSockProgQidconf
  dsimp only
  cases hq : k.lookup qfd k.rxQueueIndex with
  | false =>
      refine iff_of_false ?_ fun h => Bool.false_ne_true h.1
      rw [if_neg Bool.false_ne_true]
      split
      · decide
      · decide
  | true =>
      rw [if_pos rfl]
      by_cases hv : k.value qfd k.rxQueueIndex = 0
      · rw [if_neg (not_not.mpr hv)]
        cases k.lookup fd k.rxQueueIndex with
        | false => simp [hv]
        | true => simp [hv, xdpPass, xdpRedirect]
      · rw [if_pos hv]
        cases hf : k.lookup fd k.rxQueueIndex with
        | false => exact iff_of_false hpass fun h => Bool.false_ne_true (h.2.mp hv)
        | true => exact iff_of_true (hredirect hf) ⟨rfl, iff_of_true hv rfl⟩

theorem verdicts_agree_queue_three :
    (oneSocket 3).verdict (newProgram 4 5) = (oneSocket 3).verdict (xskLoadXdpProg 5) :=
  (verdicts_agree_iff 4 (.inl oneSocket_defaultAction_three)).mpr (by decide)

end Verdicts

end DefaultProgram
end AfXdpSwitch
