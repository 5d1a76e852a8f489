import AfXdpSwitch.SpscRing
import AfXdpSwitch.ByteMemory
import AfXdpSwitch.SlotLane
import Mathlib.Data.Nat.Bitwise

/-!
# `xdp.Socket` of `go-approach/xdp.go`

The Go binding has no private copies of the ring indices: every method reads and
advances the shared ones.  Which chunks of the UMEM are in use it notes in two maps,
`freeRXDescs` and `freeTXDescs`; chunks of the first half are handed out for receiving
and those of the second half for sending.

A slice of descriptors that a method returns lies in one of the three buffers `rxDescs`,
`getTXDescs` and `getRXDescs` of the socket, which the next call of that method
overwrites.  Such a slice is represented by its length, and its entries are read from
the buffer when they are used.

All sockets have `DefaultSocketOptions`.  `int` values that are never negative are
natural numbers.
-/

namespace AfXdpSwitch.Xdp
open SpscRing SlotLane

/-- `SocketOptions`. -/
structure SocketOptions where
  numFrames : Nat
  frameSize : Nat
  fillRingNumDescs : Nat
  completionRingNumDescs : Nat
  rxRingNumDescs : Nat
  txRingNumDescs : Nat

/-- `DefaultSocketOptions`. -/
def defaultSocketOptions : SocketOptions where
  numFrames := 128
  frameSize := 2048
  fillRingNumDescs := 64
  completionRingNumDescs := 64
  rxRingNumDescs := 64
  txRingNumDescs := 64

/-- The options of every socket: both are opened with `NewSocket(.., .., nil)`. -/
abbrev options : SocketOptions := defaultSocketOptions

@[simp] theorem options_frameSize : options.frameSize = 2048 := rfl
@[simp] theorem options_fillRingNumDescs : options.fillRingNumDescs = 64 := rfl
@[simp] theorem options_completionRingNumDescs : options.completionRingNumDescs = 64 := rfl
@[simp] theorem options_rxRingNumDescs : options.rxRingNumDescs = 64 := rfl
@[simp] theorem options_txRingNumDescs : options.txRingNumDescs = 64 := rfl

@[ext] structure Desc where
  addr : BitVec 64
  len : BitVec 32
deriving DecidableEq, Inhabited

/-- `Socket`, with the rings it shares with the kernel. -/
structure Socket where
  umem : ByteMemory
  fillRing : SpscRing (BitVec 64) 32
  rxRing : SpscRing Desc 32
  txRing : SpscRing Desc 32
  completionRing : SpscRing (BitVec 64) 32
  numTransmitted : Int
  numFilled : Int
  freeRXDescs : Nat → Bool
  freeTXDescs : Nat → Bool
  rxDescs : Nat → Desc
  getTXDescs : Nat → Desc
  getRXDescs : Nat → Desc

/-- A ring as the kernel sets it up. -/
def emptyRing {α : Type} [Inhabited α] : SpscRing α 32 := ⟨0, 0, fun _ => default⟩

/-- What `NewSocket` returns. -/
def newSocket : Socket where
  umem := fun _ => 0
  fillRing := emptyRing
  rxRing := emptyRing
  txRing := emptyRing
  completionRing := emptyRing
  numTransmitted := 0
  numFilled := 0
  freeRXDescs := fun _ => true
  freeTXDescs := fun _ => true
  rxDescs := fun _ => default
  getTXDescs := fun _ => default
  getRXDescs := fun _ => default

/-- The chunk an address lies in. -/
def chunkOf (addr : BitVec 64) : Nat := addr.toNat / options.frameSize

/-! ## Slices over a buffer -/

/-- `buf[:n]`. -/
def slice (buf : Nat → Desc) (n : Nat) : List Desc := (List.range n).map buf

/-- The buffer after `descs` were appended to `buf[:0]`. -/
def refilled (buf : Nat → Desc) (descs : List Desc) : Nat → Desc :=
  fun i => (descs[i]?).getD (buf i)

/-! ## Ring indices -/

section Rings
variable {α : Type}

/-- `idx & uint32(num-1)`. -/
def maskIdx (num : Nat) (idx : BitVec 32) : Nat := (idx &&& BitVec.ofNat 32 (num - 1)).toNat

/-- The body shared by `NumFreeFillSlots` and `NumFreeTxSlots`. -/
def numFreeSlots (num : Nat) (r : SpscRing α 32) : Nat :=
  let max := BitVec.ofNat 32 num
  let n := max - (r.producer - r.consumer)
  (if n > max then max else n).toNat

/-- The body shared by `NumReceived` and `NumCompleted`. -/
def numAvailable (num : Nat) (r : SpscRing α 32) : Nat :=
  let max := BitVec.ofNat 32 num
  let n := r.producer - r.consumer
  (if n > max then max else n).toNat

/-- The loop shared by `Fill` and `Transmit`, with the store of the producer index after
it: `entry` is what goes on the ring. -/
def submitDescs (num : Nat) (entry : Desc → α) (r : SpscRing α 32) (free : Nat → Bool)
    (prod : BitVec 32) : List Desc → SpscRing α 32 × (Nat → Bool)
  | [] => ({ r with producer := prod }, free)
  | d :: descs =>
      submitDescs num entry { r with desc := Function.update r.desc (maskIdx num prod) (entry d) }
        (Function.update free (chunkOf d.addr) false) (prod + 1) descs

/-- The loop shared by `Receive` and `Complete`, with the store of the consumer index
after it: `addr` is the address of an entry. -/
def consumeDescs (num : Nat) (addr : α → BitVec 64) (r : SpscRing α 32) (free : Nat → Bool)
    (cons : BitVec 32) : Nat → List α × SpscRing α 32 × (Nat → Bool)
  | 0 => ([], { r with consumer := cons }, free)
  | n + 1 =>
      let x := r.desc (maskIdx num cons)
      let (xs, r', free') :=
        consumeDescs num addr r (Function.update free (chunkOf (addr x)) true) (cons + 1) n
      (x :: xs, r', free')

end Rings

/-! ## The methods -/

namespace Socket

/-- `NumFreeFillSlots`. -/
def numFreeFillSlots (s : Socket) : Nat := numFreeSlots options.fillRingNumDescs s.fillRing
/-- `NumFreeTxSlots`. -/
def numFreeTxSlots (s : Socket) : Nat := numFreeSlots options.txRingNumDescs s.txRing
/-- `NumReceived`. -/
def numReceived (s : Socket) : Nat := numAvailable options.rxRingNumDescs s.rxRing
/-- `NumCompleted`. -/
def numCompleted (s : Socket) : Nat := numAvailable options.completionRingNumDescs s.completionRing

/-- `Fill`. -/
def fill (s : Socket) (descs : List Desc) : Nat × Socket :=
  let descs := if s.numFreeFillSlots < descs.length then descs.take s.numFreeFillSlots else descs
  let (r, free) := submitDescs options.fillRingNumDescs Desc.addr s.fillRing s.freeRXDescs
    s.fillRing.producer descs
  (descs.length,
    { s with fillRing := r, freeRXDescs := free, numFilled := s.numFilled + descs.length })

/-- The result is `rxDescs[:k]`, given by `k`. -/
def receive (s : Socket) (num : Nat) : Nat × Socket :=
  let num := if num > s.numReceived then s.numReceived else num
  let (descs, r, free) := consumeDescs options.rxRingNumDescs Desc.addr s.rxRing s.freeRXDescs
    s.rxRing.consumer num
  (descs.length,
    { s with
      rxRing := r, freeRXDescs := free, rxDescs := refilled s.rxDescs descs
      numFilled := s.numFilled - descs.length })

/-- Without the wake-up call at the end, which only asks the kernel to take what is on
the ring. -/
def transmit (s : Socket) (descs : List Desc) : Nat × Socket :=
  let descs := if descs.length > s.numFreeTxSlots then descs.take s.numFreeTxSlots else descs
  let (r, free) := submitDescs options.txRingNumDescs id s.txRing s.freeTXDescs
    s.txRing.producer descs
  (descs.length,
    { s with txRing := r, freeTXDescs := free, numTransmitted := s.numTransmitted + descs.length })

/-- `Complete`. -/
def complete (s : Socket) (n : Nat) : Socket :=
  let (_, r, free) := consumeDescs options.completionRingNumDescs id s.completionRing
    s.freeTXDescs s.completionRing.consumer n
  { s with completionRing := r, freeTXDescs := free, numTransmitted := s.numTransmitted - n }

/-- The descriptor `GetDescs` makes for chunk `i`. -/
def chunkDesc (i : Nat) : Desc where
  addr := BitVec.ofNat 64 i * BitVec.ofNat 64 options.frameSize
  len := BitVec.ofNat 32 options.frameSize

/-- The result is `getRXDescs[:k]` or `getTXDescs[:k]`, given by `k`.  The capacities of
the two buffers are those of the fill and the completion ring. -/
def getDescs (s : Socket) (n : Nat) (rx : Bool) : Nat × Socket :=
  let n := if n > options.fillRingNumDescs then options.fillRingNumDescs else n
  if rx then
    let descs := (firstFree 0 options.fillRingNumDescs s.freeRXDescs n).map chunkDesc
    (descs.length, { s with getRXDescs := refilled s.getRXDescs descs })
  else
    let n := if n > options.completionRingNumDescs then options.completionRingNumDescs else n
    let descs :=
      (firstFree options.fillRingNumDescs options.numFrames s.freeTXDescs n).map chunkDesc
    (descs.length, { s with getTXDescs := refilled s.getTXDescs descs })

end Socket

/-- A byte slice of a UMEM. -/
structure ByteSlice where
  off : Nat
  len : Nat
deriving DecidableEq

/-- `GetFrame`: `umem[d.Addr : d.Addr+d.Len]`. -/
def getFrame (d : Desc) : ByteSlice := ⟨d.addr.toNat, d.len.toNat⟩

/-- The bytes of a packet. -/
abbrev Frame := List (BitVec 8)

/-- The bytes of the frame a descriptor denotes. -/
def frame (umem : ByteMemory) (d : Desc) : Frame := umem.read d.addr.toNat d.len.toNat

/-- `copy(dst, src)`: how many bytes were copied, and the memory of `dst` after it. -/
def copyFrame (dst src : ByteMemory) (out inp : ByteSlice) : Nat × ByteMemory :=
  let n := min out.len inp.len
  (n, dst.write out.off (src.read inp.off n))

/-! ## What the methods do to a socket whose rings are not overfull -/

section Rings
variable {α : Type} {r : SpscRing α 32}

theorem fits : Fits 64 32 := ⟨by decide, by decide⟩

theorem maskIdx_eq (idx : BitVec 32) : maskIdx 64 idx = slot 64 idx := by
  unfold maskIdx slot
  rw [BitVec.toNat_and, BitVec.toNat_ofNat, show (64 - 1) % 2 ^ 32 = 2 ^ 6 - 1 from rfl,
    Nat.and_two_pow_sub_one_eq_mod]

theorem numFreeSlots_eq (h : r.count ≤ 64) : numFreeSlots 64 r = 64 - r.count := by
  have hc : (r.producer - r.consumer).toNat ≤ 64 := h
  have hn : (BitVec.ofNat 32 64 - (r.producer - r.consumer)).toNat = 64 - r.count :=
    BitVec.toNat_sub_of_le (y := r.producer - r.consumer) hc
  unfold numFreeSlots
  dsimp only
  rw [if_neg, hn]
  show ¬ (BitVec.ofNat 32 64).toNat < (BitVec.ofNat 32 64 - (r.producer - r.consumer)).toNat
  rw [hn, BitVec.toNat_ofNat]
  omega

theorem numAvailable_eq (h : r.count ≤ 64) : numAvailable 64 r = r.count := by
  unfold numAvailable
  dsimp only
  rw [if_neg]
  · rfl
  · show ¬ (BitVec.ofNat 32 64).toNat < r.count
    rw [BitVec.toNat_ofNat]
    omega

/-- Which producer index the ring shows during the loop does not matter. -/
theorem submitDescs_producer (num : Nat) (entry : Desc → α) (r : SpscRing α 32)
    (free : Nat → Bool) (x prod : BitVec 32) (descs : List Desc) :
    submitDescs num entry { r with producer := x } free prod descs =
      submitDescs num entry r free prod descs := by
  induction descs generalizing r free prod with
  | nil => rfl
  | cons d descs ih => exact ih { r with desc := _ } _ _

theorem submitDescs_eq (entry : Desc → α) (r : SpscRing α 32) (free : Nat → Bool)
    (descs : List Desc) : submitDescs 64 entry r free r.producer descs =
      (r.pushAll 64 (descs.map entry), mark free false (descs.map fun d => chunkOf d.addr)) := by
  induction descs generalizing r free with
  | nil => rfl
  | cons d descs ih =>
      rw [submitDescs, maskIdx_eq]
      exact (submitDescs_producer 64 entry _ _ (r.producer + 1) _ descs).symm.trans
        (ih (r.push 64 (entry d)) _)

theorem consumeDescs_eq (addr : α → BitVec 64) (r : SpscRing α 32) (free : Nat → Bool)
    (cons : BitVec 32) (n : Nat) : consumeDescs 64 addr r free cons n =
      (window 64 r.desc cons n, { r with consumer := cons + BitVec.ofNat 32 n },
        mark free true ((window 64 r.desc cons n).map fun x => chunkOf (addr x))) := by
  induction n generalizing free cons with
  | zero => simp [consumeDescs, mark]
  | succ n ih =>
      rw [consumeDescs, ih, maskIdx_eq, window_succ, BitVec.add_assoc, ofNat_succ_eq]
      rfl

theorem window_eq_take {n : Nat} (h : n ≤ r.count) :
    window 64 r.desc r.consumer n = (r.pending 64).take n := (take_window _ _ h).symm

/-- Releasing up to `num` entries. -/
theorem pending_release_min (num : Nat) (h : r.count ≤ 64) :
    (r.release (BitVec.ofNat 32 (min num r.count))).pending 64 = (r.pending 64).drop num := by
  have hk : (BitVec.ofNat 32 (min num r.count)).toNat = min num r.count := by
    rw [BitVec.toNat_ofNat]
    omega
  rw [pending_release _ (by rw [hk]; exact Nat.min_le_right _ _), hk, ← length_pending (n := 64)]
  rcases Nat.le_total num (r.pending 64).length with hn | hn
  · rw [Nat.min_eq_left hn]
  · rw [Nat.min_eq_right hn, List.drop_length, List.drop_eq_nil_of_le hn]

end Rings

@[simp] theorem length_slice (buf : Nat → Desc) (n : Nat) : (slice buf n).length = n := by
  simp [slice]

theorem refilled_of_lt (buf : Nat → Desc) {descs : List Desc} {i : Nat} (h : i < descs.length) :
    refilled buf descs i = descs[i] := by
  unfold refilled
  rw [List.getElem?_eq_getElem h, Option.getD_some]

theorem refilled_of_le (buf : Nat → Desc) {descs : List Desc} {i : Nat} (h : descs.length ≤ i) :
    refilled buf descs i = buf i := by
  unfold refilled
  rw [List.getElem?_eq_none h, Option.getD_none]

theorem slice_refilled (buf : Nat → Desc) (descs : List Desc) :
    slice (refilled buf descs) descs.length = descs := by
  refine List.ext_getElem (by simp) fun i h h' => ?_
  simp only [slice, List.getElem_map, List.getElem_range]
  exact refilled_of_lt buf h'

namespace Socket
variable (s : Socket)

theorem clamp (n k : Nat) : (if n > k then k else n) = min n k := by split <;> omega

theorem toNat_chunkDesc_addr {i : Nat} (h : i < 128) : (chunkDesc i).addr.toNat = i * 2048 := by
  show (BitVec.ofNat 64 i * BitVec.ofNat 64 2048).toNat = _
  rw [BitVec.toNat_mul, BitVec.toNat_ofNat, BitVec.toNat_ofNat]
  omega

theorem chunkOf_chunkDesc {i : Nat} (h : i < 128) : chunkOf (chunkDesc i).addr = i := by
  unfold chunkOf
  rw [toNat_chunkDesc_addr h, options_frameSize, Nat.mul_div_cancel _ (by omega)]

@[simp] theorem toNat_chunkDesc_len (i : Nat) : (chunkDesc i).len.toNat = 2048 := rfl

theorem fill_eq {descs : List Desc} (h : s.fillRing.count + descs.length ≤ 64) :
    s.fill descs = (descs.length, { s with
      fillRing := s.fillRing.pushAll 64 (descs.map Desc.addr)
      freeRXDescs := mark s.freeRXDescs false (descs.map fun d => chunkOf d.addr)
      numFilled := s.numFilled + descs.length }) := by
  have hn : s.numFreeFillSlots = 64 - s.fillRing.count := numFreeSlots_eq (by omega)
  unfold fill
  rw [if_neg (by omega)]
  dsimp only
  rw [options_fillRingNumDescs, submitDescs_eq]

theorem receive_eq (num : Nat) (h : s.rxRing.count ≤ 64) :
    s.receive num = (min num s.rxRing.count, { s with
      rxRing := s.rxRing.release (BitVec.ofNat 32 (min num s.rxRing.count))
      freeRXDescs := mark s.freeRXDescs true
        (((s.rxRing.pending 64).take num).map fun d => chunkOf d.addr)
      rxDescs := refilled s.rxDescs ((s.rxRing.pending 64).take num)
      numFilled := s.numFilled - (min num s.rxRing.count : Nat) }) := by
  have hn : s.numReceived = s.rxRing.count := numAvailable_eq h
  have ht : (s.rxRing.pending 64).take (min num s.rxRing.count) =
      (s.rxRing.pending 64).take num := by
    rw [← length_pending (n := 64), ← List.take_take, List.take_length]
  unfold receive
  rw [clamp, hn]
  dsimp only
  rw [options_rxRingNumDescs, consumeDescs_eq, window_eq_take (Nat.min_le_right _ _), ht,
    List.length_take, length_pending]
  rfl

theorem transmit_eq {descs : List Desc} (h : s.txRing.count + descs.length ≤ 64) :
    s.transmit descs = (descs.length, { s with
      txRing := s.txRing.pushAll 64 descs
      freeTXDescs := mark s.freeTXDescs false (descs.map fun d => chunkOf d.addr)
      numTransmitted := s.numTransmitted + descs.length }) := by
  have hn : s.numFreeTxSlots = 64 - s.txRing.count := numFreeSlots_eq (by omega)
  unfold transmit
  rw [if_neg (by omega)]
  dsimp only
  rw [options_txRingNumDescs, submitDescs_eq, List.map_id]

theorem complete_eq {n : Nat} (h : n ≤ s.completionRing.count) :
    s.complete n = { s with
      completionRing := s.completionRing.release (BitVec.ofNat 32 n)
      freeTXDescs := mark s.freeTXDescs true (((s.completionRing.pending 64).take n).map chunkOf)
      numTransmitted := s.numTransmitted - n } := by
  unfold complete
  rw [options_completionRingNumDescs, consumeDescs_eq, window_eq_take h]
  rfl

/-- The chunks `GetDescs(n, true)` finds. -/
def freeRx (n : Nat) : List Nat := firstFree 0 64 s.freeRXDescs (min n 64)

/-- The chunks `GetDescs(n, false)` finds. -/
def freeTx (n : Nat) : List Nat := firstFree 64 128 s.freeTXDescs (min n 64)

theorem getDescs_rx (n : Nat) : s.getDescs n true = ((s.freeRx n).length, { s with
    getRXDescs := refilled s.getRXDescs ((s.freeRx n).map chunkDesc) }) := by
  unfold getDescs
  simp only [clamp, if_true, List.length_map]
  rfl

theorem getDescs_tx (n : Nat) : s.getDescs n false = ((s.freeTx n).length, { s with
    getTXDescs := refilled s.getTXDescs ((s.freeTx n).map chunkDesc) }) := by
  have hm : min (min n options.fillRingNumDescs) options.completionRingNumDescs = min n 64 := by
    simp
  unfold getDescs
  simp only [clamp, Bool.false_eq_true, if_false, List.length_map, hm]
  rfl

end Socket

end AfXdpSwitch.Xdp
