import AfXdpSwitch.Hoare
import AfXdpSwitch.XskRing
import AfXdpSwitch.ByteMemory

/-!
# The socket of `switchtsn/af_xdp_david_new.c`

The data of the AF_XDP user program and the functions below
`handle_receive_packets`: the stack of free UMEM frames, the set-up of the rings
and of the socket, and the header rewriting of `process_packet`.

A program runs in a `World`: the socket, what the kernel holds privately, and a
history that no code reads, kept to state what a run did.  While user space is in
the middle of a call the kernel goes on: before every access to memory shared with
it (`Access`) the environment `Env` may let the kernel run.

`struct xsk_umem_info` is not a record of its own: there is one per socket, and its
rings and buffer are fields of `XskSocketInfo`.  The descriptor's `options` word,
the statistics' time stamp and `prev_stats` are left out, since no function here
looks at them.
-/

namespace AfXdpSwitch

/-- `NUM_FRAMES`. -/
def numFrames : Nat := 4096
/-- `FRAME_SIZE`. -/
def frameSize : Nat := 4096
/-- `RX_BATCH_SIZE`. -/
def rxBatchSize : BitVec 32 := 64
/-- `INVALID_UMEM_FRAME`. -/
def invalidUmemFrame : BitVec 64 := BitVec.allOnes 64
/-- `XSK_RING_CONS__DEFAULT_NUM_DESCS` and `XSK_RING_PROD__DEFAULT_NUM_DESCS`. -/
def defaultNumDescs : Nat := 2048

/-- `struct xdp_desc`. -/
structure XdpDesc where
  addr : BitVec 64
  len : BitVec 32
deriving DecidableEq, Inhabited

/-- `struct stats_record`. -/
structure StatsRecord where
  rxPackets : BitVec 64
  rxBytes : BitVec 64
  txPackets : BitVec 64
  txBytes : BitVec 64

/-- `struct xsk_socket_info` with the `struct xsk_umem_info` it points to.  Of
`umemFrameAddr` only the first `numFrames` slots exist. -/
structure XskSocketInfo where
  rx : XskRing XdpDesc
  tx : XskRing XdpDesc
  fq : XskRing (BitVec 64)
  cq : XskRing (BitVec 64)
  buffer : ByteMemory
  umemFrameAddr : Nat → BitVec 64
  umemFrameFree : BitVec 32
  outstandingTx : BitVec 32
  stats : StatsRecord

/-- What `complete_tx` found: it returned at once, with so many completions waiting,
or it was about to subtract `completed` from `outstanding` with the clamp. -/
inductive CompleteTx
  | early (waiting : Nat)
  | clamp (completed outstanding : BitVec 32)
deriving DecidableEq

/-- What happened so far.  No code reads it. -/
structure History where
  /-- Descriptors the kernel put on the RX ring. -/
  delivered : List XdpDesc
  /-- Calls of `process_packet`, with their results. -/
  handled : List (XdpDesc × Bool)
  /-- Descriptors submitted on the TX ring. -/
  submitted : List XdpDesc
  /-- Values submitted on the fill ring. -/
  filled : List (BitVec 64)
  /-- How many RX descriptors were released. -/
  released : Nat
  /-- How many completions were released. -/
  completed : Nat
  /-- Calls of `complete_tx`. -/
  completeTx : List CompleteTx

/-- The socket, the frames the kernel took from the fill ring (`krx`) and from the
TX ring (`ktx`) and has not given back, and the history. -/
structure World extends XskSocketInfo where
  krx : List (BitVec 64)
  ktx : List (BitVec 64)
  hist : History

/-- Why a run stops. -/
inductive Halt
  | assertFailed
  | outOfRetries
deriving DecidableEq

/-- The accesses to shared memory of one `handle_receive_packets` call. -/
inductive Access
  | peekRx | stock | reserve | retry (i : Nat) | submit
  | packet (i : Nat) | txReserve (i : Nat) | txSubmit (i : Nat)
  | release | sendto | peekComp | releaseComp

/-- What a call meets: what the kernel does before each access, and after how many
rounds the model gives up on the retry loop. -/
structure Env where
  kernel : Access → World → World
  retries : Nat

/-- Programs of the user side. -/
abbrev Xsk := Prog Halt World

/-- Let the kernel run before an access. -/
def Env.at (env : Env) (a : Access) : Xsk Unit := modify (env.kernel a)

section Rings
variable {β : Type}

/-- Run a ring function on one of the four rings. -/
def onRx (f : XskRing XdpDesc → β × XskRing XdpDesc) : Xsk β :=
  modifyGet fun w => ((f w.rx).1, { w with rx := (f w.rx).2 })

@[inherit_doc onRx] def onTx (f : XskRing XdpDesc → β × XskRing XdpDesc) : Xsk β :=
  modifyGet fun w => ((f w.tx).1, { w with tx := (f w.tx).2 })

@[inherit_doc onRx] def onFq (f : XskRing (BitVec 64) → β × XskRing (BitVec 64)) : Xsk β :=
  modifyGet fun w => ((f w.fq).1, { w with fq := (f w.fq).2 })

@[inherit_doc onRx] def onCq (f : XskRing (BitVec 64) → β × XskRing (BitVec 64)) : Xsk β :=
  modifyGet fun w => ((f w.cq).1, { w with cq := (f w.cq).2 })

variable {b : β} {w : World}

theorem onRx_eq {f : XskRing XdpDesc → β × XskRing XdpDesc} {r : XskRing XdpDesc}
    (h : f w.rx = (b, r)) : onRx f w = .ok (b, { w with rx := r }) := by
  show Except.ok ((f w.rx).1, { w with rx := (f w.rx).2 }) = _
  rw [h]

theorem onTx_eq {f : XskRing XdpDesc → β × XskRing XdpDesc} {r : XskRing XdpDesc}
    (h : f w.tx = (b, r)) : onTx f w = .ok (b, { w with tx := r }) := by
  show Except.ok ((f w.tx).1, { w with tx := (f w.tx).2 }) = _
  rw [h]

theorem onFq_eq {f : XskRing (BitVec 64) → β × XskRing (BitVec 64)} {r : XskRing (BitVec 64)}
    (h : f w.fq = (b, r)) : onFq f w = .ok (b, { w with fq := r }) := by
  show Except.ok ((f w.fq).1, { w with fq := (f w.fq).2 }) = _
  rw [h]

theorem onCq_eq {f : XskRing (BitVec 64) → β × XskRing (BitVec 64)} {r : XskRing (BitVec 64)}
    (h : f w.cq = (b, r)) : onCq f w = .ok (b, { w with cq := r }) := by
  show Except.ok ((f w.cq).1, { w with cq := (f w.cq).2 }) = _
  rw [h]

end Rings

/-! ## Free frames -/

/-- `xsk_alloc_umem_frame`; the slot that was popped is marked as invalid. -/
def xskAllocUmemFrame : Xsk (BitVec 64) :=
  modifyGet fun w =>
    if w.umemFrameFree = 0 then (invalidUmemFrame, w)
    else
      let free := w.umemFrameFree - 1
      (w.umemFrameAddr free.toNat,
        { w with
          umemFrameFree := free
          umemFrameAddr := Function.update w.umemFrameAddr free.toNat invalidUmemFrame })

/-- `xsk_free_umem_frame`, with its assertion. -/
def xskFreeUmemFrame (frame : BitVec 64) : Xsk Unit := do
  let w ← get
  if w.umemFrameFree.toNat < numFrames then
    set { w with
      umemFrameAddr := Function.update w.umemFrameAddr w.umemFrameFree.toNat frame
      umemFrameFree := w.umemFrameFree + 1 }
  else throw .assertFailed

/-- `xsk_umem_free_frames`. -/
def xskUmemFreeFrames : Xsk (BitVec 64) := do
  let w ← get
  return w.umemFrameFree.setWidth 64

/-- The addresses on the free stack, top last. -/
def World.freeStack (w : World) : List (BitVec 64) :=
  (List.range w.umemFrameFree.toNat).map w.umemFrameAddr

/-! ## Set-up -/

/-- A ring of the default size over memory the kernel has just mapped. -/
def XskRing.created {α : Type} [Inhabited α] (cachedCons : BitVec 32) : XskRing α where
  cachedProd := 0
  cachedCons := cachedCons
  mask := BitVec.ofNat 32 (defaultNumDescs - 1)
  size := BitVec.ofNat 32 defaultNumDescs
  shared := ⟨0, 0, fun _ => default⟩

/-- The world after `configure_xsk_umem` and the ring part of `xsk_socket__create`:
`xsk_umem__create` and `xsk_socket__create` start the producer rings with
`cached_cons` equal to the ring size, the rest of the socket is `calloc`ed. -/
def World.created (buffer : ByteMemory) : World where
  rx := .created 0
  tx := .created (BitVec.ofNat 32 defaultNumDescs)
  fq := .created (BitVec.ofNat 32 defaultNumDescs)
  cq := .created 0
  buffer := buffer
  umemFrameAddr := fun _ => 0
  umemFrameFree := 0
  outstandingTx := 0
  stats := ⟨0, 0, 0, 0⟩
  krx := []
  ktx := []
  hist := ⟨[], [], [], [], 0, 0, []⟩

/-- `for (i = 0; i < NUM_FRAMES; i++) umem_frame_addr[i] = i * FRAME_SIZE`. -/
@[irreducible] def initFrames (n : Nat) : Xsk Unit :=
  Prog.forLoop n (fun i _ => modify fun w : World =>
    { w with umemFrameAddr :=
        Function.update w.umemFrameAddr i (BitVec.ofNat 64 (i * frameSize)) }) ()

/-- `*xsk_ring_prod__fill_addr(fq, idx++) = xsk_alloc_umem_frame(xsk)`, `n` times. -/
@[irreducible] def stageFrames (n : Nat) (idx : BitVec 32) : Xsk (BitVec 32) :=
  Prog.forLoop n (fun _ (idx : BitVec 32) => do
    let frame ← xskAllocUmemFrame
    onFq fun r => ((), r.store idx frame)
    return idx + 1) idx

/-- `xsk_ring_prod__submit` of the fill ring. -/
def submitFill (nb : BitVec 32) : Xsk Unit := do
  modify fun w : World => { w with
    hist.filled := w.hist.filled ++ (List.range nb.toNat).map
      fun j => w.fq.read (w.fq.shared.producer + BitVec.ofNat 32 j) }
  onFq fun r => ((), r.xskRingProdSubmit (nb.setWidth 64))

/-- "Stuff the receive path with buffers, we assume we have enough." -/
@[irreducible] def stuffReceivePath (nb : BitVec 32) : Xsk Bool := do
  let (ret, idx) ← onFq (·.xskRingProdReserve (nb.setWidth 64) 0)
  if ret.setWidth 32 ≠ nb then return false
  let _ ← stageFrames nb.toNat idx
  submitFill nb
  return true

/-- `xsk_configure_socket`, given what `xsk_socket__create` and
`bpf_get_link_xdp_id` return; `false` stands for `NULL`. -/
def xskConfigureSocket (createRet linkRet : BitVec 32) : Xsk Bool := do
  if createRet ≠ 0 then return false
  if linkRet ≠ 0 then return false
  initFrames numFrames
  modify fun w : World => { w with umemFrameFree := BitVec.ofNat 32 numFrames }
  stuffReceivePath (BitVec.ofNat 32 defaultNumDescs)

end AfXdpSwitch
