import AfXdpSwitch.ProcessPacket

/-!
# `handle_receive_packets` and `complete_tx`

The receive path of `switchtsn/af_xdp_david_new.c`, in the order of the source:
peek at the RX ring, refill the fill ring, process the peeked packets, release
them, and collect completed transmissions.  The refill and the packet loop are
functions of their own here; `switchtsn/af_xdp_user_david.c` has the same refill
and the same `complete_tx` but no packet loop.
-/

namespace AfXdpSwitch

/-- `while (ret != stock_frames) ret = xsk_ring_prod__reserve(fq, rcvd, &idx_fq)`. -/
def retryReserve (env : Env) (stockFrames rcvd : BitVec 32) :
    Nat → BitVec 32 → BitVec 32 → Xsk (BitVec 32)
  | fuel, ret, idxFq =>
    if ret = stockFrames then return idxFq
    else match fuel with
      | 0 => throw .outOfRetries
      | fuel + 1 => do
          env.at (.retry fuel)
          let (ret, idxFq) ← onFq (·.xskRingProdReserve (rcvd.setWidth 64) idxFq)
          retryReserve env stockFrames rcvd fuel (ret.setWidth 32) idxFq

/-- "Stuff the ring with as much frames as possible." -/
def refill (env : Env) (rcvd : BitVec 32) : Xsk Unit := do
  let frames ← xskUmemFreeFrames
  let stockFrames ← onFq (·.xskProdNbFree (frames.setWidth 32))
  if 0 < stockFrames then
    env.at .reserve
    let (ret, idxFq) ← onFq (·.xskRingProdReserve (stockFrames.setWidth 64) 0)
    let idxFq ← retryReserve env stockFrames rcvd env.retries (ret.setWidth 32) idxFq
    let _ ← stageFrames stockFrames.toNat idxFq
    env.at .submit
    submitFill stockFrames

/-- The body of the packet loop, for the `i`-th packet of a batch. -/
def handlePacket (env : Env) (i : Nat) (desc : XdpDesc) : Xsk Unit := do
  let sent ← processPacket env i desc.addr desc.len
  if !sent then xskFreeUmemFrame desc.addr
  modify fun w : World => { w with
    hist.handled := w.hist.handled ++ [(desc, sent)]
    stats.rxBytes := w.stats.rxBytes + desc.len.setWidth 64 }

/-- "Process received packets." -/
def processPackets (env : Env) (rcvd idxRx : BitVec 32) : Xsk (BitVec 32) :=
  Prog.forLoop rcvd.toNat (fun i (idxRx : BitVec 32) => do
    env.at (.packet i)
    let w ← get
    handlePacket env i (w.rx.read idxRx)
    return idxRx + 1) idxRx

/-- `xsk_ring_cons__release` of the RX ring. -/
def releaseRx (rcvd : BitVec 32) : Xsk Unit := do
  onRx fun r => ((), r.xskRingConsRelease (rcvd.setWidth 64))
  modify fun w : World => { w with
    hist.released := w.hist.released + rcvd.toNat
    stats.rxPackets := w.stats.rxPackets + rcvd.setWidth 64 }

/-- The loop of `complete_tx`: put completed frames on the free stack. -/
def freeCompleted (completed idxCq : BitVec 32) : Xsk (BitVec 32) :=
  Prog.forLoop completed.toNat (fun _ (idxCq : BitVec 32) => do
    let w ← get
    xskFreeUmemFrame (w.cq.read idxCq)
    return idxCq + 1) idxCq

/-- `xsk_ring_cons__release` of the completion ring, and the clamped update. -/
def releaseCompleted (completed : BitVec 32) : Xsk Unit := do
  onCq fun r => ((), r.xskRingConsRelease (completed.setWidth 64))
  modify fun w : World => { w with
    hist.completed := w.hist.completed + completed.toNat
    hist.completeTx := w.hist.completeTx ++ [.clamp completed w.outstandingTx]
    outstandingTx := w.outstandingTx -
      if completed < w.outstandingTx then completed else w.outstandingTx }

def completeTx (env : Env) : Xsk Unit := do
  let w ← get
  if w.outstandingTx = 0 then
    modify fun w : World => { w with
      hist.completeTx := w.hist.completeTx ++ [.early w.cq.shared.count] }
    return
  env.at .sendto
  env.at .peekComp
  let (completed, idxCq) ← onCq (·.xskRingConsPeek (BitVec.ofNat 64 defaultNumDescs) 0)
  let completed := completed.setWidth 32
  if 0 < completed then
    let _ ← freeCompleted completed idxCq
    env.at .releaseComp
    releaseCompleted completed

def handleReceivePackets (env : Env) : Xsk Unit := do
  env.at .peekRx
  let (rcvd, idxRx) ← onRx (·.xskRingConsPeek (rxBatchSize.setWidth 64) 0)
  let rcvd := rcvd.setWidth 32
  if rcvd = 0 then return
  env.at .stock
  refill env rcvd
  let _ ← processPackets env rcvd idxRx
  env.at .release
  releaseRx rcvd
  completeTx env

end AfXdpSwitch
