import AfXdpSwitch.FramePool
import AfXdpSwitch.HandleReceive

/-!
# The kernel side of an AF_XDP socket, and runs of the program

`KernelStep` is all that is assumed of the kernel: it takes fill entries in order,
ignores those that address no frame of the UMEM, and returns every other one on the
RX ring, once, at an address in the same frame; it takes TX descriptors in order and
returns their addresses on the completion ring, once each; it never overfills a ring.
Frames may come back in any order, and it may write anything into the UMEM.

`Reachable` are the worlds a run visits: the socket is configured, and from then on
calls of the receive function and kernel steps alternate in any order.  During a
call the kernel runs as well, through an environment that conforms.
-/

namespace AfXdpSwitch
open SpscRing

/-- The frame of the UMEM an address lies in. -/
def chunkOf (addr : BitVec 64) : Nat := addr.toNat / frameSize

inductive KernelStep : World → World → Prop
  | takeFill {w a} (h : (w.fq.shared.pending defaultNumDescs).head? = some a)
      (ha : a.toNat < numFrames * frameSize) :
      KernelStep w { w with fq.shared := w.fq.shared.release 1, krx := w.krx ++ [a] }
  | discardFill {w a} (h : (w.fq.shared.pending defaultNumDescs).head? = some a)
      (ha : numFrames * frameSize ≤ a.toNat) :
      KernelStep w { w with fq.shared := w.fq.shared.release 1 }
  | deliver {w l a r} (d : XdpDesc) (h : w.krx = l ++ a :: r)
      (hd : chunkOf d.addr = chunkOf a) (room : w.rx.shared.count < defaultNumDescs) :
      KernelStep w { w with
        krx := l ++ r
        rx.shared := w.rx.shared.push defaultNumDescs d
        hist.delivered := w.hist.delivered ++ [d] }
  | takeTx {w d} (h : (w.tx.shared.pending defaultNumDescs).head? = some d) :
      KernelStep w { w with tx.shared := w.tx.shared.release 1, ktx := w.ktx ++ [d.addr] }
  | complete {w l a r} (h : w.ktx = l ++ a :: r)
      (room : w.cq.shared.count < defaultNumDescs) :
      KernelStep w { w with ktx := l ++ r, cq.shared := w.cq.shared.push defaultNumDescs a }
  | write {w} (m : ByteMemory) : KernelStep w { w with buffer := m }

/-- Any number of kernel steps. -/
abbrev KernelRun : World → World → Prop := Relation.ReflTransGen KernelStep

/-- During a call the kernel does nothing but steps of a given kind. -/
def Env.Follows (env : Env) (step : World → World → Prop) : Prop :=
  ∀ a w, Relation.ReflTransGen step w (env.kernel a w)

/-- During a call the kernel does nothing but kernel steps. -/
abbrev Env.Conforming (env : Env) : Prop := env.Follows KernelStep

/-- The worlds visited by runs in which the kernel makes steps of kind `step` and every
call of `call` meets `allowed`. -/
inductive Reachable (step : World → World → Prop) (call : Env → Xsk Unit)
    (allowed : Env → World → Prop) : World → Prop
  | start {buffer createRet linkRet w}
      (h : xskConfigureSocket createRet linkRet (World.created buffer) = .ok (true, w)) :
      Reachable step call allowed w
  | kernel {w w'} (hw : Reachable step call allowed w) (h : step w w') :
      Reachable step call allowed w'
  | call {w w' env} (hw : Reachable step call allowed w) (hc : env.Follows step)
      (ha : allowed env w) (h : call env w = .ok ((), w')) : Reachable step call allowed w'

/-- No restriction on calls. -/
def anyCall : Env → World → Prop := fun _ _ => True

theorem Reachable.kernelRun {step : World → World → Prop} {call : Env → Xsk Unit}
    {allowed : Env → World → Prop} {w w' : World} (hw : Reachable step call allowed w)
    (h : Relation.ReflTransGen step w w') : Reachable step call allowed w' := by
  induction h with
  | refl => exact hw
  | tail _ hs ih => exact .kernel ih hs

/-! ## The pool of frames behind a world

Inside a call a frame changes hands before the ring index that makes this visible
is published.  A `View` is what user space knows at an access: its private data and
how far the call has got.  No kernel step changes it. -/

/-- What user space knows. -/
@[ext] structure View where
  /-- The free stack, top last. -/
  stack : List (BitVec 64) := []
  /-- The RX consumer index, the entries peeked and not released, how many of them
  are dealt with, and the one that is being dealt with. -/
  rxAt : BitVec 32 := 0
  peeked : Nat := 0
  done : Nat := 0
  current : Option XdpDesc := none
  /-- The fill producer index, the entries believed free, those reserved and not
  submitted, and the values written to them so far. -/
  fqAt : BitVec 32 := 0
  fqFree : Nat := 0
  reserved : Nat := 0
  staged : List (BitVec 64) := []
  /-- The TX entries reserved and not submitted, and the values written to them so
  far. -/
  txReserved : Nat := 0
  txStaged : List XdpDesc := []
  /-- The completion consumer index, the entries peeked and not released, and how
  many of them are freed. -/
  cqAt : BitVec 32 := 0
  cpeeked : Nat := 0
  freed : Nat := 0
  /-- The frames user space let go of. -/
  lost : List (BitVec 64) := []
  /-- The values submitted on the fill ring so far. -/
  filled : List (BitVec 64) := []

/-- The pool of frames a world stands for. -/
def World.pool (w : World) (v : View) : FramePool (BitVec 64) where
  stack := v.stack
  staged := v.staged
  fill := w.fq.shared.pending defaultNumDescs
  krx := w.krx
  rx := ((w.rx.shared.pending defaultNumDescs).drop v.done).map XdpDesc.addr
  tx := (w.tx.shared.pending defaultNumDescs).map XdpDesc.addr
  ktx := w.ktx
  comp := (w.cq.shared.pending defaultNumDescs).drop v.freed
  lost := v.lost

/-- The four rings are as user space knows them. -/
structure RingsOk (v : View) (rx tx : XskRing XdpDesc) (fq cq : XskRing (BitVec 64)) :
    Prop where
  rxOk : rx.ConsOk defaultNumDescs v.peeked
  rxAt : rx.shared.consumer = v.rxAt
  done_le : v.done ≤ v.peeked
  current : ∀ d ∈ v.current, (rx.shared.pending defaultNumDescs)[v.done]? = some d
  txOk : tx.ProdOk defaultNumDescs v.txReserved
  txStaged_le : v.txStaged.length ≤ v.txReserved
  txStaged : window defaultNumDescs tx.shared.desc tx.shared.producer v.txStaged.length =
    v.txStaged
  fqOk : fq.ProdOk defaultNumDescs v.reserved
  fqAt : fq.shared.producer = v.fqAt
  fqFree : fq.nbFree = v.fqFree
  staged_le : v.staged.length ≤ v.reserved
  staged : window defaultNumDescs fq.shared.desc fq.shared.producer v.staged.length = v.staged
  cqOk : cq.ConsOk defaultNumDescs v.cpeeked
  cqAt : cq.shared.consumer = v.cqAt
  freed_le : v.freed ≤ v.cpeeked

/-- What `complete_tx` may find: it never returns early with completions waiting,
and never sees more completions than are outstanding. -/
def CompleteTx.Sound : CompleteTx → Prop
  | .early waiting => waiting = 0
  | .clamp completed outstanding => completed ≤ outstanding

/-- `outstanding_tx` counts the frames between TX submission and the release of
their completion, and `tx_packets` those plus the released ones. -/
structure Accounted (outstandingTx : BitVec 32) (tx ktx comp completed : Nat)
    (txPackets : BitVec 64) (log : List CompleteTx) : Prop where
  outstanding : outstandingTx.toNat = tx + ktx + comp
  packets : txPackets = BitVec.ofNat 64 (outstandingTx.toNat + completed)
  log : ∀ e ∈ log, e.Sound

/-- What holds at every access of a call. -/
structure Consistent (v : View) (w : World) : Prop where
  rings : RingsOk v w.rx w.tx w.fq w.cq
  stack : w.freeStack = v.stack
  free_le : w.umemFrameFree.toNat ≤ numFrames
  invalid : ∀ i, w.umemFrameFree.toNat ≤ i → i < numFrames →
    w.umemFrameAddr i = invalidUmemFrame
  conserved : (w.pool v).Conserved numFrames chunkOf
  accounted : Accounted w.outstandingTx w.tx.shared.count w.ktx.length w.cq.shared.count
    w.hist.completed w.stats.txPackets w.hist.completeTx
  filled : w.hist.filled = v.filled
  fill_suffix : w.fq.shared.pending defaultNumDescs <:+ w.hist.filled

/-! ## The kernel respects it -/

theorem chunkOf_lt_iff (a : BitVec 64) : chunkOf a < numFrames ↔ a.toNat < numFrames * frameSize :=
  Nat.div_lt_iff_lt_mul (by decide)

theorem fits_default : Fits defaultNumDescs 32 := ⟨by decide, by decide⟩

theorem head?_pending {α : Type} {r : SpscRing α 32} {x : α}
    (h : (r.pending defaultNumDescs).head? = some x) :
    0 < r.count ∧ r.pending defaultNumDescs = x :: (r.release 1).pending defaultNumDescs ∧
      r.count = (r.release 1).count + 1 := by
  have hpos : 0 < r.count := by
    rw [← length_pending (n := defaultNumDescs)]
    exact List.length_pos_of_mem (List.mem_of_mem_head? h)
  have hc := count_release_one (by decide) r hpos
  refine ⟨hpos, ?_, by omega⟩
  rw [pending_release_one (by decide) r hpos]
  exact (List.cons_head?_tail h).symm

/-- **A kernel step is a move of the pool**, and user space knows what it knew. -/
theorem KernelStep.consistent {v : View} {w w' : World} (hs : KernelStep w w') (h : Consistent v w) :
    Consistent v w' := by
  have hr := h.rings
  have ha := h.accounted
  cases hs with
  | takeFill hhd ha =>
      obtain ⟨hpos, hp, -⟩ := head?_pending hhd
      have hstep := FramePool.Step.takeFill (p := w.pool v) hp ((chunkOf_lt_iff _).mpr ha)
      exact { h with
        rings := { hr with fqOk := hr.fqOk.consume hpos }
        conserved := hstep.conserved h.conserved
        fill_suffix := (hp ▸ List.suffix_cons _ _).trans h.fill_suffix }
  | discardFill hhd ha =>
      obtain ⟨hpos, hp, -⟩ := head?_pending hhd
      have hge := mt (chunkOf_lt_iff _).mp (Nat.not_lt.mpr ha)
      have hstep := FramePool.Step.discard (p := w.pool v) hp (Nat.not_lt.mp hge)
      exact { h with
        rings := { hr with fqOk := hr.fqOk.consume hpos }
        conserved := hstep.conserved h.conserved
        fill_suffix := (hp ▸ List.suffix_cons _ _).trans h.fill_suffix }
  | deliver d hk hch room =>
      have hstep := FramePool.Step.deliver (p := w.pool v) (N := numFrames) hk hch
      -- the packets dealt with are still on the ring, so the new one comes after them
      have hlen : v.done ≤ (w.rx.shared.pending defaultNumDescs).length := by
        have := hr.rxOk.avail; have := hr.done_le; rw [length_pending]; omega
      have hrx : (((w.rx.shared.push defaultNumDescs d).pending defaultNumDescs).drop
          v.done).map XdpDesc.addr =
          ((w.rx.shared.pending defaultNumDescs).drop v.done).map XdpDesc.addr ++ [d.addr] := by
        rw [pending_push fits_default _ _ room, List.drop_append_of_le_length hlen,
          List.map_append, List.map_singleton]
      refine { h with
        rings := { hr with rxOk := hr.rxOk.produce d room, current := fun x hx => ?_ }
        conserved := (hstep.conserved h.conserved).of_eq
          (FramePool.ext rfl rfl rfl rfl hrx rfl rfl rfl rfl) }
      have hx' := hr.current x hx
      show ((w.rx.shared.push defaultNumDescs d).pending defaultNumDescs)[v.done]? = some x
      rw [pending_push fits_default _ _ room, List.getElem?_append_left, hx']
      exact (List.getElem?_eq_some_iff.mp hx').1
  | takeTx hhd =>
      obtain ⟨hpos, hp, hcnt⟩ := head?_pending hhd
      have hstep : FramePool.Step numFrames chunkOf _ _ := .takeTx (p := w.pool v)
        (congrArg (List.map XdpDesc.addr) hp)
      refine { h with
        rings := { hr with txOk := hr.txOk.consume hpos }
        conserved := hstep.conserved h.conserved
        accounted := { ha with outstanding := ?_ } }
      have := ha.outstanding
      simp only [List.length_append, List.length_singleton]
      omega
  | @complete _ a _ hk room =>
      have hstep : FramePool.Step numFrames chunkOf _ _ := .complete (p := w.pool v) hk
      have hlen : v.freed ≤ (w.cq.shared.pending defaultNumDescs).length := by
        have := hr.cqOk.avail; have := hr.freed_le; rw [length_pending]; omega
      have hcomp : ((w.cq.shared.push defaultNumDescs a).pending defaultNumDescs).drop v.freed =
          (w.cq.shared.pending defaultNumDescs).drop v.freed ++ [a] := by
        rw [pending_push fits_default _ _ room, List.drop_append_of_le_length hlen]
      refine { h with
        rings := { hr with cqOk := hr.cqOk.produce a room }
        conserved := (hstep.conserved h.conserved).of_eq
          (FramePool.ext rfl rfl rfl rfl rfl rfl rfl hcomp rfl)
        accounted := { ha with outstanding := ?_ } }
      have hout := ha.outstanding
      have := count_push fits_default _ a room
      simp only [hk, List.length_append, List.length_cons] at hout ⊢
      omega
  | write => exact { h with }

theorem KernelRun.consistent {v : View} {w w' : World} (hs : KernelRun w w') (h : Consistent v w) :
    Consistent v w' := by
  induction hs with
  | refl => exact h
  | tail _ hstep ih => exact hstep.consistent ih

end AfXdpSwitch
