import AfXdpSwitch.ReceiveCall

/-!
# `xsk_configure_socket` and whole runs

The set-up leaves half of the frames on the free stack and the other half on the
fill ring, and user space idle.  From there the triples of the receive path extend
to every world a run visits.
-/

namespace AfXdpSwitch
open SpscRing Prog

variable {env : Env} {v : View} {w : World}

/-- The addresses of the first `n` frames. -/
def frames (n : Nat) : List (BitVec 64) := (List.range n).map fun i => BitVec.ofNat 64 (i * frameSize)

theorem chunkOf_frame {i : Nat} (hi : i < numFrames) :
    chunkOf (BitVec.ofNat 64 (i * frameSize)) = i := by
  have : i * frameSize < 2 ^ 64 := by simp only [numFrames, frameSize] at *; omega
  rw [chunkOf, BitVec.toNat_ofNat, Nat.mod_eq_of_lt this, Nat.mul_div_cancel _ (by decide)]

theorem map_chunkOf_frames {n : Nat} (hn : n ≤ numFrames) :
    (frames n).map chunkOf = List.range n := by
  rw [frames, List.map_map]
  conv_rhs => rw [← List.map_id (List.range n)]
  refine List.map_congr_left fun i hi => ?_
  exact chunkOf_frame (Nat.lt_of_lt_of_le (List.mem_range.mp hi) hn)

@[simp] theorem length_frames (n : Nat) : (frames n).length = n := by simp [frames]

theorem frames_succ (n : Nat) : frames (n + 1) = frames n ++ [BitVec.ofNat 64 (n * frameSize)] := by
  rw [frames, List.range_succ, List.map_append, List.map_singleton]
  rfl

/-- The addresses of all frames. -/
@[irreducible] def allFrames : List (BitVec 64) := frames numFrames

theorem map_chunkOf_allFrames : allFrames.map chunkOf = List.range numFrames := by
  unfold allFrames
  exact map_chunkOf_frames (Nat.le_refl _)

@[simp] theorem length_allFrames : allFrames.length = numFrames := by
  unfold allFrames
  exact length_frames _

section Created
variable {α : Type} [Inhabited α] (c : BitVec 32)

theorem created_shaped : (XskRing.created c : XskRing α).Shaped defaultNumDescs :=
  XskRing.shaped_two_pow (k := 11) (by decide) rfl rfl

@[simp] theorem created_count : (XskRing.created c : XskRing α).shared.count = 0 := by
  simp [XskRing.created, SpscRing.count]

@[simp] theorem created_pending (n : Nat) :
    (XskRing.created c : XskRing α).shared.pending n = [] := by
  rw [← List.length_eq_zero_iff, length_pending, created_count]

@[simp] theorem created_nbFree : (XskRing.created c : XskRing α).nbFree = c.toNat := by
  simp [XskRing.created, XskRing.nbFree]

theorem created_prodOk :
    (XskRing.created (BitVec.ofNat 32 defaultNumDescs) : XskRing α).ProdOk defaultNumDescs 0 :=
  { created_shaped _ with
    cachedProd := rfl
    room := by rw [created_nbFree, created_count]; decide }

theorem created_consOk : (XskRing.created 0 : XskRing α).ConsOk defaultNumDescs 0 :=
  { created_shaped _ with
    cachedCons := rfl
    avail := by simp [XskRing.created, XskRing.nbAvail, SpscRing.count]
    bound := by rw [created_count]; exact Nat.zero_le _ }

end Created

/-- The view when every frame is free and the fill ring is empty. -/
def View.allFree : View := { stack := allFrames, fqFree := defaultNumDescs }

/-- The world in which the free stack has been filled. -/
def World.filled (buffer : ByteMemory) (addr : Nat → BitVec 64) : World :=
  { World.created buffer with
    umemFrameAddr := addr
    umemFrameFree := BitVec.ofNat 32 numFrames }

theorem conserved_allFree :
    (⟨allFrames, [], [], [], [], [], [], [], []⟩ : FramePool (BitVec 64)).Conserved
      numFrames chunkOf := by
  constructor
  · intro c hc
    rw [FramePool.count_all]
    simp only [map_chunkOf_allFrames, List.map_nil, List.count_nil, Nat.add_zero]
    exact List.count_eq_one_of_mem List.nodup_range (List.mem_range.mpr hc)
  · have hmem : ∀ a ∈ allFrames, chunkOf a < numFrames := by
      intro a ha
      have := List.mem_map_of_mem (f := chunkOf) ha
      rw [map_chunkOf_allFrames] at this
      exact List.mem_range.mp this
    rw [FramePool.forall_solid]
    exact ⟨hmem, by simp⟩

theorem filled_consistent (buffer : ByteMemory) {addr : Nat → BitVec 64}
    (ha : (List.range numFrames).map addr = allFrames) :
    Consistent .allFree (World.filled buffer addr) where
  rings := {
    rxOk := created_consOk, rxAt := rfl, done_le := Nat.le_refl 0
    current := fun d hd => absurd hd (Option.not_mem_none d)
    txOk := created_prodOk, txStaged_le := Nat.le_refl 0, txStaged := rfl
    fqOk := created_prodOk, fqAt := rfl, fqFree := created_nbFree _
    staged_le := Nat.le_refl 0, staged := rfl
    cqOk := created_consOk, cqAt := rfl, freed_le := Nat.le_refl 0 }
  stack := by
    rw [World.freeStack, World.filled, show (BitVec.ofNat 32 numFrames).toNat = numFrames from rfl]
    exact ha
  free_le := Nat.le_of_eq rfl
  invalid := fun i hi hlt => absurd hlt (Nat.not_lt.mpr hi)
  conserved := conserved_allFree.of_eq
    (by simp [World.pool, World.filled, World.created, View.allFree])
  accounted := by
    refine ⟨?_, rfl, by simp [World.filled, World.created]⟩
    simp [World.filled, World.created]
  filled := rfl
  fill_suffix := by simp only [World.filled, World.created, created_pending, List.nil_suffix]

/-- The loop that writes the address of frame `i` to slot `i`. -/
theorem initFrames_eq (w : World) (n : Nat) :
    Triple never (fun s => s = w) (initFrames n)
      (fun _ s => ∃ addr, (List.range n).map addr = frames n ∧
        s = { w with umemFrameAddr := addr }) := by
  have hloop := Triple.forLoop (F := never) (n := n)
    (I := fun i (_ : Unit) s => ∃ addr, (List.range i).map addr = frames i ∧
      s = { w with umemFrameAddr := addr })
    (c := fun i (_ : Unit) => (modify fun w : World =>
      { w with umemFrameAddr :=
          Function.update w.umemFrameAddr i (BitVec.ofNat 64 (i * frameSize)) } : Xsk Unit)) ?_ ()
  · unfold initFrames
    exact hloop.conseq (fun s hs => ⟨w.umemFrameAddr, rfl, hs⟩) (fun _ _ hs => hs)
  · rintro i ⟨⟩ -
    refine Triple.modify ?_
    rintro s ⟨addr, ha, rfl⟩
    refine ⟨Function.update addr i (BitVec.ofNat 64 (i * frameSize)), ?_, rfl⟩
    rw [map_range_succ_update, ha, frames_succ]

/-- The view after the set-up. -/
def View.configured : View :=
  { stack := popped allFrames defaultNumDescs
    fqAt := BitVec.ofNat 32 defaultNumDescs
    filled := refillValues allFrames defaultNumDescs }

theorem View.configured_idle : View.configured.Idle := by constructor <;> rfl

/-- The world after the set-up: half of the frames on the stack, half on the fill ring. -/
structure Configured (w : World) : Prop where
  consistent : Consistent .configured w
  fill : w.fq.shared.pending defaultNumDescs = refillValues allFrames defaultNumDescs
  rx : w.rx.shared.count = 0
  krx : w.krx = []
  tx : w.tx.shared.count = 0
  ktx : w.ktx = []
  cq : w.cq.shared.count = 0
  hist : w.hist = ⟨[], [], [], refillValues allFrames defaultNumDescs, 0, 0, []⟩
  stats : w.stats = ⟨0, 0, 0, 0⟩

/-- What filling reserved entries leaves alone. -/
def World.rest (w : World) :=
  (w.rx, w.tx, w.cq, w.fq.shared.producer, w.fq.shared.consumer, w.krx, w.ktx, w.hist,
    w.stats)

theorem stageFrames_rest (n : Nat) (idx : BitVec 32) {x} :
    Triple never (fun s => s.rest = x) (stageFrames n idx) (fun _ s => s.rest = x) := by
  have hloop := Triple.forLoop (F := never) (n := n) (I := fun _ (_ : BitVec 32) s => s.rest = x)
    (c := fun _ (idx : BitVec 32) => (do
      let frame ← xskAllocUmemFrame
      onFq fun r => ((), r.store idx frame)
      return idx + 1 : Xsk (BitVec 32))) ?_ idx
  · unfold stageFrames
    exact hloop
  · intro i idx _
    refine Triple.bind (Q := fun _ s => s.rest = x) ?_ fun frame => ?_
    · refine Triple.modifyGet fun s hs => ?_
      split
      · exact hs
      · exact hs
    · refine Triple.bind (Q := fun _ s => s.rest = x) (Triple.modifyGet fun s hs => hs) fun _ => ?_
      exact Triple.pure fun s hs => hs

/-- An empty fill ring is filled from the top of the stack. -/
theorem stuffReceivePath_consistent {c : BitVec 32} (hfree : v.fqFree = c.toNat)
    (hres : v.reserved = 0) (hst : v.staged = []) (hempty : w.fq.shared.count = 0)
    (h : Consistent v w) :
    Triple never (fun s => s = w) (stuffReceivePath c) (fun b s => b = true ∧
      Consistent
        { v with
          stack := popped v.stack c.toNat, fqFree := 0, fqAt := v.fqAt + c
          filled := v.filled ++ refillValues v.stack c.toNat } s ∧
      s.fq.shared.pending defaultNumDescs = refillValues v.stack c.toNat ∧
      s.hist = { w.hist with filled := v.filled ++ refillValues v.stack c.toNat } ∧
      (s.rx, s.tx, s.cq, s.krx, s.ktx, s.stats) = (w.rx, w.tx, w.cq, w.krx, w.ktx, w.stats)) := by
  obtain ⟨r, heq, hsh, hcon⟩ := h.reserveFq hfree hres hst
  unfold stuffReceivePath
  refine Triple.bind (Q := fun x s => x = (c.setWidth 64, v.fqAt) ∧
    Consistent { v with fqFree := 0, reserved := c.toNat } s ∧ s.rest = w.rest) ?_ ?_
  · rintro s rfl
    rw [onFq_eq heq]
    exact ⟨rfl, hcon, by simp only [World.rest, hsh]⟩
  rintro ⟨ret, idx⟩
  refine Triple.pure_pre fun hx => ?_
  obtain ⟨rfl, rfl⟩ := Prod.mk.inj hx
  refine Triple.ite (fun hne => absurd (by simp) hne) (fun _ => ?_)
  refine Triple.bind ((stageFrames_consistent (v := { v with fqFree := 0, reserved := c.toNat })
    hst (Nat.le_refl _) rfl).and (stageFrames_rest _ _)) fun _ => ?_
  rintro s ⟨hs, hrest⟩
  have hsub := submitFill_consistent (k := c) rfl (View.length_stage _ _) s hs
  obtain ⟨-, hpend⟩ := hs.rings.fqOk.submit (c := c) (Nat.le_refl _)
  have hv : ({ View.stage { v with fqFree := 0, reserved := c.toNat } c.toNat with
      reserved := 0, staged := [], fqAt := v.fqAt + c
      filled := v.filled ++ refillValues v.stack c.toNat } : View) =
      { v with
        stack := popped v.stack c.toNat, fqFree := 0, fqAt := v.fqAt + c
        filled := v.filled ++ refillValues v.stack c.toNat } := by
    simp [View.stage, hres, hst]
  have hwin := hs.rings.staged
  rw [View.length_stage] at hwin
  simp only [World.rest, Prod.mk.injEq] at hrest
  obtain ⟨hrx, htx, hcq, hp, hcn, hkrx, hktx, hh, hstats⟩ := hrest
  -- staging moves no published index, so the ring is still empty before the submission
  have hnil : s.fq.shared.pending defaultNumDescs = [] := by
    rw [← List.length_eq_zero_iff, length_pending, SpscRing.count, hp, hcn]
    exact hempty
  rw [hnil, List.nil_append, hwin] at hpend
  refine ⟨rfl, hv ▸ hsub, hpend, ?_, ?_⟩
  · have hfilled := hsub.filled
    rw [← hh]
    exact congrArg (fun f => { s.hist with filled := f }) hfilled
  · simp only [Prod.mk.injEq]
    exact ⟨hrx, htx, hcq, hkrx, hktx, hstats⟩

/-- **`xsk_configure_socket`** succeeds unless one of the two calls below it fails, and
then leaves the frames as `Configured` says. -/
theorem xskConfigureSocket_configured (buffer : ByteMemory) (createRet linkRet : BitVec 32) :
    Triple never (fun s => s = World.created buffer) (xskConfigureSocket createRet linkRet)
      (fun b w => (b = true ↔ createRet = 0 ∧ linkRet = 0) ∧ (b = true → Configured w)) := by
  refine Triple.ite (fun hne => ?_) (fun h0 => ?_)
  · exact Triple.pure fun _ _ => ⟨⟨nofun, fun h => absurd h.1 hne⟩, nofun⟩
  refine Triple.ite (fun hne => ?_) (fun h1 => ?_)
  · exact Triple.pure fun _ _ => ⟨⟨nofun, fun h => absurd h.2 hne⟩, nofun⟩
  refine Triple.bind (initFrames_eq (World.created buffer) numFrames) fun _ => ?_
  refine Triple.exists_pre fun addr => Triple.pure_pre fun ha => ?_
  refine Triple.bind (Q := fun _ s => s = World.filled buffer addr) (Triple.modify ?_) fun _ => ?_
  · rintro s rfl
    rfl
  have hcon := filled_consistent buffer (ha.trans (by unfold allFrames; rfl))
  have hk : (BitVec.ofNat 32 defaultNumDescs).toNat = defaultNumDescs := by decide
  refine (stuffReceivePath_consistent (v := .allFree) (w := .filled buffer addr)
    (c := BitVec.ofNat 32 defaultNumDescs) hk.symm rfl rfl (created_count _) hcon).conseq
    (fun _ hs => hs) ?_
  rintro b w ⟨rfl, hw, hfill, hh, hrest⟩
  refine ⟨⟨fun _ => ⟨of_not_not h0, of_not_not h1⟩, fun _ => rfl⟩, fun _ => ?_⟩
  simp only [Prod.mk.injEq] at hrest
  obtain ⟨hrx, htx, hcq, hkrx, hktx, hstats⟩ := hrest
  rw [hk] at hw hfill hh
  have hat : View.allFree.fqAt + BitVec.ofNat 32 defaultNumDescs =
      BitVec.ofNat 32 defaultNumDescs := BitVec.zero_add _
  have hfilled : View.allFree.filled ++ refillValues View.allFree.stack defaultNumDescs =
      refillValues View.allFree.stack defaultNumDescs := List.nil_append _
  rw [hat, hfilled] at hw
  rw [hfilled] at hh
  exact ⟨hw, hfill, by rw [hrx]; exact created_count _, hkrx, by rw [htx]; exact created_count _,
    hktx, by rw [hcq]; exact created_count _, hh, hstats⟩

/-- The frames on the fill ring are frames. -/
theorem Configured.fill_frames (h : Configured w) :
    ∀ a ∈ w.fq.shared.pending defaultNumDescs, chunkOf a < numFrames := by
  intro a ha
  have hle : defaultNumDescs ≤ allFrames.length := by rw [length_allFrames]; decide
  rw [h.fill, refillValues_of_le hle] at ha
  have hmem := List.mem_map_of_mem (f := chunkOf) (List.mem_reverse.mp (List.mem_of_mem_take ha))
  rw [map_chunkOf_allFrames] at hmem
  exact List.mem_range.mp hmem

/-! ## Runs -/

section Runs
variable {step : World → World → Prop} {call : Env → Xsk Unit} {allowed : Env → World → Prop}

/-- **The invariant rule for runs.** -/
theorem Reachable.invariant {I : World → Prop} (hw : Reachable step call allowed w)
    (hstart : ∀ w, Configured w → I w)
    (hkernel : ∀ w w', I w → step w w' → I w')
    (hcall : ∀ env w w', I w → env.Follows step → allowed env w → call env w = .ok ((), w') →
      I w') :
    I w := by
  induction hw with
  | start h => exact hstart _ (((xskConfigureSocket_configured _ _ _).of_ok rfl h).2 rfl)
  | kernel _ hs ih => exact hkernel _ _ ih hs
  | call _ hc ha h ih => exact hcall _ _ _ ih hc ha h

/-- Runs exist: the set-up succeeds when the two calls below it do. -/
theorem exists_configured (step : World → World → Prop) (call : Env → Xsk Unit)
    (allowed : Env → World → Prop) (buffer : ByteMemory) :
    ∃ w, Reachable step call allowed w ∧ Configured w := by
  obtain ⟨b, w, h, hb, hw⟩ := (xskConfigureSocket_configured buffer 0 0).exists_ok rfl
  obtain rfl : b = true := hb.mpr ⟨rfl, rfl⟩
  exact ⟨w, .start h, hw rfl⟩

/-- Between two calls user space is idle, having lost nothing. -/
def AtRest (w : World) : Prop := ∃ v : View, v.Idle ∧ v.lost = [] ∧ Consistent v w

theorem Configured.atRest (h : Configured w) : AtRest w :=
  ⟨.configured, View.configured_idle, rfl, h.consistent⟩

theorem AtRest.kernelStep {w' : World} (h : AtRest w) (hs : KernelStep w w') : AtRest w' := by
  obtain ⟨v, hi, hl, hv⟩ := h
  exact ⟨v, hi, hl, hs.consistent hv⟩

/-- A call returns, and user space is at rest again. -/
theorem AtRest.returns (h : AtRest w) (hc : env.Conforming) :
    ∃ w', handleReceivePackets env w = .ok ((), w') ∧ AtRest w' := by
  obtain ⟨v, hi, hl, hv⟩ := h
  obtain ⟨⟨⟩, w', heq, v', hcall, hv'⟩ :=
    (handleReceivePackets_consistent hc hi hv).exists_ok rfl
  exact ⟨w', heq, v', hcall.idle, by rw [hcall.lost, hl, List.append_nil], hv'⟩

theorem Reachable.atRest (hw : Reachable KernelStep handleReceivePackets allowed w) : AtRest w := by
  refine hw.invariant (fun w => Configured.atRest) (fun w w' => AtRest.kernelStep) ?_
  intro env w w' h hc _ heq
  obtain ⟨w'', heq', h'⟩ := h.returns hc
  obtain rfl : w'' = w' := by
    rw [heq] at heq'
    exact (Prod.mk.inj (Except.ok.inj heq')).2.symm
  exact h'

end Runs

/-- The kernel does nothing during a call. -/
def Env.quiet : Env := ⟨fun _ w => w, 0⟩

theorem Env.quiet_conforming : Env.quiet.Conforming := fun _ _ => .refl

end AfXdpSwitch
