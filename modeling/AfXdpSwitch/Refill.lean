import AfXdpSwitch.XskKernel

/-!
# The refill

Every function of the receive path gets a triple over `Consistent`: from a world
consistent with one view of user space it leads, without halting and whatever the
kernel does meanwhile, to a world consistent with the next view.  Frames only ever
change hands by moves of the pool, so the conservation of frames, the free stack
and the transmit accounting are carried along by each triple at once.

This module has the free stack and the refill of the fill ring.  `stock` says how
many entries a refill writes, and `refillValues` what it writes.
-/

namespace AfXdpSwitch
open SpscRing Prog

/-- No halt is allowed: the triples below are total. -/
def never : Halt → Prop := fun _ => False

/-- Any halt is allowed: partial correctness, for what a total triple is joined with. -/
def always : Halt → Prop := fun _ => True

variable {env : Env} {v : View} {w : World}

theorem at_consistent (hc : env.Conforming) (a : Access) :
    Triple never (Consistent v) (env.at a) (fun _ => Consistent v) :=
  Triple.modify fun w hw => KernelRun.consistent (hc a w) hw

/-! ## Private ring fields

Peeking and reserving change the private copies of the indices only. -/

theorem Consistent.withRx (h : Consistent v w) {r : XskRing XdpDesc} {q : Nat}
    (hsh : r.shared = w.rx.shared) (hok : r.ConsOk defaultNumDescs q) (hq : v.done ≤ q) :
    Consistent { v with peeked := q } { w with rx := r } := by
  have hr := h.rings
  refine { h with
    rings := { hr with
      rxOk := hok
      rxAt := (congrArg SpscRing.consumer hsh).trans hr.rxAt
      done_le := hq
      current := fun d hd => by rw [hsh]; exact hr.current d hd }
    conserved := h.conserved.of_eq
      (FramePool.ext rfl rfl rfl rfl (by simp only [World.pool, hsh]) rfl rfl rfl rfl) }

theorem Consistent.withTx (h : Consistent v w) {r : XskRing XdpDesc} {q : Nat}
    (hsh : r.shared = w.tx.shared) (hok : r.ProdOk defaultNumDescs q)
    (hq : v.txStaged.length ≤ q) :
    Consistent { v with txReserved := q } { w with tx := r } := by
  have hr := h.rings
  refine { h with
    rings := { hr with txOk := hok, txStaged_le := hq, txStaged := by rw [hsh]; exact hr.txStaged }
    conserved := h.conserved.of_eq
      (FramePool.ext rfl rfl rfl rfl rfl (by simp only [World.pool, hsh]) rfl rfl rfl)
    accounted := by rw [hsh]; exact h.accounted }

theorem Consistent.withFq (h : Consistent v w) {r : XskRing (BitVec 64)} {q : Nat}
    (hsh : r.shared = w.fq.shared) (hok : r.ProdOk defaultNumDescs q) (hq : v.staged.length ≤ q) :
    Consistent { v with fqFree := r.nbFree, reserved := q } { w with fq := r } := by
  have hr := h.rings
  refine { h with
    rings := { hr with
      fqOk := hok
      fqAt := (congrArg SpscRing.producer hsh).trans hr.fqAt
      fqFree := rfl
      staged_le := hq
      staged := by rw [hsh]; exact hr.staged }
    conserved := h.conserved.of_eq
      (FramePool.ext rfl rfl (by simp only [World.pool, hsh]) rfl rfl rfl rfl rfl rfl)
    fill_suffix := by rw [hsh]; exact h.fill_suffix }

theorem Consistent.withCq (h : Consistent v w) {r : XskRing (BitVec 64)} {q : Nat}
    (hsh : r.shared = w.cq.shared) (hok : r.ConsOk defaultNumDescs q) (hq : v.freed ≤ q) :
    Consistent { v with cpeeked := q } { w with cq := r } := by
  have hr := h.rings
  refine { h with
    rings := { hr with
      cqOk := hok
      cqAt := (congrArg SpscRing.consumer hsh).trans hr.cqAt
      freed_le := hq }
    conserved := h.conserved.of_eq
      (FramePool.ext rfl rfl rfl rfl rfl rfl rfl (by simp only [World.pool, hsh]) rfl)
    accounted := by rw [hsh]; exact h.accounted }

/-! ## The free stack -/

theorem map_range_update {α : Type} (f : Nat → α) (k : Nat) (x : α) :
    (List.range k).map (Function.update f k x) = (List.range k).map f := by
  refine List.map_congr_left fun i hi => Function.update_of_ne ?_ _ _
  have := List.mem_range.mp hi
  omega

theorem map_range_succ_update {α : Type} (f : Nat → α) (k : Nat) (x : α) :
    (List.range (k + 1)).map (Function.update f k x) = (List.range k).map f ++ [x] := by
  rw [List.range_succ, List.map_append, map_range_update, List.map_singleton,
    Function.update_self]

theorem length_freeStack (w : World) : w.freeStack.length = w.umemFrameFree.toNat := by
  simp [World.freeStack]

/-- `xsk_alloc_umem_frame` pops the stack, or returns `INVALID_UMEM_FRAME` if it is
empty. -/
theorem xskAllocUmemFrame_eq (hle : w.umemFrameFree.toNat ≤ numFrames)
    (hinv : ∀ i, w.umemFrameFree.toNat ≤ i → i < numFrames →
      w.umemFrameAddr i = invalidUmemFrame) :
    ∃ addr free, xskAllocUmemFrame w = .ok (w.freeStack.getLast?.getD invalidUmemFrame,
        { w with umemFrameAddr := addr, umemFrameFree := free }) ∧
      (List.range free.toNat).map addr = w.freeStack.dropLast ∧ free.toNat ≤ numFrames ∧
      ∀ i, free.toNat ≤ i → i < numFrames → addr i = invalidUmemFrame := by
  by_cases h0 : w.umemFrameFree = 0
  · have hnil : w.freeStack = [] := by simp [World.freeStack, h0]
    refine ⟨w.umemFrameAddr, w.umemFrameFree, ?_, by rw [hnil]; simp [h0], hle, hinv⟩
    show Except.ok (if w.umemFrameFree = 0 then (invalidUmemFrame, w) else _) = _
    rw [if_pos h0, hnil]
    rfl
  · have hk : (w.umemFrameFree - 1).toNat + 1 = w.umemFrameFree.toNat := by bv_omega
    have hst : w.freeStack = (List.range (w.umemFrameFree - 1).toNat).map w.umemFrameAddr ++
        [w.umemFrameAddr (w.umemFrameFree - 1).toNat] := by
      rw [World.freeStack, ← hk, List.range_succ, List.map_append, List.map_singleton]
    refine ⟨Function.update w.umemFrameAddr (w.umemFrameFree - 1).toNat invalidUmemFrame,
      w.umemFrameFree - 1, ?_, ?_, by omega, ?_⟩
    · show Except.ok (if w.umemFrameFree = 0 then (invalidUmemFrame, w) else _) = _
      rw [if_neg h0, hst, List.getLast?_concat]
      rfl
    · rw [map_range_update, hst, List.dropLast_concat]
    · intro i hi hlt
      by_cases he : i = (w.umemFrameFree - 1).toNat
      · rw [he, Function.update_self]
      · rw [Function.update_of_ne he]
        exact hinv i (by omega) hlt

/-- `xsk_free_umem_frame` pushes, as long as the stack is not full. -/
theorem xskFreeUmemFrame_eq (frame : BitVec 64) (hlt : w.umemFrameFree.toNat < numFrames)
    (hinv : ∀ i, w.umemFrameFree.toNat ≤ i → i < numFrames →
      w.umemFrameAddr i = invalidUmemFrame) :
    ∃ addr free, xskFreeUmemFrame frame w =
        .ok ((), { w with umemFrameAddr := addr, umemFrameFree := free }) ∧
      (List.range free.toNat).map addr = w.freeStack ++ [frame] ∧ free.toNat ≤ numFrames ∧
      ∀ i, free.toNat ≤ i → i < numFrames → addr i = invalidUmemFrame := by
  have hk : (w.umemFrameFree + 1).toNat = w.umemFrameFree.toNat + 1 := by
    have : numFrames < 2 ^ 32 - 1 := by decide
    bv_omega
  refine ⟨Function.update w.umemFrameAddr w.umemFrameFree.toNat frame, w.umemFrameFree + 1,
    ?_, ?_, by omega, ?_⟩
  · show (if w.umemFrameFree.toNat < numFrames then _ else _ : Xsk Unit) w = _
    rw [if_pos hlt]
    rfl
  · rw [hk, map_range_succ_update]
    rfl
  · intro i hi hlt'
    rw [Function.update_of_ne (by omega)]
    exact hinv i (by omega) hlt'

/-! ## The refill -/

/-- The first `k` values the refill takes off a stack: its frames from the top, then
`INVALID_UMEM_FRAME`. -/
def refillValues (stack : List (BitVec 64)) (k : Nat) : List (BitVec 64) :=
  (List.range k).map fun j => (stack.reverse[j]?).getD invalidUmemFrame

@[simp] theorem length_refillValues (stack : List (BitVec 64)) (k : Nat) :
    (refillValues stack k).length = k := by simp [refillValues]

/-- A stack that is deep enough yields its own frames. -/
theorem refillValues_of_le {stack : List (BitVec 64)} {k : Nat} (hk : k ≤ stack.length) :
    refillValues stack k = stack.reverse.take k := by
  refine List.ext_getElem (by simp [hk]) fun i hi hi' => ?_
  have hlt : i < stack.reverse.length := by
    rw [length_refillValues] at hi
    rw [List.length_reverse]
    omega
  simp only [refillValues, List.getElem_map, List.getElem_range, List.getElem_take]
  rw [List.getElem?_eq_getElem hlt, Option.getD_some]

/-- What is left of a stack after `k` pops. -/
def popped (stack : List (BitVec 64)) (k : Nat) : List (BitVec 64) :=
  stack.take (stack.length - k)

theorem refillValues_succ (stack : List (BitVec 64)) (k : Nat) :
    refillValues stack (k + 1) =
      refillValues stack k ++ [(popped stack k).getLast?.getD invalidUmemFrame] := by
  have hlast : stack.reverse[k]? = (popped stack k).getLast? := by
    rw [popped, List.getLast?_eq_getElem?, List.length_take]
    by_cases hk : k < stack.length
    · rw [List.getElem?_reverse hk, List.getElem?_take_of_lt (by omega)]
      congr 1
      omega
    · rw [List.getElem?_eq_none (by simp; omega), List.getElem?_eq_none (by simp; omega)]
  rw [refillValues, List.range_succ, List.map_append, List.map_singleton, hlast]
  rfl

theorem popped_succ (stack : List (BitVec 64)) (k : Nat) :
    popped stack (k + 1) = (popped stack k).dropLast := by
  rw [popped, popped, List.dropLast_eq_take, List.take_take, List.length_take]
  congr 1
  omega

/-- The view after `k` rounds of the refill loop. -/
def View.stage (v : View) (k : Nat) : View :=
  { v with stack := popped v.stack k, staged := refillValues v.stack k }

theorem View.length_stage (v : View) (k : Nat) : (v.stage k).staged.length = k :=
  length_refillValues _ _

theorem invalid_not_frame : numFrames ≤ chunkOf invalidUmemFrame := by decide

/-- One round moves the top of the stack, or nothing, to the next reserved entry. -/
theorem stageRound_consistent {k : Nat} {idx : BitVec 32}
    (hk : k < v.reserved) (hidx : idx = v.fqAt + BitVec.ofNat 32 k) :
    Triple never (Consistent (v.stage k))
      (do
        let frame ← xskAllocUmemFrame
        onFq fun r => ((), r.store idx frame)
        return idx + 1)
      (fun idx' w => idx' = v.fqAt + BitVec.ofNat 32 (k + 1) ∧ Consistent (v.stage (k + 1)) w) := by
  intro w h
  obtain ⟨addr, free, heq, hstack, hle, hinv⟩ := xskAllocUmemFrame_eq h.free_le h.invalid
  rw [bind_ok heq]
  have hr := h.rings
  have hlen := v.length_stage k
  have hat : idx = w.fq.shared.producer + BitVec.ofNat 32 k := by
    rw [hidx, show v.fqAt = w.fq.shared.producer from hr.fqAt.symm]
  rw [h.stack] at hstack ⊢
  obtain ⟨hok, hpend, hwin⟩ := hr.fqOk.store (j := k) hk
    ((v.stage k).stack.getLast?.getD invalidUmemFrame)
  refine ⟨?_, ?_⟩
  · rw [hidx, BitVec.add_assoc, BitVec.ofNat_add]
    rfl
  subst hat
  have hst : (v.stage (k + 1)).staged =
      (v.stage k).staged ++ [(v.stage k).stack.getLast?.getD invalidUmemFrame] :=
    refillValues_succ _ _
  have hsk : (v.stage (k + 1)).stack = (v.stage k).stack.dropLast := popped_succ _ _
  refine ⟨?_, ?_, hle, hinv, ?_, h.accounted, h.filled, hpend ▸ h.fill_suffix⟩
  · refine { hr with
      fqOk := hok
      staged_le := by rw [hst, List.length_append, hlen]; exact hk
      staged := ?_ }
    rw [hst, List.length_append, hlen]
    exact hwin.trans (by rw [← hr.staged, hlen])
  · exact hstack.trans hsk.symm
  -- an empty stack stages `INVALID_UMEM_FRAME`, which denotes no frame
  · have hstep : FramePool.Step numFrames chunkOf _ _ :=
      .pop (w.pool (v.stage k)) invalid_not_frame
    exact (hstep.conserved h.conserved).of_eq
      (FramePool.ext hsk hst hpend rfl rfl rfl rfl rfl rfl)

/-- How many entries a call refills: all the free ones, unless the stack is empty.
Between calls the ring believes nothing free, so any frame makes it look. -/
def stock (stack : List (BitVec 64)) (fillCount : Nat) : Nat :=
  if stack = [] then 0 else defaultNumDescs - fillCount

/-- The view after a refill of `k` entries. -/
def View.refilled (v : View) (k : Nat) : View :=
  { v with
    stack := popped v.stack k
    fqAt := v.fqAt + BitVec.ofNat 32 k
    filled := v.filled ++ refillValues v.stack k }

theorem View.refilled_zero (v : View) : v.refilled 0 = v := by
  simp [View.refilled, popped, refillValues]

/-- **The refill loop**, in the refill and in `xsk_configure_socket`. -/
theorem stageFrames_consistent {n : Nat} {idx : BitVec 32} (hs : v.staged = [])
    (hn : n ≤ v.reserved) (hidx : idx = v.fqAt) :
    Triple never (Consistent v) (stageFrames n idx) (fun _ => Consistent (v.stage n)) := by
  have h0 : v.stage 0 = v := by
    rw [View.stage, popped, Nat.sub_zero, List.take_length, refillValues, List.range_zero,
      List.map_nil, ← hs]
  have hloop := Triple.forLoop (F := never) (n := n)
    (I := fun i (j : BitVec 32) w => j = v.fqAt + BitVec.ofNat 32 i ∧ Consistent (v.stage i) w)
    (c := fun _ (idxFq : BitVec 32) => (do
      let frame ← xskAllocUmemFrame
      onFq fun r => ((), r.store idxFq frame)
      return idxFq + 1 : Xsk (BitVec 32)))
    (fun i j hi => fun w hw => stageRound_consistent (by omega) hw.1 w hw.2) idx
  unfold stageFrames
  exact hloop.conseq (fun w hw => ⟨by simp [hidx], h0.symm ▸ hw⟩) (fun _ _ hw => hw.2)

/-- Submitting every reserved fill entry. -/
theorem submitFill_consistent {k : BitVec 32} (hres : v.reserved = k.toNat)
    (hst : v.staged.length = k.toNat) :
    Triple never (Consistent v) (submitFill k) (fun _ => Consistent
      { v with
        reserved := 0, staged := [], fqAt := v.fqAt + k, filled := v.filled ++ v.staged }) := by
  intro w h
  have hr := h.rings
  obtain ⟨hok, hpend⟩ := hr.fqOk.submit (c := k) (Nat.le_of_eq hres.symm)
  have hwin : window defaultNumDescs w.fq.shared.desc w.fq.shared.producer k.toNat = v.staged := by
    rw [← hst, hr.staged]
  rw [hwin] at hpend
  have hfilled : w.hist.filled ++ (List.range k.toNat).map
      (fun j => w.fq.read (w.fq.shared.producer + BitVec.ofNat 32 j)) = w.hist.filled ++ v.staged := by
    rw [hr.fqOk.map_read, hwin]
  refine ⟨{ hr with
    fqOk := by rw [hres, Nat.sub_self] at hok; exact hok
    fqAt := ?_, fqFree := hr.fqFree, staged_le := Nat.le_refl 0, staged := rfl },
    h.stack, h.free_le, h.invalid, ?_, h.accounted, hfilled.trans (by rw [h.filled]), ?_⟩
  · show w.fq.shared.producer + (k.setWidth 64).setWidth 32 = v.fqAt + k
    rw [hr.fqAt]
    simp
  · have hstep : FramePool.Step numFrames chunkOf _ _ := .submit (p := w.pool v)
    exact (hstep.conserved h.conserved).of_eq
      (FramePool.ext rfl rfl hpend rfl rfl rfl rfl rfl rfl)
  · show (w.fq.xskRingProdSubmit (k.setWidth 64)).shared.pending defaultNumDescs <:+
      w.hist.filled ++ _
    rw [hpend, hfilled]
    obtain ⟨pre, hpre⟩ := h.fill_suffix
    exact ⟨pre, by rw [← List.append_assoc, hpre]⟩

/-- Reserving what the fill ring believes free. -/
theorem Consistent.reserveFq (h : Consistent v w) {k : BitVec 32} (hfree : v.fqFree = k.toNat)
    (hres : v.reserved = 0) (hst : v.staged = []) :
    ∃ r, w.fq.xskRingProdReserve (k.setWidth 64) 0 = ((k.setWidth 64, v.fqAt), r) ∧
      r.shared = w.fq.shared ∧
      Consistent { v with fqFree := 0, reserved := k.toNat } { w with fq := r } := by
  have hr := h.rings
  obtain ⟨heq, hok, hfree'⟩ := hr.fqOk.reserve_nbFree (c := k) (by rw [hr.fqFree, hfree]) 0
  refine ⟨{ w.fq with cachedProd := w.fq.cachedProd + k }, ?_, rfl, ?_⟩
  · rw [heq, hr.fqOk.cachedProd, hr.fqAt, hres]
    simp
  · have hnew := h.withFq (r := { w.fq with cachedProd := w.fq.cachedProd + k }) rfl hok
      (by simp [hst])
    rw [hfree'] at hnew
    simpa only [hres, Nat.zero_add] using hnew

/-- **The retry loop is not entered** when the first reservation gave what was asked
for. -/
theorem retryReserve_self (env : Env) (k rcvd idx : BitVec 32) (fuel : Nat) :
    retryReserve env k rcvd fuel k idx = pure idx := by
  cases fuel <;> exact if_pos rfl

/-- **The refill**: `stock` entries are filled from the stack, whatever the kernel does
between the accesses. -/
theorem refill_consistent (hc : env.Conforming) (rcvd : BitVec 32) (hres : v.reserved = 0)
    (hst : v.staged = []) (hfree : v.fqFree = 0) (h : Consistent v w) :
    Triple never (fun s => s = w) (refill env rcvd)
      (fun _ => Consistent (v.refilled (stock v.stack w.fq.shared.count))) := by
  have hr := h.rings
  obtain ⟨hok, hk, hsh, -, hnb⟩ := hr.fqOk.xskProdNbFree w.umemFrameFree
  generalize hkdef : w.fq.xskProdNbFree w.umemFrameFree = kr at hok hk hsh hnb
  obtain ⟨k, r⟩ := kr
  have hstock : k.toNat = stock v.stack w.fq.shared.count := by
    have hlen : v.stack.length = w.umemFrameFree.toNat := by rw [← h.stack, length_freeStack]
    rw [hk, hnb, hr.fqFree, hfree, hres, stock]
    by_cases hnil : v.stack = []
    · rw [if_pos hnil, if_pos (by rw [← hlen, hnil]; rfl)]
    -- nothing is believed free, so asking for any frame refreshes the index and returns all
    -- free entries, not only as many as there are frames
    · have := List.length_pos_iff.mpr hnil
      rw [if_neg hnil, if_neg (by omega), Nat.sub_zero]
  rw [← hstock]
  refine Triple.bind (Q := fun frames s => frames = w.umemFrameFree.setWidth 64 ∧ s = w) ?_ ?_
  · rintro s rfl
    exact ⟨rfl, rfl⟩
  intro frames
  refine Triple.bind (Q := fun s w' => s = k ∧ Consistent { v with fqFree := k.toNat } w') ?_ ?_
  · rintro s ⟨rfl, rfl⟩
    have hw : (s.umemFrameFree.setWidth 64).setWidth 32 = s.umemFrameFree := by simp
    rw [hw, onFq_eq hkdef, hk]
    exact ⟨rfl, h.withFq hsh hok hr.staged_le⟩
  intro s
  refine Triple.pure_pre ?_
  rintro rfl
  refine Triple.ite (fun _ => ?_) (fun hz => ?_)
  · refine Triple.bind (at_consistent hc .reserve) fun _ => ?_
    refine Triple.bind (Q := fun r w' => r = (s.setWidth 64, v.fqAt) ∧
      Consistent { v with fqFree := 0, reserved := s.toNat } w') ?_ ?_
    · intro w' h'
      obtain ⟨r, heq, -, hcon⟩ := h'.reserveFq (k := s) rfl hres hst
      rw [onFq_eq heq]
      exact ⟨rfl, hcon⟩
    rintro ⟨ret, idx⟩
    refine Triple.pure_pre ?_
    rintro hri
    obtain ⟨rfl, rfl⟩ := Prod.mk.inj hri
    show Triple never _ (retryReserve env s rcvd env.retries ((s.setWidth 64).setWidth 32) v.fqAt >>=
      _) _
    -- the ring already believes that many entries free, so the reservation cannot fall short
    rw [show (s.setWidth 64).setWidth 32 = s by simp, retryReserve_self, pure_bind]
    refine Triple.bind (stageFrames_consistent hst (Nat.le_refl _) rfl) fun _ => ?_
    refine Triple.bind (at_consistent hc .submit) fun _ => ?_
    refine (submitFill_consistent rfl (View.length_stage _ _)).conseq (fun _ hw => hw) ?_
    intro _ w' hw'
    have hv : { { v with fqFree := 0, reserved := s.toNat }.stage s.toNat with
        reserved := 0, staged := [], fqAt := v.fqAt + s,
        filled := v.filled ++ refillValues v.stack s.toNat } = v.refilled s.toNat := by
      apply View.ext <;> simp [View.stage, View.refilled, hres, hst, hfree]
    exact hv ▸ hw'
  · have hz : s.toNat = 0 := Nat.eq_zero_of_not_pos hz
    refine Triple.pure fun w' hw' => ?_
    rw [hz, View.refilled_zero]
    rw [hz, ← hfree] at hw'
    exact hw'

end AfXdpSwitch
