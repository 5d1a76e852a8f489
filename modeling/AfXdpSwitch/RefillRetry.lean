import AfXdpSwitch.ConfigureSocket

/-!
# The retry loop of the refill

`handle_receive_packets` asks the fill ring how many entries are free, reserves that many, and
goes into a loop if it did not get them.  The loop would reserve another number, and might never
end.  It is not entered, from any state of the ring and whatever the consumer index is at each
access: what `xsk_prod_nb_free` returns is the difference of the two private indices that it
leaves, and that is all that the reservation looks at.

The model of the loop gives up after `retries` rounds, so a refill that returns with no round
allowed has not entered it.
-/

namespace AfXdpSwitch
open Prog

namespace XskRing
variable {α : Type}

/-- The ring after the kernel has set the consumer index. -/
def withConsumer (r : XskRing α) (c : BitVec 32) : XskRing α :=
  { r with shared := { r.shared with consumer := c } }

/-- Entries are written at consecutive indices. -/
def storeFrom (r : XskRing α) (idx : BitVec 32) : List α → XskRing α
  | [] => r
  | x :: xs => (r.store idx x).storeFrom (idx + 1) xs

theorem storeFrom_snoc (r : XskRing α) (idx : BitVec 32) (xs : List α) (x : α) :
    r.storeFrom idx (xs ++ [x]) = (r.storeFrom idx xs).store (idx + BitVec.ofNat 32 xs.length) x := by
  induction xs generalizing r idx with
  | nil =>
      show r.store idx x = r.store (idx + 0#32) x
      rw [BitVec.add_zero]
  | cons y ys ih =>
      have hidx : idx + 1 + BitVec.ofNat 32 ys.length = idx + BitVec.ofNat 32 (ys.length + 1) := by
        rw [BitVec.ofNat_add, BitVec.add_comm (BitVec.ofNat 32 ys.length), ← BitVec.add_assoc]
        rfl
      rw [List.cons_append, storeFrom, ih, hidx]
      rfl

/-- A store does not touch the indices. -/
theorem storeFrom_indices (r : XskRing α) (idx : BitVec 32) (xs : List α) :
    (r.storeFrom idx xs).cachedProd = r.cachedProd ∧
      (r.storeFrom idx xs).shared.producer = r.shared.producer := by
  induction xs generalizing r idx with
  | nil => exact ⟨rfl, rfl⟩
  | cons x xs ih => exact ih (r.store idx x) (idx + 1)

/-- The slots written do not depend on the indices of the ring. -/
theorem storeFrom_desc {r r' : XskRing α} (hmask : r'.mask = r.mask)
    (hdesc : r'.shared.desc = r.shared.desc) (idx : BitVec 32) (xs : List α) :
    (r'.storeFrom idx xs).shared.desc = (r.storeFrom idx xs).shared.desc := by
  induction xs generalizing r r' idx with
  | nil => exact hdesc
  | cons x xs ih =>
      have hstore : (r'.store idx x).shared.desc = (r.store idx x).shared.desc := by
        simp only [store, slotOf, hmask, hdesc]
      have hmask' : (r'.store idx x).mask = (r.store idx x).mask := hmask
      exact ih hmask' hstore (idx + 1)

/-- `xsk_prod_nb_free` returns the difference of the private indices, and of the ring it changes
no more than the private copy of the consumer index. -/
theorem xskProdNbFree_eq (r : XskRing α) (nb : BitVec 32) :
    ∃ c, r.xskProdNbFree nb = (c - r.cachedProd, { r with cachedCons := c }) := by
  unfold xskProdNbFree
  by_cases h : nb ≤ r.cachedCons - r.cachedProd
  · exact ⟨r.cachedCons, if_pos h⟩
  · exact ⟨r.shared.consumer + r.size, if_neg h⟩

end XskRing

open XskRing

/-- Of the fill ring the kernel changes the consumer index and nothing else.  It may set it to
anything. -/
def Env.OnlyConsumes (env : Env) : Prop :=
  ∀ a w, ∃ c, (env.kernel a w).fq = w.fq.withConsumer c

/-- `xsk_prod_nb_free(fq, xsk_umem_free_frames(xsk))`. -/
def stockFrames (w : World) : BitVec 32 :=
  (w.fq.xskProdNbFree ((w.umemFrameFree.setWidth 64).setWidth 32)).1

/-- The world in which the refill reserves. -/
def atReserve (env : Env) (w : World) : World :=
  env.kernel .reserve
    { w with fq := (w.fq.xskProdNbFree ((w.umemFrameFree.setWidth 64).setWidth 32)).2 }

/-- **One reservation of `nb` entries.**  The indices from the old `cached_prod` on are reserved,
filled and submitted.  What they are filled with is taken off the free stack from the top, and
`INVALID_UMEM_FRAME` once that is empty. -/
structure RefilledOnce (stack : List (BitVec 64)) (r r' : XskRing (BitVec 64)) (nb : BitVec 32) :
    Prop where
  reserved : r'.cachedProd = r.cachedProd + nb
  filled : r'.shared.desc = (r.storeFrom r.cachedProd (refillValues stack nb.toNat)).shared.desc
  submitted : r'.shared.producer = r.shared.producer + nb
  published : r.shared.producer = r.cachedProd → r'.shared.producer = r'.cachedProd

section
variable {env : Env} {w : World}

/-- The top of the stack is taken, whatever is above it, and the ring is not touched. -/
theorem xskAllocUmemFrame_pops (stack : List (BitVec 64)) (r : XskRing (BitVec 64)) :
    Triple never (fun s => s.freeStack = stack ∧ s.fq = r) xskAllocUmemFrame
      (fun frame s => frame = stack.getLast?.getD invalidUmemFrame ∧
        s.freeStack = stack.dropLast ∧ s.fq = r) := by
  refine Triple.modifyGet fun s hs => ?_
  obtain ⟨rfl, hr⟩ := hs
  by_cases h0 : s.umemFrameFree = 0
  · have hnil : s.freeStack = [] := by simp [World.freeStack, h0]
    rw [if_pos h0]
    exact ⟨by rw [hnil]; rfl, by rw [hnil]; rfl, hr⟩
  · have hk : (s.umemFrameFree - 1).toNat + 1 = s.umemFrameFree.toNat := by bv_omega
    have hst : s.freeStack = (List.range (s.umemFrameFree - 1).toNat).map s.umemFrameAddr ++
        [s.umemFrameAddr (s.umemFrameFree - 1).toNat] := by
      rw [World.freeStack, ← hk, List.range_succ, List.map_append, List.map_singleton]
    rw [if_neg h0, hst, List.getLast?_concat, List.dropLast_concat]
    exact ⟨rfl, map_range_update _ _ _, hr⟩

/-- **The refill loop** writes what it takes off the stack, one entry at each index. -/
theorem stageFrames_stores (n : Nat) (idx : BitVec 32) (stack : List (BitVec 64))
    (r : XskRing (BitVec 64)) :
    Triple never (fun s => s.freeStack = stack ∧ s.fq = r) (stageFrames n idx)
      (fun _ s => s.fq = r.storeFrom idx (refillValues stack n)) := by
  have hloop := Triple.forLoop (F := never) (n := n)
    (I := fun k (i : BitVec 32) (s : World) => i = idx + BitVec.ofNat 32 k ∧
      s.freeStack = popped stack k ∧ s.fq = r.storeFrom idx (refillValues stack k))
    (c := fun _ (i : BitVec 32) => do
      let frame ← xskAllocUmemFrame
      onFq fun r => ((), r.store i frame)
      return i + 1) ?_ idx
  · unfold stageFrames
    refine hloop.conseq (fun s hs => ?_) fun _ s hs => hs.2.2
    exact ⟨(BitVec.add_zero idx).symm, by rw [hs.1, popped, Nat.sub_zero, List.take_length], hs.2⟩
  · intro k i _
    refine Triple.pure_pre fun hi => ?_
    refine Triple.bind (xskAllocUmemFrame_pops _ _) fun frame => ?_
    refine Triple.pure_pre fun hframe => ?_
    refine Triple.bind (Q := fun _ s => s.freeStack = popped stack (k + 1) ∧
      s.fq = r.storeFrom idx (refillValues stack (k + 1))) ?_ fun _ => ?_
    · refine Triple.modifyGet fun s hs => ⟨hs.1.trans (popped_succ stack k).symm, ?_⟩
      show s.fq.store i frame = _
      rw [hs.2, refillValues_succ, storeFrom_snoc, length_refillValues, hi, hframe]
    · refine Triple.pure fun s hs => ⟨?_, hs⟩
      rw [hi, BitVec.ofNat_add, ← BitVec.add_assoc]
      rfl

/-- The ring that the refill finds when it reserves: no index has changed but the consumer's. -/
theorem atReserve_fq (henv : env.OnlyConsumes) (w : World) :
    ∃ cons c, stockFrames w = cons - w.fq.cachedProd ∧
      (atReserve env w).fq = { w.fq with cachedCons := cons }.withConsumer c := by
  obtain ⟨cons, hfree⟩ := w.fq.xskProdNbFree_eq ((w.umemFrameFree.setWidth 64).setWidth 32)
  obtain ⟨c, hc⟩ := henv .reserve
    { w with fq := (w.fq.xskProdNbFree ((w.umemFrameFree.setWidth 64).setWidth 32)).2 }
  refine ⟨cons, c, by rw [stockFrames, hfree], ?_⟩
  rw [atReserve, hc, hfree]

/-- **The first reservation** gives what was asked for. -/
theorem reserve_stockFrames (henv : env.OnlyConsumes) (w : World) :
    (atReserve env w).fq.xskRingProdReserve ((stockFrames w).setWidth 64) 0 =
      (((stockFrames w).setWidth 64, w.fq.cachedProd),
        { (atReserve env w).fq with cachedProd := w.fq.cachedProd + stockFrames w }) := by
  obtain ⟨cons, c, hstock, hfq⟩ := atReserve_fq henv w
  have hprod : (atReserve env w).fq.cachedProd = w.fq.cachedProd := by rw [hfq]; rfl
  have hfree : (atReserve env w).fq.cachedCons - (atReserve env w).fq.cachedProd = stockFrames w := by
    rw [hfq, hstock]
    rfl
  rw [xskRingProdReserve_cached hfree, hprod]

/-- The refill without the loop: what is done once the entries are reserved. -/
def fillReserved (env : Env) (stock idxFq : BitVec 32) : Xsk Unit := do
  let _ ← stageFrames stock.toNat idxFq
  env.at .submit
  submitFill stock

/-- **The loop is not entered**, however many rounds are allowed. -/
theorem refill_eq (henv : env.OnlyConsumes) (retries : Nat) (rcvd : BitVec 32) (w : World)
    (hstock : 0 < stockFrames w) : refill { env with retries := retries } rcvd w =
      fillReserved env (stockFrames w) w.fq.cachedProd { atReserve env w with
        fq := { (atReserve env w).fq with cachedProd := w.fq.cachedProd + stockFrames w } } := by
  have hframes : xskUmemFreeFrames w = .ok (w.umemFrameFree.setWidth 64, w) := rfl
  have hfree : onFq (·.xskProdNbFree ((w.umemFrameFree.setWidth 64).setWidth 32)) w =
      .ok (stockFrames w, { w with
        fq := (w.fq.xskProdNbFree ((w.umemFrameFree.setWidth 64).setWidth 32)).2 }) := rfl
  have hat : Env.at { env with retries := retries } .reserve { w with
      fq := (w.fq.xskProdNbFree ((w.umemFrameFree.setWidth 64).setWidth 32)).2 } =
        .ok ((), atReserve env w) := rfl
  have hback : ((stockFrames w).setWidth 64).setWidth 32 = stockFrames w := by simp
  unfold refill
  rw [Prog.bind_ok hframes, Prog.bind_ok hfree, if_pos hstock, Prog.bind_ok hat,
    Prog.bind_ok (onFq_eq (reserve_stockFrames henv w))]
  simp only [hback]
  rw [retryReserve_self, pure_bind]
  rfl

theorem refill_none (retries : Nat) (rcvd : BitVec 32) (w : World) (hstock : ¬ 0 < stockFrames w) :
    refill { env with retries := retries } rcvd w = .ok ((), { w with
      fq := (w.fq.xskProdNbFree ((w.umemFrameFree.setWidth 64).setWidth 32)).2 }) := by
  have hframes : xskUmemFreeFrames w = .ok (w.umemFrameFree.setWidth 64, w) := rfl
  have hfree : onFq (·.xskProdNbFree ((w.umemFrameFree.setWidth 64).setWidth 32)) w =
      .ok (stockFrames w, { w with
        fq := (w.fq.xskProdNbFree ((w.umemFrameFree.setWidth 64).setWidth 32)).2 }) := rfl
  unfold refill
  rw [Prog.bind_ok hframes, Prog.bind_ok hfree, if_neg hstock]
  rfl

/-- What is reserved is filled and submitted. -/
theorem fillReserved_done (henv : env.OnlyConsumes) (stock idx : BitVec 32) (w : World) :
    ∃ w', fillReserved env stock idx w = .ok ((), w') ∧
      w'.fq.cachedProd = w.fq.cachedProd ∧
      w'.fq.shared.producer = w.fq.shared.producer + stock ∧
      w'.fq.shared.desc = (w.fq.storeFrom idx (refillValues w.freeStack stock.toNat)).shared.desc := by
  obtain ⟨i, w₁, hstage, hfq⟩ :=
    (stageFrames_stores stock.toNat idx w.freeStack w.fq).exists_ok (s := w) ⟨rfl, rfl⟩
  obtain ⟨c, hc⟩ := henv .submit w₁
  obtain ⟨hprod, hshared⟩ := w.fq.storeFrom_indices idx (refillValues w.freeStack stock.toNat)
  have hat : env.at .submit w₁ = .ok ((), env.kernel .submit w₁) := rfl
  have hback : (stock.setWidth 64).setWidth 32 = stock := by simp
  obtain ⟨w', hsubmit, hfq'⟩ : ∃ w', submitFill stock (env.kernel .submit w₁) = .ok ((), w') ∧
      w'.fq = (env.kernel .submit w₁).fq.xskRingProdSubmit (stock.setWidth 64) := ⟨_, rfl, rfl⟩
  rw [hc, hfq] at hfq'
  refine ⟨w', ?_, ?_, ?_, ?_⟩
  · unfold fillReserved
    rw [Prog.bind_ok hstage, Prog.bind_ok hat, hsubmit]
  · rw [hfq', ← hprod]
    rfl
  · rw [hfq', ← hshared]
    show _ + (stock.setWidth 64).setWidth 32 = _
    rw [hback]
    rfl
  · rw [hfq']
    rfl

end

theorem refill_once {env : Env} (henv : env.OnlyConsumes) (w : World) :
    ∃ w', (∀ retries rcvd, refill { env with retries := retries } rcvd w = .ok ((), w')) ∧
      RefilledOnce (atReserve env w).freeStack w.fq w'.fq (stockFrames w) := by
  by_cases hstock : 0 < stockFrames w
  · obtain ⟨w', hrun, hprod, hsub, hdesc⟩ := fillReserved_done henv (stockFrames w)
      w.fq.cachedProd { atReserve env w with
        fq := { (atReserve env w).fq with cachedProd := w.fq.cachedProd + stockFrames w } }
    obtain ⟨cons, c, -, hfq⟩ := atReserve_fq henv w
    have hsub' : w'.fq.shared.producer = w.fq.shared.producer + stockFrames w := by
      rw [hsub]
      show (atReserve env w).fq.shared.producer + _ = _
      rw [hfq]
      rfl
    refine ⟨w', fun retries rcvd => ?_, hprod, ?_, hsub', fun hsync => ?_⟩
    · rw [refill_eq henv retries rcvd w hstock, hrun]
    · rw [hdesc]
      refine storeFrom_desc ?_ ?_ _ _
      · show (atReserve env w).fq.mask = _
        rw [hfq]
        rfl
      · show (atReserve env w).fq.shared.desc = _
        rw [hfq]
        rfl
    · rw [hsub', hprod, hsync]
  · have hzero : stockFrames w = 0#32 := by
      apply BitVec.eq_of_toNat_eq
      exact Nat.eq_zero_of_not_pos hstock
    obtain ⟨cons, hfree⟩ := w.fq.xskProdNbFree_eq ((w.umemFrameFree.setWidth 64).setWidth 32)
    refine ⟨_, fun retries rcvd => refill_none retries rcvd w hstock, ?_, ?_, ?_, ?_⟩
    · rw [hfree, hzero, BitVec.add_zero]
    · rw [hfree, hzero]
      rfl
    · rw [hfree, hzero, BitVec.add_zero]
    · rw [hfree]
      exact id

/-! ## The whole call

Nothing else in `handle_receive_packets` can run for ever: its other loops are counted. -/

/-- The program returns or fails an assertion. -/
def Finishes {β : Type} (c : Xsk β) : Prop :=
  Triple (· = .assertFailed) (fun _ => True) c (fun _ _ => True)

namespace Finishes
variable {β γ : Type} {c d : Xsk β} {f : β → Xsk γ}

theorem bind (hc : Finishes c) (hf : ∀ b, Finishes (f b)) : Finishes (c >>= f) := Triple.bind hc hf

theorem pure (b : β) : Finishes (pure b : Xsk β) := Triple.pure fun _ _ => trivial

theorem modifyGet (g : World → β × World) : Finishes (modifyGet g : Xsk β) :=
  Triple.modifyGet fun _ _ => trivial

theorem get : Finishes (get : Xsk World) := Triple.get fun _ _ => trivial

theorem ite {b : Prop} [Decidable b] (hc : Finishes c) (hd : Finishes d) :
    Finishes (if b then c else d) := Triple.ite (fun _ => hc) fun _ => hd

theorem access (env : Env) (a : Access) : Finishes (env.at a) := modifyGet _

theorem forLoop {body : Nat → β → Xsk β} (n : Nat) (h : ∀ i b, Finishes (body i b)) (b : β) :
    Finishes (Prog.forLoop n body b) :=
  Triple.forLoop (I := fun _ _ _ => True) (fun i b _ => h i b) b

theorem xskFreeUmemFrame (frame : BitVec 64) : Finishes (xskFreeUmemFrame frame) :=
  get.bind fun _ => ite (modifyGet _) (Triple.throw fun _ _ => rfl)

theorem processPacket (env : Env) (i : Nat) (addr : BitVec 64) (len : BitVec 32) :
    Finishes (processPacket env i addr len) := by
  refine get.bind fun w => ite (pure false) ?_
  refine (modifyGet _).bind fun _ => (Finishes.access env _).bind fun _ => ?_
  refine (modifyGet _).bind fun _ => ite (pure false) ?_
  refine (modifyGet _).bind fun _ => (Finishes.access env _).bind fun _ => ?_
  exact (modifyGet _).bind fun _ => (modifyGet _).bind fun _ => (modifyGet _).bind fun _ => pure true

theorem handlePacket (env : Env) (i : Nat) (desc : XdpDesc) : Finishes (handlePacket env i desc) := by
  refine (processPacket env i _ _).bind fun sent => ?_
  cases sent with
  | true => exact modifyGet _
  | false => exact (xskFreeUmemFrame _).bind fun _ => modifyGet _

theorem processPackets (env : Env) (rcvd idxRx : BitVec 32) :
    Finishes (processPackets env rcvd idxRx) :=
  forLoop _ (fun i _ => (Finishes.access env _).bind fun _ => get.bind fun _ =>
    (handlePacket env i _).bind fun _ => pure _) _

theorem completeTx (env : Env) : Finishes (completeTx env) := by
  refine get.bind fun w => ite (modifyGet _) ?_
  refine (Finishes.access env _).bind fun _ => (Finishes.access env _).bind fun _ => ?_
  refine (modifyGet _).bind fun _ => ite ?_ (pure _)
  refine (forLoop _ (fun _ _ => get.bind fun _ => (xskFreeUmemFrame _).bind fun _ => pure _) _).bind
    fun _ => ?_
  exact (Finishes.access env _).bind fun _ => (modifyGet _).bind fun _ => modifyGet _

theorem refill {env : Env} (henv : env.OnlyConsumes) (rcvd : BitVec 32) :
    Finishes (refill env rcvd) := by
  intro w _
  obtain ⟨w', hrun, -⟩ := refill_once henv w
  rw [show AfXdpSwitch.refill env rcvd w = .ok ((), w') from hrun env.retries rcvd]
  trivial

theorem handleReceivePackets {env : Env} (henv : env.OnlyConsumes) :
    Finishes (handleReceivePackets env) := by
  refine (Finishes.access env _).bind fun _ => (modifyGet _).bind fun _ => ite (pure _) ?_
  refine (Finishes.access env _).bind fun _ => (refill henv _).bind fun _ => ?_
  refine (processPackets env _ _).bind fun _ => (Finishes.access env _).bind fun _ => ?_
  exact ((modifyGet _).bind fun _ => modifyGet _).bind fun _ => completeTx env

end Finishes

/-- **The retry loop is never entered.**  From every state of the fill ring, for every number of
free frames, and whatever the consumer index is at each access, the first reservation gives what
was asked for.  The refill then returns even if the loop may not be entered at all; the indices that
it has reserved are those that it has filled, with what was on the free stack when it reserved them,
and submitted, and the call as a whole does not get stuck. -/
theorem refill_never_retries (env : Env) (henv : env.OnlyConsumes) (w : World) :
    ((atReserve env w).fq.xskRingProdReserve ((stockFrames w).setWidth 64) 0).1 =
      ((stockFrames w).setWidth 64, w.fq.cachedProd) ∧
    (∃ w', (∀ retries rcvd, refill { env with retries := retries } rcvd w = .ok ((), w')) ∧
      RefilledOnce (atReserve env w).freeStack w.fq w'.fq (stockFrames w)) ∧
    handleReceivePackets env w ≠ .error .outOfRetries := by
  refine ⟨by rw [reserve_stockFrames henv w], refill_once henv w, fun hstuck => ?_⟩
  have hfinishes := Finishes.handleReceivePackets henv w trivial
  rw [hstuck] at hfinishes
  cases hfinishes

/-- A kernel that has set the consumer index to another value at each access. -/
def Env.restless : Env where
  kernel a w := { w with fq := w.fq.withConsumer (match a with
    | .stock => 0xFFFFFFFF
    | .reserve => 7
    | _ => 0) }
  retries := 0

/-- A fill ring of four entries of which the indices are about to wrap, with three frames free. -/
def threeFree : World :=
  { World.created fun _ => 0 with
    fq := ⟨0xFFFFFFFE, 0xFFFFFFFE, 3, 4, ⟨0xFFFFFFFE, 0xFFFFFFFE, fun _ => 0⟩⟩
    umemFrameAddr := fun i => BitVec.ofNat 64 (i * frameSize)
    umemFrameFree := 3 }

/-- All four entries are reserved.  Three of them get the frames, from the top of the stack, and the
last one `INVALID_UMEM_FRAME`. -/
theorem refill_never_retries_restless :
    Env.restless.OnlyConsumes ∧ stockFrames threeFree = 4 ∧
    ∃ w', refill Env.restless 1 threeFree = .ok ((), w') ∧
      w'.fq.cachedProd = 2 ∧ w'.fq.shared.producer = 2 ∧
      (List.range 4).map w'.fq.shared.desc = [0, invalidUmemFrame, 8192, 4096] := by
  have henv : Env.restless.OnlyConsumes := fun _ _ => ⟨_, rfl⟩
  have hstock : stockFrames threeFree = 4 := by decide
  obtain ⟨-, ⟨w', hrun, hdone⟩, -⟩ := refill_never_retries Env.restless henv threeFree
  refine ⟨henv, hstock, w', hrun 0 1, ?_, ?_, ?_⟩
  · rw [hdone.reserved, hstock]
    decide
  · rw [hdone.submitted, hstock]
    decide
  · rw [hdone.filled, hstock]
    decide

end AfXdpSwitch
