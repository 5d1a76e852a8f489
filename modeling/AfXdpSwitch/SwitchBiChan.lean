import AfXdpSwitch.TwoPorts

/-!
# `switch_bi_chan.go`: one goroutine for each `forwardFrames` call

Each socket has a goroutine that refills it for ever and one that polls it.  Whenever a
poll goroutine finds something received it starts a new goroutine for `forwardFrames` and
goes on without waiting for it, so any number of them may be under way.

They share the output socket.  `GetDescs` hands out chunks to send from, but only
`Transmit` marks them as used, and the descriptors live in one buffer of the socket: two
calls that overlap get the same chunks, and `tx_chunk_sent_twice` is such a run.  Chunks
are sent once as long as no call gets chunks to send from while another has some
(`Alone`).  Calls that find no frame to send may overlap with anything: they overwrite the
buffer, but what they write there are free chunks in ascending order again.

What happens to the results that are sent through the channel does not matter here.
-/

namespace AfXdpSwitch.Xdp
open SpscRing SlotLane

namespace SwitchBiChan

/-- Where a poll goroutine is. -/
inductive PollPc
  | poll
  | testIn
  | testOut
  | complete (pc : CompletePc)
deriving DecidableEq

/-- The refill goroutines, the poll goroutines and the running `forwardFrames` calls, each
with its input side. -/
structure Ctl where
  fill : Side → FillPc
  poll : Side → PollPc
  fwd : Nat → Option (Side × FwdPc)

/-- The refill goroutine of side `s` makes a step. -/
def refiller (w : World Ctl) (s : Side) : World Ctl :=
  let (p, next) := (w.ctl.fill s).step (w.port s)
  ⟨Function.update w.port s p,
    { w.ctl with fill := Function.update w.ctl.fill s (next.getD .numFreeFillSlots) }⟩

/-- The poll goroutine of side `s` makes a step; `k` is the number of the goroutine it may
start. -/
def poller (w : World Ctl) (s : Side) (ans : Answer) (k : Nat) : World Ctl :=
  let goto (pc : PollPc) : Ctl := { w.ctl with poll := Function.update w.ctl.poll s pc }
  match w.ctl.poll s with
  | .poll =>
      match ans with
      | .eintr => ⟨w.port, goto .poll⟩
      | _ => ⟨w.port, goto .testIn⟩
  | .testIn =>
      match ans with
      | .set => ⟨w.port, { goto .testOut with
          fwd := Function.update w.ctl.fwd k (some (s, .numReceived)) }⟩
      | _ => ⟨w.port, goto .testOut⟩
  | .testOut =>
      match ans with
      | .set => ⟨w.port, goto (.complete .numCompleted)⟩
      | _ => ⟨w.port, goto .poll⟩
  | .complete pc =>
      let (p, next) := pc.step (w.port s)
      ⟨Function.update w.port s p, goto (next.elim .poll .complete)⟩

/-- A `forwardFrames` call from side `s` makes a step. -/
def forwarder (w : World Ctl) (k : Nat) (s : Side) (pc : FwdPc) : World Ctl :=
  let next := (pc.step (w.port s) (w.port s.other)).2.2
  ⟨forwardPorts w.port s pc,
    { w.ctl with fwd := Function.update w.ctl.fwd k (next.map (s, ·)) }⟩

/-- Steps of the goroutines, with a condition on those of `forwardFrames`. -/
inductive Go (allowed : World Ctl → Nat → Prop) : World Ctl → World Ctl → Prop
  | refiller {w} (s : Side) : Go allowed w (refiller w s)
  | poller {w k} (s : Side) (ans : Answer) (h : w.ctl.fwd k = none) :
      Go allowed w (poller w s ans k)
  | forwarder {w k s pc} (h : w.ctl.fwd k = some (s, pc)) (ha : allowed w k) :
      Go allowed w (forwarder w k s pc)

def Ctl.init : Ctl := ⟨fun _ => .numFreeFillSlots, fun _ => .poll, fun _ => none⟩

/-- The states of all runs in which the `forwardFrames` calls meet a condition. -/
abbrev Visited (allowed : World Ctl → Nat → Prop) : World Ctl → Prop :=
  Reachable (Go allowed) Ctl.init

/-- If the next step of call `k` is `GetDescs` and gives it chunks for the frames it has
received, then no call with the same output has chunks to send from that it has not
transmitted. -/
def Alone (w : World Ctl) (k : Nat) : Prop :=
  ∀ s len n, w.ctl.fwd k = some (s, .getDescs len n) →
    0 < min len ((w.port s.other).xsk.freeTx n).length →
      ∀ k' pc, w.ctl.fwd k' = some (s, pc) → pc.outLen = 0

/-! ## What a call holds -/

/-- The destination of the next copy: a free chunk of the second half, which need not be
the one in the buffer any more. -/
def OutOk (q : Port) (out : ByteSlice) : Prop :=
  ∃ c, out.off = c * 2048 ∧ out.len ≤ 2048 ∧ 64 ≤ c ∧ c < 128 ∧ q.xsk.freeTXDescs c = true

/-- The local variables of a call that matter for the output `q`. -/
def OutLocals (q : Port) : FwdPc → Prop
  | .outFrame len i _ => i < len
  | .inFrame len i _ out => i < len ∧ OutOk q out
  | .copy len i _ out _ => i < len ∧ OutOk q out
  | _ => True

/-- What a call with output `q` has in its hands to send from: free chunks, ascending. -/
structure Holds (q : Port) (pc : FwdPc) : Prop where
  ascending : ∀ i j, i < j → j < pc.outLen →
    chunkOf (q.xsk.getTXDescs i).addr < chunkOf (q.xsk.getTXDescs j).addr
  range : ∀ j, j < pc.outLen → 64 ≤ chunkOf (q.xsk.getTXDescs j).addr ∧
    chunkOf (q.xsk.getTXDescs j).addr < 128
  free : ∀ j, j < pc.outLen → q.xsk.freeTXDescs (chunkOf (q.xsk.getTXDescs j).addr) = true
  fresh : ∀ j, pc.done ≤ j → j < pc.outLen → Target (q.xsk.getTXDescs j) 2048
  locals : OutLocals q pc

variable {q q' : Port} {pc : FwdPc} {n len i k : Nat}

/-- A call with nothing to send from. -/
theorem Holds.of_zero (h : pc.outLen = 0) (hl : OutLocals q pc) : Holds q' pc where
  ascending := fun _ j _ hj => absurd (h ▸ hj) (Nat.not_lt_zero j)
  range := fun j hj => absurd (h ▸ hj) (Nat.not_lt_zero j)
  free := fun j hj => absurd (h ▸ hj) (Nat.not_lt_zero j)
  fresh := fun j _ hj => absurd (h ▸ hj) (Nat.not_lt_zero j)
  locals := by
    cases pc with
    | outFrame len i k => exact absurd (h ▸ hl : i < 0) (Nat.not_lt_zero i)
    | inFrame len i k out => exact absurd (h ▸ hl.1 : i < 0) (Nat.not_lt_zero i)
    | copy len i k out inp => exact absurd (h ▸ hl.1 : i < 0) (Nat.not_lt_zero i)
    | _ => trivial

/-- What is held stays held while the buffer is left alone and no chunk is put in use. -/
theorem Holds.congr (h : Holds q pc) (hbuf : q'.xsk.getTXDescs = q.xsk.getTXDescs)
    (hfree : ∀ c, q.xsk.freeTXDescs c = true → q'.xsk.freeTXDescs c = true) : Holds q' pc where
  ascending := by rw [hbuf]; exact h.ascending
  range := by rw [hbuf]; exact h.range
  free := fun j hj => by rw [hbuf]; exact hfree _ (h.free j hj)
  fresh := by rw [hbuf]; exact h.fresh
  locals := by
    have hout : ∀ out, OutOk q out → OutOk q' out := by
      rintro out ⟨c, h1, h2, h3, h4, hf⟩
      exact ⟨c, h1, h2, h3, h4, hfree c hf⟩
    have hl := h.locals
    cases pc with
    | outFrame => exact hl
    | inFrame len i k out => exact ⟨hl.1, hout out hl.2⟩
    | copy len i k out inp => exact ⟨hl.1, hout out hl.2⟩
    | _ => trivial

theorem Holds.notes (h : Holds q pc) (hs : TxNotes q q') : Holds q' pc :=
  h.congr hs.getTXDescs fun c hc => by rw [hs.freeTXDescs]; exact hc

/-- The chunks a call holds. -/
theorem Holds.held (h : Holds q pc) : Held 64 128 q.xsk.freeTXDescs
    ((slice q.xsk.getTXDescs pc.outLen).map fun d => chunkOf d.addr) := by
  have hmem : ∀ c ∈ (slice q.xsk.getTXDescs pc.outLen).map fun d => chunkOf d.addr,
      ∃ j, j < pc.outLen ∧ chunkOf (q.xsk.getTXDescs j).addr = c := by
    intro c hc
    obtain ⟨d, hd, rfl⟩ := List.mem_map.mp hc
    obtain ⟨j, hj, rfl⟩ := List.mem_map.mp hd
    exact ⟨j, List.mem_range.mp hj, rfl⟩
  refine ⟨?_, fun c hc => ?_, fun c hc => ?_⟩
  · unfold slice
    rw [List.map_map]
    refine List.Nodup.map_on ?_ List.nodup_range
    intro a ha b hb he
    have ha := List.mem_range.mp ha
    have hb := List.mem_range.mp hb
    rcases Nat.lt_trichotomy a b with hab | hab | hab
    · exact absurd he (Nat.ne_of_lt (h.ascending a b hab hb))
    · exact hab
    · exact absurd he (Nat.ne_of_gt (h.ascending b a hab ha))
  · obtain ⟨j, hj, rfl⟩ := hmem c hc
    exact h.range j hj
  · obtain ⟨j, hj, rfl⟩ := hmem c hc
    exact h.free j hj

/-! ## Steps of `forwardFrames` -/

/-- The output port after `GetDescs(n, false)`. -/
abbrev gotDescs (q : Port) (n : Nat) : Port := q.setXsk { q.xsk with
  getTXDescs := refilled q.xsk.getTXDescs ((q.xsk.freeTx n).map Socket.chunkDesc) }

/-- A call that gets chunks holds them. -/
theorem holds_gotDescs (hk : k ≤ (q.xsk.freeTx n).length) : Holds (gotDescs q n) (.loop k 0 0) := by
  have hheld := held_freeTx q.xsk n
  have hasc := List.pairwise_iff_getElem.mp (firstFree_ascending 64 128 q.xsk.freeTXDescs (min n 64))
  have hchunk : ∀ j, (hj : j < k) → chunkOf ((gotDescs q n).xsk.getTXDescs j).addr =
      (q.xsk.freeTx n)[j] := fun j hj => chunkOf_refilled _ freeTx_lt (Nat.lt_of_lt_of_le hj hk)
  refine ⟨fun i j hij hj => ?_, fun j hj => ?_, fun j hj => ?_, fun j _ hj => ?_, ?_⟩
  · rw [FwdPc.outLen_loop] at hj
    rw [hchunk i (by omega), hchunk j hj]
    exact hasc i j (by show _ < (q.xsk.freeTx n).length; omega) (by
      show _ < (q.xsk.freeTx n).length
      omega) hij
  · rw [FwdPc.outLen_loop] at hj
    rw [hchunk j hj]
    exact hheld.range _ (List.getElem_mem _)
  · rw [FwdPc.outLen_loop] at hj
    rw [hchunk j hj]
    exact hheld.free _ (List.getElem_mem _)
  · rw [FwdPc.outLen_loop] at hj
    exact target_chunkDesc _ freeTx_lt (Nat.lt_of_lt_of_le hj hk)
  · unfold FwdPc.loop
    split
    · exact ‹0 < k›
    · trivial

/-- The chunks a search finds are no larger than those a call holds. -/
theorem Holds.chunk_ge (h : Holds q pc) {j : Nat} (hj : j < (q.xsk.freeTx n).length)
    (hjo : j < pc.outLen) : (q.xsk.freeTx n)[j] ≤ chunkOf (q.xsk.getTXDescs j).addr := by
  obtain ⟨l, hl⟩ : ∃ l, l = (slice q.xsk.getTXDescs pc.outLen).map fun d => chunkOf d.addr :=
    ⟨_, rfl⟩
  have hlen : l.length = pc.outLen := by rw [hl, List.length_map, length_slice]
  have hget : ∀ i, (hi : i < l.length) → l[i] = chunkOf (q.xsk.getTXDescs i).addr := by
    intro i hi
    simp [hl, slice]
  have hasc : l.Pairwise (· < ·) := by
    refine List.pairwise_iff_getElem.mpr fun a b ha hb hab => ?_
    rw [hget a ha, hget b hb]
    exact h.ascending a b hab (hlen ▸ hb)
  have hheld := h.held
  rw [← hl] at hheld
  have hle := firstFree_le (n := min n 64) hasc
    (fun i hi => ⟨(hheld.range i hi).1, (hheld.range i hi).2, hheld.free i hi⟩) hj
    (hlen ▸ hjo : j < l.length)
  rwa [hget] at hle

/-- A call that gets no chunks writes over the buffer of one that holds some.  What that
one holds afterwards are again free chunks in ascending order: the chunks just found are
the smallest free ones, so none is larger than the one it replaces. -/
theorem Holds.gotDescs (h : Holds q pc) (n : Nat) : Holds (gotDescs q n) pc := by
  have hheld := held_freeTx q.xsk n
  have hnew : ∀ j, (hj : j < (q.xsk.freeTx n).length) →
      chunkOf ((SwitchBiChan.gotDescs q n).xsk.getTXDescs j).addr = (q.xsk.freeTx n)[j] :=
    fun j hj => chunkOf_refilled _ freeTx_lt hj
  have hold : ∀ j, (q.xsk.freeTx n).length ≤ j →
      (SwitchBiChan.gotDescs q n).xsk.getTXDescs j = q.xsk.getTXDescs j :=
    fun j hj => refilled_of_le _ (by rwa [List.length_map])
  have hle : ∀ j, (hj : j < (q.xsk.freeTx n).length) → j < pc.outLen →
      (q.xsk.freeTx n)[j] ≤ chunkOf (q.xsk.getTXDescs j).addr := fun j hj hjo => h.chunk_ge hj hjo
  refine ⟨fun i j hij hj => ?_, fun j hj => ?_, fun j hj => ?_, fun j hd hj => ?_, h.locals⟩
  -- both replaced, only the smaller index replaced, or neither
  · rcases Nat.lt_or_ge j (q.xsk.freeTx n).length with hjm | hjm
    · rw [hnew i (by omega), hnew j hjm]
      exact List.pairwise_iff_getElem.mp (firstFree_ascending ..) i j _ _ hij
    · rw [hold j hjm]
      have hcj := h.ascending i j hij hj
      rcases Nat.lt_or_ge i (q.xsk.freeTx n).length with him | him
      · rw [hnew i him]
        exact Nat.lt_of_le_of_lt (hle i him (by omega)) hcj
      · rw [hold i him]
        exact hcj
  · rcases Nat.lt_or_ge j (q.xsk.freeTx n).length with hjm | hjm
    · rw [hnew j hjm]
      exact hheld.range _ (List.getElem_mem _)
    · rw [hold j hjm]
      exact h.range j hj
  · rcases Nat.lt_or_ge j (q.xsk.freeTx n).length with hjm | hjm
    · rw [hnew j hjm]
      exact hheld.free _ (List.getElem_mem _)
    · rw [hold j hjm]
      exact h.free j hj
  · rcases Nat.lt_or_ge j (q.xsk.freeTx n).length with hjm | hjm
    · exact target_chunkDesc _ freeTx_lt hjm
    · rw [hold j hjm]
      exact h.fresh j hd hj

theorem step_getDescs (p q : Port) (len n : Nat) :
    (FwdPc.getDescs len n).step p q = (p, gotDescs q n,
      some (.loop (min len (q.xsk.freeTx n).length) 0 0)) := by
  have hg := q.xsk.getDescs_tx n
  show (p, q.setXsk (q.xsk.getDescs n false).2, some (FwdPc.loop
    (if len > (q.xsk.getDescs n false).1 then (q.xsk.getDescs n false).1 else len) 0 0)) = _
  rw [hg, Socket.clamp]

/-- Writing a length into the buffer and bytes into the UMEM does not change which chunks
are held. -/
theorem Holds.copied (h : Holds q (.copy len i k out inp)) (umem : ByteMemory) (n : BitVec 32) :
    Holds { q with
      xsk.umem := umem
      xsk.getTXDescs := Function.update q.xsk.getTXDescs i
        { q.xsk.getTXDescs i with len := n } } (.loop len (i + 1) k) := by
  have hi : i < len := h.locals.1
  obtain ⟨buf, hbuf⟩ : ∃ buf, buf = Function.update q.xsk.getTXDescs i
      { q.xsk.getTXDescs i with len := n } := ⟨_, rfl⟩
  have haddr : ∀ j, (buf j).addr = (q.xsk.getTXDescs j).addr := by
    intro j
    by_cases hj : j = i
    · rw [hj, hbuf, Function.update_self]
    · rw [hbuf, Function.update_of_ne hj]
  rw [← hbuf]
  refine ⟨fun a b hab hb => ?_, fun j hj => ?_, fun j hj => ?_, fun j hd hj => ?_, ?_⟩
  · rw [FwdPc.outLen_loop] at hb
    show chunkOf (buf a).addr < chunkOf (buf b).addr
    rw [haddr, haddr]
    exact h.ascending a b hab hb
  · rw [FwdPc.outLen_loop] at hj
    show 64 ≤ chunkOf (buf j).addr ∧ chunkOf (buf j).addr < 128
    rw [haddr]
    exact h.range j hj
  · rw [FwdPc.outLen_loop] at hj
    show q.xsk.freeTXDescs (chunkOf (buf j).addr) = true
    rw [haddr]
    exact h.free j hj
  · rw [FwdPc.outLen_loop] at hj
    rw [FwdPc.done_loop hi] at hd
    show Target (buf j) 2048
    rw [hbuf, Function.update_of_ne (by omega)]
    exact h.fresh j (Nat.le_of_succ_le hd) hj
  · unfold FwdPc.loop
    split
    · exact ‹i + 1 < len›
    · trivial

/-- **A call after its own step.** -/
theorem Holds.step (h : Holds q pc) (p : Port) :
    Holds (pc.step p q).2.1 ((pc.step p q).2.2.getD .numReceived) := by
  cases pc with
  | numReceived => exact .of_zero (q := q) rfl trivial
  | receive num => exact .of_zero (q := q) rfl trivial
  | numFreeTxSlots len => exact .of_zero (q := q) rfl trivial
  | getDescs len n =>
      rw [step_getDescs]
      exact holds_gotDescs (Nat.min_le_right _ _)
  | outFrame len i k =>
      have hi : i < len := h.locals
      have ht := h.fresh i (Nat.le_refl i) hi
      obtain ⟨h64, h128⟩ := h.range i hi
      exact { h with locals := ⟨hi, _, ht.start, Nat.le_of_eq ht.len, h64, h128, h.free i hi⟩ }
  | inFrame len i k out => exact { h with locals := h.locals }
  | copy len i k out inp => exact h.copied _ _
  | transmit len k => exact .of_zero (q := q) rfl trivial

/-- **A call after a step of another one** with the same output.  They may not both have
chunks to send from. -/
theorem Holds.other (h : Holds q pc) {pc' : FwdPc} (h' : Holds q pc') (p : Port)
    (hout : 0 < pc'.outLen → pc.outLen = 0) : Holds (pc'.step p q).2.1 pc := by
  have hidle : 0 < pc'.outLen → Holds (pc'.step p q).2.1 pc := fun h0 =>
    .of_zero (hout h0) h.locals
  cases pc' with
  | numReceived => exact h
  | receive num => exact h
  | numFreeTxSlots len => exact h
  | getDescs len n =>
      rw [step_getDescs]
      exact h.gotDescs n
  | outFrame len i k => exact h
  | inFrame len i k out => exact h
  | copy len i k out inp => exact hidle (Nat.zero_lt_of_lt (h'.locals.1 : i < len))
  | transmit len k =>
      rcases Nat.eq_zero_or_pos len with rfl | h0
      · exact h.congr rfl fun c hc => hc
      · exact hidle h0

/-- **The send pipeline after a step of a call.** -/
theorem Holds.txOk (h : Holds q pc) (htx : TxOk q) (p : Port) : TxOk (pc.step p q).2.1 := by
  cases pc with
  | getDescs len n =>
      rw [step_getDescs]
      exact { htx with }
  | copy len i k out inp => exact { htx with }
  | transmit len k =>
      have ht := (htx.transmit h.held).2
      exact ⟨ht.lane, ht.num⟩
  | _ => exact htx

/-! ## The invariant -/

/-- Where the completion code is. -/
def PollPc.compPc : PollPc → CompletePc
  | complete pc => pc
  | _ => .numCompleted

structure Ok (w : World Ctl) : Prop where
  tx : ∀ o, TxOk (w.port o)
  completing : ∀ o, CompleteOk (w.port o) (w.ctl.poll o).compPc
  holds : ∀ k s pc, w.ctl.fwd k = some (s, pc) → Holds (w.port s.other) pc
  exclusive : ∀ k k' s pc pc', w.ctl.fwd k = some (s, pc) → w.ctl.fwd k' = some (s, pc') →
    0 < pc.outLen → 0 < pc'.outLen → k = k'

variable {w : World Ctl}

theorem Ok.start : Ok ⟨fun _ => newPort, Ctl.init⟩ where
  tx := fun _ => TxOk.new
  completing := fun _ => trivial
  holds := fun _ _ _ h => nomatch h
  exclusive := fun _ _ _ _ _ h => nomatch h

/-- One port changes, and nothing that calls hold. -/
theorem Ok.set_port (h : Ok w) (t : Side) {p : Port} {ctl : Ctl} (hfwd : ctl.fwd = w.ctl.fwd)
    (hpoll : ∀ o, o ≠ t → (ctl.poll o).compPc = (w.ctl.poll o).compPc) (htx : TxOk p)
    (hcomp : CompleteOk p (ctl.poll t).compPc)
    (hholds : ∀ pc, Holds (w.port t) pc → Holds p pc) :
    Ok ⟨Function.update w.port t p, ctl⟩ where
  tx := fun o => by
    by_cases ho : o = t
    · rw [ho]; simpa using htx
    · simpa [ho] using h.tx o
  completing := fun o => by
    by_cases ho : o = t
    · rw [ho]; simpa using hcomp
    · rw [hpoll o ho]; simpa [ho] using h.completing o
  holds := fun k s pc hk => by
    have hh := h.holds k s pc (hfwd ▸ hk)
    by_cases ho : s.other = t
    · rw [ho] at hh ⊢; simpa using hholds pc hh
    · simpa [ho] using hh
  exclusive := by
    simp only [hfwd]
    exact h.exclusive

theorem Ok.kernel (h : Ok w) (s : Side) {p' : Port} (hs : KernelStep (w.port s) p') :
    Ok { w with port := Function.update w.port s p' } := by
  rcases hs with hs | hs
  · have hn := hs.txNotes
    exact h.set_port s rfl (fun _ _ => rfl) ((h.tx s).same hn) ((h.completing s).same hn)
      fun pc hh => hh.notes hn
  · refine h.set_port s rfl (fun _ _ => rfl) ((h.tx s).txStep hs) ((h.completing s).txStep hs)
      fun pc hh => ?_
    cases hs with
    | takeTx | complete => exact hh.congr rfl fun c hc => hc

theorem Ok.refiller (h : Ok w) (s : Side) : Ok (refiller w s) := by
  have hn := (FillPc.step_txSame (w.port s) (w.ctl.fill s)).toTxNotes
  exact h.set_port s rfl (fun _ _ => rfl) ((h.tx s).same hn) ((h.completing s).same hn)
    fun pc hh => hh.notes hn

/-- A poll goroutine moves, but not within the completion code. -/
theorem Ok.goto (h : Ok w) {s : Side} {x : PollPc} (hx : x.compPc = (w.ctl.poll s).compPc) :
    Ok ⟨w.port, { w.ctl with poll := Function.update w.ctl.poll s x }⟩ := by
  refine { h with completing := fun o => ?_ }
  by_cases ho : o = s
  · rw [ho]
    simpa [hx] using h.completing s
  · simpa [ho] using h.completing o

/-- One call changes. -/
theorem fwd_cases {f : Nat → Option (Side × FwdPc)} {k j : Nat} {next : Option (Side × FwdPc)}
    {x : Side × FwdPc} (h : Function.update f k next j = some x) :
    (j = k ∧ next = some x) ∨ (j ≠ k ∧ f j = some x) := by
  by_cases hjk : j = k
  · subst hjk
    rw [Function.update_self] at h
    exact .inl ⟨rfl, h⟩
  · rw [Function.update_of_ne hjk] at h
    exact .inr ⟨hjk, h⟩

/-- A new call holds nothing. -/
theorem Ok.spawn (h : Ok w) {s : Side} {k : Nat} :
    Ok { w with ctl.fwd := Function.update w.ctl.fwd k (some (s, .numReceived)) } where
  tx := h.tx
  completing := h.completing
  holds := fun j t pc hj => by
    rcases fwd_cases hj with ⟨-, hnew⟩ | ⟨-, hold⟩
    · cases hnew
      exact .of_zero (q := w.port s.other) rfl trivial
    · exact h.holds j t pc hold
  exclusive := fun j j' t pc pc' hj hj' ho ho' => by
    rcases fwd_cases hj with ⟨-, hnew⟩ | ⟨-, hold⟩
    · cases hnew
      exact absurd ho (Nat.lt_irrefl 0)
    · rcases fwd_cases hj' with ⟨-, hnew'⟩ | ⟨-, hold'⟩
      · cases hnew'
        exact absurd ho' (Nat.lt_irrefl 0)
      · exact h.exclusive j j' t pc pc' hold hold' ho ho'

theorem Ok.poller (h : Ok w) (s : Side) (ans : Answer) (k : Nat) : Ok (poller w s ans k) := by
  unfold SwitchBiChan.poller
  cases hpc : w.ctl.poll s with
  | poll =>
      have hgo : ∀ x : PollPc, x.compPc = .numCompleted → Ok _ := fun x hx =>
        h.goto (s := s) (x := x) (by rw [hx, hpc]; rfl)
      cases ans with
      | eintr | set | clear => exact hgo _ rfl
  | testIn =>
      have hgo := h.goto (s := s) (x := .testOut) (by rw [hpc]; rfl)
      cases ans with
      | set => exact hgo.spawn
      | eintr => exact hgo
      | clear => exact hgo
  | testOut =>
      have hgo : ∀ x : PollPc, x.compPc = .numCompleted → Ok _ := fun x hx =>
        h.goto (s := s) (x := x) (by rw [hx, hpc]; rfl)
      cases ans with
      | eintr | set | clear => exact hgo _ rfl
  | complete pc =>
      have hc := h.completing s
      rw [hpc] at hc
      have hnext : (((pc.step (w.port s)).2.elim .poll .complete : PollPc)).compPc =
          (pc.step (w.port s)).2.getD .numCompleted := by
        cases (pc.step (w.port s)).2 <;> rfl
      refine h.set_port s rfl (fun o ho => ?_) ?_ ?_ fun pc' hh => ?_
      · simp [ho]
      · cases pc with
        | numCompleted => exact h.tx s
        | complete n => exact (h.tx s).complete hc
      · show CompleteOk (pc.step (w.port s)).1
          (Function.update w.ctl.poll s ((pc.step (w.port s)).2.elim .poll .complete) s).compPc
        rw [Function.update_self, hnext]
        exact CompleteOk.step pc (h.tx s)
      · cases pc with
        | numCompleted => exact hh
        | complete n =>
            show Holds ((w.port s).setXsk ((w.port s).xsk.complete n)) pc'
            rw [(w.port s).xsk.complete_eq hc]
            -- completing only frees chunks
            refine hh.congr rfl fun c hf => ?_
            show mark _ _ _ c = true
            rw [mark_apply]
            split
            · rfl
            · exact hf

/-- A call has chunks to send from only if it had some before, or just got them. -/
theorem outLen_step {p : Port} {x : FwdPc} (h : (pc.step p q).2.2 = some x) (hx : 0 < x.outLen) :
    0 < pc.outLen ∨ ∃ len n, pc = .getDescs len n ∧ 0 < min len (q.xsk.freeTx n).length := by
  cases pc with
  | numReceived | receive | numFreeTxSlots =>
      cases h
      exact absurd hx (Nat.lt_irrefl 0)
  | getDescs len n =>
      rw [step_getDescs] at h
      cases h
      rw [FwdPc.outLen_loop] at hx
      exact .inr ⟨len, n, rfl, hx⟩
  | outFrame | inFrame =>
      cases h
      exact .inl hx
  | copy len i k out inp =>
      cases h
      rw [FwdPc.outLen_loop] at hx
      exact .inl hx
  | transmit => cases h

/-- A call that meets the condition is the only one with chunks to send from, before its
step and after it. -/
theorem Ok.only (h : Ok w) {k j : Nat} {s : Side} {pc x y : FwdPc}
    (hk : w.ctl.fwd k = some (s, pc)) (ha : Alone w k) (hjk : j ≠ k)
    (hj : w.ctl.fwd j = some (s, y))
    (hx : (pc.step (w.port s) (w.port s.other)).2.2 = some x) (h0 : 0 < x.outLen) :
    y.outLen = 0 := by
  rcases outLen_step hx h0 with hpc | ⟨len, n, rfl, hmin⟩
  · refine Nat.eq_zero_of_not_pos fun hy => hjk ?_
    exact h.exclusive j k s y pc hj hk hy hpc
  · exact ha s len n hk hmin j y hj

/-- **A step of a call that meets the condition.** -/
theorem Ok.forwarder (h : Ok w) {k : Nat} {s : Side} {pc : FwdPc}
    (hk : w.ctl.fwd k = some (s, pc)) (ha : Alone w k) : Ok (forwarder w k s pc) := by
  have hself := h.holds k s pc hk
  have hnotes := (FwdPc.step_txSame (w.port s) (w.port s.other) pc).toTxNotes
  have hin : forwardPorts w.port s pc s = (pc.step (w.port s) (w.port s.other)).1 := by
    simp [forwardPorts]
  have hout : forwardPorts w.port s pc s.other = (pc.step (w.port s) (w.port s.other)).2.1 := by
    simp [forwardPorts]
  -- The call itself after the step.
  have hnew : ∀ t x, ((pc.step (w.port s) (w.port s.other)).2.2.map (s, ·)) = some (t, x) →
      t = s ∧ (pc.step (w.port s) (w.port s.other)).2.2 = some x := by
    intro t x hx
    obtain ⟨y, hy, hyx⟩ := Option.map_eq_some_iff.mp hx
    cases hyx
    exact ⟨rfl, hy⟩
  refine ⟨fun o => ?_, fun o => ?_, fun j t x hj => ?_, fun j j' t x x' hj hj' ho ho' => ?_⟩
  · show TxOk (forwardPorts w.port s pc o)
    rcases s.eq_or_other o with rfl | rfl
    · rw [hin]; exact (h.tx o).same hnotes
    · rw [hout]; exact hself.txOk (h.tx s.other) _
  · show CompleteOk (forwardPorts w.port s pc o) (w.ctl.poll o).compPc
    rcases s.eq_or_other o with rfl | rfl
    · rw [hin]; exact (h.completing o).same hnotes
    · rw [hout]; exact (h.completing s.other).forward pc (w.port s)
  · show Holds (forwardPorts w.port s pc t.other) x
    rcases fwd_cases hj with ⟨-, hx⟩ | ⟨hjk, hold⟩
    · obtain ⟨rfl, hx⟩ := hnew t x hx
      have hstep := hself.step (w.port t)
      rw [hx] at hstep
      rw [hout]
      exact hstep
    · have hh := h.holds j t x hold
      rcases s.eq_or_other t with rfl | rfl
      -- another call with the same output
      · rw [hout]
        refine hh.other hself (w.port t) fun hpos => Nat.eq_zero_of_not_pos fun hx => hjk ?_
        exact h.exclusive j k t x pc hold hk hx hpos
      -- a call of the other direction sees only the receive side of its output change
      · rw [s.other_other] at hh ⊢
        rw [hin]
        exact hh.notes hnotes
  · rcases fwd_cases hj with ⟨rfl, hx⟩ | ⟨hjk, hold⟩ <;>
      rcases fwd_cases hj' with ⟨rfl, hx'⟩ | ⟨hjk', hold'⟩
    · rfl
    · obtain ⟨rfl, hx⟩ := hnew t x hx
      exact absurd (h.only hk ha hjk' hold' hx ho) (Nat.pos_iff_ne_zero.mp ho')
    · obtain ⟨rfl, hx'⟩ := hnew t x' hx'
      exact absurd (h.only hk ha hjk hold hx' ho') (Nat.pos_iff_ne_zero.mp ho)
    · exact h.exclusive j j' t x x' hold hold' ho ho'

theorem Visited.ok (h : Visited Alone w) : Ok w := by
  refine h.invariant Ok.start (fun w s p' hw hs => hw.kernel s hs) fun w w' hw hg => ?_
  cases hg with
  | refiller s => exact hw.refiller s
  | poller s ans hk => exact hw.poller s ans _
  | forwarder hk ha => exact hw.forwarder hk ha

/-! ## Two runs -/

variable {allowed : World Ctl → Nat → Prop}

/-- Several steps of a refill goroutine. -/
def refills (w : World Ctl) (s : Side) : Nat → World Ctl
  | 0 => w
  | n + 1 => refills (refiller w s) s n

/-- Several steps of a call, until it returns. -/
def forwards (w : World Ctl) (k : Nat) : Nat → World Ctl
  | 0 => w
  | n + 1 =>
      match w.ctl.fwd k with
      | some (s, pc) => forwards (forwarder w k s pc) k n
      | none => w

/-- A poll goroutine at the top of its loop polls and starts call `k`. -/
def starts (w : World Ctl) (s : Side) (k : Nat) : World Ctl :=
  poller (poller w s .set k) s .set k

/-- Another packet arrives on `inXsk`, and its poll goroutine starts call `k`. -/
def startsNext (w : World Ctl) (k : Nat) : World Ctl :=
  let p := (w.port .inXsk).arrive 2048 [4, 5, 6]
  starts (poller { w with port := Function.update w.port .inXsk p } .inXsk .clear k) .inXsk k

theorem Visited.refills (h : Visited allowed w) (s : Side) (n : Nat) :
    Visited allowed (refills w s n) := by
  induction n generalizing w with
  | zero => exact h
  | succ n ih => exact ih (h.tail (.go (.refiller s)))

theorem Visited.forwards {P : World Ctl → Prop} {k : Nat} (h : Visited allowed w) (h0 : P w)
    (hP : ∀ w s pc, P w → P (SwitchBiChan.forwarder w k s pc)) (ha : ∀ w, P w → allowed w k)
    (n : Nat) : Visited allowed (forwards w k n) := by
  induction n generalizing w with
  | zero => exact h
  | succ n ih =>
      unfold SwitchBiChan.forwards
      split
      · exact ih (h.tail (.go (.forwarder ‹_› (ha w h0)))) (hP w _ _ h0)
      · exact h

theorem Visited.starts {s : Side} {k : Nat} (h : Visited allowed w) (hpc : w.ctl.poll s = .poll)
    (hk : w.ctl.fwd k = none) : Visited allowed (starts w s k) := by
  have h1 : Visited allowed (poller w s .set k) := h.tail (.go (.poller s .set hk))
  have e1 : (poller w s .set k).ctl.fwd = w.ctl.fwd := by
    unfold poller
    rw [hpc]
  exact h1.tail (.go (.poller s .set (by rw [e1]; exact hk)))

/-- Call `0` is the only one. -/
def Single (w : World Ctl) : Prop := ∀ k, k ≠ 0 → w.ctl.fwd k = none

theorem Single.forwarder (h : Single w) (s : Side) (pc : FwdPc) : Single (forwarder w 0 s pc) :=
  fun k hk => (Function.update_of_ne hk ..).trans (h k hk)

theorem Single.forwards (h : Single w) (n : Nat) : Single (forwards w 0 n) := by
  induction n generalizing w with
  | zero => exact h
  | succ n ih =>
      unfold SwitchBiChan.forwards
      split
      · exact ih (h.forwarder _ _)
      · exact h

theorem poller_fwd {s : Side} {ans : Answer} {j k : Nat} (h : j ≠ k) :
    (poller w s ans k).ctl.fwd j = w.ctl.fwd j := by
  unfold poller
  cases w.ctl.poll s with
  | testIn =>
      cases ans with
      | set => exact Function.update_of_ne h ..
      | _ => rfl
  | poll | testOut => cases ans <;> rfl
  | complete pc => rfl

theorem Single.startsNext (h : Single w) : Single (startsNext w 0) := fun k hk =>
  (poller_fwd hk).trans ((poller_fwd hk).trans ((poller_fwd hk).trans (h k hk)))

theorem Single.alone (h : Single w) : Alone w 0 := by
  intro s len n h0 _ k pc hk
  by_cases hk0 : k = 0
  · rw [hk0, h0] at hk
    cases hk
    rfl
  · rw [h k hk0] at hk
    cases hk

/-- `inXsk` is refilled, a packet has arrived on it, and call `0` is started. -/
def startedWorld : World Ctl :=
  let w := refills ⟨fun _ => newPort, Ctl.init⟩ .inXsk 3
  starts { w with port := Function.update w.port .inXsk ((w.port .inXsk).arrive 0 [1, 2, 3]) }
    .inXsk 0

theorem visited_startedWorld : Visited allowed startedWorld := by
  have hr : Visited allowed _ := Visited.refills .refl .inXsk 3
  exact Visited.starts (hr.kernelRun (Port.arrive_run _ (by decide +kernel) (by decide)
    (by decide +kernel))) rfl rfl

theorem Visited.startsNext {k : Nat} (h : Visited allowed w)
    (ha : ((w.port .inXsk).xsk.fillRing.pending 64).head? = some 2048)
    (room : (w.port .inXsk).xsk.rxRing.count < 64) (hpc : w.ctl.poll .inXsk = .testOut)
    (hk : w.ctl.fwd k = none) : Visited allowed (startsNext w k) := by
  have harr := h.kernelRun (Port.arrive_run [4, 5, 6] ha (by decide) room)
  have hstep : Visited allowed (poller _ .inXsk .clear k) := harr.tail (.go (.poller _ _ hk))
  refine Visited.starts hstep ?_ ?_
  · unfold poller
    simp only [hpc, Function.update_self]
  · unfold poller
    simp only [hpc]
    exact hk

/-- The first packet is sent, and the second is about to be copied. -/
theorem exists_sent : ∃ w, Visited Alone w ∧ (w.port .outXsk).txPipe = [64] ∧
    w.ctl.fwd 0 = some (.inXsk, .copy 1 0 3 ⟨65 * 2048, 2048⟩ ⟨2048, 3⟩) := by
  have hs : Single startedWorld := fun k hk => Function.update_of_ne hk ..
  have hfwd : ∀ {w : World Ctl}, Visited Alone w → Single w → ∀ n,
      Visited Alone (forwards w 0 n) := fun h hs n =>
    Visited.forwards h hs (fun w s pc h => h.forwarder s pc) (fun w h => h.alone) n
  have h1 := hfwd visited_startedWorld hs 8
  have h2 := Visited.startsNext (k := 0) h1 (by decide +kernel) (by decide +kernel)
    (by decide +kernel) (by decide +kernel)
  exact ⟨_, hfwd h2 (hs.forwards 8).startsNext 6, by decide +kernel, by decide +kernel⟩

/-- Call `0` has got its chunks, call `1` is started and runs to its end, and call `0` goes on. -/
def sentTwiceWorld : World Ctl :=
  forwards (forwards (startsNext (forwards startedWorld 0 4) 1) 1 8) 0 4

theorem visited_sentTwiceWorld : Visited (fun _ _ => True) sentTwiceWorld := by
  have hfwd : ∀ {w : World Ctl}, Visited (fun _ _ => True) w → ∀ k n,
      Visited (fun _ _ => True) (forwards w k n) := fun h k n =>
    Visited.forwards h (P := fun _ => True) trivial (fun _ _ _ _ => trivial) (fun _ _ => trivial) n
  have h1 := hfwd visited_startedWorld 0 4
  have h2 := Visited.startsNext (k := 1) h1 (by decide +kernel) (by decide +kernel)
    (by decide +kernel) (by decide +kernel)
  exact hfwd (hfwd h2 1 8) 0 4

/-! ## Chunks are sent once -/

/-- **No chunk is in flight twice.**  In every state of every run in which no call gets
chunks to send from while another has some, for each port: no chunk is twice among the Tx
ring, the kernel's send side and the completion ring, and no call is about to copy a frame
into a chunk that is there. -/
theorem tx_chunks_once (h : Visited Alone w) (o : Side) :
    (w.port o).txPipe.Nodup ∧
    ∀ k len i numBytes out inp, w.ctl.fwd k = some (o.other, .copy len i numBytes out inp) →
      ∀ x, out.off ≤ x → x < out.off + min out.len inp.len → x / 2048 ∉ (w.port o).txPipe := by
  have htx := h.ok.tx o
  refine ⟨htx.lane.nodup, fun k len i numBytes out inp hk x hlo hhi hx => ?_⟩
  have hholds := h.ok.holds k o.other _ hk
  rw [o.other_other] at hholds
  obtain ⟨-, c, hoff, hlen, -, -, hfree⟩ := hholds.locals
  have hxc : x / 2048 = c := by omega
  rw [hxc, ← htx.lane.used, hfree] at hx
  cases hx

/-- With one frame sent and another about to be copied. -/
theorem tx_chunks_once_sent : ∃ w, Visited Alone w ∧ (w.port .outXsk).txPipe = [64] ∧
    (w.port .outXsk).txPipe.Nodup ∧ 65 * 2048 / 2048 ∉ (w.port .outXsk).txPipe := by
  obtain ⟨w, hw, hpipe, hcopy⟩ := exists_sent
  obtain ⟨hnodup, hfree⟩ := tx_chunks_once hw .outXsk
  exact ⟨w, hw, hpipe, hnodup, hfree 0 1 0 3 _ _ hcopy (65 * 2048) (Nat.le_refl _) (by decide)⟩

/-- **Calls that overlap send a chunk twice**: both have sent their packet, and they have sent it from
the same chunk. -/
theorem tx_chunk_sent_twice : Visited (fun _ _ => True) sentTwiceWorld ∧
    (sentTwiceWorld.port .outXsk).txPipe = [64, 64] ∧
    ¬ (sentTwiceWorld.port .outXsk).txPipe.Nodup := by
  have hpipe : (sentTwiceWorld.port .outXsk).txPipe = [64, 64] := by decide +kernel
  refine ⟨visited_sentTwiceWorld, hpipe, ?_⟩
  rw [hpipe]
  decide

end SwitchBiChan

end AfXdpSwitch.Xdp
