import AfXdpSwitch.TransmitAccounting

/-!
# Every frame is in exactly one place

Between calls of `handle_receive_packets` the abstract pool of `FramePool` can be
read off the world: nothing is staged, reserved or half released.
-/

namespace AfXdpSwitch

variable {v : View} {w : World}

/-- The places a frame can be in between two calls: the free stack, the unconsumed
fill ring, kernel RX, the unreleased RX ring, the unconsumed TX ring, kernel TX and
the unreleased completion ring. -/
def World.places (w : World) : List (BitVec 64) :=
  w.freeStack ++ w.fq.shared.pending defaultNumDescs ++ w.krx ++
    (w.rx.shared.pending defaultNumDescs).map XdpDesc.addr ++
    (w.tx.shared.pending defaultNumDescs).map XdpDesc.addr ++ w.ktx ++
    w.cq.shared.pending defaultNumDescs

/-- In an idle view the pool has its frames in the places, up to those lost. -/
theorem Consistent.count_places (hi : v.Idle) (h : Consistent v w) {c : Nat} (hc : c < numFrames) :
    (w.places.map chunkOf).count c + (v.lost.map chunkOf).count c = 1 := by
  have honce := h.conserved.once c hc
  rw [FramePool.count_all] at honce
  simp only [World.pool, hi.staged, hi.done, hi.freed, List.drop_zero, List.map_nil,
    List.count_nil] at honce
  simp only [World.places, h.stack, List.map_append, List.count_append]
  omega

/-- **Frame ownership.**  In every world a run visits each frame is in exactly one
place, the slots above the free stack hold `INVALID_UMEM_FRAME`, and the next call
returns: no assertion fails in it. -/
theorem frame_in_one_place (hw : Reachable KernelStep handleReceivePackets anyCall w) :
    (∀ c, c < numFrames → (w.places.map chunkOf).count c = 1) ∧
    (∀ i, w.umemFrameFree.toNat ≤ i → i < numFrames → w.umemFrameAddr i = invalidUmemFrame) ∧
    (∀ env : Env, env.Conforming → ∃ w', handleReceivePackets env w = .ok ((), w')) := by
  obtain ⟨v, hi, hl, hv⟩ := hw.atRest
  refine ⟨fun c hc => ?_, hv.invalid, fun env henv => ?_⟩
  · have := hv.count_places hi hc
    rwa [hl, List.map_nil, List.count_nil, Nat.add_zero] at this
  · obtain ⟨w', heq, -⟩ := hw.atRest.returns henv
    exact ⟨w', heq⟩

/-- A run in which a frame goes through all of the places: a request is received, answered, sent and
its completion collected. -/
theorem frame_in_one_place_after_call :
    ∃ w d, Reachable KernelStep handleReceivePackets anyCall w ∧
      w.hist.handled = [(d, true)] ∧ .clamp 1 1 ∈ w.hist.completeTx ∧
      (∀ c, c < numFrames → (w.places.map chunkOf).count c = 1) ∧
      ∃ w', handleReceivePackets .prompt w = .ok ((), w') := by
  obtain ⟨w, d, hw, hcompleted, hhandled⟩ := exists_prompt_run
  obtain ⟨hplaces, -, hreturns⟩ := frame_in_one_place hw
  exact ⟨w, d, hw, hhandled, hcompleted, hplaces, hreturns .prompt Env.prompt_conforming⟩

end AfXdpSwitch
