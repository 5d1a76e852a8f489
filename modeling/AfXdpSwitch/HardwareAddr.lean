import AfXdpSwitch.XdpPort

/-!
# Hardware addresses

`net.ParseMAC` reads the addresses of the command line.  It accepts 6, 8 and 20 bytes, with `:` or
`-` behind every byte or `.` behind every second one.  The Go switches copy such an address over
the beginning of a frame (`copyAddr`), and what that does to the frame depends on the length of
both (`overwrite`).
-/

namespace AfXdpSwitch

/-! ## `net.ParseMAC` -/

namespace Net

abbrev HardwareAddr := List (BitVec 8)

/-- The value of a digit in `xtoi`. -/
def hexVal (c : Char) : Option Nat :=
  if '0' ≤ c ∧ c ≤ '9' then some (c.toNat - '0'.toNat)
  else if 'a' ≤ c ∧ c ≤ 'f' then some (c.toNat - 'a'.toNat + 10)
  else if 'A' ≤ c ∧ c ≤ 'F' then some (c.toNat - 'A'.toNat + 10)
  else none

/-- Two digits, with `e` behind them unless the string ends there. -/
def xtoi2 (s : List Char) (e : Char) : Option (BitVec 8) :=
  match s with
  | a :: b :: rest =>
      if rest ≠ [] ∧ rest.head? ≠ some e then none
      else do
        let x ← hexVal a
        let y ← hexVal b
        some (BitVec.ofNat 8 (16 * x + y))
  | _ => none

/-- The loop for `xx:xx:..` and `xx-xx-..`. -/
def parsePairs (e : Char) : Nat → List Char → Option HardwareAddr
  | 0, _ => some []
  | n + 1, s => do
      let b ← xtoi2 s e
      let hw ← parsePairs e n (s.drop 3)
      some (b :: hw)

/-- The loop for `xxxx.xxxx..`, with two bytes in a round. -/
def parseQuads (e : Char) : Nat → List Char → Option HardwareAddr
  | 0, _ => some []
  | n + 1, s => do
      let a ← xtoi2 (s.take 2) (Char.ofNat 0)
      let b ← xtoi2 (s.drop 2) e
      let hw ← parseQuads e n (s.drop 5)
      some (a :: b :: hw)

/-- `ParseMAC`.  A string is the list of its bytes, each as a character. -/
def parseMAC (s : List Char) : Option HardwareAddr :=
  if s.length < 14 then none
  else if s[2]? = some ':' ∨ s[2]? = some '-' then
    let n := (s.length + 1) / 3
    if (s.length + 1) % 3 ≠ 0 then none
    else if n ≠ 6 ∧ n ≠ 8 ∧ n ≠ 20 then none
    else parsePairs (s[2]?.getD ' ') n s
  else if s[4]? = some '.' then
    let n := 2 * (s.length + 1) / 5
    if (s.length + 1) % 5 ≠ 0 then none
    else if n ≠ 6 ∧ n ≠ 8 ∧ n ≠ 20 then none
    else parseQuads '.' (n / 2) s
  else none

theorem length_parsePairs {e : Char} {n : Nat} {s : List Char} {hw : HardwareAddr}
    (h : parsePairs e n s = some hw) : hw.length = n := by
  induction n generalizing s hw with
  | zero =>
      obtain rfl : [] = hw := Option.some.inj h
      rfl
  | succ n ih =>
      simp only [parsePairs, Option.bind_eq_bind, Option.bind_eq_some_iff] at h
      obtain ⟨b, -, tail, htail, h⟩ := h
      obtain rfl : b :: tail = hw := Option.some.inj h
      rw [List.length_cons, ih htail]

theorem length_parseQuads {e : Char} {n : Nat} {s : List Char} {hw : HardwareAddr}
    (h : parseQuads e n s = some hw) : hw.length = 2 * n := by
  induction n generalizing s hw with
  | zero =>
      obtain rfl : [] = hw := Option.some.inj h
      rfl
  | succ n ih =>
      simp only [parseQuads, Option.bind_eq_bind, Option.bind_eq_some_iff] at h
      obtain ⟨a, -, b, -, tail, htail, h⟩ := h
      obtain rfl : a :: b :: tail = hw := Option.some.inj h
      rw [List.length_cons, List.length_cons, ih htail]
      omega

/-- **The three lengths of an address.** -/
theorem length_parseMAC {s : List Char} {hw : HardwareAddr} (h : parseMAC s = some hw) :
    hw.length = 6 ∨ hw.length = 8 ∨ hw.length = 20 := by
  unfold parseMAC at h
  dsimp only at h
  split at h
  · cases h
  split at h
  · split at h
    · cases h
    split at h
    · cases h
    rw [length_parsePairs h]
    omega
  split at h
  · split at h
    · cases h
    split at h
    · cases h
    rw [length_parseQuads h]
    omega
  · cases h

end Net

namespace Xdp
open SpscRing SlotLane Net

/-! ## Overwriting the beginning of a frame -/

/-- `copy(frame, dstMac)` on the bytes of a frame: the shorter of the two decides how many are
overwritten. -/
def overwrite (dstMac : HardwareAddr) (f : Frame) : Frame :=
  dstMac.take f.length ++ f.drop dstMac.length

/-- `copy(frame, dstMac)` on the memory that the frame lies in. -/
def copyAddr (umem : ByteMemory) (frame : ByteSlice) (dstMac : HardwareAddr) : ByteMemory :=
  umem.write frame.off (dstMac.take frame.len)

theorem length_overwrite (dstMac : HardwareAddr) (f : Frame) :
    (overwrite dstMac f).length = f.length := by
  unfold overwrite
  rw [List.length_append, List.length_take, List.length_drop]
  omega

theorem getElem?_overwrite (dstMac : HardwareAddr) (f : Frame) {i : Nat} (hi : i < f.length) :
    (overwrite dstMac f)[i]? = if i < dstMac.length then dstMac[i]? else f[i]? := by
  unfold overwrite
  rw [List.getElem?_append, List.length_take, List.getElem?_take, List.getElem?_drop]
  by_cases h : i < dstMac.length
  · rw [if_pos (by omega), if_pos hi, if_pos h]
  · rw [if_neg (by omega), if_neg h]
    congr 1
    omega

/-- The frame itself, -/
theorem frame_copyAddr_self (m : ByteMemory) (d : Desc) (dstMac : HardwareAddr) :
    frame (copyAddr m (getFrame d) dstMac) d = overwrite dstMac (frame m d) := by
  have hlen : (frame m d).length = d.len.toNat := ByteMemory.length_read ..
  refine List.ext_getElem? fun i => ?_
  by_cases hi : i < d.len.toNat
  · rw [getElem?_overwrite _ _ (by rwa [hlen]), frame, frame, ByteMemory.getElem?_read _ hi,
      ByteMemory.getElem?_read _ hi]
    show some (ByteMemory.write m d.addr.toNat (dstMac.take d.len.toNat) (d.addr.toNat + i)) = _
    have htake : (dstMac.take d.len.toNat).length = min d.len.toNat dstMac.length :=
      List.length_take
    split
    · rw [ByteMemory.write_of_mem _ (Nat.le_add_right _ _) (by omega)]
      simp only [Nat.add_sub_cancel_left, List.getElem_take]
      exact (List.getElem?_eq_getElem ‹_›).symm
    · rw [ByteMemory.write_of_not_mem _ (by omega)]
  · have hnone : ∀ l : Frame, l.length = d.len.toNat → l[i]? = none := fun l hl =>
      List.getElem?_eq_none (by omega)
    rw [hnone (frame _ d) (ByteMemory.length_read ..), hnone _ ((length_overwrite _ _).trans hlen)]

/-- and those of other chunks. -/
theorem frame_copyAddr_other {m : ByteMemory} {d e : Desc} (dstMac : HardwareAddr) (hd : d.Whole)
    (he : e.Whole) (hne : chunkOf e.addr ≠ chunkOf d.addr) :
    frame (copyAddr m (getFrame d) dstMac) e = frame m e := by
  refine frame_congr he fun x hx => ByteMemory.write_of_not_mem _ ?_
  have htake : (dstMac.take d.len.toNat).length ≤ d.len.toNat := List.length_take_le ..
  unfold Desc.Whole at hd
  unfold chunkOf at hne hx
  rw [options_frameSize] at hne hx
  show x < d.addr.toNat ∨ d.addr.toNat + (dstMac.take d.len.toNat).length ≤ x
  omega

end Xdp

end AfXdpSwitch
