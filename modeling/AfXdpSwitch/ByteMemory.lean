import Mathlib.Algebra.Group.Nat.Defs
import Mathlib.Data.List.Basic

/-!
# Byte-addressed memory

Memory is a total function from addresses to bytes; which addresses a program may
touch is its own business.  `read` and `write` move lists of bytes, and 16-bit
values are loaded and stored the way a little-endian host does.
-/

/-- The contents of a memory. -/
abbrev ByteMemory := Nat → BitVec 8

namespace ByteMemory

/-- The `n` bytes from address `a` on. -/
def read (m : ByteMemory) (a n : Nat) : List (BitVec 8) := (List.range n).map fun i => m (a + i)

/-- Store the bytes `bs` from address `a` on. -/
def write (m : ByteMemory) (a : Nat) (bs : List (BitVec 8)) : ByteMemory :=
  fun x => if a ≤ x then (bs[x - a]?).getD (m x) else m x

/-- A 16-bit load on a little-endian host. -/
def load16 (m : ByteMemory) (a : Nat) : BitVec 16 := m (a + 1) ++ m a

/-- A 32-bit load on a little-endian host. -/
def load32 (m : ByteMemory) (a : Nat) : BitVec 32 := m.load16 (a + 2) ++ m.load16 a

/-- A 16-bit store on a little-endian host. -/
def store16 (m : ByteMemory) (a : Nat) (v : BitVec 16) : ByteMemory :=
  m.write a [v.setWidth 8, (v >>> 8).setWidth 8]

/-- `ntohs` and `htons` on a little-endian host. -/
def swap16 (v : BitVec 16) : BitVec 16 := v.setWidth 8 ++ (v >>> 8).setWidth 8

variable (m : ByteMemory) {a b n : Nat} {bs : List (BitVec 8)}

@[simp] theorem length_read (a n : Nat) : (m.read a n).length = n := by simp [read]

/-- Writing leaves every byte outside the written range alone. -/
theorem write_of_not_mem {x : Nat} (h : x < a ∨ a + bs.length ≤ x) : m.write a bs x = m x := by
  unfold write
  split
  · rw [List.getElem?_eq_none (by omega), Option.getD_none]
  · rfl

theorem write_of_mem {x : Nat} (h : a ≤ x) (h' : x < a + bs.length) :
    m.write a bs x = bs[x - a] := by
  unfold write
  rw [if_pos h, List.getElem?_eq_getElem (by omega), Option.getD_some]

theorem write_singleton (v : BitVec 8) : m.write a [v] a = v := by
  rw [write_of_mem m (Nat.le_refl a) (by simp)]
  simp

/-- A range that a write does not meet reads as before. -/
theorem read_write_of_disjoint (h : b + n ≤ a ∨ a + bs.length ≤ b) :
    (m.write a bs).read b n = m.read b n := by
  refine List.map_congr_left fun i hi => ?_
  have := List.mem_range.mp hi
  exact write_of_not_mem m (by omega)

/-- What was written is what is read. -/
theorem read_write_self : (m.write a bs).read a bs.length = bs := by
  refine List.ext_getElem (by simp) fun i h _ => ?_
  simp only [read, List.getElem_map, List.getElem_range]
  rw [write_of_mem m (by omega) (by simp at h; omega)]
  congr 1
  omega

/-- Part of what was written. -/
theorem read_write_inside {i k : Nat} (h : i + k ≤ bs.length) :
    (m.write a bs).read (a + i) k = (bs.drop i).take k := by
  refine List.ext_getElem (by simp; omega) fun j hj _ => ?_
  have hj : j < k := by simpa using hj
  simp only [read, List.getElem_map, List.getElem_range, List.getElem_take, List.getElem_drop]
  rw [write_of_mem m (by omega) (by omega)]
  congr 1
  omega

/-- Part of what was read. -/
theorem take_drop_read {i k : Nat} (h : i + k ≤ n) :
    ((m.read a n).drop i).take k = m.read (a + i) k := by
  refine List.ext_getElem (by simp; omega) fun j hj _ => ?_
  simp [read, Nat.add_assoc]

theorem drop_read (a n i : Nat) : (m.read a n).drop i = m.read (a + i) (n - i) := by
  refine List.ext_getElem (by simp) fun j hj _ => ?_
  simp [read, Nat.add_assoc]

theorem take_read {k : Nat} (h : k ≤ n) : (m.read a n).take k = m.read a k := by
  simpa using take_drop_read m (a := a) (i := 0) (k := k) (by omega)

/-- Equal bytes read equal. -/
theorem read_congr {m m' : ByteMemory} (h : ∀ i, i < n → m' (a + i) = m (a + i)) :
    m'.read a n = m.read a n :=
  List.map_congr_left fun i hi => h i (List.mem_range.mp hi)

theorem read_add (a n k : Nat) : m.read a (n + k) = m.read a n ++ m.read (a + n) k := by
  unfold read
  rw [List.range_add, List.map_append, List.map_map]
  congr 1
  exact List.map_congr_left fun i _ => by simp [Nat.add_assoc]

theorem getElem?_read {i : Nat} (h : i < n) : (m.read a n)[i]? = some (m (a + i)) := by
  simp [read, h]

/-! ## Memories that agree on a range -/

section
variable {m m' : ByteMemory} (h : m'.read a n = m.read a n)
include h

theorem apply_of_read_eq {i : Nat} (hi : i < n) : m' (a + i) = m (a + i) := by
  have hget : (m'.read a n)[i]? = (m.read a n)[i]? := by rw [h]
  rwa [getElem?_read _ hi, getElem?_read _ hi, Option.some.injEq] at hget

/-- A part of the range. -/
theorem read_of_read_eq {i k : Nat} (hk : i + k ≤ n) : m'.read (a + i) k = m.read (a + i) k := by
  rw [← take_drop_read m' hk, ← take_drop_read m hk, h]

/-- The same bytes written to both. -/
theorem read_write_congr (b : Nat) (bs : List (BitVec 8)) :
    (m'.write b bs).read a n = (m.write b bs).read a n := by
  refine read_congr fun i hi => ?_
  unfold write
  rw [apply_of_read_eq h hi]

end

/-! ## 16-bit values -/

/-- The bytes of a 16-bit value in the order a little-endian host stores them. -/
def bytes16 (v : BitVec 16) : List (BitVec 8) := [v.setWidth 8, (v >>> 8).setWidth 8]

theorem toNat_append8 (x y : BitVec 8) : (x ++ y).toNat = x.toNat * 2 ^ 8 + y.toNat := by
  rw [BitVec.toNat_append, ← Nat.shiftLeft_add_eq_or_of_lt y.isLt, Nat.shiftLeft_eq]

theorem low_append (x y : BitVec 8) : (x ++ y).setWidth 8 = y := by
  apply BitVec.eq_of_toNat_eq
  rw [BitVec.toNat_setWidth, toNat_append8]
  omega

theorem high_append (x y : BitVec 8) : ((x ++ y) >>> 8).setWidth 8 = x := by
  apply BitVec.eq_of_toNat_eq
  rw [BitVec.toNat_setWidth, BitVec.toNat_ushiftRight, toNat_append8, Nat.shiftRight_eq_div_pow]
  omega

theorem high_append_low (v : BitVec 16) : (v >>> 8).setWidth 8 ++ v.setWidth 8 = v := by
  apply BitVec.eq_of_toNat_eq
  rw [toNat_append8, BitVec.toNat_setWidth, BitVec.toNat_setWidth, BitVec.toNat_ushiftRight,
    Nat.shiftRight_eq_div_pow]
  omega

theorem bytes16_load16 (a : Nat) : bytes16 (m.load16 a) = m.read a 2 := by
  simp only [bytes16, load16, low_append, high_append]
  rfl

theorem bytes16_injective {v v' : BitVec 16} (h : bytes16 v = bytes16 v') : v = v' := by
  simp only [bytes16, List.cons.injEq, and_true] at h
  rw [← high_append_low v, ← high_append_low v', h.1, h.2]

theorem swap16_swap16 (v : BitVec 16) : swap16 (swap16 v) = v := by
  unfold swap16
  rw [low_append, high_append, high_append_low]

/-- A load depends on the two bytes only. -/
theorem load16_eq {v : BitVec 16} (h : m.read a 2 = bytes16 v) : m.load16 a = v :=
  bytes16_injective ((m.bytes16_load16 a).trans h)

/-- Reading through a 16-bit store. -/
theorem read_store16_of_disjoint {m : ByteMemory} {v : BitVec 16} (h : b + n ≤ a ∨ a + 2 ≤ b) :
    (m.store16 a v).read b n = m.read b n :=
  read_write_of_disjoint m h

theorem read_store16_self {m : ByteMemory} (v : BitVec 16) : (m.store16 a v).read a 2 = bytes16 v :=
  read_write_self m

theorem load16_store16_self {m : ByteMemory} (v : BitVec 16) : (m.store16 a v).load16 a = v :=
  load16_eq _ (read_store16_self v)

end ByteMemory
