import Mathlib.Data.Nat.ModEq
import AfXdpSwitch.ByteMemory

/-!
# One's complement sums

Addition with end-around carry, the arithmetic of the Internet checksum.  A sum is determined
by two facts about the natural numbers that it adds up: their sum modulo `2 ^ w - 1`, and
whether all of them are zero.  The second tells the two representations of zero apart: the
carry never gives back `0`.

Bytes are summed as 16-bit words in network order, an odd byte padded with zero, and `total` is
their sum as a natural number.  A host that adds them up in the other order computes the same
modulo `65535`, but for a factor `256`.
-/

namespace OnesComplement
variable {w : Nat}

/-- Addition with end-around carry. -/
def add (x y : BitVec w) : BitVec w :=
  let res := x + y
  res + if res < y then 1 else 0

/-- The sum of a list of words. -/
def sum (ws : List (BitVec w)) : BitVec w := ws.foldr add 0

/-- The carry takes `2 ^ w - 1` off. -/
theorem toNat_add (x y : BitVec w) : (add x y).toNat =
    if x.toNat + y.toNat < 2 ^ w then x.toNat + y.toNat else x.toNat + y.toNat - (2 ^ w - 1) := by
  have hx := x.isLt
  have hy := y.isLt
  have hres : (x + y).toNat = (x.toNat + y.toNat) % 2 ^ w := BitVec.toNat_add x y
  unfold add
  by_cases hcarry : x.toNat + y.toNat < 2 ^ w
  · rw [Nat.mod_eq_of_lt hcarry] at hres
    have hge : ¬ x + y < y := by
      rw [BitVec.lt_def]
      omega
    have hzero : x + y + 0 = x + y := BitVec.add_zero _
    simp only [if_pos hcarry, if_neg hge]
    rw [hzero, hres]
  · rw [Nat.mod_eq_sub_mod (by omega), Nat.mod_eq_of_lt (by omega)] at hres
    have hlt : x + y < y := by
      rw [BitVec.lt_def]
      omega
    have hone : (1 : BitVec w).toNat = 1 := by
      show (BitVec.ofNat w 1).toNat = 1
      rw [BitVec.toNat_ofNat, Nat.mod_eq_of_lt (by omega)]
    simp only [if_neg hcarry, if_pos hlt]
    rw [BitVec.toNat_add, hres, hone, Nat.mod_eq_of_lt (by omega)]
    omega

theorem add_modEq (x y : BitVec w) : (add x y).toNat ≡ x.toNat + y.toNat [MOD 2 ^ w - 1] := by
  rw [toNat_add]
  split
  · rfl
  · have hsplit : x.toNat + y.toNat = x.toNat + y.toNat - (2 ^ w - 1) + (2 ^ w - 1) := by omega
    rw [hsplit, Nat.add_sub_cancel]
    exact (Nat.add_modEq_right).symm

theorem toNat_add_eq_zero_iff (x y : BitVec w) : (add x y).toNat = 0 ↔ x.toNat + y.toNat = 0 := by
  have hx := x.isLt
  have hy := y.isLt
  rw [toNat_add]
  split
  · rfl
  · omega

/-! ## Sums -/

theorem sum_modEq (ws : List (BitVec w)) :
    (sum ws).toNat ≡ (ws.map BitVec.toNat).sum [MOD 2 ^ w - 1] := by
  induction ws with
  | nil => rfl
  | cons x ws ih =>
      calc (add x (sum ws)).toNat
        _ ≡ x.toNat + (sum ws).toNat [MOD 2 ^ w - 1] := add_modEq x (sum ws)
        _ ≡ x.toNat + (ws.map BitVec.toNat).sum [MOD 2 ^ w - 1] := Nat.ModEq.add_left _ ih

theorem toNat_sum_eq_zero_iff (ws : List (BitVec w)) :
    (sum ws).toNat = 0 ↔ (ws.map BitVec.toNat).sum = 0 := by
  induction ws with
  | nil => simp [sum]
  | cons x ws ih =>
      show (add x (sum ws)).toNat = 0 ↔ x.toNat + (ws.map BitVec.toNat).sum = 0
      rw [toNat_add_eq_zero_iff]
      omega

/-! ## Bytes -/

/-- The 16-bit words of a byte string in network order. -/
def words : List (BitVec 8) → List (BitVec 16)
  | [] => []
  | [b] => [b ++ 0#8]
  | b :: c :: bs => (b ++ c) :: words bs

/-- The words added up as natural numbers. -/
def total (bs : List (BitVec 8)) : Nat := ((words bs).map BitVec.toNat).sum

/-- A byte string with its checksum in it verifies. -/
def Verifies (bs : List (BitVec 8)) : Prop := sum (words bs) = BitVec.allOnes 16

/-- The checksum of a byte string whose checksum field is zero. -/
def checksum (bs : List (BitVec 8)) : BitVec 16 := ~~~sum (words bs)

instance (bs : List (BitVec 8)) : Decidable (Verifies bs) := inferInstanceAs (Decidable (_ = _))

theorem total_append (bs cs : List (BitVec 8)) (h : bs.length % 2 = 0) :
    total (bs ++ cs) = total bs + total cs := by
  induction bs using words.induct with
  | case1 => simp [total, words]
  | case2 b => simp at h
  | case3 b c bs ih =>
      have hrest := ih (by simp only [List.length_cons] at h; omega)
      unfold total at *
      simp only [List.cons_append, words, List.map_cons, List.sum_cons, hrest]
      omega

/-- The sum is zero only of zeros. -/
theorem total_eq_zero_iff (bs : List (BitVec 8)) :
    total bs = 0 ↔ bs = List.replicate bs.length 0 := by
  have hbyte : ∀ b : BitVec 8, b.toNat = 0 ↔ b = 0 := fun b => by rw [← BitVec.toNat_inj]; rfl
  induction bs using words.induct with
  | case1 => simp [total, words]
  | case2 b =>
      have hpad : (0#8).toNat = 0 := rfl
      have hword : total [b] = b.toNat * 2 ^ 8 := by
        show (b ++ 0#8).toNat + 0 = _
        rw [ByteMemory.toNat_append8, hpad]
        omega
      rw [hword, List.length_singleton, List.replicate_one, List.singleton_inj, ← hbyte]
      omega
  | case3 b c bs ih =>
      have hrest : total bs = 0 ↔ bs = List.replicate bs.length 0 := ih
      have hword : total (b :: c :: bs) = b.toNat * 2 ^ 8 + c.toNat + total bs := by
        show (b ++ c).toNat + total bs = _
        rw [ByteMemory.toNat_append8]
      rw [hword, List.length_cons, List.length_cons, List.replicate_succ, List.replicate_succ,
        List.cons.injEq, List.cons.injEq, ← hrest, ← hbyte, ← hbyte]
      omega

/-- Verification, on the natural numbers. -/
theorem verifies_iff (bs : List (BitVec 8)) :
    Verifies bs ↔ total bs ≠ 0 ∧ total bs % 65535 = 0 := by
  have hmod : (sum (words bs)).toNat % 65535 = total bs % 65535 := sum_modEq (words bs)
  have hzero := toNat_sum_eq_zero_iff (words bs)
  have hlt := (sum (words bs)).isLt
  have hones : (BitVec.allOnes 16).toNat = 65535 := rfl
  unfold Verifies
  rw [← BitVec.toNat_inj, hones]
  unfold total at *
  omega

/-- The checksum, on the natural numbers: the other representation of zero comes up only when
every word is zero. -/
theorem toNat_checksum {bs : List (BitVec 8)} (h : total bs ≠ 0) :
    (checksum bs).toNat ≤ 65534 ∧ ((checksum bs).toNat + total bs) % 65535 = 0 := by
  have hmod : (sum (words bs)).toNat % 65535 = total bs % 65535 := sum_modEq (words bs)
  have hzero := toNat_sum_eq_zero_iff (words bs)
  have hlt := (sum (words bs)).isLt
  have hnot : (checksum bs).toNat = 2 ^ 16 - 1 - (sum (words bs)).toNat := BitVec.toNat_not
  unfold total at *
  omega

/-! ## Bytes in memory -/

section
open ByteMemory
variable (m : ByteMemory) (a : Nat)

/-- The bytes of a 16-bit value the other way round. -/
theorem toNat_swap16 (v : BitVec 16) :
    (swap16 v).toNat + 65535 * (v.toNat / 256) = 256 * v.toNat := by
  have hv := v.isLt
  have hhigh : v.toNat / 2 ^ 8 % 2 ^ 8 = v.toNat / 2 ^ 8 := Nat.mod_eq_of_lt (by omega)
  unfold swap16
  rw [toNat_append8, BitVec.toNat_setWidth, BitVec.toNat_setWidth, BitVec.toNat_ushiftRight,
    Nat.shiftRight_eq_div_pow, hhigh]
  omega

theorem total_read_two : total (m.read a 2) = (swap16 (m.load16 a)).toNat := by
  unfold swap16
  rw [load16, low_append, high_append]
  rfl

theorem total_read_add {k : Nat} (n : Nat) (hk : k % 2 = 0) :
    total (m.read a (k + n)) = total (m.read a k) + total (m.read (a + k) n) := by
  rw [read_add, total_append _ _ (by rw [length_read, hk])]

/-- The sum over two bytes, a 16-bit field and the rest. -/
theorem total_read_field (n : Nat) : total (m.read a (4 + n)) = (m a).toNat * 256 +
    (m (a + 1)).toNat + (swap16 (m.load16 (a + 2))).toNat + total (m.read (a + 4) n) := by
  have hpair : total (m.read a 2) = (m a).toNat * 256 + (m (a + 1)).toNat := by
    rw [total_read_two, swap16, load16, low_append, high_append, toNat_append8]
    omega
  rw [total_read_add _ _ _ (by decide), show 4 = 2 + 2 from rfl, total_read_add _ _ _ (by decide),
    hpair, total_read_two]

end

end OnesComplement
