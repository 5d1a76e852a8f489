import Mathlib.Data.List.GetD
import Mathlib.Data.List.TakeWhile
import Mathlib.Tactic.Ring
import AfXdpSwitch.CmdlineOptions

/-!
# The MAC addresses that `parse_mac` accepts

`parse_mac` calls `strtoul` at six fixed offsets of the text and looks at nothing but the six
numbers.  Every address that is written as six groups of two hexadecimal digits with `:` between
them is read back, in particular the form that `write_iface_params` prints.

But `strtoul` skips blanks, takes a sign and a `0x`, reads no digits as zero, and does not say where
it has stopped.  So a text is accepted whenever at each of the offsets there is a number of at most
two significant digits, whatever stands between them, and a text that is too short ends in zeros.
-/

namespace AfXdpSwitch
open Packet03

/-! ## The grammar -/

/-- Two hexadecimal digits and the byte that they write. -/
def HexGroup (a b : BitVec 8) (v : BitVec 8) : Prop :=
  ∃ x y, hexDigit a = some x ∧ hexDigit b = some y ∧ v = BitVec.ofNat 8 (16 * x + y)

/-- Groups of two digits, with `:` between them. -/
inductive HexGroups : List (BitVec 8) → List (BitVec 8) → Prop where
  | last {a b : BitVec 8} {v : BitVec 8} : HexGroup a b v → HexGroups [a, b] [v]
  | cons {a b : BitVec 8} {v : BitVec 8} {str : List (BitVec 8)} {vs : List (BitVec 8)} :
      HexGroup a b v → HexGroups str vs → HexGroups (a :: b :: 0x3A :: str) (v :: vs)

/-- The argument is the six groups of an address. -/
def SpellsMac (arg : CString) (mac : Mac) : Prop := HexGroups arg.bytes mac.toList

/-- A digit of `%x`. -/
def hexChar (n : Nat) : BitVec 8 := BitVec.ofNat 8 (if n < 10 then 0x30 + n else 0x61 + (n - 10))

/-- `%02x`, with `:` between the bytes. -/
def printBytes : List (BitVec 8) → List (BitVec 8)
  | [] => []
  | [v] => [hexChar (v.toNat / 16), hexChar (v.toNat % 16)]
  | v :: vs => hexChar (v.toNat / 16) :: hexChar (v.toNat % 16) :: 0x3A :: printBytes vs

/-- A digit is no zero byte, and neither is `:`. -/
theorem zero_not_mem_printBytes (vs : List (BitVec 8)) : 0 ∉ printBytes vs := by
  have hdigit : ∀ n : Fin 16, 0 ≠ hexChar n := by decide
  have hhigh : ∀ v : BitVec 8, 0 ≠ hexChar (v.toNat / 16) := fun v =>
    hdigit ⟨v.toNat / 16, by have := v.isLt; omega⟩
  have hlow : ∀ v : BitVec 8, 0 ≠ hexChar (v.toNat % 16) := fun v =>
    hdigit ⟨v.toNat % 16, Nat.mod_lt _ (by decide)⟩
  induction vs with
  | nil => exact List.not_mem_nil
  | cons v vs ih =>
      cases vs with
      | nil =>
          intro h
          simp only [printBytes, List.mem_cons, List.not_mem_nil, or_false] at h
          exact h.elim (hhigh v) (hlow v)
      | cons w vs =>
          intro h
          rw [printBytes, List.mem_cons, List.mem_cons, List.mem_cons] at h
          rcases h with h | h | h | h
          · exact hhigh v h
          · exact hlow v h
          · exact absurd h (by decide)
          · exact ih h
          · exact fun h => nomatch h

/-- How `write_iface_params` prints an address. -/
def printMac (mac : Mac) : CString := ⟨printBytes mac.toList, zero_not_mem_printBytes _⟩

/-! ## Loosely written numbers -/

/-- Whether there is a minus sign, and what follows the sign. -/
def readSign : List (BitVec 8) → Bool × List (BitVec 8)
  | 0x2D :: str => (true, str)
  | 0x2B :: str => (false, str)
  | str => (false, str)

/-- What follows `0x`, if it is a digit. -/
def skipPrefix (str : List (BitVec 8)) : List (BitVec 8) :=
  match str with
  | 0x30 :: x :: c :: rest => if (x = 0x78 ∨ x = 0x58) ∧ (hexDigit c).isSome then c :: rest else str
  | str => str

/-- The digits at the head of a text, without the zeros they begin with. -/
def significant (str : List (BitVec 8)) : List (BitVec 8) :=
  (str.dropWhile (· == 0x30#8)).takeWhile fun c => (hexDigit c).isSome

/-- After a minus sign: nothing but zeros, or sixteen digits that the negation brings back to at
most `0xff`. -/
def NegatedByte (digits : List (BitVec 8)) : Prop :=
  digits = [] ∨ digits.length = 16 ∧ (∀ c ∈ digits.take 14, hexDigit c = some 15) ∧
    digits.drop 14 ≠ [0x30, 0x30]

/-- Behind blanks and a sign the text begins with a number of at most two significant digits. -/
def LooseByte (str : List (BitVec 8)) : Prop :=
  match readSign (str.dropWhile isSpace) with
  | (true, str) => NegatedByte (significant (skipPrefix str))
  | (false, str) => (significant (skipPrefix str)).length ≤ 2

/-- The offsets at which `parse_mac` reads a byte. -/
def macOffsets : List Nat := [0, 3, 6, 9, 12, 15]

/-! ## Digits -/

section
variable {c : BitVec 8} {str digits : List (BitVec 8)} {x z : Nat}

/-- The three kinds of digits. -/
theorem hexDigit_cases (h : hexDigit c = some x) :
    c.toNat = 48 + x ∧ x < 10 ∨ c.toNat = 87 + x ∧ 10 ≤ x ∧ x < 16 ∨
      c.toNat = 55 + x ∧ 10 ≤ x ∧ x < 16 := by
  have hle : ∀ {a b : BitVec 8}, a ≤ b → a.toNat ≤ b.toNat := fun h => h
  unfold hexDigit at h
  split at h
  · obtain ⟨hlow, hhigh⟩ := (‹_› : 0x30 ≤ c ∧ c ≤ 0x39)
    have hlow : 48 ≤ c.toNat := hle hlow
    have hhigh : c.toNat ≤ 57 := hle hhigh
    have hval : c.toNat - 48 = x := Option.some.inj h
    omega
  · split at h
    · obtain ⟨hlow, hhigh⟩ := (‹_› : 0x61 ≤ c ∧ c ≤ 0x66)
      have hlow : 97 ≤ c.toNat := hle hlow
      have hhigh : c.toNat ≤ 102 := hle hhigh
      have hval : c.toNat - 97 + 10 = x := Option.some.inj h
      omega
    · split at h
      · obtain ⟨hlow, hhigh⟩ := (‹_› : 0x41 ≤ c ∧ c ≤ 0x46)
        have hlow : 65 ≤ c.toNat := hle hlow
        have hhigh : c.toNat ≤ 70 := hle hhigh
        have hval : c.toNat - 65 + 10 = x := Option.some.inj h
        omega
      · cases h

theorem hexDigit_lt (h : hexDigit c = some x) : x < 16 := by
  have := hexDigit_cases h
  omega

/-- The only digit of value zero. -/
theorem hexDigit_eq_zero_iff : hexDigit c = some 0 ↔ c = 0x30#8 := by
  constructor
  · intro h
    have hcode : c.toNat = (0x30#8).toNat := by
      have := hexDigit_cases h
      show c.toNat = 48
      omega
    exact BitVec.eq_of_toNat_eq hcode
  · rintro rfl
    decide

/-- A digit is no blank, no sign, and not the `x` of a prefix. -/
theorem hexDigit_ne {c' : BitVec 8} (h : hexDigit c = some x) (h' : hexDigit c' = none) : c ≠ c' := by
  rintro rfl
  rw [h] at h'
  cases h'

theorem isSpace_of_hexDigit (h : hexDigit c = some x) : isSpace c = false := by
  have hspace : ∀ c' ∈ [0x20, 0x09, 0x0A, 0x0B, 0x0C, 0x0D], hexDigit c' = none := by
    intro c' hc'
    simp only [List.mem_cons, List.not_mem_nil, or_false] at hc'
    rcases hc' with rfl | rfl | rfl | rfl | rfl | rfl <;> rfl
  have hnot : c ∉ [0x20, 0x09, 0x0A, 0x0B, 0x0C, 0x0D] := fun hc => hexDigit_ne h (hspace c hc) rfl
  exact decide_eq_false hnot

/-! ## Numbers -/

/-- All of them are digits. -/
def AllDigits (digits : List (BitVec 8)) : Prop := ∀ c ∈ digits, (hexDigit c).isSome = true

theorem hexValue_cons (h : hexDigit c = some x) (z : Nat) (str : List (BitVec 8)) :
    hexValue z (c :: str) = hexValue (16 * z + x) str := by
  rw [hexValue, h]

/-- The number ends where the digits do. -/
theorem hexValue_takeWhile (z : Nat) (str : List (BitVec 8)) :
    hexValue z (str.takeWhile fun c => (hexDigit c).isSome) = hexValue z str := by
  induction str generalizing z with
  | nil => rfl
  | cons c str ih =>
      cases hc : hexDigit c with
      | none => rw [List.takeWhile_cons_of_neg (by simp [hc]), hexValue, hexValue, hc]
      | some x => rw [List.takeWhile_cons_of_pos (by simp [hc]), hexValue_cons hc, hexValue_cons hc, ih]

theorem hexValue_dropZeros (str : List (BitVec 8)) :
    hexValue 0 (str.dropWhile (· == 0x30#8)) = hexValue 0 str := by
  induction str with
  | nil => rfl
  | cons c str ih =>
      by_cases hc : c = 0x30#8
      · rw [List.dropWhile_cons_of_pos (by simp [hc]), ih,
          hexValue_cons (hexDigit_eq_zero_iff.mpr hc)]
      · rw [List.dropWhile_cons_of_neg (by simp [hc])]

theorem hexValue_significant (str : List (BitVec 8)) : hexValue 0 (significant str) = hexValue 0 str := by
  unfold significant
  rw [hexValue_takeWhile, hexValue_dropZeros]

theorem allDigits_significant (str : List (BitVec 8)) : AllDigits (significant str) :=
  fun _ hc => List.mem_takeWhile_imp (p := fun c => (hexDigit c).isSome) hc

theorem significant_head (h : significant str = c :: digits) : c ≠ 0x30#8 := by
  rintro rfl
  unfold significant at h
  cases hdrop : str.dropWhile (· == 0x30#8) with
  | nil =>
      rw [hdrop] at h
      cases h
  | cons c' rest =>
      have hnot := List.head?_dropWhile_not (· == 0x30#8) str
      rw [hdrop] at h hnot
      have hhead : c' = 0x30#8 := by
        rw [List.takeWhile_cons] at h
        split at h
        · exact (List.cons.inj h).1
        · cases h
      rw [hhead] at hnot
      simp at hnot

/-- Digits that follow a number `z`, and the bounds of what they make of it. -/
theorem hexValue_bounds (h : AllDigits digits) (z : Nat) :
    z * 16 ^ digits.length ≤ hexValue z digits ∧
      hexValue z digits < (z + 1) * 16 ^ digits.length := by
  induction digits generalizing z with
  | nil => simp [hexValue]
  | cons c digits ih =>
      obtain ⟨x, hx⟩ := Option.isSome_iff_exists.mp (h c List.mem_cons_self)
      have hlt := hexDigit_lt hx
      obtain ⟨hlow, hhigh⟩ := ih (fun c' hc' => h c' (List.mem_cons_of_mem _ hc')) (16 * z + x)
      rw [hexValue_cons hx, List.length_cons, Nat.pow_succ]
      constructor
      · calc z * (16 ^ digits.length * 16)
          _ = 16 * z * 16 ^ digits.length := by ring
          _ ≤ (16 * z + x) * 16 ^ digits.length := Nat.mul_le_mul_right _ (by omega)
          _ ≤ _ := hlow
      · calc hexValue (16 * z + x) digits
          _ < (16 * z + x + 1) * 16 ^ digits.length := hhigh
          _ ≤ (16 * (z + 1)) * 16 ^ digits.length := Nat.mul_le_mul_right _ (by omega)
          _ = (z + 1) * (16 ^ digits.length * 16) := by ring

/-- A number without leading zeros is known by how many digits it has. -/
theorem hexValue_significant_lt (str : List (BitVec 8)) (n : Nat) :
    hexValue 0 (significant str) < 16 ^ n ↔ (significant str).length ≤ n := by
  have hall := allDigits_significant str
  cases hsig : significant str with
  | nil => exact iff_of_true (Nat.pow_pos (by decide)) (Nat.zero_le n)
  | cons c digits =>
      rw [hsig] at hall
      obtain ⟨x, hx⟩ := Option.isSome_iff_exists.mp (hall c List.mem_cons_self)
      have hpos : 1 ≤ x := by
        by_contra hzero
        obtain rfl : x = 0 := by omega
        exact significant_head hsig (hexDigit_eq_zero_iff.mp hx)
      have hlow : 1 * 16 ^ digits.length ≤ hexValue 0 (c :: digits) := by
        rw [hexValue_cons hx]
        calc 1 * 16 ^ digits.length
          _ ≤ (16 * 0 + x) * 16 ^ digits.length := Nat.mul_le_mul_right _ (by omega)
          _ ≤ _ := (hexValue_bounds (fun c' hc' => hall c' (List.mem_cons_of_mem _ hc')) _).1
      have hhigh := (hexValue_bounds hall 0).2
      rw [Nat.zero_add, Nat.one_mul] at hhigh
      constructor
      · intro hlt
        by_contra hlong
        have hpow : 16 ^ n ≤ 16 ^ digits.length :=
          Nat.pow_le_pow_right (by decide) (by rw [List.length_cons] at hlong; omega)
        omega
      · intro hshort
        exact Nat.lt_of_lt_of_le hhigh (Nat.pow_le_pow_right (by decide) hshort)

theorem hexValue_append (h : AllDigits digits) (z : Nat) (str : List (BitVec 8)) :
    hexValue z (digits ++ str) = hexValue (hexValue z digits) str := by
  induction digits generalizing z with
  | nil => rfl
  | cons c digits ih =>
      obtain ⟨x, hx⟩ := Option.isSome_iff_exists.mp (h c List.mem_cons_self)
      rw [List.cons_append, hexValue_cons hx, hexValue_cons hx,
        ih fun c' hc' => h c' (List.mem_cons_of_mem _ hc')]

/-- The largest number of its length is written with the largest digit only. -/
theorem hexValue_max_iff (h : AllDigits digits) (z : Nat) :
    hexValue z digits + 1 = (z + 1) * 16 ^ digits.length ↔ ∀ c ∈ digits, hexDigit c = some 15 := by
  induction digits generalizing z with
  | nil => simp [hexValue]
  | cons c digits ih =>
      obtain ⟨x, hx⟩ := Option.isSome_iff_exists.mp (h c List.mem_cons_self)
      have hlt := hexDigit_lt hx
      have hrest : AllDigits digits := fun c' hc' => h c' (List.mem_cons_of_mem _ hc')
      rw [hexValue_cons hx, List.length_cons, Nat.pow_succ, List.forall_mem_cons, hx,
        Option.some.injEq, ← ih hrest (16 * z + x)]
      by_cases hmax : x = 15
      · subst hmax
        have hsame : (z + 1) * (16 ^ digits.length * 16) = (16 * z + 15 + 1) * 16 ^ digits.length := by
          ring
        rw [hsame]
        exact ⟨fun heq => ⟨rfl, heq⟩, fun heq => heq.2⟩
      · -- with a smaller digit in front the number is smaller
        refine iff_of_false (fun heq => ?_) fun heq => hmax heq.1
        have hhigh := (hexValue_bounds hrest (16 * z + x)).2
        have hless : (16 * z + x + 1) * 16 ^ digits.length < (z + 1) * (16 ^ digits.length * 16) := by
          calc (16 * z + x + 1) * 16 ^ digits.length
            _ < (16 * (z + 1)) * 16 ^ digits.length :=
              Nat.mul_lt_mul_of_pos_right (by omega) (Nat.pow_pos (by decide))
            _ = (z + 1) * (16 ^ digits.length * 16) := by ring
        omega

/-- Sixteen digits: the negation is at most `0xff` if all but the last two are as large as can be
and these are not both zero. -/
theorem negated_sixteen_iff {digits : List (BitVec 8)} (hall : AllDigits digits)
    (hlen : digits.length = 16) (hwide : hexValue 0 digits < 2 ^ 64) (hpos : 0 < hexValue 0 digits) :
    (2 ^ 64 - hexValue 0 digits) % 2 ^ 64 ≤ 0xff ↔
      (∀ c ∈ digits.take 14, hexDigit c = some 15) ∧ digits.drop 14 ≠ [0x30, 0x30] := by
  -- the last two digits apart
  obtain ⟨a, b, hlast⟩ : ∃ a b, digits.drop 14 = [a, b] :=
    List.length_eq_two.mp (by rw [List.length_drop, hlen])
  have hsplit : digits = digits.take 14 ++ [a, b] := by rw [← hlast, List.take_append_drop]
  have hfront : AllDigits (digits.take 14) := fun c hc => hall c (List.mem_of_mem_take hc)
  obtain ⟨x, hx⟩ := Option.isSome_iff_exists.mp
    (hall a (by rw [hsplit]; exact List.mem_append_right _ List.mem_cons_self))
  obtain ⟨y, hy⟩ := Option.isSome_iff_exists.mp
    (hall b (by rw [hsplit]; exact List.mem_append_right _ (by simp)))
  have hlength : (digits.take 14).length = 14 := by rw [List.length_take, hlen]; rfl
  have hvalue : hexValue 0 digits = 16 * (16 * hexValue 0 (digits.take 14) + x) + y := by
    conv_lhs => rw [hsplit]
    rw [hexValue_append hfront, hexValue_cons hx, hexValue_cons hy, hexValue]
  have hmax := hexValue_max_iff hfront 0
  have hbound := (hexValue_bounds hfront 0).2
  rw [hlength] at hmax hbound
  have hlastDigits : [a, b] ≠ [0x30, 0x30] ↔ ¬ (x = 0 ∧ y = 0) := by
    have ha : a = 0x30#8 ↔ x = 0 := by rw [← hexDigit_eq_zero_iff, hx, Option.some.injEq]
    have hb : b = 0x30#8 ↔ y = 0 := by rw [← hexDigit_eq_zero_iff, hy, Option.some.injEq]
    rw [← ha, ← hb]
    simp
  have hxlt := hexDigit_lt hx
  have hylt := hexDigit_lt hy
  rw [hlast, hlastDigits, ← hmax]
  omega

/-- Which numbers the negation modulo `2 ^ 64` brings to at most `0xff`. -/
theorem negatedByte_iff (str : List (BitVec 8)) :
    hexValue 0 (significant str) < 2 ^ 64 ∧
      (2 ^ 64 - hexValue 0 (significant str)) % 2 ^ 64 ≤ 0xff ↔ NegatedByte (significant str) := by
  have hsize := hexValue_significant_lt str
  have hzero : hexValue 0 (significant str) = 0 ↔ significant str = [] := by
    have hnone : hexValue 0 (significant str) < 1 ↔ (significant str).length ≤ 0 := hsize 0
    rw [← List.length_eq_zero_iff]
    omega
  have hwide : hexValue 0 (significant str) < 2 ^ 64 ↔ (significant str).length ≤ 16 := hsize 16
  have hnarrow : hexValue 0 (significant str) < 2 ^ 60 ↔ (significant str).length ≤ 15 := hsize 15
  unfold NegatedByte
  by_cases hlen : (significant str).length = 16
  · have hempty : significant str ≠ [] := by
      intro he
      rw [he] at hlen
      cases hlen
    have hpos : 0 < hexValue 0 (significant str) := Nat.pos_of_ne_zero fun h => hempty (hzero.mp h)
    have hlt := hwide.mpr (Nat.le_of_eq hlen)
    rw [negated_sixteen_iff (allDigits_significant str) hlen hlt hpos, and_iff_right hlt,
      or_iff_right hempty, and_iff_right hlen]
  · constructor
    · rintro ⟨hlt, hle⟩
      refine .inl (hzero.mp ?_)
      have := hnarrow.mpr (by have := hwide.mp hlt; omega)
      omega
    · rintro (hnil | ⟨h16, -⟩)
      · rw [hzero.mpr hnil]
        decide
      · exact absurd h16 hlen

/-! ## `strtoul` -/

/-- From the sign on. -/
def strtoulSigned (negative : Bool) (str : List (BitVec 8)) : Nat :=
  let z := hexValue 0 (skipPrefix str)
  if z ≥ 2 ^ 64 then 2 ^ 64 - 1 else if negative then (2 ^ 64 - z) % 2 ^ 64 else z

theorem strtoul_eq (str : List (BitVec 8)) : strtoul str =
    strtoulSigned (readSign (str.dropWhile isSpace)).1 (readSign (str.dropWhile isSpace)).2 := rfl

theorem strtoulSigned_false_iff (str : List (BitVec 8)) :
    strtoulSigned false str ≤ 0xff ↔ (significant (skipPrefix str)).length ≤ 2 := by
  have hsize := hexValue_significant_lt (skipPrefix str) 2
  rw [hexValue_significant] at hsize
  rw [← hsize]
  unfold strtoulSigned
  simp only [Bool.false_eq_true, if_false]
  split
  · omega
  · omega

theorem strtoulSigned_true_iff (str : List (BitVec 8)) :
    strtoulSigned true str ≤ 0xff ↔ NegatedByte (significant (skipPrefix str)) := by
  rw [← negatedByte_iff, hexValue_significant]
  unfold strtoulSigned
  simp only [if_true]
  split
  · omega
  · rename_i hsmall
    exact ⟨fun h => ⟨by omega, h⟩, fun h => h.2⟩

/-- **What `parse_u8` accepts.** -/
theorem strtoul_le_iff (str : List (BitVec 8)) : strtoul str ≤ 0xff ↔ LooseByte str := by
  rw [strtoul_eq]
  unfold LooseByte
  obtain ⟨negative, str⟩ := readSign (str.dropWhile isSpace)
  cases negative with
  | true => exact strtoulSigned_true_iff str
  | false => exact strtoulSigned_false_iff str

/-- Two digits and then none. -/
theorem strtoul_group {a b sep : BitVec 8} {y : Nat} (hx : hexDigit a = some x) (hy : hexDigit b = some y)
    (hsep : hexDigit sep = none) (rest : List (BitVec 8)) :
    strtoul (a :: b :: sep :: rest) = 16 * x + y := by
  have hxlt := hexDigit_lt hx
  have hylt := hexDigit_lt hy
  have hblank : (a :: b :: sep :: rest).dropWhile isSpace = a :: b :: sep :: rest :=
    List.dropWhile_cons_of_neg (by simp [isSpace_of_hexDigit hx])
  have hsign : readSign (a :: b :: sep :: rest) = (false, a :: b :: sep :: rest) := by
    unfold readSign
    split
    · rename_i heq
      exact absurd (List.cons.inj heq).1 (hexDigit_ne hx (by decide))
    · rename_i heq
      exact absurd (List.cons.inj heq).1 (hexDigit_ne hx (by decide))
    · rfl
  have hskip : skipPrefix (a :: b :: sep :: rest) = a :: b :: sep :: rest := by
    unfold skipPrefix
    split
    · rename_i heq
      simp only [List.cons.injEq] at heq
      obtain ⟨rfl, rfl, rfl, rfl⟩ := heq
      rw [if_neg]
      rintro ⟨-, hdigit⟩
      rw [hsep] at hdigit
      cases hdigit
    · rfl
  rw [strtoul_eq, hblank, hsign]
  unfold strtoulSigned
  rw [hskip, hexValue_cons hx, hexValue_cons hy, hexValue, hsep]
  simp only [Bool.false_eq_true, if_false]
  rw [if_neg (by omega)]
  omega

/-! ## `parse_mac` -/

theorem parseU8_eq_some_iff {v : BitVec 8} :
    parseU8 str = some v ↔ strtoul str ≤ 0xff ∧ BitVec.ofNat 8 (strtoul str) = v := by
  unfold parseU8
  simp only
  split
  · rename_i hlarge
    exact iff_of_false (by simp) fun h => absurd h.1 (by omega)
  · rename_i hsmall
    rw [Option.some.injEq]
    exact ⟨fun h => ⟨by omega, h⟩, fun h => h.2⟩

/-- A text is accepted if there is a byte at each of the offsets. -/
theorem parseMac_isSome_iff (text : List (BitVec 8)) :
    (∃ mac, parseMac text = some mac) ↔ ∀ k ∈ macOffsets, LooseByte (text.drop k) := by
  have hbyte : ∀ str, LooseByte str ↔ ∃ v, parseU8 str = some v := by
    intro str
    rw [← strtoul_le_iff]
    constructor
    · intro h
      exact ⟨_, parseU8_eq_some_iff.mpr ⟨h, rfl⟩⟩
    · rintro ⟨v, h⟩
      exact (parseU8_eq_some_iff.mp h).1
  simp only [macOffsets, List.forall_mem_cons, List.not_mem_nil, false_implies, implies_true, and_true,
    List.drop_zero, hbyte]
  unfold parseMac
  constructor
  · rintro ⟨mac, hmac⟩
    simp only [Option.bind_eq_bind, Option.bind_eq_some_iff] at hmac
    obtain ⟨b₀, h₀, b₁, h₁, b₂, h₂, b₃, h₃, b₄, h₄, b₅, h₅, -⟩ := hmac
    exact ⟨⟨_, h₀⟩, ⟨_, h₁⟩, ⟨_, h₂⟩, ⟨_, h₃⟩, ⟨_, h₄⟩, ⟨_, h₅⟩⟩
  · rintro ⟨⟨b₀, h₀⟩, ⟨b₁, h₁⟩, ⟨b₂, h₂⟩, ⟨b₃, h₃⟩, ⟨b₄, h₄⟩, ⟨b₅, h₅⟩⟩
    rw [h₀, h₁, h₂, h₃, h₄, h₅]
    exact ⟨_, rfl⟩

/-! ## Spelled addresses -/

theorem HexGroups.length {vs : List (BitVec 8)} (h : HexGroups str vs) :
    str.length + 1 = 3 * vs.length := by
  induction h with
  | last _ => rfl
  | cons _ _ ih =>
      simp only [List.length_cons]
      omega

/-- The first of several groups. -/
theorem HexGroups.uncons {v w : BitVec 8} {vs : List (BitVec 8)} (h : HexGroups str (v :: w :: vs)) :
    ∃ a b rest, str = a :: b :: 0x3A :: rest ∧ HexGroup a b v ∧ HexGroups rest (w :: vs) := by
  cases h with
  | cons hgroup hrest => exact ⟨_, _, _, rfl, hgroup, hrest⟩

theorem HexGroups.single {v : BitVec 8} (h : HexGroups str [v]) :
    ∃ a b, str = [a, b] ∧ HexGroup a b v := by
  cases h with
  | last hgroup => exact ⟨_, _, rfl, hgroup⟩
  | cons _ hrest => cases hrest

theorem parseU8_group {a b sep : BitVec 8} {v : BitVec 8} (h : HexGroup a b v)
    (hsep : hexDigit sep = none) (rest : List (BitVec 8)) : parseU8 (a :: b :: sep :: rest) = some v := by
  obtain ⟨x, y, hx, hy, rfl⟩ := h
  have hxlt := hexDigit_lt hx
  have hylt := hexDigit_lt hy
  rw [parseU8_eq_some_iff, strtoul_group hx hy hsep]
  exact ⟨by omega, rfl⟩

theorem mac_eq (mac : Mac) : mac = #v[mac[0], mac[1], mac[2], mac[3], mac[4], mac[5]] := by
  refine Vector.ext fun i hi => ?_
  obtain rfl | rfl | rfl | rfl | rfl | rfl : i = 0 ∨ i = 1 ∨ i = 2 ∨ i = 3 ∨ i = 4 ∨ i = 5 := by omega
  all_goals rfl

/-- A text of 17 bytes fits its array with the terminator. -/
theorem toList_strncpy {text : CString} (h : text.bytes.length = 17) :
    (strncpy 18 text).toList = text.bytes ++ [0] := by
  refine List.ext_getElem? fun i => ?_
  unfold strncpy
  rw [Vector.getElem?_toList, Vector.getElem?_ofFn, List.getElem?_append, h]
  by_cases hi : i < 18
  · rw [dif_pos hi]
    by_cases hlast : i < 17
    · rw [if_pos hlast, List.getD_eq_getElem _ _ (h.symm ▸ hlast), List.getElem?_eq_getElem]
    · obtain rfl : i = 17 := by omega
      rw [if_neg hlast, List.getD_eq_default _ _ (Nat.le_of_eq h)]
      rfl
  · rw [dif_neg hi, if_neg (by omega), List.getElem?_eq_none]
    show 1 ≤ i - 17
    omega

/-- A spelled address ends before its array does, so that what is behind the array is not read. -/
theorem parseMac_of_spells {arg : CString} {mac : Mac} (h : SpellsMac arg mac)
    (behind : List (BitVec 8)) : parseMac ((strncpy 18 arg).toList ++ behind) = some mac := by
  unfold SpellsMac at h
  obtain ⟨v₀, v₁, v₂, v₃, v₄, v₅, rfl⟩ : ∃ v₀ v₁ v₂ v₃ v₄ v₅, mac = #v[v₀, v₁, v₂, v₃, v₄, v₅] :=
    ⟨_, _, _, _, _, _, mac_eq mac⟩
  obtain ⟨a₀, b₀, r₀, hstr, g₀, h⟩ := h.uncons
  obtain ⟨a₁, b₁, r₁, rfl, g₁, h⟩ := h.uncons
  obtain ⟨a₂, b₂, r₂, rfl, g₂, h⟩ := h.uncons
  obtain ⟨a₃, b₃, r₃, rfl, g₃, h⟩ := h.uncons
  obtain ⟨a₄, b₄, r₄, rfl, g₄, h⟩ := h.uncons
  obtain ⟨a₅, b₅, rfl, g₅⟩ := h.single
  have hcolon : hexDigit 0x3A = none := by decide
  have hstored : (strncpy 18 arg).toList ++ behind = a₀ :: b₀ :: 0x3A :: a₁ :: b₁ :: 0x3A :: a₂ :: b₂ ::
      0x3A :: a₃ :: b₃ :: 0x3A :: a₄ :: b₄ :: 0x3A :: a₅ :: b₅ :: 0 :: behind := by
    rw [toList_strncpy (by rw [hstr]; rfl), hstr]
    rfl
  rw [hstored]
  unfold parseMac
  simp only [List.drop_succ_cons, List.drop_zero]
  rw [parseU8_group g₀ hcolon, parseU8_group g₁ hcolon, parseU8_group g₂ hcolon,
    parseU8_group g₃ hcolon, parseU8_group g₄ hcolon, parseU8_group g₅ (by decide)]
  rfl

theorem hexDigit_hexChar {n : Nat} (h : n < 16) : hexDigit (hexChar n) = some n := by
  have hall : ∀ n : Fin 16, hexDigit (hexChar n) = some n.val := by decide
  exact hall ⟨n, h⟩

/-- What is printed is in the grammar. -/
theorem hexGroups_printBytes (v : BitVec 8) (vs : List (BitVec 8)) :
    HexGroups (printBytes (v :: vs)) (v :: vs) := by
  have hgroup : ∀ v : BitVec 8, HexGroup (hexChar (v.toNat / 16)) (hexChar (v.toNat % 16)) v := by
    intro v
    have hv := v.isLt
    refine ⟨_, _, hexDigit_hexChar (by omega), hexDigit_hexChar (by omega), ?_⟩
    rw [show 16 * (v.toNat / 16) + v.toNat % 16 = v.toNat by omega, BitVec.ofNat_toNat,
      BitVec.setWidth_eq]
  induction vs generalizing v with
  | nil => exact .last (hgroup v)
  | cons w vs ih => exact .cons (hgroup v) (ih w)

theorem spellsMac_printMac (mac : Mac) : SpellsMac (printMac mac) mac := by
  obtain ⟨v, vs, hmac⟩ : ∃ v vs, mac.toList = v :: vs :=
    List.exists_cons_of_length_pos (by rw [Vector.length_toList]; decide)
  show HexGroups (printBytes mac.toList) mac.toList
  rw [hmac]
  exact hexGroups_printBytes v vs

end

/-! ## The arguments -/

/-- The two options that take an address. -/
inductive MacField where
  | src
  | dest

namespace MacField

def option : MacField → CString → CmdlineOption
  | src => .L
  | dest => .R

/-- What `parse_mac` is called with. -/
def text : MacField → Config → List (BitVec 8)
  | src => Config.srcText
  | dest => Config.destText

end MacField

/-- The option stores its argument. -/
theorem text_of_option (ifNametoindex : CString → BitVec 32) (field : MacField) (cfg : CmdlineConfig)
    (arg : CString) : ∃ cfg', parseCmdlineArgs ifNametoindex [field.option arg] cfg = .ok cfg' ∧
      ∃ behind, field.text cfg'.toConfig = (strncpy 18 arg).toList ++ behind := by
  cases field with
  | src => exact ⟨_, rfl, _, rfl⟩
  | dest => exact ⟨_, rfl, [], (List.append_nil _).symm⟩

/-- **The grammar of `parse_mac`.**  For the argument of either option, the addresses that the
program takes are those that the argument spells exactly when it does spell one or there is
something else than a loosely written byte at one of the six offsets.  The printed form of every
address is read back. -/
theorem parseMac_grammar_iff (ifNametoindex : CString → BitVec 32) (field : MacField)
    (cfg : CmdlineConfig) :
    (∀ arg, ∃ cfg', parseCmdlineArgs ifNametoindex [field.option arg] cfg = .ok cfg' ∧
      ((∀ mac, parseMac (field.text cfg'.toConfig) = some mac ↔ SpellsMac arg mac) ↔
        (∃ mac, SpellsMac arg mac) ∨
          ∃ k ∈ macOffsets, ¬ LooseByte ((field.text cfg'.toConfig).drop k))) ∧
    ∀ mac, ∃ cfg', parseCmdlineArgs ifNametoindex [field.option (printMac mac)] cfg = .ok cfg' ∧
      parseMac (field.text cfg'.toConfig) = some mac := by
  constructor
  · intro arg
    obtain ⟨cfg', hrun, behind, htext⟩ := text_of_option ifNametoindex field cfg arg
    refine ⟨cfg', hrun, ?_⟩
    rw [htext]
    have haccepts := parseMac_isSome_iff ((strncpy 18 arg).toList ++ behind)
    constructor
    · intro hexact
      by_cases hspells : ∃ mac, SpellsMac arg mac
      · exact .inl hspells
      · right
        by_contra hloose
        obtain ⟨mac, hmac⟩ := haccepts.mpr fun k hk => by
          by_contra hk'
          exact hloose ⟨k, hk, hk'⟩
        exact hspells ⟨mac, (hexact mac).mp hmac⟩
    · rintro (⟨mac₀, hmac₀⟩ | ⟨k, hk, hnot⟩) mac
      · refine ⟨fun hmac => ?_, fun hmac => parseMac_of_spells hmac behind⟩
        obtain rfl : mac₀ = mac :=
          Option.some.inj ((parseMac_of_spells hmac₀ behind).symm.trans hmac)
        exact hmac₀
      · refine ⟨fun hmac => ?_, fun hmac => parseMac_of_spells hmac behind⟩
        exact absurd (haccepts.mp ⟨mac, hmac⟩ k hk) hnot
  · intro mac
    obtain ⟨cfg', hrun, behind, htext⟩ := text_of_option ifNametoindex field cfg (printMac mac)
    refine ⟨cfg', hrun, ?_⟩
    rw [htext]
    exact parseMac_of_spells (spellsMac_printMac mac) behind

/-- An `é` is two bytes, so the digit behind `é2:45` stands at the third offset. -/
example : parseMac (strncpy 18 ⟨[0xC3, 0xA9] ++ ascii "2:456", by decide⟩).toList =
    some #v[0, 0, 6, 0, 0, 0] := by decide

def twoGroups : CString := ⟨ascii "aa:bb", by decide⟩

/-- Two groups are taken as an address that ends in four zeros. -/
theorem parseMac_two_groups : (∀ mac, ¬ SpellsMac twoGroups mac) ∧
    ∃ cfg', parseCmdlineArgs (fun _ => 0) [.L twoGroups] initialConfig = .ok cfg' ∧
      parseMac cfg'.srcText = some #v[0xaa, 0xbb, 0, 0, 0, 0] := by
  refine ⟨fun mac hmac => ?_, _, rfl, by decide⟩
  have hlength := HexGroups.length hmac
  rw [Vector.length_toList] at hlength
  exact absurd hlength (by decide)

end AfXdpSwitch
