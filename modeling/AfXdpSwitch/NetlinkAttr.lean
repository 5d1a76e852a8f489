import AfXdpSwitch.ByteMemory
import Mathlib

/-!
# Netlink attributes: `libbpf/src/nlattr.c`

An attribute is a header of four bytes, with the length of header and payload and the type, and
the payload; each begins at a multiple of four bytes from the head of the stream.
`libbpf_nla_parse` goes through a stream and notes, for each type, where the last attribute of
that type is.

The test that ends the loop compares the signed number of remaining bytes with an unsigned
`sizeof`.  If the padding of the last attribute is not part of the stream, that number is
negative, passes for a large one, and `nla_len` is read behind the end of the stream before the
last comparison fails.  Loads are therefore from a `Buffer`, and a load outside of it has no
result.  `walk` and `index` say what is meant: the attributes of a stream, and the last of each
type.
-/

namespace AfXdpSwitch.Netlink
open ByteMemory

/-- The bytes from `base` to `limit` may be read. -/
structure Buffer where
  mem : ByteMemory
  base : Nat
  limit : Nat

namespace Buffer

/-- The range lies in the buffer. -/
def Covers (b : Buffer) (a n : Nat) : Prop := b.base ≤ a ∧ a + n ≤ b.limit

instance (b : Buffer) (a n : Nat) : Decidable (b.Covers a n) :=
  inferInstanceAs (Decidable (_ ∧ _))

def load8 (b : Buffer) (a : Nat) : Option (BitVec 8) :=
  if b.Covers a 1 then some (b.mem a) else none

def load16 (b : Buffer) (a : Nat) : Option (BitVec 16) :=
  if b.Covers a 2 then some (b.mem.load16 a) else none

def load32 (b : Buffer) (a : Nat) : Option (BitVec 32) :=
  if b.Covers a 4 then some (b.mem.load32 a) else none

end Buffer

/-! ## The functions of `nlattr.c` -/

/-- `NLA_ALIGN`: the next multiple of four. -/
def nlaAlign (len : Nat) : Nat := (len + 3) / 4 * 4

/-- `NLA_HDRLEN`, which is `sizeof(struct nlattr)`. -/
def nlaHdrlen : Nat := 4

/-- `LIBBPF_NLA_*`. -/
def nlaUnspec : Nat := 0
def nlaString : Nat := 5
def nlaTypeMax : Nat := 8

/-- `nla_attr_minlen`. -/
def nlaAttrMinlen (type : Nat) : Nat := [0, 1, 2, 4, 8, 1].getD type 0

structure Policy where
  type : Nat
  minlen : Nat
  maxlen : Nat

/-- `nla_type(nla)`, given `nla->nla_type`. -/
def nlaType (type : BitVec 16) : Nat := (type &&& 0x3fff).toNat

/-- `remaining >= sizeof(*nla)`, where `remaining` is converted to `size_t`. -/
def hasHeader (remaining : Int) : Bool := 4 ≤ (BitVec.ofInt 64 remaining).toNat

def nlaOk (b : Buffer) (nla : Nat) (remaining : Int) : Option Bool :=
  if hasHeader remaining then
    (b.load16 nla).map fun len => 4 ≤ len.toNat && (len.toNat : Int) ≤ remaining
  else some false

/-- The `minlen` that `validate_nla` asks for. -/
def Policy.required (pt : Policy) : Nat :=
  if pt.minlen ≠ 0 then pt.minlen
  else if pt.type ≠ nlaUnspec then nlaAttrMinlen pt.type else 0

/-- The checks of `validate_nla` on an attribute of length `len`, for the entry of its type. -/
def validateNla (b : Buffer) (nla len : Nat) (pt : Policy) : Option Bool :=
  if pt.type > nlaTypeMax then some true
  else
    let payload := len - nlaHdrlen
    if payload < pt.required then some false
    else if pt.maxlen ≠ 0 ∧ payload > pt.maxlen then some false
    else if pt.type = nlaString then (b.load8 (nla + nlaHdrlen + (payload - 1))).map (· == 0)
    else some true

/-- `tb`: where the attribute of a type is, if there is one. -/
abbrev Table := Nat → Option Nat

/-- `tb[type] = nla`. -/
def Table.set (tb : Table) (type nla : Nat) : Table := Function.update tb type (some nla)

section
variable (b : Buffer) (maxtype : Nat) (policy : Option (Nat → Policy))

/-- `if (policy) validate_nla(..)`. -/
def accepted (nla len type : Nat) : Option Bool :=
  match policy with
  | none => some true
  | some policy => validateNla b nla len (policy type)

/-- The loop of `libbpf_nla_parse`, with its return value and table.  It is given one round more
than it can need. -/
def parseLoop : Nat → Nat → Int → Table → Option (Int × Table)
  | 0, _, _, tb => some (0, tb)
  | rounds + 1, nla, rem, tb => do
      if ← nlaOk b nla rem then
        let len ← b.load16 nla
        let type := nlaType (← b.load16 (nla + 2))
        let step := nlaAlign len.toNat
        if type > maxtype then parseLoop rounds (nla + step) (rem - step) tb
        else if ← accepted b policy nla len.toNat type then
          parseLoop rounds (nla + step) (rem - step) (tb.set type nla)
        else some (-1, tb)
      else some (0, tb)

def libbpfNlaParse (head : Nat) (len : Int) : Option (Int × Table) :=
  parseLoop b maxtype policy (len.toNat + 1) head len fun _ => none

/-- `libbpf_nla_parse_nested`. -/
def libbpfNlaParseNested (nla : Nat) : Option (Int × Table) := do
  let len ← b.load16 nla
  libbpfNlaParse b maxtype policy (nla + nlaHdrlen) (len.toNat - nlaHdrlen : Int)

end

/-! ## What is meant -/

/-- The attribute at `nla` with `rem` bytes to the end of the stream is complete. -/
def Complete (m : ByteMemory) (nla : Nat) (rem : Int) : Prop :=
  4 ≤ rem ∧ 4 ≤ (m.load16 nla).toNat ∧ ((m.load16 nla).toNat : Int) ≤ rem

instance (m : ByteMemory) (nla : Nat) (rem : Int) : Decidable (Complete m nla rem) :=
  inferInstanceAs (Decidable (_ ∧ _))

/-- The attributes of a stream, and what remains after them: a few bytes, or less than nothing
when the stream ends before the padding. -/
def walk (m : ByteMemory) : Nat → Nat → Int → List Nat × Int
  | 0, _, rem => ([], rem)
  | rounds + 1, nla, rem =>
      if Complete m nla rem then
        let step := nlaAlign (m.load16 nla).toNat
        let (nlas, rest) := walk m rounds (nla + step) (rem - step)
        (nla :: nlas, rest)
      else ([], rem)

/-- Whether an attribute passes the policy for its type, in any buffer with these bytes. -/
def valid (m : ByteMemory) (policy : Option (Nat → Policy)) (nla : Nat) : Bool :=
  let b : Buffer := ⟨m, 0, nla + (m.load16 nla).toNat⟩
  accepted b policy nla (m.load16 nla).toNat (nlaType (m.load16 (nla + 2))) == some true

/-- The table of some attributes, or the error at the first that is not valid. -/
def index (m : ByteMemory) (maxtype : Nat) (policy : Option (Nat → Policy)) :
    List Nat → Table → Int × Table
  | [], tb => (0, tb)
  | nla :: nlas, tb =>
      let type := nlaType (m.load16 (nla + 2))
      if type > maxtype then index m maxtype policy nlas tb
      else if valid m policy nla then index m maxtype policy nlas (tb.set type nla)
      else (-1, tb)

variable {b : Buffer} {m m' : ByteMemory} {maxtype nla rounds n : Nat} {rem : Int} {tb : Table}
  {policy : Option (Nat → Policy)}

/-! ## Sizes -/

theorem le_nlaAlign (len : Nat) : len ≤ nlaAlign len := by unfold nlaAlign; omega

theorem nlaAlign_lt (len : Nat) : nlaAlign len < len + 4 := by unfold nlaAlign; omega

/-- The conversion to `size_t` makes negative numbers large. -/
theorem hasHeader_iff (h : -3 ≤ rem) (h' : rem < 2 ^ 63) :
    hasHeader rem = true ↔ 4 ≤ rem ∨ rem < 0 := by
  unfold hasHeader
  rw [decide_eq_true_eq, BitVec.toNat_ofInt]
  omega

theorem load16_covered {a : Nat} (h : b.Covers a 2) : b.load16 a = some (b.mem.load16 a) :=
  if_pos h

theorem load16_uncovered {a : Nat} (h : ¬ b.Covers a 2) : b.load16 a = none := if_neg h

/-! ## The code does what is meant -/

/-- The test of the loop, as far as it has a result. -/
theorem nlaOk_eq (h : -3 ≤ rem) (h' : rem < 2 ^ 63) (hread : 4 ≤ rem ∨ rem < 0 → b.Covers nla 2) :
    nlaOk b nla rem = some (decide (Complete b.mem nla rem)) := by
  unfold nlaOk
  by_cases hh : 4 ≤ rem ∨ rem < 0
  · rw [(hasHeader_iff h h').mpr hh, if_pos rfl, load16_covered (hread hh), Option.map_some]
    have hiff : 4 ≤ (b.mem.load16 nla).toNat ∧ ((b.mem.load16 nla).toNat : Int) ≤ rem ↔
        Complete b.mem nla rem := ⟨fun hl => ⟨by omega, hl.1, hl.2⟩, fun hl => hl.2⟩
    rw [← Bool.decide_and, decide_eq_decide.mpr hiff]
  · have hn : hasHeader rem = false :=
      Bool.eq_false_iff.mpr fun ht => hh ((hasHeader_iff h h').mp ht)
    rw [hn, if_neg Bool.false_ne_true]
    congr 1
    exact (decide_eq_false fun hc => hh (.inl hc.1)).symm

theorem Policy.required_string {pt : Policy} (h : pt.type = nlaString) : 1 ≤ pt.required := by
  unfold Policy.required
  split
  · omega
  · rw [h]
    decide

/-- A string is not empty when its last byte is looked at. -/
theorem validateNla_covered {len : Nat} (h : b.Covers nla len) (pt : Policy) :
    validateNla b nla len pt = some (validateNla ⟨b.mem, 0, nla + len⟩ nla len pt == some true) := by
  unfold validateNla nlaHdrlen
  split
  · rfl
  dsimp only
  split
  · rfl
  split
  · rfl
  split
  · rename_i hmin _ htype
    have hreq := Policy.required_string htype
    obtain ⟨h1, h2⟩ := h
    have hc : b.Covers (nla + 4 + (len - 4 - 1)) 1 := ⟨by omega, by omega⟩
    have hc' : Buffer.Covers ⟨b.mem, 0, nla + len⟩ (nla + 4 + (len - 4 - 1)) 1 :=
      ⟨Nat.zero_le _, by show _ ≤ nla + len; omega⟩
    unfold Buffer.load8
    rw [if_pos hc, if_pos hc', Option.map_some]
    cases b.mem (nla + 4 + (len - 4 - 1)) == 0 <;> rfl
  · rfl

theorem accepted_eq (policy : Option (Nat → Policy))
    (h : b.Covers nla (b.mem.load16 nla).toNat) :
    accepted b policy nla (b.mem.load16 nla).toNat (nlaType (b.mem.load16 (nla + 2))) =
      some (valid b.mem policy nla) := by
  cases policy with
  | none => rfl
  | some policy => exact validateNla_covered h _

/-- One round of the loop. -/
theorem parseLoop_complete (hok : nlaOk b nla rem = some true) (hc : Complete b.mem nla rem)
    (h : b.Covers nla (b.mem.load16 nla).toNat) :
    parseLoop b maxtype policy (rounds + 1) nla rem tb =
      if nlaType (b.mem.load16 (nla + 2)) > maxtype then
        parseLoop b maxtype policy rounds (nla + nlaAlign (b.mem.load16 nla).toNat)
          (rem - nlaAlign (b.mem.load16 nla).toNat) tb
      else if valid b.mem policy nla then
        parseLoop b maxtype policy rounds (nla + nlaAlign (b.mem.load16 nla).toNat)
          (rem - nlaAlign (b.mem.load16 nla).toNat)
          (tb.set (nlaType (b.mem.load16 (nla + 2))) nla)
      else some (-1, tb) := by
  have hl := hc.2.1
  have h2 : b.Covers nla 2 := ⟨h.1, by have := h.2; omega⟩
  have h4 : b.Covers (nla + 2) 2 := ⟨by have := h.1; omega, by have := h.2; omega⟩
  have hacc := accepted_eq policy h
  rw [parseLoop]
  simp only [hok, load16_covered h2, load16_covered h4, Option.bind_eq_bind, Option.bind_some,
    if_true, hacc]

theorem parseLoop_incomplete (hok : nlaOk b nla rem = some false) :
    parseLoop b maxtype policy (rounds + 1) nla rem tb = some (0, tb) := by
  rw [parseLoop]
  simp only [hok, Option.bind_eq_bind, Option.bind_some, Bool.false_eq_true, if_false]

theorem walk_complete (h : Complete m nla rem) : walk m (rounds + 1) nla rem =
    (nla :: (walk m rounds (nla + nlaAlign (m.load16 nla).toNat)
      (rem - nlaAlign (m.load16 nla).toNat)).1,
      (walk m rounds (nla + nlaAlign (m.load16 nla).toNat)
        (rem - nlaAlign (m.load16 nla).toNat)).2) := by
  rw [walk, if_pos h]

theorem walk_incomplete (h : ¬ Complete m nla rem) : walk m (rounds + 1) nla rem = ([], rem) := by
  rw [walk, if_neg h]

/-- **`libbpf_nla_parse` makes the table of the attributes of the stream**, if five bytes behind
it may be read or it does not end in the padding of its last attribute. -/
theorem parseLoop_eq (maxtype : Nat) (policy : Option (Nat → Policy)) (tb : Table)
    (hr : rem.toNat < rounds) (h : -3 ≤ rem) (h' : rem < 2 ^ 63)
    (hbase : b.base ≤ nla) (hend : (nla : Int) + rem ≤ b.limit)
    (hslack : (walk b.mem rounds nla rem).2 < 0 → (nla : Int) + rem + 5 ≤ b.limit) :
    parseLoop b maxtype policy rounds nla rem tb =
      some (index b.mem maxtype policy (walk b.mem rounds nla rem).1 tb) := by
  induction rounds generalizing nla rem tb with
  | zero => exact absurd hr (Nat.not_lt_zero _)
  | succ rounds ih =>
      by_cases hc : Complete b.mem nla rem
      · -- an attribute: its header is read, and the rest of the stream is a shorter one
        have hl := hc.2.1
        have hrem := hc.2.2
        have hlt := nlaAlign_lt (b.mem.load16 nla).toNat
        have hle := le_nlaAlign (b.mem.load16 nla).toNat
        have hcov : b.Covers nla (b.mem.load16 nla).toNat := ⟨hbase, by omega⟩
        have hok : nlaOk b nla rem = some true := by
          rw [nlaOk_eq h h' fun _ => ⟨hbase, by omega⟩, decide_eq_true hc]
        rw [walk_complete hc] at hslack ⊢
        rw [parseLoop_complete hok hc hcov]
        have hnext : ∀ tb, parseLoop b maxtype policy rounds
            (nla + nlaAlign (b.mem.load16 nla).toNat)
            (rem - nlaAlign (b.mem.load16 nla).toNat) tb = _ := fun tb =>
          ih tb (by omega) (by omega) (by omega) (by omega) (by push_cast; omega)
            fun hneg => by have := hslack hneg; push_cast; omega
        simp only [hnext, index]
        split
        · rfl
        · split <;> rfl
      · rw [walk_incomplete hc] at hslack ⊢
        have hok : nlaOk b nla rem = some false := by
          rw [nlaOk_eq h h' ?_, decide_eq_false hc]
          rintro (hh | hh)
          · exact ⟨hbase, by omega⟩
          · have := hslack hh
            exact ⟨hbase, by omega⟩
        rw [parseLoop_incomplete hok]
        rfl

/-- The read behind the end of the buffer. -/
theorem nlaOk_outside (h : -3 ≤ rem) (hneg : rem < 0) (hend : (nla : Int) + rem = b.limit) :
    nlaOk b nla rem = none := by
  have hh : hasHeader rem = true := (hasHeader_iff h (by omega)).mpr (.inr hneg)
  have hout : ¬ b.Covers nla 2 := fun hc => by have := hc.2; omega
  unfold nlaOk
  rw [hh, if_pos rfl, load16_uncovered hout, Option.map_none]

/-- If nothing behind the stream may be read and the stream ends in the padding, the loop gets
there unless it stops at an attribute that is not valid. -/
theorem parseLoop_outside (maxtype : Nat) (policy : Option (Nat → Policy)) (tb : Table)
    (hr : rem.toNat < rounds) (h : -3 ≤ rem) (h' : rem < 2 ^ 63)
    (hbase : b.base ≤ nla) (hend : (nla : Int) + rem = b.limit)
    (hneg : (walk b.mem rounds nla rem).2 < 0) :
    parseLoop b maxtype policy rounds nla rem tb =
      if (index b.mem maxtype policy (walk b.mem rounds nla rem).1 tb).1 = 0 then none
      else some (index b.mem maxtype policy (walk b.mem rounds nla rem).1 tb) := by
  induction rounds generalizing nla rem tb with
  | zero => exact absurd hr (Nat.not_lt_zero _)
  | succ rounds ih =>
      by_cases hc : Complete b.mem nla rem
      · have hl := hc.2.1
        have hrem := hc.2.2
        have hlt := nlaAlign_lt (b.mem.load16 nla).toNat
        have hle := le_nlaAlign (b.mem.load16 nla).toNat
        have hcov : b.Covers nla (b.mem.load16 nla).toNat := ⟨hbase, by omega⟩
        have hok : nlaOk b nla rem = some true := by
          rw [nlaOk_eq h h' fun _ => ⟨hbase, by omega⟩, decide_eq_true hc]
        rw [walk_complete hc] at hneg ⊢
        rw [parseLoop_complete hok hc hcov]
        have hnext : ∀ tb, parseLoop b maxtype policy rounds
            (nla + nlaAlign (b.mem.load16 nla).toNat)
            (rem - nlaAlign (b.mem.load16 nla).toNat) tb = _ := fun tb =>
          ih tb (by omega) (by omega) (by omega) (by omega) (by push_cast; omega) hneg
        simp only [hnext, index]
        split
        · rfl
        · split
          · rfl
          · rw [if_neg (show ¬ (-1 : Int) = 0 by decide)]
      · rw [walk_incomplete hc] at hneg ⊢
        have hzero : (index b.mem maxtype policy [] tb).1 = 0 := rfl
        rw [if_pos hzero, parseLoop, nlaOk_outside h hneg hend]
        rfl

/-- The attributes of the stream of length `len` at `head`, and what remains after them. -/
def stream (m : ByteMemory) (head : Nat) (len : Int) : List Nat × Int :=
  walk m (len.toNat + 1) head len

/-- **What the parser reads.**  In a buffer with five bytes to spare it always has the table it
is meant to have.  In a buffer that ends with the stream it reads behind the end exactly if the
stream ends in the padding of its last attribute and every attribute is valid. -/
theorem libbpfNlaParse_eq (b : Buffer) (maxtype : Nat) (policy : Option (Nat → Policy))
    (head : Nat) (len : Nat) (hlen : len < 2 ^ 31) (hbase : b.base ≤ head) :
    (head + len + 5 ≤ b.limit → libbpfNlaParse b maxtype policy head len =
      some (index b.mem maxtype policy (stream b.mem head len).1 fun _ => none)) ∧
    (head + len = b.limit → (libbpfNlaParse b maxtype policy head len = none ↔
      (stream b.mem head len).2 < 0 ∧
        (index b.mem maxtype policy (stream b.mem head len).1 fun _ => none).1 = 0)) := by
  have hr : (len : Int).toNat < (len : Int).toNat + 1 := Nat.lt_succ_self _
  constructor
  · intro hlim
    exact parseLoop_eq maxtype policy _ hr (by omega) (by omega) hbase (by omega) fun _ => by omega
  · intro hlim
    by_cases hneg : (stream b.mem head len).2 < 0
    · have h := parseLoop_outside maxtype policy (fun _ => none) hr
        (by omega) (by omega) hbase (by omega) hneg
      unfold libbpfNlaParse
      rw [h]
      unfold stream at hneg ⊢
      split <;> simp_all
    · have h := parseLoop_eq maxtype policy (fun _ => none) hr
        (by omega) (by omega) hbase (by omega) fun hn => absurd hn hneg
      unfold libbpfNlaParse
      rw [h]
      exact iff_of_false (fun h => by cases h) fun h => hneg h.1

/-- One attribute with a payload of one byte and no padding. -/
def unpadded : Buffer := ⟨fun a => [5, 0, 1, 0, 7].getD a 0, 0, 5⟩

theorem libbpfNlaParse_unpadded : (stream unpadded.mem 0 5).1 = [0] ∧
    libbpfNlaParse unpadded 1 none 0 5 = none := by
  refine ⟨by decide, ?_⟩
  exact ((libbpfNlaParse_eq unpadded 1 none 0 5 (by decide) (by decide)).2 rfl).mpr (by decide)

/-! ## Streams of attributes -/

/-- An attribute whose length fits its header. -/
structure Attr where
  type : BitVec 16
  payload : List (BitVec 8)
  fits : payload.length + 4 < 2 ^ 16

namespace Attr

/-- `nla_len`. -/
def len (a : Attr) : Nat := a.payload.length + 4

/-- The attribute with its padding. -/
def encode (a : Attr) : List (BitVec 8) :=
  bytes16 (BitVec.ofNat 16 a.len) ++ bytes16 a.type ++ a.payload ++
    List.replicate (nlaAlign a.len - a.len) 0

theorem length_encode (a : Attr) : a.encode.length = nlaAlign a.len := by
  have hle := le_nlaAlign a.len
  unfold encode
  simp only [List.length_append, List.length_replicate]
  show 2 + 2 + a.payload.length + _ = _
  unfold len at *
  omega

end Attr

/-- No padding after a length that is a multiple of four. -/
theorem Attr.encode_aligned {a : Attr} (h : a.len % 4 = 0) :
    a.encode = bytes16 (BitVec.ofNat 16 a.len) ++ bytes16 a.type ++ a.payload := by
  have hpad : nlaAlign a.len - a.len = 0 := by
    unfold nlaAlign
    omega
  unfold encode
  rw [hpad, List.replicate_zero, List.append_nil]

/-- A stream of attributes. -/
def encodeAll (attrs : List Attr) : List (BitVec 8) := attrs.flatMap Attr.encode

/-- Where the attributes of a stream at `head` are. -/
def positions : Nat → List Attr → List Nat
  | _, [] => []
  | head, a :: attrs => head :: positions (head + nlaAlign a.len) attrs

/-- The payload of the last attribute of a type. -/
def lastOf (type : Nat) : List Attr → Option (List (BitVec 8))
  | [] => none
  | a :: attrs => (lastOf type attrs).or (if nlaType a.type = type then some a.payload else none)

/-- `libbpf_nla_data` and `libbpf_nla_len`: the payload of an attribute in memory. -/
def payloadAt (m : ByteMemory) (nla : Nat) : List (BitVec 8) :=
  m.read (nla + nlaHdrlen) ((m.load16 nla).toNat - nlaHdrlen)

section
variable {a : Attr} {attrs : List Attr} {head k : Nat}

theorem encodeAll_cons : encodeAll (a :: attrs) = a.encode ++ encodeAll attrs :=
  List.flatMap_cons

theorem lastOf_cons (type : Nat) : lastOf type (a :: attrs) =
    (lastOf type attrs).or (if nlaType a.type = type then some a.payload else none) := rfl

theorem read_append {xs ys : List (BitVec 8)} (h : m.read k (xs ++ ys).length = xs ++ ys) :
    m.read k xs.length = xs ∧ m.read (k + xs.length) ys.length = ys := by
  rw [List.length_append, ByteMemory.read_add] at h
  exact List.append_inj h (by simp)

/-- What the parser finds at an attribute. -/
theorem read_encode (h : m.read head a.encode.length = a.encode) :
    (m.load16 head).toNat = a.len ∧ m.load16 (head + 2) = a.type ∧
      payloadAt m head = a.payload := by
  obtain ⟨hbody, -⟩ := read_append (show m.read head
    (_ ++ List.replicate (nlaAlign a.len - a.len) 0).length = _ from h)
  obtain ⟨h, hpay⟩ := read_append hbody
  obtain ⟨hlen, htype⟩ := read_append h
  have hl : m.load16 head = BitVec.ofNat 16 a.len := load16_eq m hlen
  have hn : (m.load16 head).toNat = a.len := by
    rw [hl, BitVec.toNat_ofNat]
    exact Nat.mod_eq_of_lt a.fits
  refine ⟨hn, load16_eq m htype, ?_⟩
  unfold payloadAt
  rw [hn]
  exact hpay

/-- The walk over a stream finds its attributes, and nothing remains. -/
theorem walk_encodeAll (h : m.read head (encodeAll attrs).length = encodeAll attrs)
    (hr : (encodeAll attrs).length < rounds) :
    walk m rounds head (encodeAll attrs).length = (positions head attrs, 0) := by
  induction attrs generalizing head rounds with
  | nil =>
      cases rounds with
      | zero => rfl
      | succ rounds => exact walk_incomplete fun hc => absurd hc.1 (by decide)
  | cons a attrs ih =>
      obtain ⟨rounds, rfl⟩ : ∃ r, rounds = r + 1 := ⟨rounds - 1, by omega⟩
      rw [encodeAll_cons] at h hr ⊢
      obtain ⟨ha, hattrs⟩ := read_append h
      obtain ⟨hlen, -, -⟩ := read_encode ha
      have hle := le_nlaAlign a.len
      have hpos : 4 ≤ a.len := Nat.le_add_left 4 _
      rw [List.length_append, Attr.length_encode] at hr ⊢
      rw [Attr.length_encode] at hattrs
      have hc : Complete m head ((nlaAlign a.len + (encodeAll attrs).length : Nat) : Int) := by
        unfold Complete
        rw [hlen]
        omega
      have hrest : ((nlaAlign a.len + (encodeAll attrs).length : Nat) : Int) - nlaAlign a.len =
          (encodeAll attrs).length := by omega
      rw [walk_complete hc, hlen, hrest, ih hattrs (by omega)]
      rfl

/-- The table of a stream. -/
theorem index_positions (h : m.read head (encodeAll attrs).length = encodeAll attrs)
    (maxtype : Nat) (tb : Table) :
    (index m maxtype none (positions head attrs) tb).1 = 0 ∧
      ∀ type, ((index m maxtype none (positions head attrs) tb).2 type).map (payloadAt m) =
        if type ≤ maxtype then (lastOf type attrs).or ((tb type).map (payloadAt m))
        else (tb type).map (payloadAt m) := by
  induction attrs generalizing head tb with
  | nil => exact ⟨rfl, fun type => by simp [index, positions, lastOf]⟩
  | cons a attrs ih =>
      rw [encodeAll_cons] at h
      obtain ⟨ha, hattrs⟩ := read_append h
      obtain ⟨-, htype, hpay⟩ := read_encode ha
      rw [Attr.length_encode] at hattrs
      simp only [positions, index, htype]
      split
      · -- an unknown type is skipped
        rename_i hgt
        obtain ⟨h0, hmap⟩ := ih hattrs tb
        refine ⟨h0, fun type => ?_⟩
        rw [hmap type]
        split
        · rw [lastOf_cons, if_neg (by omega), Option.or_none]
        · rfl
      · rename_i hgt
        rw [if_pos (show valid m none head = true from rfl)]
        obtain ⟨h0, hmap⟩ := ih hattrs (tb.set (nlaType a.type) head)
        refine ⟨h0, fun type => ?_⟩
        rw [hmap type, lastOf_cons]
        unfold Table.set
        by_cases ht : nlaType a.type = type
        · subst ht
          rw [Function.update_self, if_pos rfl, if_pos (by omega), if_pos (by omega),
            Option.map_some, hpay, Option.or_assoc, Option.some_or]
        · rw [Function.update_of_ne (Ne.symm ht), if_neg ht, Option.or_none]

end

/-- The entries of a table are attributes of the stream. -/
theorem mem_of_index {nlas : List Nat} {type : Nat}
    (h : (index m maxtype policy nlas tb).2 type = some nla) :
    nla ∈ nlas ∨ tb type = some nla := by
  induction nlas generalizing tb with
  | nil => exact .inr h
  | cons x nlas ih =>
      simp only [index] at h
      split at h
      · exact (ih h).imp_left (List.mem_cons_of_mem x)
      · split at h
        · rcases ih h with hm | htb
          · exact .inl (List.mem_cons_of_mem x hm)
          · unfold Table.set at htb
            by_cases ht : type = nlaType (m.load16 (x + 2))
            · rw [ht, Function.update_self] at htb
              exact .inl (Option.some.inj htb ▸ List.mem_cons_self)
            · rw [Function.update_of_ne ht] at htb
              exact .inr htb
        · exact .inr h

theorem positions_spec {head : Nat} {attrs : List Attr}
    (h : m.read head (encodeAll attrs).length = encodeAll attrs) (hm : nla ∈ positions head attrs) :
    head ≤ nla ∧ nla + (m.load16 nla).toNat ≤ head + (encodeAll attrs).length := by
  induction attrs generalizing head with
  | nil => exact absurd hm List.not_mem_nil
  | cons a attrs ih =>
      rw [encodeAll_cons] at h ⊢
      obtain ⟨ha, hattrs⟩ := read_append h
      rw [List.length_append, Attr.length_encode]
      rcases List.mem_cons.mp hm with rfl | hm
      · have hle := le_nlaAlign a.len
        rw [(read_encode ha).1]
        omega
      · rw [Attr.length_encode] at hattrs
        have hspec := ih hattrs hm
        omega

/-- The table of a stream in a buffer: for every type up to `maxtype` the payload of the last
attribute of that type, inside the buffer. -/
structure TableOf (b : Buffer) (maxtype : Nat) (attrs : List Attr) (tb : Table) : Prop where
  payload : ∀ type, (tb type).map (payloadAt b.mem) =
    if type ≤ maxtype then lastOf type attrs else none
  inside : ∀ type nla, tb type = some nla → b.Covers nla (b.mem.load16 nla).toNat

/-- **Parsing a stream of attributes** gives its table. -/
theorem libbpfNlaParse_encodeAll (b : Buffer) (maxtype head : Nat) (attrs : List Attr)
    (hlen : (encodeAll attrs).length < 2 ^ 31) (hcov : b.Covers head (encodeAll attrs).length)
    (h : b.mem.read head (encodeAll attrs).length = encodeAll attrs) :
    ∃ tb, libbpfNlaParse b maxtype none head (encodeAll attrs).length = some (0, tb) ∧
      TableOf b maxtype attrs tb := by
  have hwalk := walk_encodeAll h (Nat.lt_succ_self _)
  obtain ⟨h0, hmap⟩ := index_positions h maxtype fun _ => none
  have hparse : libbpfNlaParse b maxtype none head (encodeAll attrs).length = _ :=
    parseLoop_eq maxtype none (fun _ => none) (Nat.lt_succ_self _) (by omega) (by omega) hcov.1
      (by have := hcov.2; omega) fun hneg => by
        rw [Int.toNat_natCast, hwalk] at hneg
        exact absurd hneg (Int.lt_irrefl 0)
  rw [Int.toNat_natCast, hwalk] at hparse
  refine ⟨(index b.mem maxtype none (positions head attrs) fun _ => none).2, ?_,
    fun type => ?_, fun type nla htb => ?_⟩
  · rw [hparse, ← h0]
  · rw [hmap type, Option.map_none, Option.or_none]
  · rcases mem_of_index htb with hm | hm
    · obtain ⟨h1, h2⟩ := positions_spec h hm
      exact ⟨Nat.le_trans hcov.1 h1, Nat.le_trans h2 hcov.2⟩
    · cases hm

/-- **Parsing a nested stream.** -/
theorem libbpfNlaParseNested_encodeAll (b : Buffer) (maxtype nla : Nat) (attrs : List Attr)
    (hcov : b.Covers nla (b.mem.load16 nla).toNat) (hpos : 4 ≤ (b.mem.load16 nla).toNat)
    (h : payloadAt b.mem nla = encodeAll attrs) :
    ∃ tb, libbpfNlaParseNested b maxtype none nla = some (0, tb) ∧
      TableOf b maxtype attrs tb := by
  have hlen : (b.mem.load16 nla).toNat - 4 = (encodeAll attrs).length := by
    rw [← h]
    exact (ByteMemory.length_read ..).symm
  have hlt := (b.mem.load16 nla).isLt
  obtain ⟨hc1, hc2⟩ := hcov
  have hread : b.mem.read (nla + nlaHdrlen) (encodeAll attrs).length = encodeAll attrs := by
    rw [← hlen]
    exact h
  obtain ⟨tb, hparse, htb⟩ := libbpfNlaParse_encodeAll b maxtype (nla + nlaHdrlen) attrs
    (by omega) ⟨by omega, by unfold nlaHdrlen; omega⟩ hread
  refine ⟨tb, ?_, htb⟩
  have hint : ((b.mem.load16 nla).toNat : Int) - nlaHdrlen = (encodeAll attrs).length := by
    unfold nlaHdrlen
    omega
  unfold libbpfNlaParseNested
  rw [load16_covered ⟨hc1, by omega⟩, Option.bind_eq_bind, Option.bind_some, hint]
  exact hparse

end AfXdpSwitch.Netlink
