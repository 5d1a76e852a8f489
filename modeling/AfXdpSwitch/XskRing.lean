import AfXdpSwitch.SpscRing
import Mathlib.Data.Nat.Bitwise

/-!
# The ring functions of `libbpf/src/xsk.h`

`struct xsk_ring_prod` and `struct xsk_ring_cons` are two copies of one macro.
Besides the memory shared with the kernel (`shared`) a ring has a private copy of
both indices.  The side that user space drives is ahead of its published index by
what is reserved or peeked; the side the kernel drives is refreshed only when the
private copy says there is too little.  For a producer ring `cachedCons` is `size`
larger than the consumer index it copies.

The functions follow the source, with `__u32` and `size_t` as `BitVec 32` and
`BitVec 64`; an index returned through a pointer is an argument and a result.

`ProdOk` and `ConsOk` say what user space may rely on, and the lemmas after them
are the only facts about these functions that the rest of the development uses.
-/

namespace AfXdpSwitch
open SpscRing

/-- `struct xsk_ring_prod`, `struct xsk_ring_cons`. -/
@[ext] structure XskRing (α : Type) where
  cachedProd : BitVec 32
  cachedCons : BitVec 32
  mask : BitVec 32
  size : BitVec 32
  shared : SpscRing α 32

namespace XskRing
variable {α : Type}

/-- `&ring[idx & mask]`: the slot behind `xsk_ring_prod__fill_addr`,
`xsk_ring_prod__tx_desc`, `xsk_ring_cons__rx_desc` and `xsk_ring_cons__comp_addr`. -/
def slotOf (r : XskRing α) (idx : BitVec 32) : Nat := (idx &&& r.mask).toNat

/-- Read through `xsk_ring_cons__rx_desc` or `xsk_ring_cons__comp_addr`. -/
def read (r : XskRing α) (idx : BitVec 32) : α := r.shared.desc (r.slotOf idx)

/-- Write through `xsk_ring_prod__fill_addr` or `xsk_ring_prod__tx_desc`. -/
def store (r : XskRing α) (idx : BitVec 32) (x : α) : XskRing α :=
  { r with shared := { r.shared with desc := Function.update r.shared.desc (r.slotOf idx) x } }

/-- `xsk_prod_nb_free`; the shared consumer is read only when there seem to be too few entries. -/
def xskProdNbFree (r : XskRing α) (nb : BitVec 32) : BitVec 32 × XskRing α :=
  let freeEntries := r.cachedCons - r.cachedProd
  if nb ≤ freeEntries then (freeEntries, r)
  else
    let r := { r with cachedCons := r.shared.consumer + r.size }
    (r.cachedCons - r.cachedProd, r)

/-- `xsk_cons_nb_avail`; the shared producer is read only when there seem to be no entries. -/
def xskConsNbAvail (r : XskRing α) (nb : BitVec 32) : BitVec 32 × XskRing α :=
  let entries := r.cachedProd - r.cachedCons
  if entries = 0 then
    let r := { r with cachedProd := r.shared.producer }
    let entries := r.cachedProd - r.cachedCons
    (if nb < entries then nb else entries, r)
  else (if nb < entries then nb else entries, r)

/-- `xsk_ring_prod__reserve`: the result and `*idx`.  All `nb` entries are reserved or none. -/
def xskRingProdReserve (r : XskRing α) (nb : BitVec 64) (idx : BitVec 32) :
    (BitVec 64 × BitVec 32) × XskRing α :=
  let (free, r) := xskProdNbFree r (nb.setWidth 32)
  if free.setWidth 64 < nb then ((0, idx), r)
  else ((nb, r.cachedProd), { r with cachedProd := r.cachedProd + nb.setWidth 32 })

/-- `xsk_ring_prod__submit`. -/
def xskRingProdSubmit (r : XskRing α) (nb : BitVec 64) : XskRing α :=
  { r with shared := r.shared.publish (nb.setWidth 32) }

/-- `xsk_ring_cons__peek`: the result and `*idx`, for as many entries as there are. -/
def xskRingConsPeek (r : XskRing α) (nb : BitVec 64) (idx : BitVec 32) :
    (BitVec 64 × BitVec 32) × XskRing α :=
  let (entries, r) := xskConsNbAvail r (nb.setWidth 32)
  if 0 < entries then
    ((entries.setWidth 64, r.cachedCons), { r with cachedCons := r.cachedCons + entries })
  else ((entries.setWidth 64, idx), r)

/-- `xsk_ring_cons__release`. -/
def xskRingConsRelease (r : XskRing α) (nb : BitVec 64) : XskRing α :=
  { r with shared := r.shared.release (nb.setWidth 32) }

/-! ## What user space relies on -/

/-- The free entries a producer ring believes in. -/
def nbFree (r : XskRing α) : Nat := (r.cachedCons - r.cachedProd).toNat

/-- The unpeeked entries a consumer ring believes in. -/
def nbAvail (r : XskRing α) : Nat := (r.cachedProd - r.cachedCons).toNat

/-- The ring has `n` slots and its mask selects the slot of an index. -/
structure Shaped (n : Nat) (r : XskRing α) : Prop where
  fits : Fits n 32
  size : r.size = BitVec.ofNat 32 n
  mask : ∀ idx, r.slotOf idx = slot n idx

/-- A producer ring with `m` entries reserved and not submitted: the entries it
believes free, the reserved and the published ones fit in the ring together. -/
structure ProdOk (n : Nat) (r : XskRing α) (m : Nat) : Prop extends Shaped n r where
  cachedProd : r.cachedProd = r.shared.producer + BitVec.ofNat 32 m
  room : r.nbFree + m + r.shared.count ≤ n

/-- A consumer ring with `m` entries peeked and not released: the peeked ones and
those it believes available have all been published. -/
structure ConsOk (n : Nat) (r : XskRing α) (m : Nat) : Prop extends Shaped n r where
  cachedCons : r.cachedCons = r.shared.consumer + BitVec.ofNat 32 m
  avail : m + r.nbAvail ≤ r.shared.count
  bound : r.shared.count ≤ n

variable {n m : Nat} {r : XskRing α}

theorem Shaped.lt (h : Shaped n r) : n < 2 ^ 32 := h.fits.lt

/-- A mask of `2 ^ k - 1` selects the slot. -/
theorem slotOf_two_pow {k : Nat} (hk : k < 32) (hm : r.mask = BitVec.ofNat 32 (2 ^ k - 1))
    (idx : BitVec 32) : r.slotOf idx = slot (2 ^ k) idx := by
  have hlt : 2 ^ k < 2 ^ 32 := Nat.pow_lt_pow_right (by omega) hk
  unfold slotOf slot
  rw [hm, BitVec.toNat_and, BitVec.toNat_ofNat, Nat.mod_eq_of_lt (by omega),
    Nat.and_two_pow_sub_one_eq_mod]

theorem shaped_two_pow {k : Nat} (hk : k < 32) (hs : r.size = BitVec.ofNat 32 (2 ^ k))
    (hm : r.mask = BitVec.ofNat 32 (2 ^ k - 1)) : Shaped (2 ^ k) r where
  fits := ⟨Nat.pow_dvd_pow 2 (Nat.le_of_lt hk), Nat.pow_lt_pow_right (by omega) hk⟩
  size := hs
  mask := slotOf_two_pow hk hm

/-- Reading index after index reads a window. -/
theorem Shaped.map_read (h : Shaped n r) (i : BitVec 32) (c : Nat) :
    (List.range c).map (fun j => r.read (i + BitVec.ofNat 32 j)) = window n r.shared.desc i c := by
  induction c with
  | zero => rfl
  | succ c ih =>
      rw [List.range_succ, List.map_append, ih, window_snoc, List.map_singleton, XskRing.read,
        h.mask]

/-! ### Producer rings -/

/-- Re-reading the consumer index gives the exact number of free entries. -/
theorem ProdOk.refresh (h : ProdOk n r m) :
    ProdOk n { r with cachedCons := r.shared.consumer + r.size } m ∧
      nbFree { r with cachedCons := r.shared.consumer + r.size } = n - m - r.shared.count := by
  have hfree : nbFree { r with cachedCons := r.shared.consumer + r.size } =
      n - m - r.shared.count := by
    have hlt := h.lt
    have hroom := h.room
    simp only [nbFree, h.cachedProd, h.size, SpscRing.count] at hroom ⊢
    generalize r.shared.producer = p at *
    generalize r.shared.consumer = c at *
    bv_omega
  refine ⟨⟨⟨h.fits, h.size, h.mask⟩, h.cachedProd, ?_⟩, hfree⟩
  have := h.room
  rw [hfree]
  show n - m - r.shared.count + m + r.shared.count ≤ n
  omega

/-- `xsk_prod_nb_free` keeps what the ring relies on and returns what the ring
then believes free.  It looks at the consumer index only when asked for more than
it believes free. -/
theorem ProdOk.xskProdNbFree (h : ProdOk n r m) (nb : BitVec 32) :
    ProdOk n (r.xskProdNbFree nb).2 m ∧
    (r.xskProdNbFree nb).1.toNat = (r.xskProdNbFree nb).2.nbFree ∧
    (r.xskProdNbFree nb).2.shared = r.shared ∧
    (r.xskProdNbFree nb).2.cachedProd = r.cachedProd ∧
    (r.xskProdNbFree nb).2.nbFree =
      if nb.toNat ≤ r.nbFree then r.nbFree else n - m - r.shared.count := by
  have hle : nb ≤ r.cachedCons - r.cachedProd ↔ nb.toNat ≤ r.nbFree := Iff.rfl
  unfold XskRing.xskProdNbFree
  by_cases hnb : nb.toNat ≤ r.nbFree
  · rw [if_pos (hle.mpr hnb), if_pos hnb]
    exact ⟨h, rfl, rfl, rfl, rfl⟩
  · rw [if_neg (fun h' => hnb (hle.mp h')), if_neg hnb]
    exact ⟨h.refresh.1, rfl, rfl, rfl, h.refresh.2⟩

theorem xskRingProdReserve_eq (r : XskRing α) (nb idx : BitVec 32) :
    r.xskRingProdReserve (nb.setWidth 64) idx =
      if (r.xskProdNbFree nb).1 < nb then ((0, idx), (r.xskProdNbFree nb).2)
      else ((nb.setWidth 64, (r.xskProdNbFree nb).2.cachedProd),
        { (r.xskProdNbFree nb).2 with cachedProd := (r.xskProdNbFree nb).2.cachedProd + nb }) := by
  have hnb : (nb.setWidth 64).setWidth 32 = nb := by simp
  have hlt : (r.xskProdNbFree nb).1.setWidth 64 < nb.setWidth 64 ↔
      (r.xskProdNbFree nb).1 < nb := by
    simp only [BitVec.lt_def, BitVec.toNat_setWidth]
    rw [Nat.mod_eq_of_lt (by omega), Nat.mod_eq_of_lt (by omega)]
  unfold XskRing.xskRingProdReserve
  simp only [hnb, hlt]

/-- `xsk_prod_nb_free` returns what the private copies say afterwards. -/
theorem xskProdNbFree_cached (r : XskRing α) (nb : BitVec 32) :
    (r.xskProdNbFree nb).1 = (r.xskProdNbFree nb).2.cachedCons - (r.xskProdNbFree nb).2.cachedProd ∧
      (r.xskProdNbFree nb).2.shared = r.shared ∧
      (r.xskProdNbFree nb).2.cachedProd = r.cachedProd := by
  unfold XskRing.xskProdNbFree
  by_cases hnb : nb ≤ r.cachedCons - r.cachedProd
  · rw [if_pos hnb]
    exact ⟨rfl, rfl, rfl⟩
  · rw [if_neg hnb]
    exact ⟨rfl, rfl, rfl⟩

/-- Reserving what the private copies say is free succeeds. -/
theorem xskRingProdReserve_cached {nb : BitVec 32} (h : r.cachedCons - r.cachedProd = nb)
    (idx : BitVec 32) : r.xskRingProdReserve (nb.setWidth 64) idx =
      ((nb.setWidth 64, r.cachedProd), { r with cachedProd := r.cachedProd + nb }) := by
  have heq : r.xskProdNbFree nb = (r.cachedCons - r.cachedProd, r) := if_pos (by rw [h]; simp)
  rw [xskRingProdReserve_eq, heq, h, if_neg (by simp)]

/-- Entries believed free may be reserved. -/
theorem ProdOk.advance (h : ProdOk n r m) {k : BitVec 32} (hk : k.toNat ≤ r.nbFree) :
    ProdOk n { r with cachedProd := r.cachedProd + k } (m + k.toNat) ∧
      nbFree { r with cachedProd := r.cachedProd + k } = r.nbFree - k.toNat := by
  have hfree : nbFree { r with cachedProd := r.cachedProd + k } = r.nbFree - k.toNat := by
    simp only [nbFree] at hk ⊢
    bv_omega
  refine ⟨⟨⟨h.fits, h.size, h.mask⟩, ?_, ?_⟩, hfree⟩
  · show r.cachedProd + k = r.shared.producer + BitVec.ofNat 32 (m + k.toNat)
    rw [h.cachedProd, BitVec.ofNat_add, BitVec.ofNat_toNat, BitVec.setWidth_eq, BitVec.add_assoc]
  · have := h.room
    rw [hfree]
    show r.nbFree - k.toNat + (m + k.toNat) + r.shared.count ≤ n
    omega

/-- A reservation fails or moves the private producer index only, whatever the consumer
index is. -/
theorem xskRingProdReserve_cases (r : XskRing α) (nb idx : BitVec 32) :
    (∃ r', r.xskRingProdReserve (nb.setWidth 64) idx = ((0, idx), r') ∧ nb ≠ 0 ∧
      r'.shared = r.shared ∧ r'.cachedProd = r.cachedProd) ∨
    (∃ r', r.xskRingProdReserve (nb.setWidth 64) idx = ((nb.setWidth 64, r.cachedProd), r') ∧
      r'.shared = r.shared ∧ r'.cachedProd = r.cachedProd + nb) := by
  obtain ⟨-, hsh, hcp⟩ := r.xskProdNbFree_cached nb
  rw [xskRingProdReserve_eq]
  by_cases hlt : (r.xskProdNbFree nb).1 < nb
  · rw [if_pos hlt]
    refine Or.inl ⟨_, rfl, ?_, hsh, hcp⟩
    rintro rfl
    exact absurd hlt (by simp)
  · rw [if_neg hlt, ← hcp]
    exact Or.inr ⟨_, rfl, hsh, rfl⟩

/-- **`xsk_ring_prod__reserve` gives all it was asked for or nothing.** -/
theorem ProdOk.reserve (h : ProdOk n r m) (nb idx : BitVec 32) :
    (∃ r', r.xskRingProdReserve (nb.setWidth 64) idx = ((0, idx), r') ∧ nb ≠ 0 ∧
      ProdOk n r' m ∧ r'.shared = r.shared) ∨
    (∃ r', r.xskRingProdReserve (nb.setWidth 64) idx = ((nb.setWidth 64, r.cachedProd), r') ∧
      ProdOk n r' (m + nb.toNat) ∧ r'.shared = r.shared) := by
  obtain ⟨hok, hfree, hsh, hcp, -⟩ := h.xskProdNbFree nb
  rw [xskRingProdReserve_eq]
  by_cases hlt : (r.xskProdNbFree nb).1 < nb
  · rw [if_pos hlt]
    refine Or.inl ⟨_, rfl, ?_, hok, hsh⟩
    rintro rfl
    exact absurd hlt (by simp)
  · have hle : nb.toNat ≤ (r.xskProdNbFree nb).2.nbFree := by
      rw [← hfree]; exact Nat.le_of_not_lt hlt
    rw [if_neg hlt, ← hcp]
    exact Or.inr ⟨_, rfl, (hok.advance hle).1, hsh⟩

/-- A reservation for which there is room succeeds. -/
theorem ProdOk.reserve_room (h : ProdOk n r m) {c : BitVec 32}
    (hroom : c.toNat + m + r.shared.count ≤ n) (idx : BitVec 32) :
    ∃ r', r.xskRingProdReserve (c.setWidth 64) idx = ((c.setWidth 64, r.cachedProd), r') ∧
      ProdOk n r' (m + c.toNat) ∧ r'.shared = r.shared := by
  obtain ⟨hok, hfree, hsh, hcp, hnb⟩ := h.xskProdNbFree c
  have hle : c.toNat ≤ (r.xskProdNbFree c).2.nbFree := by
    rw [hnb]
    split <;> omega
  have hlt : ¬ (r.xskProdNbFree c).1 < c := by
    rw [← hfree] at hle
    exact fun h' => absurd h' (Nat.not_lt.mpr hle)
  rw [xskRingProdReserve_eq, if_neg hlt, ← hcp]
  exact ⟨_, rfl, (hok.advance hle).1, hsh⟩

/-- Reserving exactly what is believed free succeeds without looking at the
consumer index. -/
theorem ProdOk.reserve_nbFree (h : ProdOk n r m) {c : BitVec 32} (hnb : c.toNat = r.nbFree)
    (idx : BitVec 32) :
    r.xskRingProdReserve (c.setWidth 64) idx =
      ((c.setWidth 64, r.cachedProd), { r with cachedProd := r.cachedProd + c }) ∧
    ProdOk n { r with cachedProd := r.cachedProd + c } (m + c.toNat) ∧
    nbFree { r with cachedProd := r.cachedProd + c } = 0 := by
  have hadv := h.advance (Nat.le_of_eq hnb)
  exact ⟨xskRingProdReserve_cached (BitVec.eq_of_toNat_eq hnb.symm) idx, hadv.1,
    by rw [hadv.2, hnb, Nat.sub_self]⟩

theorem ProdOk.submit (h : ProdOk n r m) {c : BitVec 32} (hnb : c.toNat ≤ m) :
    ProdOk n (r.xskRingProdSubmit (c.setWidth 64)) (m - c.toNat) ∧
    (r.xskRingProdSubmit (c.setWidth 64)).shared.pending n =
      r.shared.pending n ++ window n r.shared.desc r.shared.producer c.toNat := by
  have hw : (c.setWidth 64).setWidth 32 = c := by simp
  have hroom := h.room
  have hlt := h.lt
  have hcount : (r.shared.publish c).count = r.shared.count + c.toNat :=
    count_publish _ (by omega)
  unfold xskRingProdSubmit
  rw [hw]
  refine ⟨⟨⟨h.fits, h.size, h.mask⟩, ?_, ?_⟩, pending_publish _ (by omega)⟩
  · show r.cachedProd = r.shared.producer + c + BitVec.ofNat 32 (m - c.toNat)
    obtain ⟨d, rfl⟩ := Nat.exists_eq_add_of_le hnb
    rw [h.cachedProd, Nat.add_sub_cancel_left, BitVec.ofNat_add, BitVec.ofNat_toNat,
      BitVec.setWidth_eq, BitVec.add_assoc]
  · show r.nbFree + (m - c.toNat) + (r.shared.publish c).count ≤ n
    omega

theorem ProdOk.store (h : ProdOk n r m) {j : Nat} (hj : j < m) (x : α) :
    ProdOk n (r.store (r.shared.producer + BitVec.ofNat 32 j) x) m ∧
    (r.store (r.shared.producer + BitVec.ofNat 32 j) x).shared.pending n = r.shared.pending n ∧
    window n (r.store (r.shared.producer + BitVec.ofNat 32 j) x).shared.desc r.shared.producer
      (j + 1) = window n r.shared.desc r.shared.producer j ++ [x] := by
  have hroom := h.room
  refine ⟨⟨⟨h.fits, h.size, h.mask⟩, h.cachedProd, h.room⟩, ?_, ?_⟩
  · have hp := pending_write h.fits r.shared x (j := j) (by omega)
    unfold XskRing.store
    rw [h.mask]
    exact hp
  · show window n (Function.update r.shared.desc (r.slotOf _) x) _ (j + 1) = _
    rw [h.mask, window_snoc, window_update_of_le h.fits _ _ _ (Nat.le_refl _) (by omega),
      Function.update_self]

/-- The kernel consumes a published entry. -/
theorem ProdOk.consume (h : ProdOk n r m) (hc : 0 < r.shared.count) :
    ProdOk n { r with shared := r.shared.release 1 } m := by
  refine ⟨⟨h.fits, h.size, h.mask⟩, h.cachedProd, ?_⟩
  show r.nbFree + m + (r.shared.release 1).count ≤ n
  have := h.room
  rw [count_release_one (by decide) _ hc]
  omega

/-! ### Consumer rings -/

/-- Re-reading the producer index makes every published entry available. -/
theorem ConsOk.refresh (h : ConsOk n r m) :
    ConsOk n { r with cachedProd := r.shared.producer } m ∧
      nbAvail { r with cachedProd := r.shared.producer } = r.shared.count - m := by
  have havail : nbAvail { r with cachedProd := r.shared.producer } = r.shared.count - m := by
    have hlt := h.lt
    have hb := h.bound
    have ha := h.avail
    simp only [nbAvail, h.cachedCons, SpscRing.count] at hb ha ⊢
    generalize r.shared.producer = p at *
    generalize r.shared.consumer = c at *
    bv_omega
  refine ⟨⟨⟨h.fits, h.size, h.mask⟩, h.cachedCons, ?_, h.bound⟩, havail⟩
  have := h.avail
  rw [havail]
  show m + (r.shared.count - m) ≤ r.shared.count
  omega

/-- `xsk_cons_nb_avail` caps what the ring believes available, which is nothing
only if nothing is. -/
theorem ConsOk.xskConsNbAvail (h : ConsOk n r m) (nb : BitVec 32) :
    ∃ k r', r.xskConsNbAvail nb = (k, r') ∧ ConsOk n r' m ∧ r'.shared = r.shared ∧
      r'.cachedCons = r.cachedCons ∧ k.toNat = min nb.toNat r'.nbAvail ∧
      (r'.nbAvail = 0 → r.shared.count = m) := by
  have hcap : ∀ e : BitVec 32, (if nb < e then nb else e).toNat = min nb.toNat e.toNat := by
    intro e
    split
    · rename_i hlt; have : nb.toNat < e.toNat := hlt; omega
    · rename_i hlt; have : ¬ nb.toNat < e.toNat := hlt; omega
  unfold XskRing.xskConsNbAvail
  by_cases h0 : r.cachedProd - r.cachedCons = 0
  · obtain ⟨hok, hav⟩ := h.refresh
    rw [if_pos h0]
    refine ⟨_, _, rfl, hok, rfl, rfl, hcap _, fun hz => ?_⟩
    have := h.avail
    rw [hav] at hz
    omega
  · rw [if_neg h0]
    refine ⟨_, _, rfl, h, rfl, rfl, hcap _, fun hz => absurd ?_ h0⟩
    exact BitVec.eq_of_toNat_eq hz

/-- Available entries may be peeked. -/
theorem ConsOk.advance (h : ConsOk n r m) {k : BitVec 32} (hk : k.toNat ≤ r.nbAvail) :
    ConsOk n { r with cachedCons := r.cachedCons + k } (m + k.toNat) := by
  have hav : nbAvail { r with cachedCons := r.cachedCons + k } = r.nbAvail - k.toNat := by
    simp only [nbAvail] at hk ⊢
    bv_omega
  refine ⟨⟨h.fits, h.size, h.mask⟩, ?_, ?_, h.bound⟩
  · show r.cachedCons + k = r.shared.consumer + BitVec.ofNat 32 (m + k.toNat)
    rw [h.cachedCons, BitVec.ofNat_add, BitVec.ofNat_toNat, BitVec.setWidth_eq, BitVec.add_assoc]
  · have := h.avail
    rw [hav]
    show m + k.toNat + (r.nbAvail - k.toNat) ≤ r.shared.count
    omega

/-- **`xsk_ring_cons__peek` returns published entries that were not peeked before**,
never more than asked for, and none only if there is none. -/
theorem ConsOk.peek (h : ConsOk n r m) {c : BitVec 32} (hnb : c ≠ 0) (idx : BitVec 32) :
    ∃ (k idx' : BitVec 32) (r' : XskRing α),
      r.xskRingConsPeek (c.setWidth 64) idx = ((k.setWidth 64, idx'), r') ∧
      ConsOk n r' (m + k.toNat) ∧ r'.shared = r.shared ∧ k.toNat ≤ c.toNat ∧
      (k ≠ 0 → idx' = r.cachedCons) ∧ (k = 0 ↔ r.shared.count = m) := by
  obtain ⟨k, r', heq, hok, hsh, hcc, hk, hz⟩ := h.xskConsNbAvail c
  have hw : (c.setWidth 64).setWidth 32 = c := by simp
  have hnb' : 0 < c.toNat := Nat.pos_of_ne_zero fun h0 => hnb (BitVec.eq_of_toNat_eq h0)
  have hzero : k = 0 ↔ r.shared.count = m := by
    constructor
    · rintro rfl
      have h0 : min c.toNat r'.nbAvail = 0 := hk.symm
      exact hz (by omega)
    · intro hc
      have := hok.avail
      rw [hsh] at this
      exact BitVec.eq_of_toNat_eq (show k.toNat = 0 by omega)
  unfold xskRingConsPeek
  simp only [hw, heq]
  by_cases hpos : 0 < k
  · rw [if_pos hpos]
    exact ⟨k, _, _, rfl, hok.advance (by omega), hsh, by omega, fun _ => hcc, hzero⟩
  · have hk0 : k = 0 := BitVec.eq_of_toNat_eq (Nat.eq_zero_of_not_pos hpos)
    subst hk0
    exact ⟨0, idx, r', rfl, hok, hsh, Nat.zero_le _, fun hne => absurd rfl hne, hzero⟩

theorem ConsOk.release (h : ConsOk n r m) {c : BitVec 32} (hnb : c.toNat ≤ m) :
    ConsOk n (r.xskRingConsRelease (c.setWidth 64)) (m - c.toNat) ∧
    (r.xskRingConsRelease (c.setWidth 64)).shared.pending n =
      (r.shared.pending n).drop c.toNat := by
  have hw : (c.setWidth 64).setWidth 32 = c := by simp
  have hav := h.avail
  have hb := h.bound
  have hcount : (r.shared.release c).count = r.shared.count - c.toNat :=
    count_release _ (by omega)
  unfold xskRingConsRelease
  rw [hw]
  refine ⟨⟨⟨h.fits, h.size, h.mask⟩, ?_, ?_, ?_⟩, pending_release _ (by omega)⟩
  · show r.cachedCons = r.shared.consumer + c + BitVec.ofNat 32 (m - c.toNat)
    obtain ⟨d, rfl⟩ := Nat.exists_eq_add_of_le hnb
    rw [h.cachedCons, Nat.add_sub_cancel_left, BitVec.ofNat_add, BitVec.ofNat_toNat,
      BitVec.setWidth_eq, BitVec.add_assoc]
  · show m - c.toNat + r.nbAvail ≤ (r.shared.release c).count
    omega
  · show (r.shared.release c).count ≤ n
    omega

/-- Reading a peeked entry yields the entry published there. -/
theorem ConsOk.read (h : ConsOk n r m) {j : Nat} (hj : j < m) :
    (r.shared.pending n)[j]? = some (r.read (r.shared.consumer + BitVec.ofNat 32 j)) := by
  have := h.avail
  rw [pending_getElem _ (by omega), XskRing.read, h.mask]

/-- The kernel publishes an entry. -/
theorem ConsOk.produce (h : ConsOk n r m) (x : α) (hc : r.shared.count < n) :
    ConsOk n { r with shared := r.shared.push n x } m := by
  have hcount : (r.shared.push n x).count = r.shared.count + 1 := count_push h.fits _ x hc
  have := h.avail
  refine ⟨⟨h.fits, h.size, h.mask⟩, h.cachedCons, ?_, ?_⟩
  · show m + r.nbAvail ≤ (r.shared.push n x).count
    omega
  · show (r.shared.push n x).count ≤ n
    omega

end XskRing
end AfXdpSwitch
