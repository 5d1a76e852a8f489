import AfXdpSwitch.ByteMemory

/-!
# VLAN tags: `common/rewrite_helpers.h`

`vlan_tag_push` and `vlan_tag_pop` move the Ethernet header of a frame by the size of a
tag.  The header is copied out of the way first, `bpf_xdp_adjust_head` then moves the start
of the frame, and the bounds are checked again before anything is written.

The helper belongs to the kernel.  `AdjustHead` is any function that keeps its contract:
it either fails, or moves the start and leaves the bytes of the frame alone, with at least
an Ethernet header left; what a move to the front uncovers is arbitrary.
-/

namespace AfXdpSwitch
open ByteMemory

/-- `struct xdp_md`, with the memory its two pointers point into. -/
structure XdpMd where
  mem : ByteMemory
  data : Nat
  dataEnd : Nat

/-- The bytes of the frame. -/
def XdpMd.frame (ctx : XdpMd) : List (BitVec 8) := ctx.mem.read ctx.data (ctx.dataEnd - ctx.data)

/-- `sizeof(struct ethhdr)`. -/
def sizeofEthhdr : Nat := 14
/-- `sizeof(struct vlan_hdr)`: the TCI and the protocol behind it. -/
def sizeofVlanHdr : Nat := 4
/-- `ETH_P_8021Q`, in host byte order. -/
def ethP8021Q : BitVec 16 := 0x8100
/-- `ETH_P_8021AD`, in host byte order. -/
def ethP8021AD : BitVec 16 := 0x88A8

/-- What a move of the frame's start by `d` does. -/
structure Moved (ctx : XdpMd) (d : Int) (ctx' : XdpMd) : Prop where
  data : (ctx'.data : Int) = ctx.data + d
  dataEnd : ctx'.dataEnd = ctx.dataEnd
  kept : ∀ a, ctx.data ≤ a → ctx'.data ≤ a → a < ctx.dataEnd → ctx'.mem a = ctx.mem a
  room : ctx'.data + sizeofEthhdr ≤ ctx'.dataEnd

/-- `bpf_xdp_adjust_head`: `none` is failure.  A move to the front fails when there is not
enough headroom, any move when less than an Ethernet header would remain. -/
structure AdjustHead where
  run : XdpMd → Int → Option XdpMd
  moved : ∀ {ctx d ctx'}, run ctx d = some ctx' → Moved ctx d ctx'
  failed : ∀ {ctx d}, run ctx d = none → d < 0 ∨ (ctx.dataEnd : Int) < ctx.data + d + sizeofEthhdr

/-- `proto_is_vlan`. -/
def protoIsVlan (hProto : BitVec 16) : Bool :=
  hProto == swap16 ethP8021Q || hProto == swap16 ethP8021AD

/-- `h_proto` is the last field of the Ethernet header, `h_vlan_encapsulated_proto` the last
of the tag. -/
def vlanTagPop (adjust : AdjustHead) (ctx : XdpMd) (eth : Nat) : Int × XdpMd :=
  if !protoIsVlan (ctx.mem.load16 (eth + 12)) then (-1, ctx)
  else
    let vlh := eth + sizeofEthhdr
    if vlh + sizeofVlanHdr > ctx.dataEnd then (-1, ctx)
    else
      let vlid : Int := (swap16 (ctx.mem.load16 vlh)).toNat
      let hProto := ctx.mem.load16 (vlh + 2)
      let ethCpy := ctx.mem.read eth sizeofEthhdr
      match adjust.run ctx sizeofVlanHdr with
      | none => (-1, ctx)
      | some ctx =>
          let eth := ctx.data
          if eth + sizeofEthhdr > ctx.dataEnd then (-1, ctx)
          else
            let mem := ctx.mem.write eth ethCpy
            let mem := mem.store16 (eth + 12) hProto
            (vlid, { ctx with mem := mem })

/-- `vlan_tag_push`.  The header is copied before the move and written back behind it. -/
def vlanTagPush (adjust : AdjustHead) (ctx : XdpMd) (eth : Nat) (vlid : Int) : Int × XdpMd :=
  let ethCpy := ctx.mem.read eth sizeofEthhdr
  match adjust.run ctx (0 - sizeofVlanHdr) with
  | none => (-1, ctx)
  | some ctx =>
      let eth := ctx.data
      if eth + sizeofEthhdr > ctx.dataEnd then (-1, ctx)
      else
        let mem := ctx.mem.write eth ethCpy
        let vlh := eth + sizeofEthhdr
        if vlh + sizeofVlanHdr > ctx.dataEnd then (-1, { ctx with mem := mem })
        else
          let mem := mem.store16 vlh (swap16 (BitVec.ofInt 16 vlid))
          let mem := mem.store16 (vlh + 2) (mem.load16 (eth + 12))
          let mem := mem.store16 (eth + 12) (swap16 ethP8021Q)
          (0, { ctx with mem := mem })

/-! ## What a move leaves -/

variable {ctx ctx' : XdpMd} {adjust : AdjustHead} {a n : Nat}

theorem Moved.read {d : Int} (h : Moved ctx d ctx') (ha : ctx.data ≤ a) (ha' : ctx'.data ≤ a)
    (hn : a + n ≤ ctx.dataEnd) : ctx'.mem.read a n = ctx.mem.read a n :=
  read_congr fun i _ => h.kept _ (by omega) (by omega) (by omega)

/-! ## Frames with a tag -/

/-- The frame with a tag of the given TCI behind the two addresses. -/
def tagged (tci : BitVec 16) (frame : List (BitVec 8)) : List (BitVec 8) :=
  frame.take 12 ++ (bytes16 (swap16 ethP8021Q) ++ bytes16 (swap16 tci)) ++ frame.drop 12

/-- The frame without the four bytes behind the two addresses. -/
def untagged (frame : List (BitVec 8)) : List (BitVec 8) := frame.take 12 ++ frame.drop 16

theorem length_bytes16 (v : BitVec 16) : (bytes16 v).length = 2 := rfl

variable {frame : List (BitVec 8)} {tci : BitVec 16}

theorem length_tagged (h : 12 ≤ frame.length) : (tagged tci frame).length = frame.length + 4 := by
  simp only [tagged, List.length_append, List.length_take, List.length_drop, length_bytes16]
  omega

/-- Taking the tag off gives the frame back, whether or not it had a tag of its own. -/
theorem untagged_tagged (h : 12 ≤ frame.length) : untagged (tagged tci frame) = frame := by
  have htake : (frame.take 12).length = 12 := by simp [h]
  have hhead : (frame.take 12 ++ (bytes16 (swap16 ethP8021Q) ++ bytes16 (swap16 tci))).length = 16 :=
    by simp [htake, length_bytes16]
  unfold untagged tagged
  rw [List.drop_left' hhead, List.append_assoc, List.take_left' htake, List.take_append_drop]

/-- The TPID of a tagged frame. -/
theorem tpid_tagged (h : 12 ≤ frame.length) :
    ((tagged tci frame).drop 12).take 2 = bytes16 (swap16 ethP8021Q) := by
  have htake : (frame.take 12).length = 12 := by simp [h]
  unfold tagged
  rw [List.append_assoc, List.drop_left' htake, List.append_assoc, List.take_left' (length_bytes16 _)]

/-- The TCI of a tagged frame. -/
theorem tci_tagged (h : 12 ≤ frame.length) :
    ((tagged tci frame).drop 14).take 2 = bytes16 (swap16 tci) := by
  have hhead : (frame.take 12 ++ bytes16 (swap16 ethP8021Q)).length = 14 := by
    simp [h, length_bytes16]
  unfold tagged
  rw [← List.append_assoc, List.append_assoc, List.drop_left' hhead,
    List.take_left' (length_bytes16 _)]

/-! ## `vlan_tag_push` -/

@[simp] theorem XdpMd.length_frame (ctx : XdpMd) : ctx.frame.length = ctx.dataEnd - ctx.data :=
  length_read _ _ _

/-- What the memory holds after a push: the header `hdr` moved to `eth`, its type behind the
new tag. -/
def pushMem (mem : ByteMemory) (eth : Nat) (hdr : List (BitVec 8)) (tci : BitVec 16) : ByteMemory :=
  let mem := mem.write eth hdr
  let mem := mem.store16 (eth + 14) (swap16 tci)
  let mem := mem.store16 (eth + 16) (mem.load16 (eth + 12))
  mem.store16 (eth + 12) (swap16 ethP8021Q)

/-- On a frame with an Ethernet header, `vlan_tag_push` fails before it has changed anything or
goes through: the checks after the move always pass. -/
theorem vlanTagPush_cases (adjust : AdjustHead) (hlen : 14 ≤ ctx.frame.length) (vlid : Int) :
    vlanTagPush adjust ctx ctx.data vlid = (-1, ctx) ∨
    ∃ moved, Moved ctx (-4) moved ∧ vlanTagPush adjust ctx ctx.data vlid = (0, { moved with
      mem := pushMem moved.mem moved.data (ctx.mem.read ctx.data 14) (BitVec.ofInt 16 vlid) }) := by
  rw [XdpMd.length_frame] at hlen
  unfold vlanTagPush
  cases hrun : adjust.run ctx (0 - sizeofVlanHdr) with
  | none => exact .inl rfl
  | some moved =>
      have hmoved : Moved ctx (-4) moved := adjust.moved hrun
      have hdata := hmoved.data
      have hend := hmoved.dataEnd
      -- the frame had a header and has grown by a tag
      have hroom : ¬ moved.data + sizeofEthhdr + sizeofVlanHdr > moved.dataEnd := by
        simp only [sizeofEthhdr, sizeofVlanHdr]
        omega
      refine .inr ⟨moved, hmoved, ?_⟩
      simp only [if_neg (Nat.not_lt.mpr hmoved.room), if_neg hroom]
      rfl

section
variable {mem : ByteMemory} {eth : Nat} {hdr : List (BitVec 8)}

/-- The five pieces of what `pushMem` holds. -/
theorem read_pushMem (hhdr : hdr.length = 14) (n : Nat) :
    (pushMem mem eth hdr tci).read eth (18 + n) =
      hdr.take 12 ++ (bytes16 (swap16 ethP8021Q) ++ bytes16 (swap16 tci)) ++
        (hdr.drop 12 ++ mem.read (eth + 18) n) := by
  have haddresses : (pushMem mem eth hdr tci).read eth 12 = hdr.take 12 := by
    unfold pushMem
    rw [read_store16_of_disjoint (by omega), read_store16_of_disjoint (by omega),
      read_store16_of_disjoint (by omega)]
    simpa using read_write_inside mem (a := eth) (i := 0) (k := 12) (show 0 + 12 ≤ hdr.length by omega)
  have htpid : (pushMem mem eth hdr tci).read (eth + 12) 2 = bytes16 (swap16 ethP8021Q) :=
    read_store16_self _
  have htci : (pushMem mem eth hdr tci).read (eth + 14) 2 = bytes16 (swap16 tci) := by
    unfold pushMem
    rw [read_store16_of_disjoint (by omega), read_store16_of_disjoint (by omega), read_store16_self]
  have hproto : (pushMem mem eth hdr tci).read (eth + 16) 2 = hdr.drop 12 := by
    unfold pushMem
    rw [read_store16_of_disjoint (by omega), read_store16_self, bytes16_load16,
      read_store16_of_disjoint (by omega), read_write_inside mem (by omega),
      List.take_of_length_le (by simp; omega)]
  have hrest : (pushMem mem eth hdr tci).read (eth + 18) n = mem.read (eth + 18) n := by
    unfold pushMem
    rw [read_store16_of_disjoint (by omega), read_store16_of_disjoint (by omega),
      read_store16_of_disjoint (by omega), read_write_of_disjoint mem (by omega)]
  rw [show 18 + n = 12 + 2 + 2 + 2 + n by omega, read_add, read_add, read_add, read_add]
  simp only [Nat.reduceAdd] at *
  rw [haddresses, htpid, htci, hproto, hrest]
  simp only [List.append_assoc]

end

/-- **Push.**  A push that goes through leaves the tagged frame, whatever the headroom held. -/
theorem vlanTagPush_frame {vlid : Int} (hlen : 14 ≤ ctx.frame.length)
    (h : vlanTagPush adjust ctx ctx.data vlid = (0, ctx')) :
    ctx'.frame = tagged (BitVec.ofInt 16 vlid) ctx.frame := by
  obtain hfail | ⟨moved, hmoved, hpush⟩ := vlanTagPush_cases adjust hlen vlid
  · rw [hfail] at h
    simp at h
  · rw [hpush, Prod.mk.injEq] at h
    obtain ⟨-, rfl⟩ := h
    rw [XdpMd.length_frame] at hlen
    have hdata := hmoved.data
    have hend := hmoved.dataEnd
    obtain ⟨n, hn⟩ : ∃ n, ctx.dataEnd = ctx.data + (14 + n) := ⟨ctx.dataEnd - ctx.data - 14, by omega⟩
    have hnew : moved.dataEnd - moved.data = 18 + n := by omega
    have hrest : moved.mem.read (moved.data + 18) n = ctx.mem.read (ctx.data + 14) n := by
      rw [hmoved.read (by omega) (by omega) (by omega), show moved.data + 18 = ctx.data + 14 by omega]
    have hold : ctx.dataEnd - ctx.data = 14 + n := by omega
    unfold XdpMd.frame tagged
    -- none of the pieces is from the headroom
    rw [hnew, read_pushMem (length_read _ _ _), hrest, hold, take_read _ (by omega),
      take_read _ (by omega), drop_read, drop_read, show 14 + n - 12 = 14 - 12 + n by omega, read_add]

/-! ## `vlan_tag_pop` -/

/-- What the memory holds after a pop: the header `hdr` moved to `eth`, with the type the tag
had kept. -/
def popMem (mem : ByteMemory) (eth : Nat) (hdr : List (BitVec 8)) (hProto : BitVec 16) : ByteMemory :=
  (mem.write eth hdr).store16 (eth + 12) hProto

/-- `vlan_tag_pop` fails before it has changed anything or goes through: with a whole tag in the
frame neither the move nor the check after it fails. -/
theorem vlanTagPop_cases (adjust : AdjustHead) (ctx : XdpMd) :
    (vlanTagPop adjust ctx ctx.data = (-1, ctx) ∧
      ¬ (protoIsVlan (ctx.mem.load16 (ctx.data + 12)) = true ∧ 18 ≤ ctx.frame.length)) ∨
    (18 ≤ ctx.frame.length ∧ ∃ moved, Moved ctx 4 moved ∧ vlanTagPop adjust ctx ctx.data =
      (((swap16 (ctx.mem.load16 (ctx.data + 14))).toNat : Int), { moved with
        mem := popMem moved.mem moved.data (ctx.mem.read ctx.data 14)
          (ctx.mem.load16 (ctx.data + 16)) })) := by
  rw [XdpMd.length_frame]
  unfold vlanTagPop
  cases hproto : protoIsVlan (ctx.mem.load16 (ctx.data + 12)) with
  | false => exact .inl ⟨rfl, by simp⟩
  | true =>
      by_cases hshort : ctx.data + sizeofEthhdr + sizeofVlanHdr > ctx.dataEnd
      · refine .inl ⟨by simp [hshort], ?_⟩
        simp only [sizeofEthhdr, sizeofVlanHdr] at hshort
        omega
      · have hlen : 18 ≤ ctx.dataEnd - ctx.data := by
          simp only [sizeofEthhdr, sizeofVlanHdr] at hshort
          omega
        refine .inr ⟨hlen, ?_⟩
        cases hrun : adjust.run ctx sizeofVlanHdr with
        | none =>
            -- with a whole tag in the frame the move leaves a header
            have hfailed := adjust.failed hrun
            simp only [sizeofEthhdr, sizeofVlanHdr] at hfailed
            omega
        | some moved =>
            have hmoved : Moved ctx 4 moved := adjust.moved hrun
            refine ⟨moved, hmoved, ?_⟩
            simp only [Bool.not_true, Bool.false_eq_true, if_false, if_neg hshort,
              if_neg (Nat.not_lt.mpr hmoved.room)]
            rfl

/-- **Pop.**  A pop that goes through leaves the frame without its outermost tag and returns
that tag's TCI. -/
theorem vlanTagPop_frame (adjust : AdjustHead)
    (hproto : protoIsVlan (ctx.mem.load16 (ctx.data + 12)) = true) (hlen : 18 ≤ ctx.frame.length) :
    ∃ ctx', vlanTagPop adjust ctx ctx.data =
      (((swap16 (ctx.mem.load16 (ctx.data + 14))).toNat : Int), ctx') ∧
      ctx'.frame = untagged ctx.frame := by
  obtain ⟨-, hnot⟩ | ⟨-, moved, hmoved, hpop⟩ := vlanTagPop_cases adjust ctx
  · exact absurd ⟨hproto, hlen⟩ hnot
  · refine ⟨_, hpop, ?_⟩
    rw [XdpMd.length_frame] at hlen
    have hdata := hmoved.data
    have hend := hmoved.dataEnd
    obtain ⟨n, hn⟩ : ∃ n, ctx.dataEnd = ctx.data + (18 + n) := ⟨ctx.dataEnd - ctx.data - 18, by omega⟩
    have hnew : moved.dataEnd - moved.data = 12 + 2 + n := by omega
    have hold : ctx.dataEnd - ctx.data = 18 + n := by omega
    -- the header moves over the tag, and what follows the tag stays where it is
    have hat : moved.data = ctx.data + 4 := by omega
    unfold XdpMd.frame untagged
    have haddresses : (popMem moved.mem moved.data (ctx.mem.read ctx.data 14)
        (ctx.mem.load16 (ctx.data + 16))).read moved.data 12 = ctx.mem.read ctx.data 12 := by
      unfold popMem
      rw [read_store16_of_disjoint (by omega)]
      simpa [take_read] using read_write_inside moved.mem (a := moved.data) (i := 0) (k := 12)
        (show 0 + 12 ≤ (ctx.mem.read ctx.data 14).length by simp)
    have hrest : (popMem moved.mem moved.data (ctx.mem.read ctx.data 14)
        (ctx.mem.load16 (ctx.data + 16))).read (moved.data + (12 + 2)) n =
          ctx.mem.read (ctx.data + 18) n := by
      unfold popMem
      rw [read_store16_of_disjoint (by omega), read_write_of_disjoint _ (by simp),
        hmoved.read (by omega) (by omega) (by omega), hat]
    rw [hnew, read_add, read_add, haddresses, hrest, hold, take_read _ (by omega), drop_read]
    unfold popMem
    rw [read_store16_self, bytes16_load16, show 18 + n - 16 = 2 + n by omega, read_add,
      List.append_assoc]

/-! ## The round trip -/

/-- A VLAN ID fits the 16 bits of the TCI. -/
theorem toNat_ofInt16 {vlid : Int} (h₀ : 0 ≤ vlid) (h : vlid < 4096) :
    ((BitVec.ofInt 16 vlid).toNat : Int) = vlid := by
  rw [BitVec.toNat_ofInt]
  omega

theorem protoIsVlan_8021Q : protoIsVlan (swap16 ethP8021Q) = true := by decide

/-- The two fields of the tag, where the frame lies. -/
theorem load16_of_tagged (hlen : 12 ≤ frame.length) (hframe : ctx.frame = tagged tci frame)
    (hroom : 18 ≤ ctx.frame.length) :
    ctx.mem.load16 (ctx.data + 12) = swap16 ethP8021Q ∧
    ctx.mem.load16 (ctx.data + 14) = swap16 tci := by
  rw [XdpMd.length_frame] at hroom
  constructor
  · apply load16_eq
    rw [← tpid_tagged hlen, ← hframe]
    exact (take_drop_read _ (by omega)).symm
  · apply load16_eq
    rw [← tci_tagged hlen, ← hframe]
    exact (take_drop_read _ (by omega)).symm

/-- A tagged frame is popped to the frame under the tag. -/
theorem vlanTagPop_of_tagged (adjust : AdjustHead) (hlen : 12 ≤ frame.length)
    (hframe : ctx.frame = tagged tci frame) (hroom : 18 ≤ ctx.frame.length) :
    ∃ ctx', vlanTagPop adjust ctx ctx.data = ((tci.toNat : Int), ctx') ∧ ctx'.frame = frame := by
  obtain ⟨htpid, htci⟩ := load16_of_tagged hlen hframe hroom
  have hproto : protoIsVlan (ctx.mem.load16 (ctx.data + 12)) = true := htpid ▸ protoIsVlan_8021Q
  obtain ⟨ctx', hpop, hpopped⟩ := vlanTagPop_frame adjust hproto hroom
  refine ⟨ctx', ?_, ?_⟩
  · rw [hpop, htci, swap16_swap16]
  · rw [hpopped, hframe, untagged_tagged hlen]

/-- **Encode and decode.**  A pushed tag is popped again, with the frame as it was; what was
pushed depends on the frame and the ID only; and a failing call changes nothing. -/
theorem vlan_push_pop (adjust : AdjustHead) (ctx : XdpMd) (vlid : Int)
    (hlen : 14 ≤ ctx.frame.length) (h₀ : 0 ≤ vlid) (h : vlid < 4096) :
    (∀ ctx', vlanTagPush adjust ctx ctx.data vlid = (0, ctx') →
      (∀ adjust' : AdjustHead, ∃ ctx'',
        vlanTagPop adjust' ctx' ctx'.data = (vlid, ctx'') ∧ ctx''.frame = ctx.frame) ∧
      ∀ (adjust₂ : AdjustHead) (ctx₂ ctx₂' : XdpMd), ctx₂.frame = ctx.frame →
        vlanTagPush adjust₂ ctx₂ ctx₂.data vlid = (0, ctx₂') → ctx₂'.frame = ctx'.frame) ∧
    (∀ ctx', vlanTagPush adjust ctx ctx.data vlid = (-1, ctx') → ctx' = ctx) ∧
    (∀ ctx', vlanTagPop adjust ctx ctx.data = (-1, ctx') → ctx' = ctx) := by
  refine ⟨fun ctx' hpush => ?_, fun ctx' hpush => ?_, fun ctx' hpop => ?_⟩
  · have hpushed := vlanTagPush_frame hlen hpush
    refine ⟨fun adjust' => ?_, fun adjust₂ ctx₂ ctx₂' hsame hpush₂ => ?_⟩
    · have hroom : 18 ≤ ctx'.frame.length := by
        rw [hpushed, length_tagged (by omega)]
        omega
      obtain ⟨ctx'', hpop, hback⟩ := vlanTagPop_of_tagged adjust' (by omega) hpushed hroom
      exact ⟨ctx'', by rw [hpop, toNat_ofInt16 h₀ h], hback⟩
    · rw [vlanTagPush_frame (hsame ▸ hlen) hpush₂, hsame, hpushed]
  · obtain hfail | ⟨moved, -, hdone⟩ := vlanTagPush_cases adjust hlen vlid
    · rw [hfail, Prod.mk.injEq] at hpush
      exact hpush.2.symm
    · rw [hdone, Prod.mk.injEq] at hpush
      exact absurd hpush.1 (by decide)
  · obtain ⟨hfail, -⟩ | ⟨-, moved, -, hdone⟩ := vlanTagPop_cases adjust ctx
    · rw [hfail, Prod.mk.injEq] at hpop
      exact hpop.2.symm
    · rw [hdone, Prod.mk.injEq] at hpop
      exact absurd hpop.1 (by omega)

/-- The helper for a buffer that starts at `hardStart`: the bytes stay where they are. -/
def kernelAdjustHead (hardStart : Nat) : AdjustHead where
  run ctx d :=
    if d < 0 ∧ ctx.data + d < hardStart ∨ (ctx.dataEnd : Int) < ctx.data + d + sizeofEthhdr then none
    else some { ctx with data := (ctx.data + d).toNat }
  moved {ctx d ctx'} h := by
    split at h
    · cases h
    · rename_i hguard
      obtain rfl := Option.some.inj h
      refine ⟨?_, rfl, fun a _ _ _ => rfl, ?_⟩
      · simp only [Int.ofNat_toNat]
        omega
      · simp only [sizeofEthhdr] at *
        omega
  failed {ctx d} h := by
    split at h
    · omega
    · cases h

/-- A frame of 18 bytes that has a tag already, behind 256 bytes of headroom. -/
def taggedCtx : XdpMd where
  mem a := if a = 268 then 0x81 else if a = 269 then 0 else BitVec.ofNat 8 a
  data := 256
  dataEnd := 274

theorem vlan_push_pop_stacked : 14 ≤ taggedCtx.frame.length ∧
    ∃ ctx', vlanTagPush (kernelAdjustHead 0) taggedCtx taggedCtx.data 7 = (0, ctx') ∧
    ∃ ctx'', vlanTagPop (kernelAdjustHead 0) ctx' ctx'.data = (7, ctx'') ∧
      ctx''.frame = taggedCtx.frame := by
  have hlen : 14 ≤ taggedCtx.frame.length := by decide
  have hret : (vlanTagPush (kernelAdjustHead 0) taggedCtx taggedCtx.data 7).1 = 0 := by decide
  have hpush : vlanTagPush (kernelAdjustHead 0) taggedCtx taggedCtx.data 7 =
      (0, (vlanTagPush (kernelAdjustHead 0) taggedCtx taggedCtx.data 7).2) := Prod.ext hret rfl
  have hround := (vlan_push_pop (kernelAdjustHead 0) taggedCtx 7 hlen (by decide) (by decide)).1 _ hpush
  exact ⟨hlen, _, hpush, hround.1 (kernelAdjustHead 0)⟩

end AfXdpSwitch
