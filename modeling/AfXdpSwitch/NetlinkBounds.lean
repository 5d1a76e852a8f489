import AfXdpSwitch.NetlinkDump

/-!
# How far behind a datagram the reader of replies reads

`bpf_netlink_recv` and what it calls trust the lengths in a datagram in several places: a
message of a header only is taken for a link, an attribute without a payload for a number, and a
negative number of remaining bytes for a large one.  None of this gets far.  If 25 bytes of the
buffer are left behind a datagram, whatever is in it, everything that is read is in the buffer.
There is one exception: the attributes of an error begin behind the request that it repeats, and
the length of that is not compared with anything.
-/

namespace AfXdpSwitch.Netlink
open ByteMemory

variable {b : Buffer} {m : ByteMemory} {maxtype nla rounds head : Nat} {rem len : Int} {tb : Table}
  {policy : Option (Nat → Policy)}

/-! ## Attributes -/

theorem hasHeader_neg (h : -2 ^ 62 ≤ rem) (h' : rem < 0) : hasHeader rem = true := by
  unfold hasHeader
  rw [decide_eq_true_eq, BitVec.toNat_ofInt]
  omega

/-- The attributes of a stream lie in it. -/
theorem mem_walk (h : nla ∈ (walk m rounds head rem).1) : head ≤ nla ∧
    4 ≤ (m.load16 nla).toNat ∧ (nla + (m.load16 nla).toNat : Int) ≤ head + rem := by
  induction rounds generalizing head rem with
  | zero => exact absurd h List.not_mem_nil
  | succ rounds ih =>
      by_cases hc : Complete m head rem
      · rw [walk_complete hc] at h
        rcases List.mem_cons.mp h with rfl | h
        · exact ⟨Nat.le_refl _, hc.2.1, by have := hc.2.2; omega⟩
        · obtain ⟨h1, h2, h3⟩ := ih h
          exact ⟨by omega, h2, by omega⟩
      · rw [walk_incomplete hc] at h
        exact absurd h List.not_mem_nil

/-- The entries of a table are attributes between `lo` and `hi`. -/
def Within (m : ByteMemory) (lo : Nat) (hi : Int) (tb : Table) : Prop :=
  ∀ type nla, tb type = some nla →
    lo ≤ nla ∧ 4 ≤ (m.load16 nla).toNat ∧ (nla + (m.load16 nla).toNat : Int) ≤ hi

/-- Without a policy every attribute is valid. -/
theorem index_none (nlas : List Nat) (tb : Table) : (index m maxtype none nlas tb).1 = 0 := by
  induction nlas generalizing tb with
  | nil => rfl
  | cons nla nlas ih =>
      unfold index
      dsimp only
      split
      · exact ih tb
      · exact ih _

/-- The parser on any bytes, and also on a negative length. -/
theorem libbpfNlaParse_within (maxtype : Nat) (policy : Option (Nat → Policy)) (head : Nat)
    (len : Int) (hbase : b.base ≤ head) (hlo : -2 ^ 62 ≤ len) (hhi : len < 2 ^ 31)
    (hroom : head + len.toNat + 5 ≤ b.limit) :
    ∃ err tb, libbpfNlaParse b maxtype policy head len = some (err, tb) ∧
      (policy = none → err = 0) ∧ Within b.mem head (head + len) tb := by
  by_cases hneg : len < 0
  · have hok : nlaOk b head len = some false := by
      unfold nlaOk
      rw [hasHeader_neg hlo hneg, if_pos rfl, load16_covered ⟨hbase, by omega⟩, Option.map_some]
      congr 1
      rw [Bool.and_eq_false_iff]
      exact .inr (decide_eq_false (by omega))
    refine ⟨0, fun _ => none, parseLoop_incomplete hok, fun _ => rfl, fun type nla h => ?_⟩
    cases h
  · have hparse : libbpfNlaParse b maxtype policy head len = _ :=
      parseLoop_eq maxtype policy (fun _ => none) (Nat.lt_succ_self _) (by omega) (by omega) hbase
        (by omega) fun _ => by omega
    refine ⟨_, _, hparse, ?_, fun type nla h => ?_⟩
    · rintro rfl
      exact index_none _ _
    · rcases mem_of_index h with hm | hm
      · exact mem_walk hm
      · cases hm

/-- A nested stream. -/
theorem libbpfNlaParseNested_within (maxtype : Nat) (hbase : b.base ≤ nla)
    (hpos : 4 ≤ (b.mem.load16 nla).toNat) (hroom : nla + (b.mem.load16 nla).toNat + 5 ≤ b.limit) :
    ∃ tb, libbpfNlaParseNested b maxtype none nla = some (0, tb) ∧
      Within b.mem nla (nla + (b.mem.load16 nla).toNat) tb := by
  have hlt := (b.mem.load16 nla).isLt
  obtain ⟨err, tb, hparse, herr, htb⟩ := libbpfNlaParse_within (b := b) maxtype none
    (nla + nlaHdrlen) ((b.mem.load16 nla).toNat - nlaHdrlen) (by omega)
    (by unfold nlaHdrlen; omega) (by unfold nlaHdrlen; omega) (by unfold nlaHdrlen; omega)
  rw [herr rfl] at hparse
  refine ⟨tb, ?_, fun type a h => ?_⟩
  · unfold libbpfNlaParseNested
    rw [load16_covered ⟨hbase, by omega⟩, Option.bind_eq_bind, Option.bind_some]
    exact hparse
  · obtain ⟨h1, h2, h3⟩ := htb type a h
    unfold nlaHdrlen at h1 h3
    exact ⟨by omega, h2, by omega⟩

/-! ## Links -/

/-- A field is read from an entry of the table, at most four bytes behind it. -/
theorem fieldU32_within {lo hi : Nat} (h : Within b.mem lo hi tb) (hbase : b.base ≤ lo)
    (hroom : hi + 4 ≤ b.limit) (type : Nat) (field : BitVec 32) :
    ∃ v, fieldU32 b tb type field = some v := by
  unfold fieldU32
  cases htb : tb type with
  | none => exact ⟨field, rfl⟩
  | some nla =>
      obtain ⟨h1, h2, h3⟩ := h type nla htb
      exact ⟨_, load32_covered (show b.Covers (nla + 4) 4 from ⟨by omega, by omega⟩)⟩

theorem readXdpInfo_within (hbase : b.base ≤ nla) (hpos : 4 ≤ (b.mem.load16 nla).toNat)
    (hroom : nla + (b.mem.load16 nla).toNat + 5 ≤ b.limit) (info : XdpLinkInfo) :
    ∃ r, readXdpInfo b nla info = some r := by
  obtain ⟨tb, hparse, htb⟩ := libbpfNlaParseNested_within iflaXdpMax hbase hpos hroom
  have hfield := fieldU32_within htb hbase (by omega)
  unfold readXdpInfo
  simp only [hparse, Option.bind_eq_bind, Option.bind_some, ne_eq, not_true_eq_false, if_false]
  cases hattached : tb iflaXdpAttached with
  | none => exact ⟨_, rfl⟩
  | some attached =>
      obtain ⟨h1, h2, h3⟩ := htb _ _ hattached
      have hmode : getattrU8 b attached = some (b.mem (attached + 4)) :=
        if_pos ⟨by unfold nlaHdrlen; omega, by unfold nlaHdrlen; omega⟩
      obtain ⟨progId, hprog⟩ := hfield iflaXdpProgId info.progId
      obtain ⟨skb, hskb⟩ := hfield iflaXdpSkbProgId info.skbProgId
      obtain ⟨drv, hdrv⟩ := hfield iflaXdpDrvProgId info.drvProgId
      obtain ⟨hw, hhw⟩ := hfield iflaXdpHwProgId info.hwProgId
      simp only [hmode, hprog, hskb, hdrv, hhw, Option.bind_some]
      split <;> exact ⟨_, rfl⟩

theorem getXdpInfo_within {ifindex : BitVec 32} {ifi lo : Nat} {hi : Int}
    (h : Within b.mem lo hi tb) (hbase : b.base ≤ lo) (hroom : hi + 5 ≤ b.limit)
    (hifi : b.Covers (ifi + 4) 4) (info : XdpLinkInfo) :
    ∃ r, getXdpInfo ifindex b ifi tb info = some r := by
  rw [getXdpInfo_eq (load32_covered hifi)]
  split
  · exact ⟨_, rfl⟩
  · cases htb : tb iflaXdp with
    | none => exact ⟨_, rfl⟩
    | some nla =>
        obtain ⟨h1, h2, h3⟩ := h _ _ htb
        exact readXdpInfo_within (by omega) h2 (by omega) info

/-- A message that is at least a header, with 25 bytes behind it. -/
structure Room (b : Buffer) (nh : Nat) : Prop where
  base : b.base ≤ nh
  header : 16 ≤ (b.mem.load32 nh).toNat
  short : (b.mem.load32 nh).toNat < 2 ^ 31
  behind : nh + (b.mem.load32 nh).toNat + 25 ≤ b.limit

variable {nh : Nat}

theorem dumpLinkNlmsg_within (h : Room b nh) (ifindex : BitVec 32) (info : XdpLinkInfo) :
    ∃ r, dumpLinkNlmsg ifindex b nh info = some r := by
  obtain ⟨hbase, hheader, hshort, hbehind⟩ := h
  obtain ⟨err, tb, hparse, herr, htb⟩ := libbpfNlaParse_within (b := b) iflaMax none (nh + 32)
    ((b.mem.load32 nh).toNat - 32) (by omega) (by omega) (by omega) (by omega)
  rw [herr rfl] at hparse
  have hload : b.load32 nh = some (b.mem.load32 nh) := load32_covered ⟨hbase, by omega⟩
  unfold dumpLinkNlmsg
  rw [hload, Option.bind_eq_bind, Option.bind_some]
  show ∃ r, (libbpfNlaParse b iflaMax none (nh + 32) ((b.mem.load32 nh).toNat - 32)).bind _ = some r
  rw [hparse, Option.bind_some]
  exact getXdpInfo_within htb (by omega) (by omega)
    (show b.Covers (nh + 20) 4 from ⟨by omega, by omega⟩) info

/-- Without room it does read behind the buffer: a message that is too short for a link is
parsed all the same, from where its attributes would be. -/
theorem dumpLinkNlmsg_outside (hbase : b.base ≤ nh) (hhead : nh + 4 ≤ b.limit)
    (hshort : (b.mem.load32 nh).toNat < 32) (hend : b.limit < nh + 34) (ifindex : BitVec 32)
    (info : XdpLinkInfo) : dumpLinkNlmsg ifindex b nh info = none := by
  have hok : nlaOk b (nh + 32) ((b.mem.load32 nh).toNat - 32) = none := by
    unfold nlaOk
    rw [hasHeader_neg (by omega) (by omega), if_pos rfl,
      load16_uncovered fun hc => by have := hc.2; omega, Option.map_none]
  have hparse : libbpfNlaParse b iflaMax none (nh + 32) ((b.mem.load32 nh).toNat - 32) = none := by
    unfold libbpfNlaParse
    rw [parseLoop, hok]
    rfl
  unfold dumpLinkNlmsg
  rw [load32_covered ⟨hbase, hhead⟩, Option.bind_eq_bind, Option.bind_some]
  show (libbpfNlaParse b iflaMax none (nh + 32) ((b.mem.load32 nh).toNat - 32)).bind _ = none
  rw [hparse, Option.bind_none]

/-! ## Errors -/

/-- An error with attributes that repeats the request has all of the request before them. -/
def EchoFits (m : ByteMemory) (nh : Nat) : Prop :=
  m.load16 (nh + 4) = nlmsgError → m.load16 (nh + 6) &&& nlmFAckTlvs ≠ 0 →
    m.load16 (nh + 6) &&& nlmFCapped = 0 →
    16 ≤ (m.load32 (nh + 20)).toNat ∧ 20 + (m.load32 (nh + 20)).toNat ≤ (m.load32 nh).toNat

/-- The attributes are taken to begin at most four bytes behind the message. -/
theorem errormsgAt_within (h : Room b nh) {hlen : Nat}
    (hh : hlen ≤ (b.mem.load32 nh).toNat + 4) : ∃ r, errormsgAt b nh hlen = some r := by
  obtain ⟨hbase, hheader, hshort, hbehind⟩ := h
  have hload : b.load32 nh = some (b.mem.load32 nh) := load32_covered ⟨hbase, by omega⟩
  have halen : (b.mem.load32 nh - BitVec.ofInt 32 hlen).toInt =
      ((b.mem.load32 nh).toNat : Int) - hlen := by
    rw [BitVec.toInt_sub, BitVec.toInt_ofInt, BitVec.toInt_eq_toNat_of_lt (by omega),
      Int.bmod_def, Int.bmod_def]
    omega
  have hattr : ((nh : Int) + sizeofNlmsghdr + hlen).toNat = nh + 16 + hlen := by
    unfold sizeofNlmsghdr
    omega
  obtain ⟨err, tb, hparse, -, -⟩ := libbpfNlaParse_within (b := b) nlmsgerrAttrMax
    (some extackPolicy) (nh + 16 + hlen) ((b.mem.load32 nh).toNat - hlen) (by omega) (by omega)
    (by omega) (by omega)
  unfold errormsgAt
  dsimp only
  rw [if_neg (by omega)]
  simp only [hload, hattr, halen, hparse, Option.bind_eq_bind, Option.bind_some]
  exact ⟨_, rfl⟩

theorem libbpfNlaDumpErrormsg_within (h : Room b nh) (he : EchoFits b.mem nh)
    (ht : b.mem.load16 (nh + 4) = nlmsgError) : ∃ r, libbpfNlaDumpErrormsg b nh = some r := by
  have hflags : b.load16 (nh + 6) = some (b.mem.load16 (nh + 6)) :=
    load16_covered ⟨by have := h.base; omega, by have := h.behind; have := h.header; omega⟩
  have hecho : b.load32 (nh + 20) = some (b.mem.load32 (nh + 20)) :=
    load32_covered ⟨by have := h.base; omega, by have := h.behind; have := h.header; omega⟩
  unfold libbpfNlaDumpErrormsg
  rw [hflags, Option.bind_eq_bind, Option.bind_some]
  split
  · exact ⟨_, rfl⟩
  · rename_i htlvs
    split
    · rename_i hcapped
      obtain ⟨h1, h2⟩ := he ht htlvs hcapped
      have hshort := h.short
      have hmsg : (sizeofNlmsgerr : Int) + (b.mem.load32 (nh + 20) - 16).toInt =
          ((b.mem.load32 (nh + 20)).toNat + 4 : Nat) := by
        have hsub : (b.mem.load32 (nh + 20) - 16).toNat = (b.mem.load32 (nh + 20)).toNat - 16 :=
          BitVec.toNat_sub_of_le (by rw [BitVec.le_def]; exact h1)
        rw [BitVec.toInt_eq_toNat_of_lt (by omega), hsub]
        unfold sizeofNlmsgerr
        omega
      rw [hecho, Option.bind_eq_bind, Option.bind_some, hmsg]
      exact errormsgAt_within h (by omega)
    · exact errormsgAt_within h (show 20 ≤ _ by have := h.header; omega)

/-! ## Datagrams -/

/-- There is a whole message at `nh`, with `len` bytes to the end of the datagram. -/
def MsgComplete (m : ByteMemory) (nh : Nat) (len : Int) : Prop :=
  16 ≤ len ∧ 16 ≤ (m.load32 nh).toNat ∧ ((m.load32 nh).toNat : Int) ≤ len

instance (m : ByteMemory) (nh : Nat) (len : Int) : Decidable (MsgComplete m nh len) :=
  inferInstanceAs (Decidable (_ ∧ _))

/-- Where the messages of a datagram are. -/
def messages (m : ByteMemory) : Nat → Nat → Int → List Nat
  | 0, _, _ => []
  | rounds + 1, nh, len =>
      if MsgComplete m nh len then
        nh :: messages m rounds (nh + nlaAlign (m.load32 nh).toNat)
          (len - nlaAlign (m.load32 nh).toNat)
      else []

theorem nlmsgOk_eq (hbase : b.base ≤ nh) (hend : (nh : Int) + len ≤ b.limit) :
    nlmsgOk b nh len = some (decide (MsgComplete b.mem nh len)) := by
  unfold nlmsgOk sizeofNlmsghdr
  split
  · rename_i h
    have h : (16 : Int) ≤ len := h
    rw [load32_covered ⟨hbase, by omega⟩, Option.map_some, ← Bool.decide_and]
    congr 1
    exact decide_eq_decide.mpr ⟨fun hl => ⟨h, hl.1, hl.2⟩, fun hl => hl.2⟩
  · rename_i h
    rw [decide_eq_false fun hc => h hc.1]

section
variable {σ : Type} {nlPid seq : BitVec 32} {fn : Option (Buffer → Nat → σ → Option (Int × σ))}

/-- The callback stays in the buffer wherever there is a message with room behind it. -/
def Stays (fn : Option (Buffer → Nat → σ → Option (Int × σ))) : Prop :=
  ∀ f, fn = some f → ∀ b nh c, Room b nh → ∃ r, f b nh c = some r

/-- The loop over any datagram. -/
theorem recvMsgs_within (hfn : Stays fn) {multipart : Bool} {c : σ} (hbase : b.base ≤ nh)
    (hlen : len < 2 ^ 31) (hroom : (nh : Int) + len + 25 ≤ b.limit)
    (hecho : ∀ x ∈ messages b.mem rounds nh len, EchoFits b.mem x) :
    ∃ r, recvMsgs b nlPid seq fn rounds nh len multipart c = some r := by
  induction rounds generalizing nh len multipart c with
  | zero => exact ⟨_, rfl⟩
  | succ rounds ih =>
      have hok := nlmsgOk_eq hbase (show (nh : Int) + len ≤ b.limit by omega)
      by_cases hc : MsgComplete b.mem nh len
      · obtain ⟨h1, h2, h3⟩ := hc
        rw [messages, if_pos ⟨h1, h2, h3⟩] at hecho
        rw [decide_eq_true (show MsgComplete b.mem nh len from ⟨h1, h2, h3⟩)] at hok
        have hat : Room b nh := ⟨hbase, h2, by omega, by omega⟩
        have hnext : ∀ multipart c, ∃ r, recvMsgs b nlPid seq fn rounds
            (nh + nlaAlign (b.mem.load32 nh).toNat) (len - nlaAlign (b.mem.load32 nh).toNat)
            multipart c = some r := fun multipart c =>
          ih (by omega) (by omega) (by omega) fun x hx => hecho x (List.mem_cons_of_mem _ hx)
        have herr := fun ht => libbpfNlaDumpErrormsg_within hat (hecho nh List.mem_cons_self) ht
        have hload32 : ∀ k, k ≤ 16 → b.load32 (nh + k) = some (b.mem.load32 (nh + k)) :=
          fun k hk => load32_covered ⟨by omega, by omega⟩
        have hload16 : ∀ k, k ≤ 16 → b.load16 (nh + k) = some (b.mem.load16 (nh + k)) :=
          fun k hk => load16_covered ⟨by omega, by omega⟩
        have hload := hload32 0 (by omega)
        rw [Nat.add_zero] at hload
        rw [recvMsgs]
        simp only [hok, hload, hload32 12 (by omega), hload32 8 (by omega), hload32 16 (by omega),
          hload16 6 (by omega), hload16 4 (by omega), Option.bind_eq_bind, Option.bind_some, if_true]
        split
        · exact ⟨_, rfl⟩
        split
        · exact ⟨_, rfl⟩
        split
        · rename_i ht
          obtain ⟨text, htext⟩ := herr ht
          split
          · exact hnext _ _
          · rw [htext]
            exact ⟨_, rfl⟩
        split
        · exact ⟨_, rfl⟩
        cases fn with
        | none => exact hnext _ _
        | some f =>
            obtain ⟨⟨ret, c'⟩, hf⟩ := hfn f rfl b nh c hat
            simp only [hf, Option.bind_some]
            split
            · exact ⟨_, rfl⟩
            · exact hnext _ _
      · rw [decide_eq_false hc] at hok
        rw [recvMsgs]
        simp only [hok, Option.bind_eq_bind, Option.bind_some, Bool.false_eq_true, if_false]
        exact ⟨_, rfl⟩

/-- A datagram with 25 bytes of the buffer behind it, in which the requests that errors repeat
fit. -/
structure Leaves (bytes : List (BitVec 8)) : Prop where
  length : bytes.length + 25 ≤ sizeofBuf
  echoes : ∀ m, ∀ nh ∈ messages (received m bytes).mem (bytes.length + 1) 0 bytes.length,
    EchoFits (received m bytes).mem nh

theorem bpfNetlinkRecv_within (hfn : Stays fn) {recvs : List Recv}
    (h : ∀ bytes, Recv.data bytes ∈ recvs → Leaves bytes) (m : ByteMemory) (c : σ) :
    ∃ r, bpfNetlinkRecv nlPid seq fn recvs m c = some r := by
  induction recvs generalizing m c with
  | nil => exact ⟨_, rfl⟩
  | cons recv recvs ih =>
      cases recv with
      | error errno => exact ⟨_, rfl⟩
      | data bytes =>
          obtain ⟨hlen, hecho⟩ := h bytes List.mem_cons_self
          have hlt : sizeofBuf < 2 ^ 31 := by decide
          have hroom : ((0 : Nat) : Int) + bytes.length + 25 ≤ (received m bytes).limit := by
            show ((0 : Nat) : Int) + bytes.length + 25 ≤ sizeofBuf
            omega
          obtain ⟨⟨flow, c'⟩, hrun⟩ : ∃ r, recvMsgs (received m bytes) nlPid seq fn
              (bytes.length + 1) 0 bytes.length false c = some r :=
            recvMsgs_within hfn (Nat.zero_le _) (by omega) hroom (hecho m)
          rw [bpfNetlinkRecv]
          simp only [List.take_of_length_le (show bytes.length ≤ sizeofBuf by omega), hrun,
            Option.bind_eq_bind, Option.bind_some]
          split
          · exact ⟨_, rfl⟩
          cases flow with
          | ret v => exact ⟨_, rfl⟩
          | next more =>
              cases more with
              | false => exact ⟨_, rfl⟩
              | true => exact ih (fun bytes hb => h bytes (List.mem_cons_of_mem _ hb)) _ _

end

/-- **Nothing is read outside of the buffer**, whatever the datagrams hold, if they leave 25 bytes
of it and their errors repeat no more of the request than is there. -/
theorem bpfGetLinkXdpId_within (net : Net) (ifindex flags : BitVec 32)
    (h : ∀ bytes, Recv.data bytes ∈ net.recvs → Leaves bytes) :
    ∃ r, bpfGetLinkXdpId net ifindex flags = some r := by
  have hstays : Stays (some (dumpLinkNlmsg ifindex)) := by
    rintro f ⟨⟩ b nh c hroom
    exact dumpLinkNlmsg_within hroom ifindex c
  have hinfo : ∃ r, bpfGetLinkXdpInfo net ifindex flags = some r := by
    unfold bpfGetLinkXdpInfo
    split
    · exact ⟨_, rfl⟩
    dsimp only
    split
    · exact ⟨_, rfl⟩
    split
    · exact ⟨_, rfl⟩
    · exact ⟨_, rfl⟩
    · exact bpfNetlinkRecv_within hstays h _ _
  obtain ⟨r, hr⟩ := hinfo
  unfold bpfGetLinkXdpId
  rw [hr]
  exact ⟨_, rfl⟩

/-- A message that is a header and nothing else. -/
def bareHeader : List (BitVec 8) :=
  bytes32 16 ++ bytes16 16 ++ bytes16 nlmFMulti ++ bytes32 1 ++ bytes32 5

theorem leaves_bareHeader : Leaves bareHeader where
  length := by decide
  echoes := by
    intro m nh hnh
    have hload : (received m bareHeader).mem.load32 0 = 16 := load32_eq rfl
    have hone : messages (received m bareHeader).mem (16 + 1) 0 16 = [0] := by
      rw [messages, if_pos ⟨by decide, by rw [hload]; decide, by rw [hload]; decide⟩, hload]
      show 0 :: messages (received m bareHeader).mem (15 + 1) 16 0 = [0]
      rw [messages, if_neg fun hc => absurd hc.1 (by decide)]
    have hnh : nh ∈ messages (received m bareHeader).mem (16 + 1) 0 16 := hnh
    rw [hone] at hnh
    obtain rfl := List.mem_singleton.mp hnh
    intro htype
    rw [load16_eq _ (show (received m bareHeader).mem.read (0 + 4) 2 = bytes16 16 from rfl)] at htype
    exact absurd htype (by decide)

theorem bpfGetLinkXdpId_within_bareHeader :
    ∃ r, bpfGetLinkXdpId ⟨.ok 5, 1, none, [.data bareHeader], fun _ => 0⟩ 2 0 = some r :=
  bpfGetLinkXdpId_within _ 2 0 fun bytes hb => by
    obtain ⟨⟩ := List.mem_singleton.mp hb
    exact leaves_bareHeader

end AfXdpSwitch.Netlink
