/-
**Masked-match tables: the matching entry of highest priority.**

The fields of an entry are packed into one value and one mask, the fields of a packet into one key,
each by covering the next bits of a zeroed buffer.  When every field is at least a byte long or lies
inside one byte, packing puts the fields side by side, so comparing the packed bytes under the packed
mask compares the fields one by one.  The lookup scans all entries and keeps a best one.

Main definitions:

* `PofSwitch.coverAll`, `PofSwitch.packedBit` — covering field after field, and the bits that gives;
* `PofSwitch.MmLayout`, `PofSwitch.EntryConforms` — the layouts and the entries the result is about;
* `PofSwitch.EntryMatches`, `PofSwitch.FindsBest` — an entry matches a packet field by field, and what a
  lookup is to return;
* `PofSwitch.FieldsShort` — every field fits its local copy.

Main results:

* `PofSwitch.coverAll_packed` — packing puts the fields side by side;
* `PofSwitch.maskMatch_packed_iff` — the comparison of packed bytes is the comparison of fields;
* `PofSwitch.poflrEntryLookup_mm` — **a lookup returns a matching entry of highest priority, and
  `NULL` exactly when no entry matches; it does so exactly when no field is longer than the array it is
  copied to.**
-/

import PofSwitch.LrRun

set_option relaxedAutoImplicit false
set_option autoImplicit false

namespace PofSwitch

open Buf HmapNode

/-! ### Packing fields -/

/-- Covering the bits of a buffer with one field after the other. -/
def coverAll : List (UInt16 × Buf) → UInt16 → Buf → Option Buf
  | [], _, d => some d
  | (len, value) :: rest, offsetB, d =>
      (pofbfCoverBit d value offsetB len).bind (coverAll rest (offsetB + len))

/-- Bit `i` of the fields put side by side. -/
def packedBit : List (UInt16 × Buf) → ℕ → Bool
  | [], _ => false
  | (len, value) :: rest, i =>
      if i < len.toNat then value.bit i else packedBit rest (i - len.toNat)

/-- The number of bits of the fields. -/
def totalLen (lens : List UInt16) : ℕ := (lens.map UInt16.toNat).sum

/-- From bit `pos` on, every field is at least a byte long or lies inside one byte. -/
def FieldsFit : ℕ → List UInt16 → Prop
  | _, [] => True
  | pos, len :: rest =>
      (8 ≤ len.toNat ∨ pos % 8 + len.toNat ≤ 8) ∧ FieldsFit (pos + len.toNat) rest

/-- **Packing puts the fields side by side** behind the bits that are already there. -/
theorem coverAll_packed {fields : List (UInt16 × Buf)} {off : UInt16} {d : Buf}
    (hfit : FieldsFit off.toNat (fields.map Prod.fst))
    (hlen : off.toNat + totalLen (fields.map Prod.fst) ≤ 8 * d.length)
    (hroom : 8 * d.length < 2 ^ 16) (hz : ∀ f ∈ fields, ZeroFrom f.2 f.1.toNat)
    (hd : ZeroFrom d off.toNat) :
    ∃ d', coverAll fields off d = some d' ∧ d'.length = d.length ∧
      ∀ i, d'.bit i = if i < off.toNat then d.bit i else packedBit fields (i - off.toNat) := by
  induction fields generalizing off d with
  | nil =>
      refine ⟨d, rfl, rfl, fun i => ?_⟩
      rw [packedBit]
      split_ifs with hi
      · rfl
      · exact hd i (Nat.not_lt.1 hi)
  | cons f fields ih =>
      obtain ⟨len, value⟩ := f
      simp only [List.map_cons, FieldsFit, totalLen, List.sum_cons] at hfit hlen
      have hvalue := hz _ List.mem_cons_self
      obtain ⟨d₁, hcover, hlen₁, hbits₁⟩ := pofbfCoverBit_next hfit.1 hvalue hd
      have hoff : (off + len).toNat = off.toNat + len.toNat := by
        rw [UInt16.toNat_add]
        exact Nat.mod_eq_of_lt (by omega)
      have hd₁ : ZeroFrom d₁ (off + len).toNat := by
        intro j hj
        rw [hbits₁, if_neg (by omega)]
        exact hd j (by omega)
      obtain ⟨d', hrest, hlen', hbits⟩ := ih (hoff ▸ hfit.2) (by rw [hoff, hlen₁, totalLen]; omega)
        (by rw [hlen₁]; exact hroom) (fun f hf => hz f (List.mem_cons_of_mem _ hf)) hd₁
      refine ⟨d', ?_, hlen'.trans hlen₁, fun i => ?_⟩
      · rw [coverAll, hcover, Option.bind_some, hrest]
      · rw [hbits, hbits₁, hoff, packedBit]
        split_ifs <;> first | omega | rfl | exact congrArg _ (by omega)

/-- Packing into a zeroed buffer of `n` bytes. -/
theorem coverAll_zeros {fields : List (UInt16 × Buf)} {n : ℕ}
    (hfit : FieldsFit 0 (fields.map Prod.fst)) (hlen : totalLen (fields.map Prod.fst) ≤ 8 * n)
    (hroom : 8 * n < 2 ^ 16) (hz : ∀ f ∈ fields, ZeroFrom f.2 f.1.toNat) :
    ∃ d, coverAll fields 0 (Buf.zeros n) = some d ∧ ∀ i, d.bit i = packedBit fields i := by
  have hn : (Buf.zeros n).length = n := Buf.length_zeros n
  obtain ⟨d, hcover, _, hbits⟩ := @coverAll_packed fields 0 (Buf.zeros n) hfit
    (by rw [hn, UInt16.toNat_zero, Nat.zero_add]; exact hlen) (by rw [hn]; exact hroom) hz
    (fun j _ => bit_zeros n j)
  refine ⟨d, hcover, fun i => ?_⟩
  rw [hbits, UInt16.toNat_zero, if_neg (Nat.not_lt_zero i), Nat.sub_zero]

/-- What is assembled into the value and the mask of an entry, and into the key of a packet. -/
def valueParts (fields : List PofMatchX) : List (UInt16 × Buf) := fields.map fun m => (m.len, m.value)

@[inherit_doc valueParts]
def maskParts (fields : List PofMatchX) : List (UInt16 × Buf) := fields.map fun m => (m.len, m.mask)

/-- The buffer a field of the table is taken from. -/
def fieldSource (packet metadata : Buf) (m : PofMatch) : Buf :=
  if m.fieldId = 0xFFFF then metadata else packet

@[inherit_doc valueParts]
def keyParts (packet metadata : Buf) (fields : List PofMatch) : List (UInt16 × Buf) :=
  fields.map fun m => (m.len, pofbfCopyBit (fieldSource packet metadata m)
    (Buf.zeros maxFieldLengthInByte) m.offset m.len)

/-- No field is longer than the local array it is copied to. -/
def FieldsShort (fields : List PofMatch) : Prop :=
  ∀ m ∈ fields, m.len.toNat ≤ 8 * maxFieldLengthInByte

instance (fields : List PofMatch) : Decidable (FieldsShort fields) :=
  inferInstanceAs (Decidable (∀ m ∈ fields, _))

/-- A key of fields that fit their local copies is its parts packed; any other has no result. -/
theorem keyLoop_eq_coverAll (packet metadata : Buf) (fields : List PofMatch) (off : UInt16) (key : Buf) :
    keyLoop packet metadata fields off key =
      if FieldsShort fields then coverAll (keyParts packet metadata fields) off key else none := by
  induction fields generalizing off key with
  | nil =>
      rw [if_pos (by simp [FieldsShort])]
      rfl
  | cons m ms ih =>
      rw [keyLoop, keyParts, List.map_cons, coverAll]
      by_cases hlong : 8 * maxFieldLengthInByte < m.len.toNat
      · rw [if_pos hlong, if_neg fun hshort => Nat.not_le.2 hlong (hshort m List.mem_cons_self)]
      · have hall : FieldsShort (m :: ms) ↔ FieldsShort ms := by
          simp only [FieldsShort, List.forall_mem_cons, Nat.not_lt.1 hlong, true_and]
        simp only [if_neg hlong, hall]
        change Option.bind _ _ = _
        cases hcover : pofbfCoverBit key (pofbfCopyBit (if m.fieldId = 0xFFFF then metadata else packet)
            (Buf.zeros maxFieldLengthInByte) m.offset m.len) off m.len with
        | none =>
            rw [fieldSource, hcover, Option.bind_none, Option.bind_none, ite_self]
        | some key' =>
            rw [fieldSource, hcover, Option.bind_some, Option.bind_some, ih]
            rfl

/-- The assembled value is the values of the fields packed, with and without a mask. -/
theorem coverAll_valueParts {withMask : Bool} {fields : List PofMatchX} {off off' : UInt16}
    {value mask value' mask' : Buf}
    (h : assembleLoop withMask fields off value mask = some (off', value', mask')) :
    coverAll (valueParts fields) off value = some value' := by
  induction fields generalizing off value mask with
  | nil =>
      cases h
      rfl
  | cons m ms ih =>
      simp only [assembleLoop, Option.bind_eq_bind, Option.bind_eq_some_iff] at h
      obtain ⟨v₁, hv₁, m₁, _, hrest⟩ := h
      rw [valueParts, List.map_cons, coverAll, hv₁, Option.bind_some]
      exact ih hrest

theorem coverAll_maskParts {fields : List PofMatchX} {off off' : UInt16}
    {value mask value' mask' : Buf}
    (h : assembleLoop true fields off value mask = some (off', value', mask')) :
    coverAll (maskParts fields) off mask = some mask' := by
  induction fields generalizing off value mask with
  | nil =>
      cases h
      rfl
  | cons m ms ih =>
      simp only [assembleLoop, coverMask, if_true, Option.bind_eq_bind, Option.bind_eq_some_iff] at h
      obtain ⟨v₁, _, m₁, hm₁, hrest⟩ := h
      rw [maskParts, List.map_cons, coverAll, hm₁, Option.bind_some]
      exact ih hrest

/-! ### Matching field by field -/

/-- The field of the packet or of the metadata agrees with the value on all bits of the mask. -/
def FieldMatches (packet metadata : Buf) (f : PofMatch) (m : PofMatchX) : Prop :=
  ∀ j < f.len.toNat, m.mask.bit j = true →
    (fieldSource packet metadata f).bit (f.offset.toNat + j) = m.value.bit j

/-- An entry matches a packet: every field does. -/
def EntryMatches (packet metadata : Buf) (t : TableInfo) (e : EntryInfo) : Prop :=
  List.Forall₂ (FieldMatches packet metadata) (tableFields t) (matchFields e.match_ e.matchFieldNum)

/-- A field of an entry for a field of the table: the same length, and no bit of the value or of the
mask beyond it.  The arrays of the message hold sixteen bytes. -/
structure FieldConforms (f : PofMatch) (m : PofMatchX) : Prop where
  len_eq : m.len = f.len
  value_zero : ZeroFrom m.value m.len.toNat
  mask_zero : ZeroFrom m.mask m.len.toNat
  mask_length : m.mask.length ≤ maxFieldLengthInByte

/-- The entry uses the fields of the table. -/
def EntryConforms (t : TableInfo) (e : EntryInfo) : Prop :=
  List.Forall₂ FieldConforms (tableFields t) (matchFields e.match_ e.matchFieldNum)

/-- The fields of the table sum up to its key, and each is at least a byte long or lies inside one
byte of the key. -/
structure MmLayout (t : TableInfo) : Prop where
  sum_eq : totalLen ((tableFields t).map PofMatch.len) = t.keyLen.toNat
  fits : FieldsFit 0 ((tableFields t).map PofMatch.len)

/-- The copy of a field has the bits of the field as far as the mask can ask for them. -/
theorem fieldMatches_iff_copy (packet metadata : Buf) {f : PofMatch} {m : PofMatchX}
    (h : FieldConforms f m) :
    FieldMatches packet metadata f m ↔ ∀ j < f.len.toNat, m.mask.bit j = true →
      (pofbfCopyBit (fieldSource packet metadata f) (Buf.zeros maxFieldLengthInByte) f.offset f.len).bit j =
        m.value.bit j := by
  have hcopy : ∀ j < f.len.toNat, m.mask.bit j = true →
      (pofbfCopyBit (fieldSource packet metadata f) (Buf.zeros maxFieldLengthInByte) f.offset f.len).bit j =
        (fieldSource packet metadata f).bit (f.offset.toNat + j) := by
    intro j hj hmask
    have hbound : j < 8 * maxFieldLengthInByte := by
      by_contra hge
      have hlen := h.mask_length
      rw [bit_of_length_le (by omega)] at hmask
      cases hmask
    rw [bit_pofbfCopyBit, Buf.length_zeros, if_pos (by omega), decide_eq_true hj, Bool.true_and]
  constructor
  · intro hmatch j hj hmask
    rw [hcopy j hj hmask]
    exact hmatch j hj hmask
  · intro hmatch j hj hmask
    rw [← hcopy j hj hmask]
    exact hmatch j hj hmask

/-- Comparing the packed bits under the packed mask compares the fields. -/
theorem packedBit_match_iff (packet metadata : Buf) {fs : List PofMatch} {ms : List PofMatchX}
    (h : List.Forall₂ FieldConforms fs ms) :
    (∀ i, packedBit (maskParts ms) i = true →
        packedBit (keyParts packet metadata fs) i = packedBit (valueParts ms) i) ↔
      List.Forall₂ (FieldMatches packet metadata) fs ms := by
  induction h with
  | nil => simp [maskParts, packedBit]
  | @cons f m fs ms hf _ ih =>
      rw [List.forall₂_cons, ← ih, fieldMatches_iff_copy packet metadata hf]
      simp only [maskParts, keyParts, valueParts, List.map_cons, packedBit, hf.len_eq]
      constructor
      · intro hall
        refine ⟨fun j hj => ?_, fun i => ?_⟩
        · have hbit := hall j
          rwa [if_pos hj, if_pos hj, if_pos hj] at hbit
        · have hbit := hall (f.len.toNat + i)
          have hge : ¬ f.len.toNat + i < f.len.toNat := by omega
          rwa [if_neg hge, if_neg hge, if_neg hge, Nat.add_sub_cancel_left] at hbit
      · rintro ⟨hhead, htail⟩ i
        split_ifs with hi
        · exact hhead i hi
        · exact htail _

/-! ### The comparison of bytes -/

theorem maskMatch_iff (mask value key : Buf) (lenB : UInt16) :
    maskMatch mask value key lenB = true ↔
      ∀ i < 8 * bytenumCeil lenB.toNat, mask.bit i = true → key.bit i = value.bit i := by
  rw [maskMatch, List.all_eq_true]
  simp only [List.mem_range, decide_eq_true_eq]
  constructor
  · intro hall i hi hmask
    have hbyte := congrArg (fun n => Nat.testBit n (7 - i % 8)) (hall (i / 8) (by omega))
    simp only [Nat.testBit_and] at hbyte
    rw [bit, bitOf] at hmask
    rw [hmask, Bool.true_and, Bool.true_and] at hbyte
    exact hbyte
  · intro hall q hq
    refine Nat.eq_of_testBit_eq fun k => ?_
    rw [Nat.testBit_and, Nat.testBit_and]
    cases hmask : (mask.rd q).toNat.testBit k with
    | false => rfl
    | true =>
        have hk : k < 8 := by
          by_contra hge
          rw [testBit_toNat_of_le _ (Nat.not_lt.1 hge)] at hmask
          cases hmask
        have hbit := hall (8 * q + (7 - k)) (by omega)
        rw [bit_mul_add _ _ (by omega), bit_mul_add _ _ (by omega), bit_mul_add _ _ (by omega), bitOf,
          bitOf, bitOf, Nat.sub_sub_self (by omega)] at hbit
        rw [Bool.true_and, Bool.true_and]
        exact hbit hmask

theorem packedBit_of_le {fields : List (UInt16 × Buf)} {i : ℕ}
    (h : totalLen (fields.map Prod.fst) ≤ i) : packedBit fields i = false := by
  induction fields generalizing i with
  | nil => rfl
  | cons f fields ih =>
      rw [List.map_cons, totalLen, List.map_cons, List.sum_cons] at h
      rw [packedBit, if_neg (by omega)]
      exact ih (by rw [totalLen]; omega)

/-- The lengths of the parts are those of the fields of the table. -/
theorem lens_keyParts (packet metadata : Buf) (fs : List PofMatch) :
    (keyParts packet metadata fs).map Prod.fst = fs.map PofMatch.len := by
  rw [keyParts, List.map_map]
  rfl

theorem lens_parts {fs : List PofMatch} {ms : List PofMatchX} (h : List.Forall₂ FieldConforms fs ms) :
    (valueParts ms).map Prod.fst = fs.map PofMatch.len ∧
      (maskParts ms).map Prod.fst = fs.map PofMatch.len := by
  induction h with
  | nil => exact ⟨rfl, rfl⟩
  | cons hf _ ih =>
      simp only [valueParts, maskParts, List.map_cons, List.map_map, List.cons.injEq] at ih ⊢
      exact ⟨⟨hf.len_eq, ih.1⟩, ⟨hf.len_eq, ih.2⟩⟩

theorem zeroFrom_keyParts (packet metadata : Buf) (fs : List PofMatch) :
    ∀ f ∈ keyParts packet metadata fs, ZeroFrom f.2 f.1.toNat := by
  intro f hf
  obtain ⟨m, _, rfl⟩ := List.mem_map.1 hf
  exact zeroFrom_pofbfCopyBit _ _ _ _

/-- The parts of an entry that conforms have no bits beyond their lengths. -/
theorem zeroFrom_parts {fs : List PofMatch} {ms : List PofMatchX}
    (h : List.Forall₂ FieldConforms fs ms) :
    (∀ f ∈ valueParts ms, ZeroFrom f.2 f.1.toNat) ∧ ∀ f ∈ maskParts ms, ZeroFrom f.2 f.1.toNat := by
  have hall : ∀ m ∈ ms, ZeroFrom m.value m.len.toNat ∧ ZeroFrom m.mask m.len.toNat := by
    induction h with
    | nil => simp
    | cons hf _ ih => exact List.forall_mem_cons.2 ⟨⟨hf.value_zero, hf.mask_zero⟩, ih⟩
  constructor
  · intro f hf
    obtain ⟨m, hm, rfl⟩ := List.mem_map.1 hf
    exact (hall m hm).1
  · intro f hf
    obtain ⟨m, hm, rfl⟩ := List.mem_map.1 hf
    exact (hall m hm).2

/-! ### Stored entries -/

/-- The value and the mask of every entry of a masked-match table are assembled from its fields. -/
def MmInv (t : TableInfo) : Prop :=
  t.keyLen.toNat ≤ 8 * entryKeyBytes ∧ (t.type = .mm → ∀ e ∈ t.entryMap.nodes,
    assembleLoop true (matchFields e.match_ e.matchFieldNum) 0 (Buf.zeros entryKeyBytes)
      (Buf.zeros entryKeyBytes) = some (t.keyLen, e.value, e.mask))

theorem MmInv.entryLink {t : TableInfo} (h : MmInv t) {flow : PofFlowEntry} {newAt : ℕ}
    {e : EntryInfo} (hfill : Filled flow newAt t e) : MmInv (PofSwitch.entryLink e t) := by
  have hshape := sameShape_entryLink e t
  rw [MmInv, hshape.keyLen_eq, hshape.type_eq]
  refine ⟨h.1, fun htype e' he' => ?_⟩
  rw [nodes_entryLink] at he'
  rcases List.mem_cons.1 he' with rfl | he'
  · have hassembled := hfill.assembled (by rw [htype]; decide)
    rw [hfill.match_eq]
    rwa [htype, decide_eq_true (by decide)] at hassembled
  · exact h.2 htype e' he'

theorem MmInv.entryDelete {t : TableInfo} (h : MmInv t) (e : EntryInfo) :
    MmInv (PofSwitch.entryDelete e t) := by
  have hshape := sameShape_entryDelete e t
  rw [MmInv, hshape.keyLen_eq, hshape.type_eq]
  refine ⟨h.1, fun htype e' he' => ?_⟩
  rw [nodes_entryDelete] at he'
  exact h.2 htype e' (List.mem_of_mem_filter he')

theorem MmInv.change {t t' : TableInfo} (h : MmInv t) (hchange : TableChange t t') : MmInv t' := by
  cases hchange with
  | same => exact h
  | insert hfill _ => exact h.entryLink hfill
  | delete _ => exact h.entryDelete _
  | replace _ hfill _ => exact (h.entryDelete _).entryLink hfill

theorem mmInv_of_reachable {lr : LocalResource} (h : LrReachable lr) :
    ∀ t ∈ lr.tableIdMap.nodes, MmInv t := by
  refine LrReachable.table_induction ?_ ?_ h
  · intro msg type ID newAt hlen
    refine ⟨hlen, fun _ e he => ?_⟩
    simp [newTable] at he
  · intro t t' hchange hinv
    exact hinv.change hchange

/-- The key of a packet: it is assembled, and its bits are those of the fields side by side. -/
theorem keyAssemble_packed {t : TableInfo} (hinv : MmInv t) (hlayout : MmLayout t)
    (hshort : FieldsShort (tableFields t)) (packet metadata : Buf) :
    ∃ key, keyAssemble packet metadata t = some key ∧
      ∀ i, key.bit i = packedBit (keyParts packet metadata (tableFields t)) i := by
  have hsum := hlayout.sum_eq
  have hmax := hinv.1
  have hcap : 8 * entryKeyBytes = 1024 := rfl
  have hceil : t.keyLen.toNat ≤ 8 * bytenumCeil t.keyLen.toNat ∧
      8 * bytenumCeil t.keyLen.toNat < t.keyLen.toNat + 8 := by
    rw [bytenumCeil]
    omega
  obtain ⟨key, hkey, hbits⟩ := coverAll_zeros (n := bytenumCeil t.keyLen.toNat)
    (by rw [lens_keyParts packet metadata]; exact hlayout.fits)
    (by rw [lens_keyParts, hsum]; exact hceil.1) (by omega) (zeroFrom_keyParts packet metadata _)
  exact ⟨key, by rw [keyAssemble, keyLoop_eq_coverAll, if_pos hshort, hkey], hbits⟩

/-- A lookup that has a result has copied no field that is too long. -/
theorem fieldsShort_of_lookup {packet metadata : Buf} {t : TableInfo} {ret : EntryPtr}
    (h : poflrEntryLookup packet metadata t = some ret) : FieldsShort (tableFields t) := by
  obtain ⟨key, hkey, _⟩ := Option.bind_eq_some_iff.1 h
  rw [keyAssemble, keyLoop_eq_coverAll] at hkey
  by_contra hlong
  rw [if_neg hlong] at hkey
  cases hkey

/-- **The comparison of packed bytes is the comparison of fields.** -/
theorem maskMatch_packed_iff {t : TableInfo} (hinv : MmInv t) (htype : t.type = .mm)
    (hlayout : MmLayout t) {e : EntryInfo} (he : e ∈ t.entryMap.nodes) (hconf : EntryConforms t e)
    {packet metadata key : Buf}
    (hkey : ∀ i, key.bit i = packedBit (keyParts packet metadata (tableFields t)) i) :
    maskMatch e.mask e.value key t.keyLen = true ↔ EntryMatches packet metadata t e := by
  obtain ⟨hvlens, hmlens⟩ := lens_parts hconf
  obtain ⟨hvzero, hmzero⟩ := zeroFrom_parts hconf
  have hvalue := coverAll_valueParts (hinv.2 htype e he)
  have hmask := coverAll_maskParts (hinv.2 htype e he)
  have hfit := hlayout.fits
  have hsum := hlayout.sum_eq
  have hmax : totalLen ((tableFields t).map PofMatch.len) ≤ 8 * entryKeyBytes := by
    rw [hsum]
    exact hinv.1
  obtain ⟨value, hvalue', hvbits⟩ := coverAll_zeros (hvlens ▸ hfit) (hvlens ▸ hmax) (by decide) hvzero
  obtain ⟨mask, hmask', hmbits⟩ := coverAll_zeros (hmlens ▸ hfit) (hmlens ▸ hmax) (by decide) hmzero
  cases hvalue.symm.trans hvalue'
  cases hmask.symm.trans hmask'
  rw [maskMatch_iff, EntryMatches, ← packedBit_match_iff packet metadata hconf]
  constructor
  · intro hall i hi
    rw [← hkey, ← hvbits]
    refine hall i ?_ (by rw [hmbits]; exact hi)
    -- beyond the key the mask has no bits
    by_contra hge
    rw [packedBit_of_le (by rw [hmlens, hsum]; rw [bytenumCeil] at hge; omega)] at hi
    cases hi
  · intro hall i _ hi
    rw [hkey, hvbits]
    exact hall i (by rw [← hmbits]; exact hi)

/-! ### The scan -/

/-- One turn of the loop of `entryLookup_MM`. -/
def pickBest (p : EntryInfo → Bool) (ret : Option EntryInfo) (entry : EntryInfo) : Option EntryInfo :=
  if p entry then
    match ret with
    | none => some entry
    | some best => if best.priority < entry.priority then some entry else ret
  else ret

theorem entryLookupMM_eq (key : Buf) (t : TableInfo) :
    entryLookupMM key t =
      t.entryMap.order.foldl (pickBest fun e => maskMatch e.mask e.value key t.keyLen) none := rfl

/-- `ret` is at least as good as `e`. -/
def Beats (ret : Option EntryInfo) (e : EntryInfo) : Prop :=
  ∃ best, ret = some best ∧ e.priority ≤ best.priority

/-- A turn of the loop takes the new entry or keeps the old one, and is as good as both. -/
theorem pickBest_spec (p : EntryInfo → Bool) (ret : Option EntryInfo) (entry : EntryInfo) :
    (pickBest p ret entry = ret ∨ p entry = true ∧ pickBest p ret entry = some entry) ∧
      (∀ e, Beats ret e → Beats (pickBest p ret entry) e) ∧
      (p entry = true → Beats (pickBest p ret entry) entry) := by
  unfold pickBest
  split_ifs with hp
  · cases ret with
    | none =>
        refine ⟨Or.inr ⟨hp, rfl⟩, ?_, fun _ => ⟨entry, rfl, UInt16.le_refl _⟩⟩
        rintro e ⟨best, hbest, _⟩
        cases hbest
    | some best =>
        simp only
        split_ifs with hlt
        · refine ⟨Or.inr ⟨hp, rfl⟩, ?_, fun _ => ⟨entry, rfl, UInt16.le_refl _⟩⟩
          rintro e ⟨b, hb, hle⟩
          cases hb
          exact ⟨entry, rfl, UInt16.le_trans hle (UInt16.le_of_lt hlt)⟩
        · exact ⟨Or.inl rfl, fun _ h => h, fun _ => ⟨best, rfl, UInt16.not_lt.1 hlt⟩⟩
  · exact ⟨Or.inl rfl, fun _ h => h, fun h => absurd h hp⟩

/-- The scan: what is kept was there before or is a match, and is as good as everything seen. -/
theorem foldl_pickBest (p : EntryInfo → Bool) (l : List EntryInfo) (ret : Option EntryInfo) :
    (∀ e, l.foldl (pickBest p) ret = some e → ret = some e ∨ e ∈ l ∧ p e = true) ∧
      (∀ e, Beats ret e → Beats (l.foldl (pickBest p) ret) e) ∧
      ∀ e ∈ l, p e = true → Beats (l.foldl (pickBest p) ret) e := by
  induction l generalizing ret with
  | nil => exact ⟨fun e he => Or.inl he, fun e he => he, by simp⟩
  | cons x l ih =>
      obtain ⟨hkeep, hmono, hnew⟩ := pickBest_spec p ret x
      obtain ⟨ihmem, ihmono, ihnew⟩ := ih (pickBest p ret x)
      refine ⟨fun e he => ?_, fun e he => ihmono e (hmono e he), fun e he hp => ?_⟩
      · rcases ihmem e he with heq | ⟨hmem, hp⟩
        · rcases hkeep with hret | ⟨hp, hx⟩
          · exact Or.inl (hret ▸ heq)
          · cases hx.symm.trans heq
            exact Or.inr ⟨List.mem_cons_self, hp⟩
        · exact Or.inr ⟨List.mem_cons_of_mem _ hmem, hp⟩
      · rcases List.mem_cons.1 he with rfl | he
        · exact ihmono _ (hnew hp)
        · exact ihnew e he hp

/-- A lookup returns a matching entry of highest priority, and `NULL` exactly when no stored entry matches
the packet and the metadata field by field. -/
def FindsBest (t : TableInfo) (packet metadata : Buf) : Prop :=
  ∃ ret, poflrEntryLookup packet metadata t = some ret ∧
    ((∃ e ∈ t.entryMap.nodes, ret = .ptr e.addr ∧ EntryMatches packet metadata t e ∧
        ∀ e' ∈ t.entryMap.nodes, EntryMatches packet metadata t e' → e'.priority ≤ e.priority) ∨
      ret = .null) ∧
    (ret = .null ↔ ∀ e ∈ t.entryMap.nodes, ¬ EntryMatches packet metadata t e)

/-- With fields that fit their local copies the scan finds the best entry. -/
theorem findsBest_of_fieldsShort {t : TableInfo} (hinv : MmInv t) (htype : t.type = .mm) (hlayout : MmLayout t)
    (hconf : ∀ e ∈ t.entryMap.nodes, EntryConforms t e) (hshort : FieldsShort (tableFields t))
    (packet metadata : Buf) : FindsBest t packet metadata := by
  obtain ⟨key, hkey, hbits⟩ := keyAssemble_packed hinv hlayout hshort packet metadata
  have hmatch : ∀ e ∈ t.entryMap.nodes,
      (maskMatch e.mask e.value key t.keyLen = true ↔ EntryMatches packet metadata t e) :=
    fun e he => maskMatch_packed_iff hinv htype hlayout he (hconf e he) hbits
  obtain ⟨hmem, _, hbest⟩ := foldl_pickBest (fun e => maskMatch e.mask e.value key t.keyLen)
    t.entryMap.order none
  rw [← entryLookupMM_eq] at hmem hbest
  have hret : poflrEntryLookup packet metadata t =
      some (.ofOption ((entryLookupMM key t).map EntryInfo.addr)) := by
    rw [poflrEntryLookup, hkey, htype]
    rfl
  refine ⟨_, hret, ?_⟩
  cases hlook : entryLookupMM key t with
  | none =>
      refine ⟨Or.inr rfl, fun _ e he hm => ?_, fun _ => rfl⟩
      obtain ⟨best, hbest', _⟩ := hbest e (t.entryMap.mem_order.2 he) ((hmatch e he).2 hm)
      rw [hlook] at hbest'
      cases hbest'
  | some e =>
      obtain ⟨he, hp⟩ : e ∈ t.entryMap.order ∧ _ := by
        rcases hmem e hlook with hnone | hfound
        · cases hnone
        · exact hfound
      have hnode := t.entryMap.mem_order.1 he
      have hm := (hmatch e hnode).1 hp
      refine ⟨Or.inl ⟨e, hnode, rfl, hm, fun e' he' hm' => ?_⟩, fun hnull => ?_, fun hno => ?_⟩
      · obtain ⟨best, hbest', hle⟩ := hbest e' (t.entryMap.mem_order.2 he') ((hmatch e' he').2 hm')
        cases hlook.symm.trans hbest'
        exact hle
      · cases hnull
      · exact absurd hm (hno e hnode)

/-- **In every reachable masked-match table whose fields fit the key and whose entries use these
fields, a lookup returns a matching entry of highest priority, and `NULL` exactly when no stored
entry matches the packet and the metadata field by field, exactly when no field is longer than its
local copy.** -/
theorem poflrEntryLookup_mm {lr : LocalResource} (h : LrReachable lr) {t : TableInfo}
    (ht : t ∈ lr.tableIdMap.nodes) (htype : t.type = .mm) (hlayout : MmLayout t)
    (hconf : ∀ e ∈ t.entryMap.nodes, EntryConforms t e) (packet metadata : Buf) :
    FindsBest t packet metadata ↔ FieldsShort (tableFields t) := by
  constructor
  · rintro ⟨ret, hret, _⟩
    exact fieldsShort_of_lookup hret
  · intro hshort
    exact findsBest_of_fieldsShort (mmInv_of_reachable h t ht) htype hlayout hconf hshort packet metadata

/-- A masked-match table of one byte with the entry `a0` under the mask `f0`. -/
def maskedMm : LocalResource :=
  (LrOp.addFlowEntry (oneFieldEntry 0 8 0 0 [0xA0] [0xF0]) 2 3).next
    ((LrOp.createFlowTable (oneFieldTable 0 8) 1).next (pofLocalresourceInit smallConfig))

/-- The packet `a5` matches the entry. -/
theorem poflrEntryLookup_mm_masked : ∃ t ∈ maskedMm.tableIdMap.nodes,
    poflrEntryLookup [0xA5] [] t = some (.ptr 2) ∧
      ∃ e ∈ t.entryMap.nodes, e.addr = 2 ∧ EntryMatches [0xA5] [] t e := by
  have hrun : LrReachable maskedMm :=
    ((LrRun.init smallConfig trivial).next _ (by decide) rfl trivial).next _ (by decide) rfl trivial
  obtain ⟨t, ht⟩ : ∃ t, maskedMm.tableIdMap.nodes = [t] := ⟨_, rfl⟩
  have hmem : t ∈ maskedMm.tableIdMap.nodes := by rw [ht]; simp
  have hfacts : ∀ t ∈ maskedMm.tableIdMap.nodes, t.type = .mm ∧ t.keyLen.toNat = 8 ∧
      tableFields t = [⟨0, 0, 8⟩] ∧ (∀ e ∈ t.entryMap.nodes,
        matchFields e.match_ e.matchFieldNum = [⟨0, 0, 8, [0xA0], [0xF0]⟩]) ∧
      poflrEntryLookup [0xA5] [] t = some (.ptr 2) := by decide
  obtain ⟨htype, hlen, hfields, hentries, hlook⟩ := hfacts t hmem
  have hlayout : MmLayout t := by
    constructor
    · rw [hfields, hlen]
      rfl
    · rw [hfields]
      exact ⟨Or.inl (by decide), trivial⟩
  have hzero : ∀ v : UInt8, ZeroFrom [v] 8 := fun v j hj => bit_of_length_le (by simpa using hj)
  have hconf : ∀ e ∈ t.entryMap.nodes, EntryConforms t e := by
    intro e he
    rw [EntryConforms, hfields, hentries e he]
    exact List.Forall₂.cons ⟨rfl, hzero _, hzero _, by decide⟩ List.Forall₂.nil
  have hshort : FieldsShort (tableFields t) := by
    rw [hfields]
    decide
  obtain ⟨ret, hret, hfound, _⟩ := (poflrEntryLookup_mm hrun hmem htype hlayout hconf [0xA5] []).2 hshort
  cases hlook.symm.trans hret
  rcases hfound with ⟨e, he, hptr, hm, _⟩ | hnull
  · exact ⟨t, hmem, hlook, e, he, (EntryPtr.ptr.inj hptr).symm, hm⟩
  · cases hnull

/-- A masked-match table with one field of the longest key, `160` bits, and an entry for every packet. -/
def longMm : LocalResource :=
  (LrOp.addFlowEntry (oneFieldEntry 0 160 0 0 [] []) 2 3).next
    ((LrOp.createFlowTable (oneFieldTable 0 160) 1).next (pofLocalresourceInit smallConfig))

/-- A field of twenty bytes is copied past the end of an array of sixteen. -/
theorem poflrEntryLookup_mm_overflow : ¬ ∀ (lr : LocalResource) (t : TableInfo) (packet metadata : Buf),
    LrReachable lr → t ∈ lr.tableIdMap.nodes → t.type = .mm → MmLayout t →
      (∀ e ∈ t.entryMap.nodes, EntryConforms t e) → FindsBest t packet metadata := by
  intro hall
  have hrun : LrReachable longMm :=
    ((LrRun.init smallConfig trivial).next _ (by decide) rfl trivial).next _ (by decide) rfl trivial
  obtain ⟨t, ht⟩ : ∃ t, longMm.tableIdMap.nodes = [t] := ⟨_, rfl⟩
  have hmem : t ∈ longMm.tableIdMap.nodes := by rw [ht]; simp
  have hfacts : ∀ t ∈ longMm.tableIdMap.nodes, t.type = .mm ∧ t.keyLen.toNat = 160 ∧
      tableFields t = [⟨0, 0, 160⟩] ∧ ∀ e ∈ t.entryMap.nodes,
        matchFields e.match_ e.matchFieldNum = [⟨0, 0, 160, [], []⟩] := by decide
  obtain ⟨htype, hlen, hfields, hentries⟩ := hfacts t hmem
  have hlayout : MmLayout t := by
    constructor
    · rw [hfields, hlen]
      rfl
    · rw [hfields]
      exact ⟨Or.inl (by decide), trivial⟩
  have hconf : ∀ e ∈ t.entryMap.nodes, EntryConforms t e := by
    intro e he
    rw [EntryConforms, hfields, hentries e he]
    have hzero : ZeroFrom [] 160 := fun j _ => bit_of_length_le (Nat.zero_le _)
    exact List.Forall₂.cons ⟨rfl, hzero, hzero, by decide⟩ List.Forall₂.nil
  obtain ⟨ret, hret, _⟩ := hall longMm t [0xA5] [] hrun hmem htype hlayout hconf
  have hshort := fieldsShort_of_lookup hret
  rw [hfields] at hshort
  exact absurd hshort (by decide)

end PofSwitch
