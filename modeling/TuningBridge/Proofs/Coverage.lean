import Mathlib.Algebra.Order.BigOperators.Group.List
import TuningBridge.Proofs.Arrangement

/-!
# Covered headers

The bytes of a header reach up to the last byte of any field, while its size counts only the bytes
that the fields hold.  In an arranged header the two agree exactly if every byte belongs to a field,
and then the fields are contiguous.  Only then does the header read anything: every byte string of
its size, and its own bytes as itself.  There are only nine names, so fields within the size of
their header end at offsets.
-/

namespace TuningBridge.Header

/-- Every byte up to the last one belongs to a field. -/
def Covers (header : Header) : Prop :=
  ∀ index < header.bytes.length, ∃ field ∈ header.fields, field.offset ≤ index ∧ index < field.after

/-- Where the bytes end that fields are written to behind the first `start` ones: a gap is filled up
and a field is put behind what is there. -/
def finish : (start : Nat) → List Field → Nat
  | start, [] => start
  | start, field :: rest => finish (max start field.offset + field.size) rest

/-- A field does not reach into the first `start` bytes. -/
def Behind (start : Nat) (field : Field) : Prop :=
  start ≤ field.offset ∨ field.offset ≤ start ∧ field.size = 0

private theorem length_foldl_bytes (fields : List Field) (written : Bytes) :
    (fields.foldl (fun written field =>
      written ++ Bytes.zeros (field.offset - written.length) ++ field.bytes) written).length =
        finish written.length fields := by
  induction fields generalizing written with
  | nil => rfl
  | cons field rest ih =>
    rw [List.foldl_cons, ih, finish]
    congr 1
    simp only [List.length_append, Bytes.zeros, List.length_replicate, Field.bytes,
      Bytes.length_ofNat]
    omega

/-- The bytes of a header are those up to the end of its fields. -/
theorem length_bytes_eq_finish (header : Header) : header.bytes.length = finish 0 header.fields :=
  length_foldl_bytes header.fields []

/-- Fields are written behind one another, with gaps or without. -/
theorem le_finish (start : Nat) (fields : List Field) :
    start + size ⟨fields⟩ ≤ finish start fields := by
  induction fields generalizing start with
  | nil => exact Nat.le_refl _
  | cons field rest ih =>
    have hrest := ih (max start field.offset + field.size)
    rw [finish, size_cons]
    omega

section Coverage

variable {start bound : Nat} {field : Field} {fields : List Field}

/-- The fields behind a field that was written reach into nothing that was written. -/
private theorem behind_next (hfield : Behind start field)
    (hordered : (layout ⟨field :: fields⟩).Pairwise Precedes)
    (hbehind : ∀ other ∈ fields, Behind start other) :
    ∀ other ∈ fields, Behind (max start field.offset + field.size) other := by
  intro other hother
  obtain ⟨hle, hapart⟩ := (pairwise_layout_cons.mp hordered).1 other hother
  have hother' := hbehind other hother
  simp only [Behind] at *
  omega

/-- Fields that keep to a bound end within it. -/
private theorem finish_le (hordered : (layout ⟨fields⟩).Pairwise Precedes)
    (hbehind : ∀ field ∈ fields, Behind start field) (hstart : start ≤ bound)
    (hafter : ∀ field ∈ fields, field.after ≤ bound) : finish start fields ≤ bound := by
  induction fields generalizing start with
  | nil => exact hstart
  | cons field rest ih =>
    obtain ⟨hfield, hrest⟩ := List.forall_mem_cons.mp hbehind
    obtain ⟨hfirst, hafter⟩ := List.forall_mem_cons.mp hafter
    refine ih (pairwise_layout_cons.mp hordered).2 (behind_next hfield hordered hrest) ?_ hafter
    simp only [Behind, Field.after] at hfield hfirst
    omega

/-- Every field ends within the end of all. -/
private theorem after_le_finish (start : Nat) :
    ∀ field ∈ fields, field.after ≤ finish start fields := by
  induction fields generalizing start with
  | nil => simp
  | cons field rest ih =>
    rw [finish]
    refine List.forall_mem_cons.mpr ⟨?_, ih _⟩
    have hend := le_finish (max start field.offset + field.size) rest
    rw [Field.after]
    omega

/-- Fields that fill up all bytes up to their end are contiguous. -/
private theorem contiguous_of_finish (hordered : (layout ⟨fields⟩).Pairwise Precedes)
    (hbehind : ∀ field ∈ fields, Behind start field) (hnarrow : ∀ field ∈ fields, field.size ≤ 8)
    (hfull : finish start fields = start + size ⟨fields⟩) : Contiguous start (layout ⟨fields⟩) := by
  induction fields generalizing start with
  | nil => trivial
  | cons field rest ih =>
    obtain ⟨hfield, hrest⟩ := List.forall_mem_cons.mp hbehind
    obtain ⟨hsize, hnarrow⟩ := List.forall_mem_cons.mp hnarrow
    have hnext := behind_next hfield hordered hrest
    have hle := le_finish (max start field.offset + field.size) rest
    rw [finish, size_cons] at hfull
    have hplace : field.offset ≤ start := by omega
    rw [max_eq_left hplace] at hnext hfull
    refine contiguous_cons.mpr
      ⟨?_, hsize, ih (pairwise_layout_cons.mp hordered).2 hnext hnarrow (by omega)⟩
    simp only [Behind] at hfield
    omega

/-- Fields to which every byte up to their end belongs leave no gap, whether or not they share
bytes. -/
private theorem finish_le_of_covers (hordered : (layout ⟨fields⟩).Pairwise PutBefore)
    (hcovers : ∀ index, start ≤ index → index < finish start fields →
      ∃ field ∈ fields, field.offset ≤ index ∧ index < field.after) :
    finish start fields ≤ start + size ⟨fields⟩ := by
  induction fields generalizing start with
  | nil => exact Nat.le_refl _
  | cons field rest ih =>
    obtain ⟨hfirst, hordered⟩ := pairwise_layout_cons.mp hordered
    have hend := le_finish (max start field.offset + field.size) rest
    rw [finish] at hcovers ⊢
    -- a gap in front of the first field would be a byte that belongs to no field
    have hplace : field.offset ≤ start := by
      by_contra hgap
      obtain ⟨other, hother, hlow, hhigh⟩ := hcovers start le_rfl (by omega)
      rcases List.mem_cons.mp hother with rfl | hother
      · omega
      · have hsorted := (hfirst other hother).1
        omega
    rw [max_eq_left hplace] at hcovers ⊢
    have hrest := ih hordered fun index hlow hhigh => by
      obtain ⟨other, hother, hin⟩ := hcovers index (by omega) hhigh
      rcases List.mem_cons.mp hother with rfl | hother
      · simp only [Field.after] at hin
        omega
      · exact ⟨other, hother, hin⟩
    rw [size_cons]
    omega

/-- Contiguous fields leave out no byte. -/
private theorem exists_field_of_contiguous (hc : Contiguous start (layout ⟨fields⟩)) {index : Nat}
    (hlow : start ≤ index) (hhigh : index < start + size ⟨fields⟩) :
    ∃ field ∈ fields, field.offset ≤ index ∧ index < field.after := by
  induction fields generalizing start with
  | nil =>
    rw [size_nil] at hhigh
    omega
  | cons field rest ih =>
    obtain ⟨hplace, _, hrest⟩ := contiguous_cons.mp hc
    rw [size_cons] at hhigh
    by_cases hin : index < start + field.size
    · refine ⟨field, List.mem_cons_self, ?_⟩
      rw [Field.after]
      omega
    · obtain ⟨other, hother, hin⟩ := ih hrest (by omega) (by omega)
      exact ⟨other, List.mem_cons_of_mem _ hother, hin⟩

private theorem finish_of_contiguous (hc : Contiguous start (layout ⟨fields⟩)) :
    finish start fields = start + size ⟨fields⟩ := by
  induction fields generalizing start with
  | nil => rfl
  | cons field rest ih =>
    obtain ⟨hplace, _, hrest⟩ := contiguous_cons.mp hc
    rw [finish, max_eq_left (by omega), ih hrest, size_cons]
    omega

/-- Fields are read only from a byte string that reaches up to their ends. -/
private theorem after_le_of_parseFields {data : Bytes} {parsed : List Field}
    (h : parseFields data fields = (.ok (), parsed)) :
    ∀ field ∈ fields, field.after ≤ data.length := by
  induction fields generalizing parsed with
  | nil => simp
  | cons field rest ih =>
    rw [parseFields] at h
    split at h
    · next hle =>
      cases hrest : parseFields data rest with
      | mk result fields =>
        rw [hrest] at h
        obtain rfl : result = .ok () := congrArg Prod.fst h
        exact List.forall_mem_cons.mpr ⟨hle, ih hrest⟩
    · cases congrArg Prod.fst h

end Coverage

namespace Arranged

variable {header : Header}

private theorem behind_zero (header : Header) : ∀ field ∈ header.fields, Behind 0 field :=
  fun _ _ => .inl (Nat.zero_le _)

/-- The fields of a header hold no more bytes than there are names for words. -/
theorem size_le (h : header.Arranged) : header.size ≤ FieldName.all.length * Field.maxSize := by
  have hnames : header.fields.length ≤ FieldName.all.length := by
    have hsubset : header.layout.map Prod.fst ⊆ FieldName.all :=
      fun name _ => by cases name <;> decide
    simpa [layout] using (List.subperm_of_subset h.nodup hsubset).length_le
  have hsize : header.size = (header.fields.map (·.size)).sum := by
    rw [size, List.sum, List.foldr_map]
  calc header.size = (header.fields.map (·.size)).sum := hsize
    _ ≤ (header.fields.map (·.size)).length * Field.maxSize :=
      List.sum_le_card_nsmul _ _ (by simpa using h.narrow)
    _ ≤ FieldName.all.length * Field.maxSize := by
      rw [List.length_map]
      exact Nat.mul_le_mul_right _ hnames

/-- The fields of an arranged header stand one before the other if they end within its size. -/
theorem precedes_of_after_le (h : header.Arranged)
    (hafter : ∀ field ∈ header.fields, field.after ≤ header.size) :
    header.layout.Pairwise Precedes := by
  have hsize : header.size < Field.offsetCount := h.size_le.trans_lt (by decide)
  exact pairwise_precedes h.ordered fun field hfield => (hafter field hfield).trans_lt hsize

/-- A header whose fields hold all of its bytes is contiguous. -/
theorem contiguous_iff (h : header.Arranged) :
    Contiguous 0 header.layout ↔ header.bytes.length = header.size := by
  rw [length_bytes_eq_finish]
  constructor
  · intro hc
    rw [finish_of_contiguous hc, Nat.zero_add]
  · intro hfull
    have hordered := h.precedes_of_after_le (hfull ▸ after_le_finish 0)
    exact contiguous_of_finish hordered (behind_zero header) h.narrow (by rwa [Nat.zero_add])

/-- The bytes of a header are as many as its fields hold if there is no gap. -/
theorem length_bytes_iff (h : header.Arranged) :
    header.bytes.length = header.size ↔ header.Covers := by
  constructor
  · intro hfull index hindex
    have hc := h.contiguous_iff.mpr hfull
    rw [length_bytes_eq_finish, finish_of_contiguous hc] at hindex
    exact exists_field_of_contiguous hc (Nat.zero_le _) hindex
  · intro hcovers
    have hle := finish_le_of_covers h.ordered fun index _ hindex =>
      hcovers index (by rwa [length_bytes_eq_finish])
    have hge := le_finish 0 header.fields
    rw [Nat.zero_add] at hle hge
    rw [length_bytes_eq_finish]
    exact Nat.le_antisymm hle hge

/-- What is read has the length of a header without gaps. -/
theorem length_bytes_of_parse (h : header.Arranged) {data : Bytes} {parsed : Header}
    (hparse : header.parse data = (.ok (), parsed)) :
    data.length = header.size ∧ header.bytes.length = header.size := by
  rw [Header.parse] at hparse
  split at hparse
  · next hlen =>
    cases hfields : parseFields data header.fields with
    | mk result fields =>
      rw [hfields] at hparse
      obtain rfl : result = .ok () := congrArg Prod.fst hparse
      have hafter := after_le_of_parseFields hfields
      have hordered := h.precedes_of_after_le (hlen ▸ hafter)
      have hle := finish_le hordered (behind_zero header) (Nat.zero_le _) hafter
      have hge := le_finish 0 header.fields
      rw [length_bytes_eq_finish]
      refine ⟨hlen, ?_⟩
      have hsize : size ⟨header.fields⟩ = header.size := rfl
      omega
  · cases congrArg Prod.fst hparse

end Arranged

/-- A header to which fields were added reads a byte string if and only if that has the header's
size and no byte of the header is without a field.  What it reads it writes back, and every header
of its layout reads the header's own bytes as that header. -/
theorem parses_iff_covered (header : Header) (h : header.Built) :
    (∀ data, (∃ parsed, header.parse data = (.ok (), parsed)) ↔
      data.length = header.size ∧ header.bytes.length = header.size) ∧
    (header.bytes.length = header.size ↔ header.Covers) ∧
    (∀ data parsed, header.parse data = (.ok (), parsed) → parsed.bytes = data) ∧
    (header.bytes.length = header.size → ∀ other : Header, other.layout = header.layout →
      other.parse header.bytes = (.ok (), header)) ∧
    (¬header.Covers → ∀ data parsed, header.parse data ≠ (.ok (), parsed)) ∧
    ∀ data, data.length ≠ header.size →
      header.parse data = (.error (.lengthMismatch header.size data.length), header) := by
  have harranged := h.arranged
  refine ⟨fun data => ⟨?_, ?_⟩, harranged.length_bytes_iff, fun data parsed hparse => ?_,
    fun hfull other hl => ?_, fun hgap data parsed hparse => ?_, fun data hlen => ?_⟩
  · rintro ⟨parsed, hparse⟩
    exact harranged.length_bytes_of_parse hparse
  · rintro ⟨hlen, hfull⟩
    obtain ⟨parsed, hparse, _⟩ := (harranged.contiguous_iff.mpr hfull).parse hlen
    exact ⟨parsed, hparse⟩
  · obtain ⟨hlen, hfull⟩ := harranged.length_bytes_of_parse hparse
    obtain ⟨read, hread, _, _, hbytes⟩ := (harranged.contiguous_iff.mpr hfull).parse hlen
    rw [hparse] at hread
    rw [(Prod.mk.inj hread).2, hbytes]
  · have hc := harranged.contiguous_iff.mpr hfull
    have hsize : other.size = header.size := size_eq_of_layout_eq hl
    obtain ⟨read, hread, hl', hf, hbytes⟩ := Contiguous.parse (hl ▸ hc) (hfull.trans hsize.symm)
    rw [hread, hc.eq_of_bytes_eq (hl'.trans hl) harranged.fits hf hbytes.symm]
  · exact hgap (harranged.length_bytes_iff.mp (harranged.length_bytes_of_parse hparse).2)
  · rw [parse, if_neg hlen]

/-- Two words around an empty field that stands at the start of the one in front. -/
def aroundEmpty : Header :=
  ⟨[⟨.operation, 0, 1, 0x0A⟩, ⟨.totalLength, 1, 2, 5⟩, ⟨.reserved, 1, 0, 0⟩,
    ⟨.address, 3, 2, 0x2000⟩]⟩

/-- A byte behind a gap. -/
def behindGap : Header := ⟨[⟨.operation, 1, 1, 0⟩]⟩

private theorem built_aroundEmpty : aroundEmpty.Built := by
  have hblank : Header.Built ⟨[⟨.operation, 0, 1, 0⟩, ⟨.totalLength, 1, 2, 0⟩, ⟨.reserved, 1, 0, 0⟩,
      ⟨.address, 3, 2, 0⟩]⟩ := by
    have haddress : Header.Built ⟨[⟨.address, 3, 2, 0⟩]⟩ := .add .address 3 2 .empty rfl
    have hlength : Header.Built ⟨[⟨.totalLength, 1, 2, 0⟩, ⟨.address, 3, 2, 0⟩]⟩ :=
      .add .totalLength 1 2 haddress rfl
    exact (hlength.add .reserved 1 0 rfl).add .operation 0 1 rfl
  exact hblank.holding rfl (by decide)

private theorem built_behindGap : behindGap.Built :=
  .add .operation 1 1 .empty rfl

/-- An empty field keeps nothing from being read, and a byte behind a gap is never read. -/
theorem parses_aroundEmpty_not_behindGap :
    aroundEmpty.Built ∧ behindGap.Built ∧
    (∃ parsed, aroundEmpty.parse [0x09, 0, 7, 0x10, 0] = (.ok (), parsed)) ∧
    aroundEmpty.Covers ∧ ¬behindGap.Covers ∧
    (∀ data parsed, behindGap.parse data ≠ (.ok (), parsed)) := by
  have hcovers := (parses_iff_covered aroundEmpty built_aroundEmpty).2.1.mp rfl
  have hgap : ¬behindGap.Covers := fun h =>
    absurd ((parses_iff_covered behindGap built_behindGap).2.1.mpr h) (by decide)
  exact ⟨built_aroundEmpty, built_behindGap,
    ((parses_iff_covered aroundEmpty built_aroundEmpty).1 _).mpr ⟨rfl, rfl⟩, hcovers, hgap,
    (parses_iff_covered behindGap built_behindGap).2.2.2.2.1 hgap⟩

end TuningBridge.Header
