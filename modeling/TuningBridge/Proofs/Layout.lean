import TuningBridge.Family
import TuningBridge.Proofs.Numeral

/-!
# Contiguous headers

In a contiguous layout every field starts right behind the fields before it; only an empty field may
stand further in front.  There reading and writing undo each other: as many bytes as the fields hold
are always accepted, what is read has the same layout and values that fit, and writing it gives the
bytes back.  Two headers of one contiguous layout whose values fit are told apart by their bytes.
The layouts of packets are gapless: there every field starts exactly where the field before it ends.
-/

namespace TuningBridge.Header

/-- The names, offsets and sizes of the fields. -/
def layout (header : Header) : List (FieldName × Nat × Nat) :=
  header.fields.map fun field => (field.name, field.offset, field.size)

/-- Every value fits the width of its field. -/
def Fits (header : Header) : Prop :=
  ∀ field ∈ header.fields, field.value.toNat < 256 ^ field.size

instance (header : Header) : Decidable header.Fits :=
  inferInstanceAs (Decidable (∀ field ∈ header.fields, field.value.toNat < 256 ^ field.size))

/-- Fields cover the bytes from `start` on, one right behind the other and none wider than a
word. -/
def gapless : (start : Nat) → List (FieldName × Nat × Nat) → Bool
  | _, [] => true
  | start, (_, offset, size) :: rest =>
    offset == start && decide (size ≤ Field.maxSize) && gapless (start + size) rest

/-- Fields cover the bytes from `start` on and are none wider than a word: each one starts right
behind the fields before it, or is empty and starts no later than that. -/
def Contiguous : (start : Nat) → List (FieldName × Nat × Nat) → Prop
  | _, [] => True
  | start, (_, offset, size) :: rest =>
    (offset = start ∨ offset ≤ start ∧ size = 0) ∧ size ≤ Field.maxSize ∧
    Contiguous (start + size) rest

/-- The number in the field of a name, zero where there is no such field. -/
def number (header : Header) (name : FieldName) : Nat :=
  ((header.get? name).map (·.value.toNat)).getD 0

/-- Fill consecutive fields from the bytes in front. -/
def fillFrom : Bytes → List Field → List Field
  | _, [] => []
  | data, field :: rest =>
    { field with value := Bytes.toWord (data.take field.size) } ::
      fillFrom (data.drop field.size) rest

/-- The header of a layout that holds values given by name. -/
def ofValues (entries : List (FieldName × Nat × Nat)) (value : FieldName → UInt64) : Header :=
  ⟨entries.map fun (name, offset, size) => ⟨name, offset, size, value name⟩⟩

@[simp] theorem layout_nil : layout ⟨[]⟩ = [] := rfl

@[simp] theorem layout_cons (field : Field) (rest : List Field) :
    layout ⟨field :: rest⟩ = (field.name, field.offset, field.size) :: layout ⟨rest⟩ := rfl

@[simp] theorem size_nil : size ⟨[]⟩ = 0 := rfl

@[simp] theorem size_cons (field : Field) (rest : List Field) :
    size ⟨field :: rest⟩ = field.size + size ⟨rest⟩ := rfl

/-- The size of a header is that of its layout. -/
theorem size_eq_foldr (header : Header) :
    header.size = header.layout.foldr (fun (_, _, size) total => size + total) 0 := by
  rw [layout, List.foldr_map]
  rfl

/-- Headers of one layout hold the same number of bytes. -/
theorem size_eq_of_layout_eq {header other : Header} (h : other.layout = header.layout) :
    other.size = header.size := by
  rw [size_eq_foldr, h, ← size_eq_foldr]

/-- Fields are contiguous if the first one starts at the start and the others behind it. -/
theorem contiguous_cons {start : Nat} {field : Field} {rest : List Field} :
    Contiguous start (layout ⟨field :: rest⟩) ↔
      (field.offset = start ∨ field.offset ≤ start ∧ field.size = 0) ∧ field.size ≤ 8 ∧
        Contiguous (start + field.size) (layout ⟨rest⟩) :=
  Iff.rfl

/-- A layout without gaps or empty fields out of their place is contiguous. -/
theorem contiguous_of_gapless {start : Nat} {entries : List (FieldName × Nat × Nat)}
    (hg : gapless start entries = true) : Contiguous start entries := by
  induction entries generalizing start with
  | nil => trivial
  | cons entry rest ih =>
    simp only [gapless, Bool.and_eq_true, beq_iff_eq, decide_eq_true_eq] at hg
    exact ⟨.inl hg.1.1, hg.1.2, ih hg.2⟩

theorem fits_cons {field : Field} {rest : List Field} :
    Fits ⟨field :: rest⟩ ↔ field.value.toNat < 256 ^ field.size ∧ Fits ⟨rest⟩ := by
  simp [Fits]

/-- Fields write as many bytes as they hold. -/
theorem length_flatMap_bytes (fields : List Field) :
    (fields.flatMap Field.bytes).length = size ⟨fields⟩ := by
  induction fields with
  | nil => rfl
  | cons field rest ih =>
    rw [List.flatMap_cons, List.length_append, ih, Field.bytes, Bytes.length_ofNat, size_cons]

/-- Filling changes values only. -/
theorem layout_fillFrom (data : Bytes) (fields : List Field) :
    layout ⟨fillFrom data fields⟩ = layout ⟨fields⟩ := by
  induction fields generalizing data with
  | nil => rfl
  | cons field rest ih => rw [fillFrom, layout_cons, layout_cons, ih]

/-- Reading contiguous fields fills them one after the other. -/
private theorem parseFields_eq_fillFrom {start : Nat} {fields : List Field} {data : Bytes}
    (hc : Contiguous start (layout ⟨fields⟩)) (hlen : start + size ⟨fields⟩ ≤ data.length) :
    parseFields data fields = (.ok (), fillFrom (data.drop start) fields) := by
  induction fields generalizing start with
  | nil => rfl
  | cons field rest ih =>
    obtain ⟨hplace, _, hrest⟩ := contiguous_cons.mp hc
    rw [size_cons] at hlen
    have hafter : field.after ≤ data.length := by
      rw [Field.after]
      omega
    have hslice : (data.drop field.offset).take field.size = (data.drop start).take field.size := by
      rcases hplace with hoffset | ⟨_, hempty⟩
      · rw [hoffset]
      · rw [hempty, List.take_zero, List.take_zero]
    simp only [parseFields, hafter, ite_true, ih hrest (by omega), fillFrom, List.drop_drop, hslice]

/-- Fields that were filled write what they were filled with. -/
private theorem flatMap_bytes_fillFrom {start : Nat} {fields : List Field} {data : Bytes}
    (hc : Contiguous start (layout ⟨fields⟩)) (hlen : size ⟨fields⟩ ≤ data.length) :
    (fillFrom data fields).flatMap Field.bytes = data.take (size ⟨fields⟩) := by
  induction fields generalizing start data with
  | nil => simp [fillFrom]
  | cons field rest ih =>
    obtain ⟨_, hsize, hrest⟩ := contiguous_cons.mp hc
    rw [size_cons] at hlen ⊢
    have htake : (data.take field.size).length = field.size := by
      rw [List.length_take]
      omega
    have hfirst : Field.bytes { field with value := Bytes.toWord (data.take field.size) } =
        data.take field.size := by
      have hshort : (data.take field.size).length ≤ 8 := by omega
      rw [Field.bytes]
      simpa only [htake] using Bytes.ofNat_toWord hshort
    rw [fillFrom, List.flatMap_cons, hfirst, ih hrest (by rw [List.length_drop]; omega),
      List.take_add]

/-- What fields are filled with fits. -/
private theorem fits_fillFrom {start : Nat} {fields : List Field} {data : Bytes}
    (hc : Contiguous start (layout ⟨fields⟩)) (hlen : size ⟨fields⟩ ≤ data.length) :
    Fits ⟨fillFrom data fields⟩ := by
  induction fields generalizing start data with
  | nil => simp [fillFrom, Fits]
  | cons field rest ih =>
    obtain ⟨_, _, hrest⟩ := contiguous_cons.mp hc
    rw [size_cons] at hlen
    have htake : (data.take field.size).length = field.size := by
      rw [List.length_take]
      omega
    refine fits_cons.mpr ⟨?_, ih hrest (by rw [List.length_drop]; omega)⟩
    simpa only [htake] using Bytes.toNat_toWord_lt (data.take field.size)

/-- Filling fields of a layout from the bytes of fitting fields recovers those. -/
private theorem fillFrom_flatMap_bytes {start : Nat} {fields others : List Field} (rest : Bytes)
    (hl : layout ⟨others⟩ = layout ⟨fields⟩) (hc : Contiguous start (layout ⟨fields⟩))
    (hf : Fits ⟨fields⟩) : fillFrom (fields.flatMap Field.bytes ++ rest) others = fields := by
  induction fields generalizing start others with
  | nil =>
    cases others with
    | nil => rfl
    | cons other rest => simp at hl
  | cons field fields ih =>
    cases others with
    | nil => simp at hl
    | cons other others =>
      simp only [layout_cons, List.cons.injEq, Prod.mk.injEq] at hl
      obtain ⟨⟨hname, hoffset, hsize⟩, hl⟩ := hl
      obtain ⟨_, hle, hc⟩ := contiguous_cons.mp hc
      obtain ⟨hvalue, hf⟩ := fits_cons.mp hf
      have hlen : field.bytes.length = other.size := by rw [Field.bytes, Bytes.length_ofNat, hsize]
      have hword : Bytes.toWord field.bytes = field.value := Bytes.toWord_ofNat hle hvalue
      rw [fillFrom, List.flatMap_cons, List.append_assoc, ← hlen, List.take_left, List.drop_left,
        ih hl hc hf, hword, hlen, hname, hoffset, hsize]

/-- Contiguous fields are written one behind the other, without zeros between them. -/
private theorem foldl_bytes {start : Nat} {fields : List Field} {written : Bytes}
    (hc : Contiguous start (layout ⟨fields⟩)) (hlen : written.length = start) :
    fields.foldl (fun written field =>
      written ++ Bytes.zeros (field.offset - written.length) ++ field.bytes) written =
        written ++ fields.flatMap Field.bytes := by
  induction fields generalizing start written with
  | nil => simp
  | cons field rest ih =>
    obtain ⟨hplace, _, hrest⟩ := contiguous_cons.mp hc
    have hzeros : Bytes.zeros (field.offset - written.length) = [] := by
      have hno : field.offset - written.length = 0 := by omega
      rw [hno]
      rfl
    have hwritten : (written ++ field.bytes).length = start + field.size := by
      rw [List.length_append, hlen, Field.bytes, Bytes.length_ofNat]
    rw [List.foldl_cons, hzeros, List.append_nil, ih hrest hwritten, List.flatMap_cons,
      List.append_assoc]

section Lookup

variable {header other : Header} {name : FieldName} {offset size : Nat}

theorem get?_cons (field : Field) (rest : List Field) (name : FieldName) :
    get? ⟨field :: rest⟩ name = if field.name = name then some field else get? ⟨rest⟩ name := by
  by_cases h : field.name = name <;> simp [get?, h]

theorem name_of_get? {header : Header} {name : FieldName} {field : Field}
    (h : header.get? name = some field) : field.name = name := by
  simpa using List.find?_some h

/-- The names in a layout are those of the header. -/
theorem map_fst_layout (header : Header) :
    header.layout.map Prod.fst = header.fields.map (·.name) := by
  rw [layout, List.map_map]
  rfl

/-- A field that is found stands in the layout. -/
theorem mem_layout_of_get? {field : Field} (h : header.get? name = some field) :
    (name, field.offset, field.size) ∈ header.layout :=
  List.mem_map.mpr ⟨field, List.mem_of_find?_eq_some h, by rw [name_of_get? h]⟩

/-- Where no name occurs twice every field is found by its name. -/
theorem get?_of_mem {field : Field} (hmem : field ∈ header.fields)
    (hnodup : (header.layout.map Prod.fst).Nodup) : header.get? field.name = some field := by
  rw [map_fst_layout] at hnodup
  obtain ⟨fields⟩ := header
  induction fields with
  | nil => cases hmem
  | cons first rest ih =>
    obtain ⟨hfirst, hnodup⟩ := List.nodup_cons.mp hnodup
    rw [get?_cons]
    rcases List.mem_cons.mp hmem with rfl | hrest
    · rw [if_pos rfl]
    · have hne : first.name ≠ field.name :=
        fun h => hfirst (List.mem_map.mpr ⟨field, hrest, h.symm⟩)
      rw [if_neg hne, ih hrest hnodup]

/-- A number of a header is a word. -/
theorem toNat_ofNat_number (header : Header) (name : FieldName) :
    (UInt64.ofNat (header.number name)).toNat = header.number name := by
  rw [number]
  cases header.get? name with
  | none => rfl
  | some field => rw [Option.map_some, Option.getD_some, UInt64.ofNat_toNat]

/-- A name of the layout is found with its offset and size. -/
theorem get?_of_mem_layout (hmem : (name, offset, size) ∈ header.layout)
    (hnodup : (header.layout.map Prod.fst).Nodup) :
    ∃ value, header.get? name = some ⟨name, offset, size, value⟩ := by
  obtain ⟨field, hfield, heq⟩ := List.mem_map.mp hmem
  obtain ⟨rfl, rfl, rfl⟩ : field.name = name ∧ field.offset = offset ∧ field.size = size := by
    simpa using heq
  exact ⟨field.value, get?_of_mem hfield hnodup⟩

/-- Headers of one layout are equal if they hold the same fields. -/
theorem ext_get? (hl : header.layout = other.layout) (hnodup : (header.layout.map Prod.fst).Nodup)
    (h : ∀ name, header.get? name = other.get? name) : header = other := by
  have hnodup' : (other.layout.map Prod.fst).Nodup := hl ▸ hnodup
  have hlength : header.fields.length = other.fields.length := by
    simpa [layout] using congrArg List.length hl
  refine congrArg Header.mk (List.ext_getElem hlength fun index hleft hright => ?_)
  have hname : header.fields[index].name = other.fields[index].name := by
    have hentry := congrArg (·[index]?) hl
    simp only [layout, List.getElem?_map, List.getElem?_eq_getElem hleft,
      List.getElem?_eq_getElem hright, Option.map_some, Option.some.injEq, Prod.mk.injEq] at hentry
    exact hentry.1
  have hget := get?_of_mem (List.getElem_mem hleft) hnodup
  rw [h, hname, get?_of_mem (List.getElem_mem hright) hnodup'] at hget
  exact (Option.some.inj hget).symm

/-- A header that is made for a layout has it. -/
theorem layout_ofValues (entries : List (FieldName × Nat × Nat)) (value : FieldName → UInt64) :
    (ofValues entries value).layout = entries := by
  rw [layout, ofValues, List.map_map]
  exact List.map_id entries

/-- Values given by name are found where a header of the layout holds its own. -/
theorem get?_ofValues (value : FieldName → UInt64) (header : Header) (name : FieldName) :
    (ofValues header.layout value).get? name =
      (header.get? name).map ({ · with value := value name }) := by
  obtain ⟨fields⟩ := header
  induction fields with
  | nil => rfl
  | cons field rest ih =>
    rw [layout_cons, ofValues, List.map_cons, get?_cons, get?_cons]
    by_cases hname : field.name = name
    · simp [hname]
    · rw [if_neg hname, if_neg hname]
      exact ih

/-- The number in a field of the layout is what the field holds, and it fits. -/
theorem number_of_mem_layout (hmem : (name, offset, size) ∈ header.layout)
    (hnodup : (header.layout.map Prod.fst).Nodup) (hf : header.Fits) :
    (∃ value : UInt64, header.value name = .ok value ∧ value.toNat = header.number name) ∧
      header.number name < 256 ^ size := by
  obtain ⟨value, h⟩ := get?_of_mem_layout hmem hnodup
  have hfield := hf _ (List.mem_of_find?_eq_some h)
  have hnumber : header.number name = value.toNat := by simp [number, h]
  exact ⟨⟨value, by simp [Header.value, h], hnumber.symm⟩, by rwa [hnumber]⟩

end Lookup

namespace Contiguous

variable {header : Header}

/-- Where fields are contiguous the bytes of a header are the bytes of its fields. -/
theorem bytes_eq_flatMap (hc : Contiguous 0 header.layout) :
    header.bytes = header.fields.flatMap Field.bytes :=
  foldl_bytes hc rfl

/-- A contiguous header reads every byte string of its length, and writes back what it read. -/
theorem parse (hc : Contiguous 0 header.layout) {data : Bytes} (hlen : data.length = header.size) :
    ∃ parsed, header.parse data = (.ok (), parsed) ∧ parsed.layout = header.layout ∧ parsed.Fits ∧
      parsed.bytes = data := by
  have hle : size ⟨header.fields⟩ ≤ data.length := hlen.ge
  have hlayout : layout ⟨fillFrom data header.fields⟩ = header.layout := layout_fillFrom _ _
  refine ⟨⟨fillFrom data header.fields⟩, ?_, hlayout, fits_fillFrom hc hle, ?_⟩
  · have hparse : parseFields data header.fields = (.ok (), fillFrom (data.drop 0) header.fields) :=
      parseFields_eq_fillFrom hc (by rwa [Nat.zero_add])
    simp only [Header.parse, hlen, ite_true, hparse, List.drop_zero]
  · rw [bytes_eq_flatMap (hlayout.symm ▸ hc), flatMap_bytes_fillFrom hc hle, ← hlen,
      List.take_length]

/-- In one contiguous layout the bytes determine the values. -/
theorem eq_of_bytes_eq {other : Header} (hc : Contiguous 0 header.layout)
    (hl : other.layout = header.layout) (hf : header.Fits) (hf' : other.Fits)
    (h : header.bytes = other.bytes) : header = other := by
  have hc' : Contiguous 0 other.layout := hl ▸ hc
  have hself := fillFrom_flatMap_bytes [] rfl hc' hf'
  have hfill := fillFrom_flatMap_bytes [] hl hc hf
  rw [← bytes_eq_flatMap hc, h, bytes_eq_flatMap hc', hself] at hfill
  exact congrArg Header.mk hfill.symm

end Contiguous

section Gapless

variable {header : Header}

/-- Without gaps the bytes of a header are the bytes of its fields. -/
theorem bytes_eq_flatMap (hg : gapless 0 header.layout = true) :
    header.bytes = header.fields.flatMap Field.bytes :=
  (contiguous_of_gapless hg).bytes_eq_flatMap

/-- Without gaps a header is as long as its fields together. -/
theorem length_bytes (hg : gapless 0 header.layout = true) : header.bytes.length = header.size := by
  rw [bytes_eq_flatMap hg, length_flatMap_bytes]

/-- A gapless header reads every byte string of its length, and writes back what it read. -/
theorem parse_gapless (hg : gapless 0 header.layout = true) {data : Bytes}
    (hlen : data.length = header.size) :
    ∃ parsed, header.parse data = (.ok (), parsed) ∧ parsed.layout = header.layout ∧ parsed.Fits ∧
      parsed.bytes = data :=
  (contiguous_of_gapless hg).parse hlen

/-- In one gapless layout the bytes determine the values. -/
theorem eq_of_bytes_eq {other : Header} (hg : gapless 0 header.layout = true)
    (hl : other.layout = header.layout) (hf : header.Fits) (hf' : other.Fits)
    (h : header.bytes = other.bytes) : header = other :=
  (contiguous_of_gapless hg).eq_of_bytes_eq hl hf hf' h

end Gapless

end TuningBridge.Header
