import TuningBridge.Family
import TuningBridge.Proofs.Action
import TuningBridge.Proofs.Arrangement
import TuningBridge.Proofs.Assignment

/-!
# Edited headers

Whatever is done to a header, whether it succeeds or fails, the header stays arranged: only an
addition can change its layout, and only one that puts a field of a new name between fields that it
does not overlap.  Storing, reading and copying may stop part way, but they change values only, and
only to values that fit.  Fields that end at offsets never share a byte; of a field that reaches the
last offset the end starts over, and others may be put onto it.
-/

namespace TuningBridge

/-- One field holds the place of another, with a value that fits. -/
structure Field.Refills (field changed : Field) : Prop where
  name : changed.name = field.name
  offset : changed.offset = field.offset
  size : changed.size = field.size
  fits : changed.value.toNat < 256 ^ changed.size

namespace Field

variable {field changed : Field}

/-- A number that is stored fits. -/
theorem refills_set {value : UInt64} (h : field.set value = .ok changed) :
    field.Refills changed := by
  simp only [set, Bytes.one_shiftLeft] at h
  split at h
  · next hlt =>
    obtain rfl := Except.ok.inj h
    exact ⟨rfl, rfl, rfl, hlt⟩
  · cases h

/-- The number that a byte string of the right length writes fits. -/
theorem refills_setBytes {data : Bytes} (h : field.setBytes data = .ok changed) :
    field.Refills changed := by
  simp only [setBytes] at h
  split at h
  · next hlength =>
    obtain rfl := Except.ok.inj h
    exact ⟨rfl, rfl, rfl, hlength ▸ Bytes.toNat_toWord_lt data⟩
  · cases h

/-- No byte belongs to both of two fields. -/
def Apart (field other : Field) : Prop :=
  ∀ index,
    ¬((field.offset ≤ index ∧ index < field.after) ∧ other.offset ≤ index ∧ index < other.after)

end Field

namespace Header

/-- What is done to a header. -/
inductive Edit
  | add (name : FieldName) (offset size : Nat)
  | addField (field : Field) (made : field.Made)
  | set (name : FieldName) (value : UInt64)
  | setBytes (name : FieldName) (data : Bytes)
  | parse (data : Bytes)
  | copyFrom (template : Header)

/-- The field that an edit adds, or why it cannot be made; other edits add none. -/
def Edit.addition? : Edit → Option (Except Error Field)
  | add name offset size => some (Field.make name offset size)
  | addField field _ => some (.ok field)
  | _ => none

/-- The header behind an edit that changes it only if it succeeds. -/
def settle (header : Header) : Except Error Header → Except Error Unit × Header
  | .ok changed => (.ok (), changed)
  | .error error => (.error error, header)

/-- What holds of a header, and of the one that an edit makes of it, holds behind the edit. -/
theorem holds_settle (holds : Header → Prop) {header : Header} {result : Except Error Header}
    (hbefore : holds header) (hchanged : ∀ changed, result = .ok changed → holds changed) :
    holds (header.settle result).2 := by
  cases result with
  | ok changed => exact hchanged changed rfl
  | error error => exact hbefore

/-- Do something to a header; the header is what it is afterwards, on a failure too. -/
def edit (header : Header) : Edit → Except Error Unit × Header
  | .add name offset size => header.settle (header.add name offset size)
  | .addField field _ => header.settle (header.addField field)
  | .set name value => header.settle (header.set name value)
  | .setBytes name data => header.settle (header.setBytes name data)
  | .parse data => header.parse data
  | .copyFrom template => header.copyFrom template

/-- The header behind edits, one after the other, each of which may fail. -/
def edited (header : Header) (edits : List Edit) : Header :=
  edits.foldl (fun header edit => (header.edit edit).2) header

/-- The headers that edits start from: one without fields, and those of the families. -/
inductive Given : Header → Prop
  | empty : Given empty
  | blank {family : Family} {operation : Operation} {header : Header} :
      family.blankHeader operation = .ok header → header.Given
  | filled {family : Family} {code : UInt8} {template : Option Header} {header : Header} :
      family.headerOfCode code template = .ok header → header.Given

/-- A header has the layout of another, and its values fit if those of the other do. -/
structure Keeps (before after : Header) : Prop where
  layout : after.layout = before.layout
  fits : before.Fits → after.Fits

namespace Keeps

variable {before middle after : Header}

protected theorem refl (header : Header) : header.Keeps header := ⟨rfl, id⟩

protected theorem trans (first : before.Keeps middle) (second : middle.Keeps after) :
    before.Keeps after :=
  ⟨second.layout.trans first.layout, second.fits ∘ first.fits⟩

theorem cons {fields changed : List Field} (field : Field) (h : Keeps ⟨fields⟩ ⟨changed⟩) :
    Keeps ⟨field :: fields⟩ ⟨field :: changed⟩ where
  layout := by rw [layout_cons, layout_cons, h.layout]
  fits hf := fits_cons.mpr ⟨(fits_cons.mp hf).1, h.fits (fits_cons.mp hf).2⟩

theorem refill {field other : Field} {fields changed : List Field} (hfield : field.Refills other)
    (h : Keeps ⟨fields⟩ ⟨changed⟩) : Keeps ⟨field :: fields⟩ ⟨other :: changed⟩ where
  layout := by rw [layout_cons, layout_cons, h.layout, hfield.name, hfield.offset, hfield.size]
  fits hf := fits_cons.mpr ⟨hfield.fits, h.fits (fits_cons.mp hf).2⟩

end Keeps

section Values

variable {header changed : Header} {name : FieldName}

/-- A change that refills a field keeps the header. -/
private theorem keeps_modifyField {change : Field → Except Error Field}
    {fields changed : List Field}
    (hchange : ∀ field other, change field = .ok other → field.Refills other)
    (h : modifyField name change fields = .ok changed) : Keeps ⟨fields⟩ ⟨changed⟩ := by
  induction fields generalizing changed with
  | nil => cases h
  | cons field rest ih =>
    rw [modifyField] at h
    split at h
    · obtain ⟨other, hfield, rfl⟩ := Actions.exists_of_map_eq_ok h
      exact .refill (hchange field other hfield) (.refl _)
    · obtain ⟨others, hrest, rfl⟩ := Actions.exists_of_map_eq_ok h
      exact (ih hrest).cons field

/-- A change of one field that succeeds is one of the list of fields. -/
private theorem keeps_of_map_modifyField {change : Field → Except Error Field}
    (hchange : ∀ field other, change field = .ok other → field.Refills other)
    (h : (modifyField name change header.fields).map Header.mk = .ok changed) :
    header.Keeps changed := by
  obtain ⟨fields, hfields, rfl⟩ := Actions.exists_of_map_eq_ok h
  exact keeps_modifyField hchange hfields

theorem keeps_set {value : UInt64} (h : header.set name value = .ok changed) :
    header.Keeps changed :=
  keeps_of_map_modifyField (fun _ _ => Field.refills_set) h

theorem keeps_setBytes {data : Bytes} (h : header.setBytes name data = .ok changed) :
    header.Keeps changed :=
  keeps_of_map_modifyField (fun _ _ => Field.refills_setBytes) h

/-- What was copied up to a failure fits. -/
theorem keeps_copyFields (header : Header) (template : List Field) :
    header.Keeps (header.copyFields template).2 := by
  induction template generalizing header with
  | nil => exact .refl header
  | cons source rest ih =>
    rw [copyFields]
    split
    · split
      · next next hset => exact (keeps_set hset).trans (ih next)
      · exact .refl header
    · exact ih header

/-- What was read up to a failure fits. -/
private theorem keeps_parseFields (data : Bytes) (fields : List Field) :
    Keeps ⟨fields⟩ ⟨(parseFields data fields).2⟩ := by
  induction fields with
  | nil => exact .refl _
  | cons field rest ih =>
    rw [parseFields]
    split
    · next hafter =>
      have hlength : ((data.drop field.offset).take field.size).length = field.size := by
        rw [Field.after] at hafter
        simp only [List.length_take, List.length_drop]
        omega
      refine .refill ⟨rfl, rfl, rfl, ?_⟩ ih
      simpa only [hlength] using Bytes.toNat_toWord_lt ((data.drop field.offset).take field.size)
    · exact .refl _

theorem keeps_parse (header : Header) (data : Bytes) : header.Keeps (header.parse data).2 := by
  rw [parse]
  split
  · exact keeps_parseFields data header.fields
  · exact .refl header

/-- An edit that adds no field keeps the header. -/
theorem keeps_edit {edit : Edit} (h : edit.addition? = none) :
    header.Keeps (header.edit edit).2 := by
  cases edit with
  | add name offset size => cases h
  | addField field made => cases h
  | set name value => exact holds_settle header.Keeps (.refl header) fun _ => keeps_set
  | setBytes name data => exact holds_settle header.Keeps (.refl header) fun _ => keeps_setBytes
  | parse data => exact header.keeps_parse data
  | copyFrom template => exact header.keeps_copyFields template.fields

end Values

section Additions

variable {header : Header}

end Additions

namespace Arranged

variable {header : Header}

/-- An edit keeps a header arranged, whether it succeeds or fails. -/
theorem edit (h : header.Arranged) (edit : Edit) : (header.edit edit).2.Arranged := by
  have hkept : edit.addition? = none → (header.edit edit).2.Arranged := fun hnone =>
    h.holding (keeps_edit hnone).layout ((keeps_edit hnone).fits h.fits)
  cases edit with
  | add name offset size => exact holds_settle Arranged h fun _ => h.add
  | addField field made => exact holds_settle Arranged h fun _ => h.addField made
  | set name value => exact hkept rfl
  | setBytes name data => exact hkept rfl
  | parse data => exact hkept rfl
  | copyFrom template => exact hkept rfl

/-- Edits keep a header arranged, each of them. -/
theorem edited (h : header.Arranged) (edits : List Edit) : (header.edited edits).Arranged := by
  induction edits generalizing header with
  | nil => exact h
  | cons edit rest ih => exact ih (h.edit edit)

/-- Adding the fields of a layout keeps a header arranged. -/
private theorem foldlM_add {entries : List (FieldName × Nat × Nat)} {extended : Header}
    (h : header.Arranged)
    (hadd : entries.foldlM (fun header (name, offset, size) => header.add name offset size) header =
      .ok extended) : extended.Arranged := by
  induction entries generalizing header with
  | nil => exact Except.ok.inj hadd ▸ h
  | cons entry rest ih =>
    obtain ⟨name, offset, size⟩ := entry
    rw [List.foldlM_cons] at hadd
    obtain ⟨next, hfirst, hrest⟩ := Actions.exists_of_bind_eq_ok hadd
    exact ih (h.add hfirst) hrest

end Arranged

/-- The header that a first byte selects is a blank one after edits. -/
private theorem exists_edits_of_headerOfCode {family : Family} {code : UInt8}
    {template : Option Header} {header : Header}
    (h : family.headerOfCode code template = .ok header) :
    ∃ operation blank edits, family.blankHeader operation = .ok blank ∧
      blank.edited edits = header := by
  rw [Family.headerOfCode] at h
  obtain ⟨operation, -, h⟩ := Actions.exists_of_bind_eq_ok h
  obtain ⟨blank, hblank, h⟩ := Actions.exists_of_bind_eq_ok h
  cases template with
  | none =>
    have hset : blank.set .operation code.toUInt64 = .ok header := h
    refine ⟨operation, blank, [.set .operation code.toUInt64], hblank, ?_⟩
    simp only [edited, List.foldl_cons, List.foldl_nil, edit, hset, settle]
  | some source =>
    dsimp only at h
    cases hcopy : blank.copyFrom source with
    | mk result filled =>
      rw [hcopy] at h
      cases result with
      | error error => cases h
      | ok done =>
        have hset : filled.set .operation code.toUInt64 = .ok header := h
        refine ⟨operation, blank, [.copyFrom source, .set .operation code.toUInt64], hblank, ?_⟩
        simp only [edited, List.foldl_cons, List.foldl_nil, edit, hcopy, hset, settle]

/-- The headers that edits start from are arranged. -/
theorem Given.arranged {header : Header} (h : header.Given) : header.Arranged := by
  cases h with
  | empty => exact .empty
  | blank hblank => exact Arranged.empty.foldlM_add hblank
  | filled hfilled =>
    obtain ⟨operation, blank, edits, hblank, rfl⟩ := exists_edits_of_headerOfCode hfilled
    exact (Arranged.empty.foldlM_add hblank).edited edits

/-- Edits of which most fail: a field is added, another one overlaps, a byte string is too short,
and of two values to copy the second does not fit. -/
def partway : List Edit :=
  [.add .reserved 8 3, .add .channel 7 1, .setBytes .dataLength [4],
    .copyFrom ⟨[⟨.address, 0, 2, 0x2000⟩, ⟨.reserved, 2, 8, 0x1000000⟩]⟩]

end Header

end TuningBridge
