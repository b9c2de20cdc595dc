import TuningBridge.Proofs.Action
import TuningBridge.Proofs.Layout

/-!
# Arranged headers

A header to which fields were added one after the other has unique names, and its fields stand in
the order of their offsets.  Fields are no wider than a word and hold values that fit, and two
fields share no byte if both end at an offset.  Adding a field keeps this up because a field that
overlaps another one is refused, and an inserted field goes behind all fields that do not start
later.  Fields that reach the last offset are left out: their ends start over, and what they overlap
is not what they share bytes with.
-/

namespace TuningBridge

/-- A field that can be made: its width is that of a word at most, and its value was put there by
one of the two ways to set it. -/
inductive Field.Made : Field → Prop
  | make {name : FieldName} {offset size : Nat} {field : Field} :
      Field.make name offset size = .ok field → field.Made
  | set {field changed : Field} {value : UInt64} :
      field.Made → field.set value = .ok changed → changed.Made
  | setBytes {field changed : Field} {data : Bytes} :
      field.Made → field.setBytes data = .ok changed → changed.Made

/-- The byte after a field has an offset. -/
def Field.Bounded (field : Field) : Prop := field.after < Field.offsetCount

instance (field : Field) : Decidable field.Bounded :=
  inferInstanceAs (Decidable (field.after < Field.offsetCount))

namespace Field

/-- The end of a field does not start over. -/
theorem Bounded.limit_eq {field : Field} (h : field.Bounded) : field.limit = field.after :=
  Nat.mod_eq_of_lt h

/-- Of two fields that overlap nowhere, one ends before the other starts. -/
theorem clear_of_not_overlaps {field other : Field} (hfield : field.Bounded)
    (hother : other.Bounded) (h : field.overlaps other = false) :
    field.after ≤ other.offset ∨ other.after ≤ field.offset := by
  rw [overlaps, hfield.limit_eq, hother.limit_eq] at h
  simp only [Bool.and_eq_false_iff, decide_eq_false_iff_not] at h
  omega

end Field

namespace Field.Made

/-- No field that can be made is wider than a word. -/
theorem size_le {field : Field} (h : field.Made) : field.size ≤ maxSize := by
  induction h with
  | make h =>
    simp only [Field.make] at h
    split at h
    · cases h
    · obtain rfl := Except.ok.inj h
      dsimp only
      omega
  | set _ h ih =>
    simp only [Field.set] at h
    split at h
    · obtain rfl := Except.ok.inj h
      exact ih
    · cases h
  | setBytes _ h ih =>
    simp only [Field.setBytes] at h
    split at h
    · obtain rfl := Except.ok.inj h
      exact ih
    · cases h

/-- The value of a field that can be made fits. -/
theorem value_lt {field : Field} (h : field.Made) : field.value.toNat < 256 ^ field.size := by
  induction h with
  | make h =>
    simp only [Field.make] at h
    split at h
    · cases h
    · obtain rfl := Except.ok.inj h
      exact Nat.pow_pos (by decide)
  | set _ h ih =>
    simp only [Field.set, Bytes.one_shiftLeft] at h
    split at h
    · next hlt =>
      obtain rfl := Except.ok.inj h
      exact hlt
    · cases h
  | @setBytes field _ data _ h ih =>
    simp only [Field.setBytes] at h
    split at h
    · next hlen =>
      obtain rfl := Except.ok.inj h
      exact hlen ▸ Bytes.toNat_toWord_lt data
    · cases h

end Field.Made

namespace Header

/-- A header to which fields were added one after the other, with any values that fit in its fields
at any time. -/
inductive Built : Header → Prop
  | empty : Built empty
  | add {header extended : Header} (name : FieldName) (offset size : Nat) :
      header.Built → header.add name offset size = .ok extended → extended.Built
  | addField {header extended : Header} {field : Field} :
      header.Built → field.Made → header.addField field = .ok extended → extended.Built
  | holding {header changed : Header} :
      header.Built → changed.layout = header.layout → changed.Fits → changed.Built

/-- One range of bytes stands before another: it does not start later, and one of the two ends
before the other one starts. -/
def Precedes : FieldName × Nat × Nat → FieldName × Nat × Nat → Prop
  | (_, offset, size), (_, offset', size') =>
    offset ≤ offset' ∧ (offset + size ≤ offset' ∨ offset' + size' ≤ offset)

/-- One range of bytes was put before another: it does not start later, and it stands before the
other one if both end at an offset. -/
def PutBefore : FieldName × Nat × Nat → FieldName × Nat × Nat → Prop
  | (_, offset, size), (_, offset', size') =>
    offset ≤ offset' ∧ (offset + size < Field.offsetCount → offset' + size' < Field.offsetCount →
      offset + size ≤ offset' ∨ offset' + size' ≤ offset)

/-- Names are unique, fields stand in the order of their offsets and share no byte if they end at
offsets, and values fit fields that are no wider than a word. -/
structure Arranged (header : Header) : Prop where
  nodup : (header.layout.map Prod.fst).Nodup
  ordered : header.layout.Pairwise PutBefore
  narrow : ∀ field ∈ header.fields, field.size ≤ Field.maxSize
  fits : header.Fits

section Insertion

variable {field other : Field} {fields : List Field}

/-- A field is inserted among the others. -/
theorem perm_insertByOffset (field : Field) (fields : List Field) :
    (insertByOffset field fields).Perm (field :: fields) := by
  induction fields with
  | nil => rfl
  | cons first rest ih =>
    rw [insertByOffset]
    split
    · exact (ih.cons first).trans (.swap field first rest)
    · rfl

/-- The fields after an insertion are the new one and those that were there. -/
theorem mem_insertByOffset :
    other ∈ insertByOffset field fields ↔ other = field ∨ other ∈ fields := by
  rw [(perm_insertByOffset field fields).mem_iff, List.mem_cons]

/-- A relation between ranges holds along a header if it holds from the first field to all others,
and along those. -/
theorem pairwise_layout_cons {related : FieldName × Nat × Nat → FieldName × Nat × Nat → Prop} :
    (layout ⟨field :: fields⟩).Pairwise related ↔
      (∀ other ∈ fields, related (field.name, field.offset, field.size)
        (other.name, other.offset, other.size)) ∧
      (layout ⟨fields⟩).Pairwise related := by
  rw [layout_cons, List.pairwise_cons]
  simp only [layout, List.forall_mem_map]

/-- Fields that end at offsets stand one before the other where they were put. -/
theorem pairwise_precedes (hput : (layout ⟨fields⟩).Pairwise PutBefore)
    (hbounded : ∀ field ∈ fields, field.Bounded) : (layout ⟨fields⟩).Pairwise Precedes := by
  rw [layout, List.pairwise_map] at *
  refine hput.imp_of_mem fun hfirst hsecond h => ⟨h.1, ?_⟩
  exact h.2 (hbounded _ hfirst) (hbounded _ hsecond)

/-- A field that overlaps no other one is inserted without disturbing the order. -/
theorem pairwise_insertByOffset (hp : (layout ⟨fields⟩).Pairwise PutBefore)
    (hclear : ∀ other ∈ fields, other.overlaps field = false) :
    (layout ⟨insertByOffset field fields⟩).Pairwise PutBefore := by
  induction fields with
  | nil => simp [insertByOffset, layout]
  | cons first rest ih =>
    obtain ⟨hfirst, hrest⟩ := pairwise_layout_cons.mp hp
    have hclear' : ∀ other ∈ rest, other.overlaps field = false := fun other hother =>
      hclear other (List.mem_cons_of_mem _ hother)
    rw [insertByOffset]
    split
    · next hle =>
      refine pairwise_layout_cons.mpr ⟨fun other hother => ?_, ih hrest hclear'⟩
      rcases mem_insertByOffset.mp hother with rfl | hother
      · refine ⟨hle, fun hbounded hbounded' => ?_⟩
        exact Field.clear_of_not_overlaps hbounded hbounded' (hclear first List.mem_cons_self)
      · exact hfirst other hother
    · next hlt =>
      refine pairwise_layout_cons.mpr ⟨fun other hother => ?_, hp⟩
      have hle : first.offset ≤ other.offset := by
        rcases List.mem_cons.mp hother with rfl | hmem
        · exact le_rfl
        · exact (hfirst other hmem).1
      refine ⟨by omega, fun hbounded hbounded' => ?_⟩
      exact (Field.clear_of_not_overlaps hbounded' hbounded (hclear other hother)).symm

end Insertion

namespace Arranged

variable {header changed extended : Header}

/-- A header without fields is arranged. -/
theorem empty : Arranged empty where
  nodup := List.nodup_nil
  ordered := .nil
  narrow := by simp [Header.empty]
  fits := by simp [Header.empty, Fits]

/-- Adding a field keeps a header arranged. -/
theorem addField {field : Field} (h : header.Arranged) (hmade : field.Made)
    (hadd : header.addField field = .ok extended) : extended.Arranged := by
  rw [Header.addField] at hadd
  split at hadd
  · exact Except.ok.inj hadd ▸ h
  · next habsent =>
    split at hadd
    · split at hadd <;> cases hadd
    · next hnone =>
      obtain rfl := Except.ok.inj hadd
      have hclear : ∀ other ∈ header.fields, other.overlaps field = false := by
        simpa only [List.find?_eq_none, Bool.not_eq_true] using hnone
      have hperm := perm_insertByOffset field header.fields
      refine ⟨?_, pairwise_insertByOffset h.ordered hclear, fun other hother => ?_,
        fun other hother => ?_⟩
      · have hname : field.name ∉ header.fields.map (·.name) := by
          simpa [Header.contains] using habsent
        rw [map_fst_layout, (hperm.map _).nodup_iff, List.map_cons, List.nodup_cons]
        exact ⟨hname, map_fst_layout header ▸ h.nodup⟩
      · rcases mem_insertByOffset.mp hother with rfl | hother
        · exact hmade.size_le
        · exact h.narrow other hother
      · rcases mem_insertByOffset.mp hother with rfl | hother
        · exact hmade.value_lt
        · exact h.fits other hother

/-- Adding a field by its name, offset and size keeps a header arranged. -/
theorem add {name : FieldName} {offset size : Nat} (h : header.Arranged)
    (hadd : header.add name offset size = .ok extended) : extended.Arranged := by
  obtain ⟨field, hmake, hadd⟩ := Actions.exists_of_bind_eq_ok hadd
  exact h.addField (.make hmake) hadd

/-- Arrangement is a matter of the layout, except for the values. -/
theorem holding (h : header.Arranged) (hl : changed.layout = header.layout) (hf : changed.Fits) :
    changed.Arranged where
  nodup := hl ▸ h.nodup
  ordered := hl ▸ h.ordered
  narrow := by
    have hsizes : ∀ entry ∈ changed.layout, entry.2.2 ≤ Field.maxSize := by
      rw [hl]
      simpa only [layout, List.forall_mem_map] using h.narrow
    simpa only [layout, List.forall_mem_map] using hsizes
  fits := hf

end Arranged

/-- A header is arranged whatever was added to it. -/
theorem Built.arranged {header : Header} (h : header.Built) : header.Arranged := by
  induction h with
  | empty => exact .empty
  | add name offset size _ hadd ih => exact ih.add hadd
  | addField _ hmade hadd ih => exact ih.addField hmade hadd
  | holding _ hl hf ih => exact ih.holding hl hf

end Header

end TuningBridge
