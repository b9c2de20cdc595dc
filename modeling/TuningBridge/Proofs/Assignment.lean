import TuningBridge.Proofs.Layout

/-!
# Storing values

A number is stored in the first field of a name if it fits there, and every other field stays as it
was.  Copying stores the values of a template in its order, up to the first one that does not fit.
-/

namespace TuningBridge

/-- A number that fits is stored. -/
theorem Field.set_of_lt {field : Field} {value : UInt64} (h : value.toNat < 256 ^ field.size) :
    field.set value = .ok { field with value } := by
  rw [← Bytes.one_shiftLeft] at h
  rw [Field.set, if_pos h]

/-- A number that does not fit is refused. -/
theorem Field.set_of_le {field : Field} {value : UInt64} (h : 256 ^ field.size ≤ value.toNat) :
    field.set value =
      .error (.invalidFieldValue field.name (.doesNotFit value.toNat (field.size * 8))) := by
  rw [← Bytes.one_shiftLeft] at h
  rw [Field.set, if_neg (not_lt.mpr h)]

namespace Header

/-- What storing a number in the field of a name does to a header. -/
structure Stored (header : Header) (name : FieldName) (value : UInt64) (changed : Header) :
    Prop where
  layout : changed.layout = header.layout
  get?_self : changed.get? name = (header.get? name).map ({ · with value := value })
  get?_of_ne : ∀ other, other ≠ name → changed.get? other = header.get? other
  fits : header.Fits → changed.Fits

/-- A number that fits is stored in the field of the name. -/
private theorem modifyField_of_lt {fields : List Field} {name : FieldName} {field : Field}
    {value : UInt64} (h : get? ⟨fields⟩ name = some field) (hv : value.toNat < 256 ^ field.size) :
    ∃ changed, modifyField name (·.set value) fields = .ok changed ∧
      Stored ⟨fields⟩ name value ⟨changed⟩ := by
  induction fields with
  | nil => simp [get?] at h
  | cons first rest ih =>
    rw [get?_cons] at h
    by_cases hname : first.name = name
    · obtain rfl : first = field := by simpa [hname] using h
      refine ⟨{ first with value } :: rest, ?_, rfl, ?_, fun other hne => ?_, fun hf => ?_⟩
      · simp [modifyField, hname, Field.set_of_lt hv, Except.map]
      · simp [get?_cons, hname]
      · simp [get?_cons, hname, hne.symm]
      · exact fits_cons.mpr ⟨hv, (fits_cons.mp hf).2⟩
    · obtain ⟨changed, hchanged, hstored⟩ := ih (by simpa [hname] using h)
      refine ⟨first :: changed, ?_, ?_, ?_, fun other hne => ?_, fun hf => ?_⟩
      · simp [modifyField, hname, hchanged, Except.map]
      · rw [layout_cons, layout_cons, hstored.layout]
      · simpa [get?_cons, hname] using hstored.get?_self
      · simp only [get?_cons, hstored.get?_of_ne other hne]
      · exact fits_cons.mpr ⟨(fits_cons.mp hf).1, hstored.fits (fits_cons.mp hf).2⟩

/-- A number that does not fit the field of the name is refused. -/
private theorem modifyField_of_le {fields : List Field} {name : FieldName} {field : Field}
    {value : UInt64} (h : get? ⟨fields⟩ name = some field) (hv : 256 ^ field.size ≤ value.toNat) :
    modifyField name (·.set value) fields =
      .error (.invalidFieldValue name (.doesNotFit value.toNat (field.size * 8))) := by
  induction fields with
  | nil => simp [get?] at h
  | cons first rest ih =>
    rw [get?_cons] at h
    by_cases hname : first.name = name
    · obtain rfl : first = field := by simpa [hname] using h
      simp [modifyField, hname, Field.set_of_le hv, Except.map]
    · have hrest := ih (by simpa [hname] using h)
      simp [modifyField, hname, hrest, Except.map]

section

variable {header : Header} {name : FieldName} {field : Field} {value : UInt64}

/-- A number that fits is stored. -/
theorem set_of_lt (h : header.get? name = some field) (hv : value.toNat < 256 ^ field.size) :
    ∃ changed, header.set name value = .ok changed ∧ header.Stored name value changed := by
  obtain ⟨changed, hchanged, hstored⟩ := modifyField_of_lt h hv
  exact ⟨⟨changed⟩, by rw [set, hchanged]; rfl, hstored⟩

/-- A number that does not fit is refused by name. -/
theorem set_of_le (h : header.get? name = some field) (hv : 256 ^ field.size ≤ value.toNat) :
    header.set name value =
      .error (.invalidFieldValue name (.doesNotFit value.toNat (field.size * 8))) := by
  rw [set, modifyField_of_le h hv]
  rfl

/-- Storing the number that a field holds changes nothing. -/
theorem set_self (hf : header.Fits) (h : header.get? name = some field) :
    header.set name field.value = .ok header := by
  obtain ⟨fields⟩ := header
  have hfields : modifyField name (·.set field.value) fields = .ok fields := by
    induction fields with
    | nil => simp [get?] at h
    | cons first rest ih =>
      obtain ⟨hfirst, hrest⟩ := fits_cons.mp hf
      rw [get?_cons] at h
      by_cases hname : first.name = name
      · obtain rfl : first = field := by simpa [hname] using h
        subst hname
        simp [modifyField, Field.set_of_lt hfirst, Except.map]
      · simp [modifyField, hname, ih hrest (by simpa [hname] using h), Except.map]
  rw [set, hfields]
  rfl

/-- The field that a stored number is in. -/
theorem Stored.get?_eq {changed : Header} (hs : header.Stored name value changed)
    (h : header.get? name = some field) : changed.get? name = some { field with value } := by
  rw [hs.get?_self, h, Option.map_some]

/-- A header with a value for every name, one of which is changed. -/
theorem set_ofValues {entries : List (FieldName × Nat × Nat)} {values : FieldName → UInt64}
    {offset size : Nat} (hmem : (name, offset, size) ∈ entries)
    (hnodup : (entries.map Prod.fst).Nodup) (hv : value.toNat < 256 ^ size) :
    (ofValues entries values).set name value =
      .ok (ofValues entries (Function.update values name value)) := by
  have hlayout := layout_ofValues entries values
  obtain ⟨old, hold⟩ : ∃ old,
      (ofValues entries values).get? name = some ⟨name, offset, size, old⟩ :=
    get?_of_mem_layout (hlayout.symm ▸ hmem) (hlayout.symm ▸ hnodup)
  obtain ⟨changed, hset, hstored⟩ := set_of_lt hold hv
  have hlayout' : changed.layout = entries := hstored.layout.trans hlayout
  rw [hset, Except.ok.injEq]
  refine ext_get? (hlayout'.trans (layout_ofValues ..).symm) (hlayout' ▸ hnodup) fun other => ?_
  have hupdated := get?_ofValues (Function.update values name value) (ofValues entries values) other
  have hself := get?_ofValues values (ofValues entries values) other
  rw [hlayout] at hupdated hself
  rw [hupdated]
  by_cases hother : other = name
  · rw [hother, hstored.get?_self, Function.update_self]
  · rw [hstored.get?_of_ne other hother, Function.update_of_ne hother]
    exact hself

end

section Copy

variable {header changed : Header}

theorem contains_eq_isSome (header : Header) (name : FieldName) :
    header.contains name = (header.get? name).isSome :=
  List.isSome_find?.symm

/-- Copying the first part of a template comes before copying the rest. -/
theorem copyFields_append {first : List Field} (rest : List Field)
    (h : header.copyFields first = (.ok (), changed)) :
    header.copyFields (first ++ rest) = changed.copyFields rest := by
  induction first generalizing header with
  | nil =>
    obtain rfl : header = changed := (Prod.mk.inj h).2
    rfl
  | cons source first ih =>
    rw [List.cons_append, copyFields]
    rw [copyFields] at h
    by_cases hcontains : header.contains source.name = true
    · rw [if_pos hcontains] at h ⊢
      cases hset : header.set source.name source.value with
      | error error => simp [hset] at h
      | ok next =>
        rw [hset] at h
        exact ih h
    · rw [if_neg hcontains] at h ⊢
      exact ih h

/-- A value that does not fit ends the copy with the name of its field. -/
theorem copyFields_cons_of_le {source target : Field} (rest : List Field)
    (h : header.get? source.name = some target) (hle : 256 ^ target.size ≤ source.value.toNat) :
    header.copyFields (source :: rest) =
      (.error (.invalidFieldValue source.name
        (.doesNotFit source.value.toNat (target.size * 8))), header) := by
  have hcontains : header.contains source.name = true := by rw [contains_eq_isSome, h]; rfl
  rw [copyFields, if_pos hcontains, set_of_le h hle]

/-- What copying the values of a template does to a header. -/
structure Copied (header template changed : Header) : Prop where
  layout : changed.layout = header.layout
  get?_eq : ∀ name, changed.get? name = (header.get? name).map fun target =>
    { target with value := ((template.get? name).map (·.value)).getD target.value }
  fits : header.Fits → changed.Fits

/-- A template whose shared values fit is copied. -/
theorem copyFields_of_lt {template : List Field} (hnodup : (template.map (·.name)).Nodup)
    (h : ∀ source ∈ template, ∀ target, header.get? source.name = some target →
      source.value.toNat < 256 ^ target.size) :
    ∃ changed, header.copyFields template = (.ok (), changed) ∧
      header.Copied ⟨template⟩ changed := by
  induction template generalizing header with
  | nil => exact ⟨header, rfl, rfl, fun name => by simp [get?], id⟩
  | cons source rest ih =>
    obtain ⟨hnotMem, hnodup⟩ := List.nodup_cons.mp hnodup
    have hne : ∀ field ∈ rest, field.name ≠ source.name := fun field hmem hname =>
      hnotMem (List.mem_map.mpr ⟨field, hmem, hname⟩)
    have hrest : get? ⟨rest⟩ source.name = none := by
      simpa only [get?, List.find?_eq_none, decide_eq_true_eq] using hne
    cases htarget : header.get? source.name with
    | none =>
      obtain ⟨changed, hcopy, hcopied⟩ :=
        ih hnodup fun field hmem => h field (List.mem_cons_of_mem _ hmem)
      have hcontains : header.contains source.name = false := by
        rw [contains_eq_isSome, htarget]
        rfl
      refine ⟨changed, ?_, hcopied.layout, fun name => ?_, hcopied.fits⟩
      · rw [copyFields, hcontains]
        exact hcopy
      · rw [hcopied.get?_eq, get?_cons]
        by_cases hname : source.name = name
        · rw [← hname, htarget, Option.map_none, Option.map_none]
        · rw [if_neg hname]
    | some target =>
      obtain ⟨next, hset, hstored⟩ := set_of_lt htarget (h source List.mem_cons_self target htarget)
      have hfits : ∀ field ∈ rest, ∀ target, next.get? field.name = some target →
          field.value.toNat < 256 ^ target.size := by
        intro field hmem target htarget
        rw [hstored.get?_of_ne _ (hne field hmem)] at htarget
        exact h field (List.mem_cons_of_mem _ hmem) target htarget
      obtain ⟨changed, hcopy, hcopied⟩ := ih hnodup hfits
      have hcontains : header.contains source.name = true := by
        rw [contains_eq_isSome, htarget]
        rfl
      refine ⟨changed, ?_, hcopied.layout.trans hstored.layout, fun name => ?_,
        fun hf => hcopied.fits (hstored.fits hf)⟩
      · rw [copyFields, if_pos hcontains, hset]
        exact hcopy
      · rw [hcopied.get?_eq, get?_cons]
        by_cases hname : name = source.name
        · rw [hname, hrest, hstored.get?_eq htarget, htarget]
          simp
        · rw [hstored.get?_of_ne name hname, if_neg (Ne.symm hname)]

end Copy

end Header

end TuningBridge
