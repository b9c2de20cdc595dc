import TuningBridge.Proofs.WellFormed

/-!
# Headers filled from a template

Copying goes through the fields of a template in their order.  A field whose name the header does
not have is passed over; the first one whose value does not fit the field of its name ends the copy,
and what was copied up to it stays.  The header that a first byte selects starts out blank, so it is
made just if no field of the template is in the way, and then it holds the values of the template,
zeros where the template has none, and the byte in front.
-/

namespace TuningBridge

/-- Among the entries of a layout there is one of a field's name, and the value of the field does
not fit it. -/
def Field.Overflows (source : Field) (entries : List (FieldName × Nat × Nat)) : Prop :=
  ∃ offset size, (source.name, offset, size) ∈ entries ∧ 256 ^ size ≤ source.value.toNat

instance (source : Field) (entries : List (FieldName × Nat × Nat)) :
    Decidable (source.Overflows entries) :=
  decidable_of_iff
    (∃ entry ∈ entries, entry.1 = source.name ∧ 256 ^ entry.2.2 ≤ source.value.toNat) <| by
    constructor
    · rintro ⟨⟨name, offset, size⟩, hmem, rfl, hle⟩
      exact ⟨offset, size, hmem, hle⟩
    · rintro ⟨offset, size, hmem, hle⟩
      exact ⟨_, hmem, rfl, hle⟩

namespace Header

/-- The header with the values of the given fields in the fields of their names. -/
def overlaid (header : Header) (sources : List Field) : Header :=
  ⟨header.fields.map fun target =>
    { target with value := ((get? ⟨sources⟩ target.name).map (·.value)).getD target.value }⟩

section Copy

variable {header changed : Header} {sources before rest : List Field} {source : Field}
  {name : FieldName} {offset size : Nat}

theorem layout_overlaid (header : Header) (sources : List Field) :
    (header.overlaid sources).layout = header.layout := by
  rw [layout, overlaid, List.map_map]
  rfl

theorem get?_overlaid (header : Header) (sources : List Field) (name : FieldName) :
    (header.overlaid sources).get? name = (header.get? name).map fun target =>
      { target with value := ((get? ⟨sources⟩ name).map (·.value)).getD target.value } := by
  obtain ⟨fields⟩ := header
  induction fields with
  | nil => rfl
  | cons field rest ih =>
    rw [overlaid, List.map_cons, get?_cons, get?_cons]
    by_cases hname : field.name = name
    · simp [hname]
    · rw [if_neg hname, if_neg hname]
      exact ih

/-- A field of which no value is given keeps its own. -/
theorem get?_overlaid_of_notMem (h : name ∉ sources.map (·.name)) :
    (header.overlaid sources).get? name = header.get? name := by
  have hnone : get? ⟨sources⟩ name = none := by
    simpa only [get?, List.find?_eq_none, decide_eq_true_eq, List.mem_map, not_exists,
      not_and] using h
  rw [get?_overlaid, hnone]
  exact Option.map_id' ..

/-- In a header with unique names, copying gives the overlaid one. -/
theorem Copied.eq_overlaid (h : header.Copied ⟨sources⟩ changed) (hnodup : header.names.Nodup) :
    changed = header.overlaid sources := by
  refine ext_get? (h.layout.trans (layout_overlaid header sources).symm) ?_ fun name => ?_
  · rw [h.layout, map_fst_layout]
    exact hnodup
  · rw [h.get?_eq, get?_overlaid]

/-- The field that a value is copied to has the size of its entry in the layout. -/
theorem lt_of_not_overflows {target : Field} (h : ¬source.Overflows header.layout)
    (htarget : header.get? source.name = some target) : source.value.toNat < 256 ^ target.size := by
  by_contra hle
  exact h ⟨target.offset, target.size, mem_layout_of_get? htarget, not_lt.mp hle⟩

/-- Values of which none overflows are all copied. -/
theorem copyFields_of_fit (hnodup : header.names.Nodup) (hsources : (sources.map (·.name)).Nodup)
    (h : ∀ source ∈ sources, ¬source.Overflows header.layout) :
    header.copyFields sources = (.ok (), header.overlaid sources) := by
  obtain ⟨changed, hcopy, hcopied⟩ := copyFields_of_lt hsources
    fun source hsource target htarget => lt_of_not_overflows (h source hsource) htarget
  rw [hcopy, hcopied.eq_overlaid hnodup]

/-- The first value that overflows ends the copy behind the fields in front of it. -/
theorem copyFields_of_overflow (hnodup : header.names.Nodup)
    (hsources : ((before ++ source :: rest).map (·.name)).Nodup)
    (hbefore : ∀ earlier ∈ before, ¬earlier.Overflows header.layout)
    (hmem : (source.name, offset, size) ∈ header.layout) (hle : 256 ^ size ≤ source.value.toNat) :
    header.copyFields (before ++ source :: rest) =
      (.error (.invalidFieldValue source.name (.doesNotFit source.value.toNat (size * 8))),
        header.overlaid before) := by
  have hbefore' : (before.map (·.name)).Nodup := by
    rw [List.map_append] at hsources
    exact (List.nodup_append.mp hsources).1
  have hlayout := layout_overlaid header before
  obtain ⟨value, htarget⟩ :
      ∃ value, (header.overlaid before).get? source.name =
        some ⟨source.name, offset, size, value⟩ := by
    refine get?_of_mem_layout (hlayout ▸ hmem) ?_
    rw [hlayout, map_fst_layout]
    exact hnodup
  rw [copyFields_append _ (copyFields_of_fit hnodup hbefore' hbefore),
    copyFields_cons_of_le rest htarget hle]

/-- Either no field overflows, or one of them is the first. -/
theorem forall_not_overflows_or_first (sources : List Field)
    (entries : List (FieldName × Nat × Nat)) :
    (∀ source ∈ sources, ¬source.Overflows entries) ∨
      ∃ before source rest, sources = before ++ source :: rest ∧
        (∀ earlier ∈ before, ¬earlier.Overflows entries) ∧ source.Overflows entries := by
  cases hfind : sources.find? (·.Overflows entries) with
  | none =>
    rw [List.find?_eq_none] at hfind
    exact .inl fun source hsource => by simpa using hfind source hsource
  | some source =>
    obtain ⟨hsource, before, rest, rfl, hbefore⟩ := List.find?_eq_some_iff_append.mp hfind
    exact .inr ⟨before, source, rest, rfl, by simpa using hbefore, by simpa using hsource⟩

end Copy

/-- What comes of copying the values of a template into a header: the result, and the header behind
it. -/
structure Copies (header template : Header) (result : Except Error Unit) (after : Header) :
    Prop where
  error_iff : (∃ error, result = .error error) ↔ ∃ source ∈ template.fields,
    source.Overflows header.layout
  all : (∀ source ∈ template.fields, ¬source.Overflows header.layout) →
    result = .ok () ∧ after = header.overlaid template.fields
  /-- The first field that overflows is named, and only the ones in front of it were copied. -/
  partway : ∀ before source rest offset size, template.fields = before ++ source :: rest →
    (∀ earlier ∈ before, ¬earlier.Overflows header.layout) →
    (source.name, offset, size) ∈ header.layout →
    256 ^ size ≤ source.value.toNat →
      result = .error (.invalidFieldValue source.name (.doesNotFit source.value.toNat (size * 8))) ∧
        after = header.overlaid before
  unshared : ∀ name, name ∉ template.names → after.get? name = header.get? name
  layout : after.layout = header.layout

/-- Copying from a template goes up to the first field that overflows. -/
theorem copies_copyFrom {header template : Header} (hnodup : header.names.Nodup)
    (htemplate : template.names.Nodup) :
    header.Copies template (header.copyFrom template).1 (header.copyFrom template).2 := by
  have hall : (∀ source ∈ template.fields, ¬source.Overflows header.layout) →
      header.copyFrom template = (.ok (), header.overlaid template.fields) :=
    copyFields_of_fit hnodup htemplate
  have hpartway : ∀ before source rest offset size, template.fields = before ++ source :: rest →
      (∀ earlier ∈ before, ¬earlier.Overflows header.layout) →
      (source.name, offset, size) ∈ header.layout →
      256 ^ size ≤ source.value.toNat → header.copyFrom template =
        (.error (.invalidFieldValue source.name (.doesNotFit source.value.toNat (size * 8))),
          header.overlaid before) := by
    intro before source rest offset size hsplit hbefore hmem hle
    rw [names, hsplit] at htemplate
    rw [copyFrom, hsplit, copyFields_of_overflow hnodup htemplate hbefore hmem hle]
  obtain ⟨sources, hcopied, hafter⟩ : ∃ sources, sources <+: template.fields ∧
      (header.copyFrom template).2 = header.overlaid sources := by
    rcases forall_not_overflows_or_first template.fields header.layout with
      hfit | ⟨before, source, rest, hsplit, hbefore, offset, size, hmem, hle⟩
    · exact ⟨template.fields, List.prefix_rfl, by rw [hall hfit]⟩
    · exact ⟨before, ⟨source :: rest, hsplit.symm⟩,
        by rw [hpartway _ _ _ _ _ hsplit hbefore hmem hle]⟩
  refine ⟨?_, ?_, ?_, ?_, ?_⟩
  · constructor
    · rintro ⟨error, herror⟩
      by_contra hno
      rw [hall (by simpa using hno)] at herror
      cases herror
    · rintro ⟨source, hsource, hover⟩
      rcases forall_not_overflows_or_first template.fields header.layout with
        hfit | ⟨before, source, rest, hsplit, hbefore, offset, size, hmem, hle⟩
      · exact absurd hover (hfit source hsource)
      · exact ⟨_, by rw [hpartway _ _ _ _ _ hsplit hbefore hmem hle]⟩
  · intro hfit
    rw [hall hfit]
    exact ⟨rfl, rfl⟩
  · intro before source rest offset size hsplit hbefore hmem hle
    rw [hpartway _ _ _ _ _ hsplit hbefore hmem hle]
    exact ⟨rfl, rfl⟩
  · intro name hname
    rw [hafter, get?_overlaid_of_notMem]
    exact fun hmem => hname ((hcopied.sublist.map (·.name)).mem hmem)
  · rw [hafter, layout_overlaid]

end Header

namespace Family

/-- The header of an operation that holds the values of a template, zeros where the template has
none, and the byte of the operation. -/
def filledHeader (family : Family) (operation : Operation) (template : Header) : Header :=
  .ofValues (family.layout operation) fun name =>
    if name = .operation then operation.code.toUInt64
    else ((template.get? name).map (·.value)).getD 0

variable {family : Family} {operation : Operation} {code : UInt8} {template : Header}

/-- The header of an operation with all values zero. -/
def blank (family : Family) (operation : Operation) : Header :=
  .ofValues (family.layout operation) fun _ => 0

theorem blankHeader_eq (family : Family) (operation : Operation) :
    family.blankHeader operation = .ok (family.blank operation) := by
  cases family <;> cases operation <;> rfl

theorem layout_blank (family : Family) (operation : Operation) :
    (family.blank operation).layout = family.layout operation :=
  Header.layout_ofValues ..

theorem nodup_blank (family : Family) (operation : Operation) :
    (family.blank operation).names.Nodup := by
  rw [Header.names, ← Header.map_fst_layout, layout_blank]
  exact family.nodup_layout operation

/-- The values of a template in a blank header are the values of its names. -/
theorem overlaid_blank (family : Family) (operation : Operation) (sources : List Field) :
    (family.blank operation).overlaid sources = .ofValues (family.layout operation)
      fun name => ((Header.get? ⟨sources⟩ name).map (·.value)).getD 0 := by
  rw [Header.overlaid, blank, Header.ofValues, List.map_map]
  rfl

/-- Storing the byte of the operation among the values of a template fills the header. -/
theorem set_operation_overlaid (family : Family) (operation : Operation) (template : Header) :
    ((family.blank operation).overlaid template.fields).set .operation operation.code.toUInt64 =
      .ok (family.filledHeader operation template) := by
  obtain ⟨rest, hcons⟩ := family.layout_eq_cons operation
  have hmem : (.operation, 0, 1) ∈ family.layout operation := hcons ▸ List.mem_cons_self
  have hcode : operation.code.toUInt64.toNat < 256 ^ 1 := operation.code.toNat_lt
  rw [overlaid_blank, Header.set_ofValues hmem (family.nodup_layout operation) hcode, filledHeader]
  congr 2
  funext name
  rw [Function.update_apply]

/-- A header is made if no field of the template overflows. -/
theorem headerOfCode_of_fit (htemplate : template.names.Nodup)
    (hfit : ∀ source ∈ template.fields, ¬source.Overflows (family.layout operation)) :
    family.headerOfCode operation.code (some template) =
      .ok (family.filledHeader operation template) := by
  have hcopy := Header.copyFields_of_fit (family.nodup_blank operation) htemplate
    (family.layout_blank operation ▸ hfit)
  simp only [headerOfCode, Operation.ofCode, Operation.ofCode?_code, blankHeader_eq,
    Header.copyFrom, hcopy, Actions.ok_bind, Actions.pure_eq_ok, set_operation_overlaid]

/-- The first field of the template that overflows is the cause for which no header is made. -/
theorem headerOfCode_of_overflow {before rest : List Field} {source : Field} {offset size : Nat}
    (htemplate : template.names.Nodup) (hsplit : template.fields = before ++ source :: rest)
    (hbefore : ∀ earlier ∈ before, ¬earlier.Overflows (family.layout operation))
    (hmem : (source.name, offset, size) ∈ family.layout operation)
    (hle : 256 ^ size ≤ source.value.toNat) :
    family.headerOfCode operation.code (some template) =
      .error (.invalidFieldValue source.name (.doesNotFit source.value.toNat (size * 8))) := by
  rw [Header.names, hsplit] at htemplate
  have hcopy := Header.copyFields_of_overflow (family.nodup_blank operation) htemplate
    (family.layout_blank operation ▸ hbefore) (family.layout_blank operation ▸ hmem) hle
  simp only [headerOfCode, Operation.ofCode, Operation.ofCode?_code, blankHeader_eq,
    Header.copyFrom, hsplit, hcopy, Actions.ok_bind, Actions.throw_eq_error, Actions.error_bind]

/-- With a known byte, either no field of the template overflows or one of them is named. -/
theorem headerOfCode_cases (family : Family) (operation : Operation)
    (htemplate : template.names.Nodup) :
    ((∀ source ∈ template.fields, ¬source.Overflows (family.layout operation)) ∧
      family.headerOfCode operation.code (some template) =
        .ok (family.filledHeader operation template)) ∨
    ∃ source ∈ template.fields, source.Overflows (family.layout operation) ∧
      ∃ fault, family.headerOfCode operation.code (some template) =
        .error (.invalidFieldValue source.name fault) := by
  rcases Header.forall_not_overflows_or_first template.fields (family.layout operation) with
    hfit | ⟨before, source, rest, hsplit, hbefore, hover⟩
  · exact .inl ⟨hfit, headerOfCode_of_fit htemplate hfit⟩
  · have hsource : source ∈ template.fields := by rw [hsplit]; simp
    obtain ⟨offset, size, hmem, hle⟩ := hover
    exact .inr ⟨source, hsource, ⟨offset, size, hmem, hle⟩, _,
      headerOfCode_of_overflow htemplate hsplit hbefore hmem hle⟩

theorem headerOfCode_of_unknown (h : Operation.ofCode? code = none) (template : Option Header) :
    family.headerOfCode code template = .error (.unknownOperation code) := by
  rw [headerOfCode, Operation.ofCode, h, Actions.error_bind]

/-- What comes of making the header that a first byte selects from a template. -/
structure Makes (family : Family) (code : UInt8) (template : Header)
    (result : Except Error Header) : Prop where
  unknown_iff : result = .error (.unknownOperation code) ↔ code ≠ 0x09 ∧ code ≠ 0x0A ∧ code ≠ 0x0B
  /-- A field of the template that overflows, be it the operation, is the cause to refuse a known
  byte. -/
  refused_iff : ∀ operation, Operation.ofCode? code = some operation →
    ((∃ field fault, result = .error (.invalidFieldValue field fault)) ↔
      ∃ source ∈ template.fields, source.Overflows (family.layout operation))
  /-- The error names the first field of the template that overflows. -/
  names_first : ∀ operation before source rest offset size,
    Operation.ofCode? code = some operation →
    template.fields = before ++ source :: rest →
    (∀ earlier ∈ before, ¬earlier.Overflows (family.layout operation)) →
    (source.name, offset, size) ∈ family.layout operation → 256 ^ size ≤ source.value.toNat →
      result = .error (.invalidFieldValue source.name (.doesNotFit source.value.toNat (size * 8)))
  made : ∀ operation, Operation.ofCode? code = some operation →
    (∀ source ∈ template.fields, ¬source.Overflows (family.layout operation)) →
      result = .ok (family.filledHeader operation template)

end Family

/-- Whatever the layouts, the header that a first byte selects is filled from a template, and a
template is copied into a header, up to the first field of the template that overflows. -/
theorem Header.filled_up_to_overflow (family : Family) (code : UInt8) (template : Header)
    (htemplate : template.names.Nodup) :
    family.Makes code template (family.headerOfCode code (some template)) ∧
      ∀ header : Header, header.names.Nodup →
        header.Copies template (header.copyFrom template).1 (header.copyFrom template).2 := by
  refine ⟨⟨?_, ?_, ?_, ?_⟩, fun header hnodup => copies_copyFrom hnodup htemplate⟩
  · rw [← Operation.ofCode?_eq_none_iff]
    constructor
    · intro hunknown
      cases hcode : Operation.ofCode? code with
      | none => rfl
      | some operation =>
        obtain rfl := Operation.code_of_ofCode? hcode
        rcases family.headerOfCode_cases operation htemplate with ⟨_, hok⟩ | ⟨_, _, _, _, herror⟩
        · rw [hok] at hunknown
          cases hunknown
        · rw [herror] at hunknown
          cases hunknown
    · intro hcode
      exact Family.headerOfCode_of_unknown hcode _
  · intro operation hcode
    obtain rfl := Operation.code_of_ofCode? hcode
    rcases family.headerOfCode_cases operation htemplate with
      ⟨hfit, hok⟩ | ⟨source, hsource, hover, fault, herror⟩
    · rw [hok]
      exact ⟨nofun, fun ⟨source, hsource, hover⟩ => absurd hover (hfit source hsource)⟩
    · exact ⟨fun _ => ⟨source, hsource, hover⟩, fun _ => ⟨source.name, fault, herror⟩⟩
  · rintro operation before source rest offset size hcode hsplit hbefore hmem hle
    obtain rfl := Operation.code_of_ofCode? hcode
    exact Family.headerOfCode_of_overflow htemplate hsplit hbefore hmem hle
  · rintro operation hcode hfit
    obtain rfl := Operation.code_of_ofCode? hcode
    exact Family.headerOfCode_of_fit htemplate hfit

/-- Five fields in an order and of sizes that no family has; the length needs more than two
bytes. -/
def Header.wideTemplate : Header :=
  ⟨[⟨.operation, 0, 1, 0x0A⟩, ⟨.address, 1, 2, 0x2000⟩, ⟨.success, 3, 8, 1⟩,
    ⟨.dataLength, 11, 4, 0x10000⟩, ⟨.chipAddress, 15, 1, 7⟩]⟩

/-- The length does not fit the two bytes that a response of `adau1x0x` has for it: operation and
success are copied by then, the address is not shared, and no header is made.  In a response of
`adau14xx` all values fit. -/
theorem Header.filled_up_to_overflow_wideLength :
    wideTemplate.names.Nodup ∧ (Family.adau1x0x.blank .readResponse).names.Nodup ∧
    Family.adau1x0x.headerOfCode 0x0B (some wideTemplate) =
      .error (.invalidFieldValue .dataLength (.doesNotFit 0x10000 16)) ∧
    (Family.adau1x0x.blank .readResponse).copyFrom wideTemplate =
      (.error (.invalidFieldValue .dataLength (.doesNotFit 0x10000 16)),
        ⟨[⟨.operation, 0, 1, 0x0A⟩, ⟨.dataLength, 1, 2, 0⟩, ⟨.success, 3, 1, 1⟩]⟩) ∧
    Family.adau14xx.headerOfCode 0x0B (some wideTemplate) =
      .ok ⟨[⟨.operation, 0, 1, 0x0B⟩, ⟨.totalLength, 1, 4, 0⟩, ⟨.chipAddress, 5, 1, 7⟩,
        ⟨.dataLength, 6, 4, 0x10000⟩, ⟨.address, 10, 2, 0x2000⟩, ⟨.success, 12, 1, 1⟩,
        ⟨.reserved, 13, 1, 0⟩]⟩ := by
  have htemplate : wideTemplate.names.Nodup := by decide
  obtain ⟨hmakes, hcopies⟩ := filled_up_to_overflow .adau1x0x 0x0B wideTemplate htemplate
  have hnodup := Family.adau1x0x.nodup_blank .readResponse
  have hbefore : ∀ earlier ∈ wideTemplate.fields.take 3,
      ¬earlier.Overflows (Family.adau1x0x.layout .readResponse) := by decide
  refine ⟨htemplate, hnodup, ?_, ?_, ?_⟩
  · exact hmakes.names_first .readResponse _ _ [⟨.chipAddress, 15, 1, 7⟩] 1 2 rfl rfl hbefore
      (by decide) (by decide)
  · have hpartway := (hcopies _ hnodup).partway _ _ [⟨.chipAddress, 15, 1, 7⟩] 1 2 rfl hbefore
      (by decide) (by decide)
    exact Prod.ext hpartway.1 hpartway.2
  · exact (filled_up_to_overflow .adau14xx 0x0B wideTemplate htemplate).1.made .readResponse
      rfl (by decide)

end TuningBridge
