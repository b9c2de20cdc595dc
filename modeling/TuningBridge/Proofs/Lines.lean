import Mathlib.Data.List.DropRight
import Mathlib.Data.Prod.Lex
import TuningBridge.Bytes
import TuningBridge.Text.Position

/-!
# Lines of a text

A byte offset lies on the line that starts behind the last newline in front of it, or with the text
if there is none.  The position of a place between two characters, or at an end of the text, counts
the newlines in front of the place and the bytes from the start of its line.  A later place has a
later position, so no two places share one.
-/

namespace TuningBridge.Text

/-- The byte that ends a line. -/
def newline : UInt8 := 10

/-- The bytes of characters. -/
def encode (chars : List Char) : Bytes := chars.flatMap String.utf8EncodeChar

/-- The bytes of a text. -/
def utf8 (source : String) : Bytes := source.toUTF8.data.toList

/-- The line of an offset starts behind the last newline in front of it, or with the text if there
is none. -/
structure LineStart (bytes : Bytes) (offset start : Nat) : Prop where
  le_offset : start ≤ offset
  opened : 0 < start → bytes[start - 1]? = some newline
  unbroken : ∀ index, start ≤ index → index < offset → bytes[index]? ≠ some newline

/-- A line and a column, both counted from one, say where an offset is. -/
structure Marks (bytes : Bytes) (offset line column : Nat) : Prop where
  line_pos : 1 ≤ line
  /-- There are as many newlines in front of the offset as lines above its own. -/
  newlines : (bytes.take offset).count newline = line - 1
  column_pos : 1 ≤ column
  /-- The column counts on from the start of the line. -/
  column : ∃ start, LineStart bytes offset start ∧ offset = start + column - 1

section

variable {bytes : Bytes} {first second start later line column line' column' : Nat}

/-- A newline between two offsets is in front of the second only. -/
theorem count_take_lt {index : Nat} (hfirst : first ≤ index) (hsecond : index < second)
    (hnewline : bytes[index]? = some newline) :
    (bytes.take first).count newline < (bytes.take second).count newline := by
  have hsplit : bytes.take second =
      bytes.take first ++ (bytes.drop first).take (second - first) := by
    rw [← List.take_add, Nat.add_sub_cancel' (by omega)]
  have hmem : newline ∈ (bytes.drop first).take (second - first) := by
    apply List.mem_of_getElem? (i := index - first)
    rw [List.getElem?_take, if_pos (by omega), List.getElem?_drop,
      Nat.add_sub_cancel' hfirst, hnewline]
  rw [hsplit, List.count_append]
  exact Nat.lt_add_of_pos_right (List.count_pos_iff.mpr hmem)

/-- The line of a later offset starts no earlier. -/
theorem LineStart.le (hfirst : LineStart bytes first start) (hsecond : LineStart bytes second later)
    (h : first ≤ second) : start ≤ later := by
  by_contra hbefore
  have hwithin := hfirst.le_offset
  exact hsecond.unbroken (start - 1) (by omega) (by omega) (hfirst.opened (by omega))

/-- Offsets with the same number of newlines in front of them are on one line. -/
theorem LineStart.eq_of_count_eq (hfirst : LineStart bytes first start)
    (hsecond : LineStart bytes second later) (h : first ≤ second)
    (hcount : (bytes.take first).count newline = (bytes.take second).count newline) :
    start = later := by
  have hbehind : later ≤ first := by
    by_contra hbetween
    have hwithin := hsecond.le_offset
    exact (count_take_lt (by omega) (by omega) (hsecond.opened (by omega))).ne hcount
  have hsame : LineStart bytes first later :=
    ⟨hbehind, hsecond.opened,
      fun index hfrom hto => hsecond.unbroken index hfrom (Nat.lt_of_lt_of_le hto h)⟩
  exact Nat.le_antisymm (hfirst.le hsecond h) (hsame.le hfirst (Nat.le_refl first))

/-- A later offset is on a later line, or further on the same line. -/
theorem Marks.lt (hfirst : Marks bytes first line column)
    (hsecond : Marks bytes second line' column') (h : first < second) :
    toLex (line, column) < toLex (line', column') := by
  obtain ⟨start, hstart, hcolumn⟩ := hfirst.column
  obtain ⟨later, hlater, hcolumn'⟩ := hsecond.column
  have hline := hfirst.line_pos
  have hline' := hsecond.line_pos
  have hnewlines := hfirst.newlines
  have hnewlines' := hsecond.newlines
  have hle : (bytes.take first).count newline ≤ (bytes.take second).count newline :=
    (List.take_prefix_take_left h.le).sublist.count_le newline
  rw [Prod.Lex.toLex_lt_toLex]
  rcases Nat.lt_or_eq_of_le hle with hlines | hlines
  · exact .inl (by show line < line'; omega)
  · have hstarts : start = later := hstart.eq_of_count_eq hlater h.le hlines
    have hpos := hfirst.column_pos
    exact .inr (by show line = line' ∧ column < column'; omega)

/-- An offset has one line and column. -/
theorem Marks.unique (h : Marks bytes first line column) (h' : Marks bytes first line' column') :
    (line, column) = (line', column') := by
  obtain ⟨start, hstart, hcolumn⟩ := h.column
  obtain ⟨later, hlater, hcolumn'⟩ := h'.column
  have hstarts : start = later := hstart.eq_of_count_eq hlater (Nat.le_refl first) rfl
  have hlines : line - 1 = line' - 1 := h.newlines.symm.trans h'.newlines
  have hpos := h.line_pos
  have hpos' := h'.line_pos
  have hcolumn_pos := h.column_pos
  have hcolumn_pos' := h'.column_pos
  rw [Prod.mk.injEq]
  omega

end

theorem newline_eq_ofNat_iff {value : Nat} (h : value < 256) :
    newline = UInt8.ofNat value ↔ value = 10 := by
  rw [← UInt8.toNat_inj, UInt8.toNat_ofNat', Nat.mod_eq_of_lt h, eq_comm]
  rfl

/-- Of the encodings of characters only the newline's has the byte of a newline. -/
theorem newline_mem_utf8EncodeChar_iff (char : Char) :
    newline ∈ String.utf8EncodeChar char ↔ char = '\n' := by
  constructor
  · fun_cases String.utf8EncodeChar char with
    | case1 value hone =>
      intro hmem
      have hvalue : value = 10 := (newline_eq_ofNat_iff (by omega)).mp (List.mem_singleton.mp hmem)
      exact Char.ext (UInt32.toNat_inj.mp hvalue)
    | case2 value | case3 value | case4 value =>
      -- the first of several bytes is at least 192, the others are at least 128
      simp (disch := omega) only [List.mem_cons, List.not_mem_nil, newline_eq_ofNat_iff, or_false]
      intro hvalue
      omega
  · rintro rfl
    decide

theorem count_utf8EncodeChar (char : Char) :
    (String.utf8EncodeChar char).count newline = if char = '\n' then 1 else 0 := by
  split
  · next hnewline => rw [hnewline]; decide
  · next hother =>
      exact List.count_eq_zero.mpr fun hmem =>
        hother ((newline_mem_utf8EncodeChar_iff char).mp hmem)

theorem encode_append (front back : List Char) :
    encode (front ++ back) = encode front ++ encode back :=
  List.flatMap_append

theorem length_encode (chars : List Char) : (encode chars).length = byteCount chars := by
  induction chars with
  | nil => rfl
  | cons char rest ih =>
    rw [encode, List.flatMap_cons, List.length_append, String.length_utf8EncodeChar, ← encode, ih,
      byteCount_cons]

/-- The newlines among bytes are those among the characters. -/
theorem count_encode (chars : List Char) : (encode chars).count newline = chars.count '\n' := by
  induction chars with
  | nil => rfl
  | cons char rest ih =>
    rw [encode, List.flatMap_cons, List.count_append, count_utf8EncodeChar, ← encode, ih,
      List.count_cons, Nat.add_comm]
    simp only [beq_iff_eq]

/-- Behind a newline, or with the text, a line starts that goes on up to the next newline. -/
theorem lineStart_encode {above line : List Char}
    (habove : ∀ h : above ≠ [], above.getLast h = '\n') (hline : '\n' ∉ line) (back : List Char) :
    LineStart (encode (above ++ line ++ back)) (byteCount (above ++ line)) (byteCount above) := by
  have hlength : byteCount (above ++ line) = (encode above).length + (encode line).length := by
    rw [byteCount_append, length_encode, length_encode]
  rw [hlength, encode_append, encode_append, ← length_encode, List.append_assoc]
  constructor
  case le_offset => exact Nat.le_add_right _ _
  case opened =>
    intro hpos
    have hne : above ≠ [] := by
      rintro rfl
      exact Nat.lt_irrefl _ hpos
    have hlast : encode above = encode above.dropLast ++ [newline] := by
      conv_lhs => rw [← List.dropLast_append_getLast hne, habove hne, encode_append]
      rfl
    rw [hlast, List.length_append, List.length_singleton, Nat.add_sub_cancel, List.append_assoc,
      List.getElem?_append_right (Nat.le_refl _), Nat.sub_self]
    rfl
  case unbroken =>
    intro index hfrom hto hnewline
    rw [List.getElem?_append_right hfrom, List.getElem?_append_left (by omega)] at hnewline
    have hcount := List.count_pos_iff.mpr (List.mem_of_getElem? hnewline)
    rw [count_encode] at hcount
    exact hline (List.count_pos_iff.mp hcount)

/-- Characters are cut at the last newline among them. -/
theorem exists_lastLine (chars : List Char) : ∃ above line, chars = above ++ line ∧
    (∀ h : above ≠ [], above.getLast h = '\n') ∧ '\n' ∉ line ∧
    chars.reverse.takeWhile (· ≠ '\n') = line.reverse := by
  refine ⟨chars.rdropWhile (· ≠ '\n'), chars.rtakeWhile (· ≠ '\n'),
    List.rdropWhile_append_rtakeWhile.symm, fun hne => ?_, fun hmem => ?_, ?_⟩
  · simpa using List.rdropWhile_last_not _ chars hne
  · simpa using List.mem_rtakeWhile_imp hmem
  · rw [List.rtakeWhile, List.reverse_reverse]

/-- The newlines in front of a place, and the bytes back to the last of them, mark the place. -/
theorem marks_encode (front back : List Char) :
    Marks (encode (front ++ back)) (byteCount front) (front.count '\n' + 1)
      (byteCount (front.reverse.takeWhile (· ≠ '\n')) + 1) := by
  obtain ⟨above, line, rfl, habove, hline, htake⟩ := exists_lastLine front
  rw [htake, byteCount_reverse]
  constructor
  case line_pos => exact Nat.le_add_left 1 _
  case newlines =>
    rw [encode_append, List.take_left' (length_encode _), count_encode, Nat.add_sub_cancel]
  case column_pos => exact Nat.le_add_left 1 _
  case column => exact ⟨_, lineStart_encode habove hline back, byteCount_append above line⟩

theorem utf8_eq_encode (source : String) : utf8 source = encode source.toList := by
  rw [utf8, String.toUTF8_eq_toByteArray, ← String.utf8Encode_toList, List.utf8Encode,
    List.data_toByteArray, List.toList_toArray, encode]

theorem utf8ByteSize_eq_byteCount (source : String) :
    source.utf8ByteSize = byteCount source.toList := by
  rw [← length_encode, ← utf8_eq_encode, utf8, String.toUTF8_eq_toByteArray, Array.length_toList,
    ByteArray.size_data, String.size_toByteArray]

/-- A place in a text parts its characters. -/
theorem exists_append_of_place {source : String} (place : source.Pos) :
    ∃ front back, source.toList = front ++ back ∧ place.offset.byteIdx = byteCount front := by
  obtain ⟨front, back, hsource, hoffset⟩ :=
    String.Pos.Raw.isValid_iff_exists_append.mp place.isValid
  refine ⟨front.toList, back.toList, ?_, ?_⟩
  · rw [hsource, String.toList_append]
  · rw [hoffset, String.byteIdx_rawEndPos, utf8ByteSize_eq_byteCount]

theorem marks_place {source : String} (place : source.Pos) :
    Marks (utf8 source) place.offset.byteIdx (position source place.offset.byteIdx).1
      (position source place.offset.byteIdx).2 := by
  obtain ⟨front, back, hsource, hoffset⟩ := exists_append_of_place place
  rw [utf8_eq_encode, position, hsource, hoffset, before_append]
  exact marks_encode front back

/-- An offset beyond the end counts as the end. -/
theorem position_beyond {source : String} {offset : Nat} (h : source.utf8ByteSize ≤ offset) :
    position source offset = position source source.utf8ByteSize := by
  rw [utf8ByteSize_eq_byteCount] at h ⊢
  rw [position, position, before_of_le h, before_of_le (Nat.le_refl _)]

/-- The position of a place is the line and the column that mark it. -/
theorem position_eq_iff {source : String} (place : source.Pos) (line column : Nat) :
    position source place.offset.byteIdx = (line, column) ↔
      Marks (utf8 source) place.offset.byteIdx line column := by
  constructor
  · intro h
    have hmarks := marks_place place
    rwa [h] at hmarks
  · exact (marks_place place).unique

-- Behind a letter of two bytes the column is the third.
example : position "é\n\nb" 2 = (1, 3) := by decide

/-- A later place has a later position. -/
theorem position_lt {source : String} {first second : source.Pos} (h : first < second) :
    toLex (position source first.offset.byteIdx) < toLex (position source second.offset.byteIdx) :=
  (marks_place first).lt (marks_place second) (String.Pos.lt_iff.mp h)

/-- No two places share a position. -/
theorem position_injective (source : String) :
    Function.Injective fun place : source.Pos => position source place.offset.byteIdx := by
  intro first second heq
  rcases Nat.lt_trichotomy first.offset.byteIdx second.offset.byteIdx with h | h | h
  · exact absurd (congrArg toLex heq) (position_lt (String.Pos.lt_iff.mpr h)).ne
  · exact String.Pos.ext (String.Pos.Raw.ext h)
  · exact absurd (congrArg toLex heq) (position_lt (String.Pos.lt_iff.mpr h)).ne'

/-- Every place has the line and the column that mark it as its position, which no other place has,
and what is beyond the end has the position of the end. -/
theorem places_by_position (source : String) :
    (∀ (place : source.Pos) (line column : Nat),
      position source place.offset.byteIdx = (line, column) ↔
        Marks (utf8 source) place.offset.byteIdx line column) ∧
      (∀ offset line column, source.utf8ByteSize ≤ offset →
        (position source offset = (line, column) ↔
        Marks (utf8 source) source.utf8ByteSize line column)) ∧
      Function.Injective fun place : source.Pos => position source place.offset.byteIdx := by
  refine ⟨position_eq_iff, fun offset line column hbeyond => ?_, position_injective source⟩
  rw [position_beyond hbeyond]
  exact position_eq_iff source.endPos line column

/-- An accented letter, which has two bytes, an empty line and another letter. -/
def accented : String := "é\n\nb"

theorem places_by_position_accented :
    accented.utf8ByteSize ≤ 9 ∧ Marks (utf8 accented) accented.utf8ByteSize 3 2 ∧
    Marks (utf8 accented) 3 2 1 :=
  have hbeyond : accented.utf8ByteSize ≤ 9 := by decide
  ⟨hbeyond, ((places_by_position accented).2.1 9 3 2 hbeyond).mp (by decide),
    ((places_by_position accented).1 ⟨⟨3⟩, by decide⟩ 2 1).mp (by decide)⟩

end TuningBridge.Text
