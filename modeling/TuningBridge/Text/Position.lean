/-!
# Text positions

The line and the column of a byte offset in a text, both counted from one; columns count bytes.
-/

namespace TuningBridge.Text

/-- The characters in front of a byte offset; an offset beyond the end counts as the end. -/
def before (offset : Nat) : List Char → List Char
  | [] => []
  | char :: rest =>
    if char.utf8Size ≤ offset then char :: before (offset - char.utf8Size) rest else []

/-- The number of bytes that characters take. -/
def byteCount : List Char → Nat
  | [] => 0
  | char :: rest => char.utf8Size + byteCount rest

/-- The line and the column of a byte offset. -/
def position (source : String) (offset : Nat) : Nat × Nat :=
  let chars := before offset source.toList
  let line := chars.reverse.takeWhile (· ≠ '\n')
  (chars.count '\n' + 1, byteCount line + 1)

@[simp] theorem byteCount_nil : byteCount [] = 0 := rfl

@[simp] theorem byteCount_cons (char : Char) (rest : List Char) :
    byteCount (char :: rest) = char.utf8Size + byteCount rest := rfl

/-- The bytes of characters in two parts are those of both. -/
@[simp] theorem byteCount_append (front back : List Char) :
    byteCount (front ++ back) = byteCount front + byteCount back := by
  induction front with
  | nil => rw [List.nil_append, byteCount_nil, Nat.zero_add]
  | cons char front ih => rw [List.cons_append, byteCount_cons, byteCount_cons, ih, Nat.add_assoc]

/-- The order of characters does not change the number of their bytes. -/
@[simp] theorem byteCount_reverse (chars : List Char) :
    byteCount chars.reverse = byteCount chars := by
  induction chars with
  | nil => rfl
  | cons char rest ih =>
    rw [List.reverse_cons, byteCount_append, ih, byteCount_cons, byteCount_cons,
      byteCount_nil, Nat.add_zero, Nat.add_comm]

/-- An offset between two characters parts those in front of it from those behind it. -/
theorem before_append (front back : List Char) :
    before (byteCount front) (front ++ back) = front := by
  induction front with
  | nil =>
    cases back with
    | nil => rfl
    | cons char back => exact if_neg (Nat.not_le.mpr char.utf8Size_pos)
  | cons char front ih =>
    rw [List.cons_append, byteCount_cons, before, if_pos (Nat.le_add_right _ _),
      Nat.add_sub_cancel_left, ih]

/-- All characters are in front of an offset beyond the end. -/
theorem before_of_le {chars : List Char} {offset : Nat} (h : byteCount chars ≤ offset) :
    before offset chars = chars := by
  induction chars generalizing offset with
  | nil => rfl
  | cons char rest ih =>
    rw [byteCount_cons] at h
    rw [before, if_pos (Nat.le_trans (Nat.le_add_right _ _) h), ih (Nat.le_sub_of_add_le' h)]

end TuningBridge.Text
