import TuningBridge.Safeload

/-!
# Parameters

A parameter is one register word, read and written as an integer or as a fixed-point number in the
format of the chip's family.
-/

namespace TuningBridge

/-- How a parameter register is read. -/
inductive ParameterKind
  | float
  | int
  deriving DecidableEq, Repr

/-- The value of a parameter. -/
inductive Parameter
  | float (value : Binary64)
  | int (value : UInt32)
  deriving DecidableEq, Repr

namespace Parameter

/-- The fixed-point steps of a number. -/
def steps (format : FixedPoint) (value : Binary64) : Except Error Int :=
  match format.encode? value with
  | some steps => .ok steps
  | none => .error (.fixedPointOverflow value format)

/-- The number of a count of fixed-point steps. -/
def ofSteps (format : FixedPoint) (steps : Int) : Except Error Binary64 :=
  match format.decode? steps with
  | some value => .ok value
  | none => .error (.fixedPointOverflow (Binary64.ofScaled steps 0) format)

/-- The register word of a number. -/
def encode (format : FixedPoint) (value : Binary64) : Except Error UInt32 :=
  (steps format value).map FixedPoint.word

/-- The number in a register word. -/
def decode (format : FixedPoint) (word : UInt32) : Except Error Binary64 :=
  ofSteps format (format.signExtend word)

/-- The register word of a parameter. -/
def word (format : FixedPoint) : Parameter → Except Error UInt32
  | float value => encode format value
  | int value => .ok value

end Parameter

namespace ChipM

/-- The parameter format of the chip. -/
def fixedPoint : ChipM FixedPoint := return (← get).family.fixedPoint

/-- Read a parameter. -/
def getParameter (address : UInt16) (kind : ParameterKind) : ChipM Parameter := do
  let word ← readUInt32 address
  match kind with
  | .int => pure (.int word)
  | .float => pure (.float (← MonadExcept.ofExcept (Parameter.decode (← fixedPoint) word)))

/-- Read a parameter as a gain. -/
def getGain (address : UInt16) : ChipM Binary64 := do
  let word ← readUInt32 address
  MonadExcept.ofExcept (Parameter.decode (← fixedPoint) word)

/-- Write a parameter word, through safeload where the chip is set up for it. -/
def setWord (address : UInt16) (word : UInt32) : ChipM Unit := do
  if (← get).useSafeload then Safeload.run address (Bytes.ofUInt32 word)
  else write address (Bytes.ofUInt32 word)

/-- Write a parameter. -/
def setParameter (address : UInt16) (value : Parameter) : ChipM Unit := do
  setWord address (← MonadExcept.ofExcept (value.word (← fixedPoint)))

end ChipM

end TuningBridge
