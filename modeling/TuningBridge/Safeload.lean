import TuningBridge.Chip

/-!
# Safeload

A safeload stages up to five words in registers of the chip and then tells the chip to take all of
them over at once.  The two families stage differently: `adau14xx` holds the words, one target
address and a count; `adau1x0x` holds a target address for every word, and a bit of its control
register starts the transfer.
-/

namespace TuningBridge.Safeload

/-- The number of words that a chip stages. -/
def capacity : Nat := 5

/-- The staging registers for words of `adau14xx`. -/
def dataRegisters : List UInt16 := [0x6000, 0x6001, 0x6002, 0x6003, 0x6004]

/-- The register for the target address of `adau14xx`. -/
def addressRegister : UInt16 := 0x6005

/-- The register for the number of words of `adau14xx`; writing it starts the transfer. -/
def countRegister : UInt16 := 0x6006

/-- The staging registers of `adau1x0x`, an address register and a data register for every word. -/
def slots : List (UInt16 × UInt16) :=
  [(0x0815, 0x0810), (0x0816, 0x0811), (0x0817, 0x0812), (0x0818, 0x0813), (0x0819, 0x0814)]

/-- The core control register of `adau1x0x`. -/
def controlRegister : UInt16 := 0x081C

/-- The bit of core control that starts the transfer. -/
def transferBit : UInt16 := 0x0020

/-- The contents of a 40-bit data slot: a zero byte, and the word padded with zeros on the right. -/
def slotData (word : Bytes) : Bytes := 0 :: Bytes.fit 4 word

/-- The staging writes of `adau14xx`: words as they are, address and count as whole words. -/
def softwareWrites (address : UInt16) (data : Bytes) : List (UInt16 × Bytes) :=
  dataRegisters.zip (Bytes.words data) ++
    [(addressRegister, Bytes.ofNat 4 address.toNat),
      (countRegister, Bytes.ofNat 4 (Bytes.wordCount data))]

/-- The staging writes of `adau1x0x`: for every word its target address and its contents. -/
def hardwareWrites (address : UInt16) (data : Bytes) : List (UInt16 × Bytes) :=
  ((Bytes.words data).zipIdx.zip slots).flatMap
    fun ((word, index), (addressSlot, dataSlot)) =>
      [(addressSlot, Bytes.ofUInt16 (address + UInt16.ofNat index)), (dataSlot, slotData word)]

/-- Start the transfer of `adau1x0x`: set the transfer bit and keep the other bits of core
control. -/
def startTransfer : ChipM Unit := do
  let control ← ChipM.readUInt16 controlRegister
  ChipM.write controlRegister (Bytes.ofUInt16 (control ||| transferBit))

/-- Hand data to the chip through its staging registers; more words than the chip stages are refused
before anything is written. -/
def run (address : UInt16) (data : Bytes) : ChipM Unit := do
  if capacity < Bytes.wordCount data then
    throw (.safeloadCapacityExceeded (Bytes.wordCount data) capacity)
  match (← get).family with
  | .adau14xx =>
    (softwareWrites address data).forM fun (register, word) => ChipM.write register word
  | .adau1x0x => do
    (hardwareWrites address data).forM fun (register, word) => ChipM.write register word
    startTransfer

end TuningBridge.Safeload
