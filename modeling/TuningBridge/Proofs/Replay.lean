import TuningBridge.Proofs.Device
import TuningBridge.Proofs.Frames
import TuningBridge.Proofs.Numeral

/-!
# Writes replayed from their frames

A frame says to which register its payload goes, and over either kind of bus the frames of a write
say the same.  Storing the payloads of whole words one after the other leaves a register map as a
bank is left by the write itself: cutting data into chunks changes neither its words nor the
registers that they go to, not even where the addresses wrap around and later words replace earlier
ones.
-/

namespace TuningBridge

namespace Port

/-- What a transaction writes through a port, as its frame says: behind the direction byte of SPI,
or sent to the device over I2C, the register address and then the payload. -/
def chunk? : Port → Transaction → Option Chunk
  | spi, .spiWrite (0 :: high :: low :: payload) =>
    some ⟨UInt16.ofNat (Bytes.toNat [high, low]), payload⟩
  | i2c device, .i2cWrite other (high :: low :: payload) =>
    if other = device then some ⟨UInt16.ofNat (Bytes.toNat [high, low]), payload⟩ else none
  | _, _ => none

/-- The frame of a chunk says what the chunk is. -/
theorem chunk?_sending (port : Port) (chunk : Chunk) :
    port.chunk? (port.sending (port.frame chunk)) = some chunk := by
  obtain ⟨address, payload⟩ := chunk
  have haddress : UInt16.ofNat (Bytes.toNat (Bytes.ofUInt16 address)) = address :=
    Bytes.toUInt16_ofNat (Nat.le_refl 2) address
  obtain ⟨high, low, hbytes⟩ : ∃ high low, Bytes.ofUInt16 address = [high, low] := ⟨_, _, rfl⟩
  rw [hbytes] at haddress
  cases port <;> simp [sending, frame, header, hbytes, chunk?, haddress]

/-- The frames of a write say what its chunks are. -/
theorem map_chunk?_transactions (port : Port) (words : Nat) (write : UInt16 × Bytes) :
    (port.transactions words write).map port.chunk? =
      (Chunk.ofWrite write.1 write.2 words).map some := by
  rw [transactions, List.map_map]
  exact List.map_congr_left fun chunk _ => port.chunk?_sending chunk

end Port

namespace RegisterMap

/-- Store the payloads of chunks, one after the other. -/
def replay (map : RegisterMap) (chunks : List Chunk) : RegisterMap :=
  chunks.foldl (fun map chunk => map.store chunk.address chunk.payload) map

/-- Storing payloads puts them into the registers that they go to. -/
theorem replay_eq_puts (map : RegisterMap) (chunks : List Chunk) :
    map.replay chunks = map.puts
      (chunks.flatMap fun chunk => spread chunk.address chunk.payload) := by
  induction chunks generalizing map with
  | nil => rfl
  | cons chunk rest ih =>
    rw [List.flatMap_cons, puts_append, ← store_eq_puts]
    exact ih _

/-- The words of all parts of data go to the registers that the words of the data go to. -/
private theorem flatMap_spread_split {words : Nat} {address : UInt16} {data : Bytes}
    (hwhole : data.length % 4 = 0) (hne : data ≠ []) :
    (Chunk.split words address data).flatMap (fun chunk => spread chunk.address chunk.payload) =
      spread address data := by
  fun_induction Chunk.split words address data with
  | case1 address data length hrest hempty => exact absurd (List.isEmpty_iff.mp hempty) hne
  | case2 address data length hrest hempty => rw [List.flatMap_singleton]
  | case3 address data length hrest ih =>
    have hrest : data.drop (4 * (words + 1)) ≠ [] := fun h => hrest (List.isEmpty_iff.mpr h)
    have hlong : 4 * (words + 1) < data.length := by
      rwa [Ne, List.drop_eq_nil_iff, Nat.not_le] at hrest
    have hrestWhole : (data.drop (4 * (words + 1))).length % 4 = 0 := by
      rw [List.length_drop]
      omega
    have hfirst : (data.take (4 * (words + 1))).length = 4 * (words + 1) :=
      List.length_take_of_le (Nat.le_of_lt hlong)
    have hspread := spread_append hfirst (Nat.succ_pos words) hrestWhole hrest address
    rw [List.take_append_drop] at hspread
    rw [List.flatMap_cons, ih hrestWhole hrest]
    exact hspread.symm

/-- A map to which the chunks of a write are stored has the data of the write stored to it. -/
theorem replay_ofWrite (map : RegisterMap) (address : UInt16) {data : Bytes} (words : Nat)
    (hwhole : data.length % 4 = 0) (hne : data ≠ []) :
    map.replay (Chunk.ofWrite address data words) = map.store address data := by
  rw [replay_eq_puts, store_eq_puts, Chunk.ofWrite]
  split
  · have hempty : data.isEmpty = false := List.isEmpty_eq_false_iff.mpr hne
    rw [hempty, if_neg Bool.false_ne_true, List.flatMap_singleton]
  · rw [flatMap_spread_split hwhole hne]

end RegisterMap

/-- A bus that never fails transfers all frames of a write. -/
theorem Transport.exists_write_of_never_fails {wire : Wire}
    (hfails : ∀ index, wire.fails index = false) (port : Port) (words : Nat) (address : UInt16)
    (data : Bytes) :
    ∃ next, ((bus port words wire).write address data).2 = .bus port words next ∧
      next.traffic.toList =
        wire.traffic.toList ++ (port.transactions words (address, data)).map (⟨·, true⟩) := by
  obtain ⟨done, next, hwrite, hcarries, hstops⟩ := exists_write port words wire (address, data)
  refine ⟨next, congrArg Prod.snd hwrite, ?_⟩
  rw [hcarries.traffic, hstops.eq_of_never_fails hfails, Transfer.upTo_length]

/-- On a bus that never fails the frames of a write are, over SPI and over I2C alike, those of the
same chunks; where the data consists of whole words, storing them one after the other into the
registers of a bank leaves these as the write itself leaves them. -/
theorem replayed_write {wire : Wire} (hfails : ∀ index, wire.fails index = false) (words : Nat)
    (address : UInt16) (data : Bytes) :
    ∃ chunks : List Chunk,
      (∀ port, ∃ (sent : List Transaction) (next : Wire),
        ((Transport.bus port words wire).write address data).2 = .bus port words next ∧
        next.traffic.toList = wire.traffic.toList ++ sent.map (⟨·, true⟩) ∧
        sent.map port.chunk? = chunks.map some) ∧
      (data.length % 4 = 0 → data ≠ [] → ∀ bank : Bank,
        bank.registers.replay chunks = (bank.write address data).registers) := by
  refine ⟨Chunk.ofWrite address data words, fun port => ?_, fun hwhole hne bank => ?_⟩
  · obtain ⟨next, hwrite, htraffic⟩ :=
      Transport.exists_write_of_never_fails hfails port words address data
    exact ⟨port.transactions words (address, data), next, hwrite, htraffic,
      port.map_chunk?_transactions words (address, data)⟩
  · rw [RegisterMap.replay_ofWrite _ _ _ hwhole hne, RegisterMap.store_eq_puts,
      Bank.registers_write]

/-- Five words. -/
def fiveWords : Bytes := [1, 2, 3, 4, 5, 6, 7, 8, 9, 10, 11, 12, 13, 14, 15, 16, 17, 18, 19, 20]

/-- Five words from the last register on, in frames of two words. -/
theorem replayed_write_wrapping :
    (∀ index, ({} : Wire).fails index = false) ∧ fiveWords.length % 4 = 0 ∧ fiveWords ≠ [] ∧
    ∃ chunks : List Chunk,
      (∀ port, ∃ (sent : List Transaction) (next : Wire),
        ((Transport.bus port 2 {}).write 0xFFFF fiveWords).2 = .bus port 2 next ∧
        next.traffic.toList = ({} : Wire).traffic.toList ++ sent.map (⟨·, true⟩) ∧
        sent.map port.chunk? = chunks.map some) ∧
      ∀ bank : Bank, bank.registers.replay chunks = (bank.write 0xFFFF fiveWords).registers := by
  have hwhole : fiveWords.length % 4 = 0 := by decide
  have hne : fiveWords ≠ [] := by decide
  obtain ⟨chunks, hframes, hreplay⟩ := @replayed_write {} (fun _ => rfl) 2 0xFFFF fiveWords
  exact ⟨fun _ => rfl, hwhole, hne, chunks, hframes, hreplay hwhole hne⟩

end TuningBridge
