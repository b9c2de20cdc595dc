import TuningBridge.Proofs.Replay

/-!
# Writes that are interrupted

A register write on a bus sends the frames that it sends on a bus that never fails, up to the first
one that fails, and that is the last one it attempts.  The payloads transferred so far are the
beginning of the data, and their length is the count of applied bytes in the one error that is
reported; a write that is transferred as a whole reports none.
-/

namespace TuningBridge

/-- The errors among events. -/
def Event.errors (events : List Event) : List Event :=
  events.filter fun event => event.severity = .error

namespace Port

theorem severity_sendingEvent (port : Port) (frame : Bytes) :
    (port.sendingEvent frame).severity = .debug := by
  cases port <;> rfl

theorem severity_writeFailure (port : Port) (chunk : UInt16) (applied total : Nat)
    (address : UInt16) : (port.writeFailure chunk applied total address).severity = .error := by
  cases port <;> rfl

end Port

namespace Transport

/-- To send frames is no error. -/
theorem errors_map_sendingEvent (port : Port) (chunks : List Chunk) :
    Event.errors (chunks.map fun chunk => port.sendingEvent (port.frame chunk)) = [] := by
  rw [Event.errors, List.filter_eq_nil_iff]
  intro event hevent
  obtain ⟨chunk, _, rfl⟩ := List.mem_map.mp hevent
  rw [port.severity_sendingEvent]
  decide

/-- A write reports the frame that fails and the number of bytes that are applied, or nothing if
none fails. -/
theorem errors_writeEvents (port : Port) (address : UInt16) (total : Nat) (chunks : List Chunk)
    (done : Nat) :
    Event.errors (writeEvents port address total chunks done) =
      (chunks[done]?).toList.map fun failed =>
        port.writeFailure failed.address ((chunks.take done).flatMap (·.payload)).length
          total address := by
  have hsending := errors_map_sendingEvent port (chunks.take (done + 1))
  rw [writeEvents]
  split
  · next hnone => rw [hsending, hnone, Option.toList_none, List.map_nil]
  · next failed hfailed =>
    rw [Event.errors] at hsending
    rw [Event.errors, List.filter_append, hsending, hfailed, List.nil_append, Option.toList_some,
      List.map_singleton, List.filter_cons_of_pos, List.filter_nil]
    exact decide_eq_true (port.severity_writeFailure ..)

/-- The payloads of the first chunks of a write are the beginning of its data. -/
theorem payload_take_prefix (address : UInt16) (data : Bytes) (words done : Nat) :
    ((Chunk.ofWrite address data words).take done).flatMap (·.payload) <+: data := by
  have hall := Chunk.flatMap_payload_ofWrite address data words
  rw [← List.take_append_drop done (Chunk.ofWrite address data words), List.flatMap_append] at hall
  exact ⟨_, hall⟩

/-- A write is transferred up to the first frame that is planned to fail, and nothing is attempted
behind that one.  What is applied is the beginning of the data, and its length is reported with the
failure, if there is one. -/
theorem write_stops_at_first_failure (port : Port) (words : Nat) (wire : Wire) (address : UInt16)
    (data : Bytes) :
    ∃ (frames : List Transaction) (chunks : List Chunk) (done : Nat) (next : Wire)
      (events : List Event),
      (∀ steady : Wire, (∀ index, steady.fails index = false) → ∃ after,
        ((bus port words steady).write address data).2 = .bus port words after ∧
          after.traffic.toList = steady.traffic.toList ++ frames.map (⟨·, true⟩)) ∧
      frames.map port.chunk? = chunks.map some ∧
      (bus port words wire).write address data = (events, .bus port words next) ∧
      wire.StopsAfter frames.length done ∧
      next.traffic.toList = wire.traffic.toList ++ Transfer.upTo frames done ∧
      (chunks.take done).flatMap (·.payload) <+: data ∧
      Event.errors events = (chunks[done]?).toList.map fun failed =>
        port.writeFailure failed.address ((chunks.take done).flatMap (·.payload)).length
          data.length address := by
  obtain ⟨done, next, hwrite, hcarries, hstops⟩ := exists_write port words wire (address, data)
  refine ⟨port.transactions words (address, data), Chunk.ofWrite address data words, done,
    next, _, ?_, ?_, hwrite, hstops, hcarries.traffic, payload_take_prefix address data words done,
    errors_writeEvents ..⟩
  · intro steady hsteady
    exact exists_write_of_never_fails hsteady port words address data
  · exact port.map_chunk?_transactions words (address, data)

-- The second of three frames fails: four bytes are applied, and the third frame is not attempted.
example :
    let failing := bus .spi 1 { fails := (· == 1) }
    Event.errors (failing.write 0x20 [1, 2, 3, 4, 5, 6, 7, 8, 9, 10, 11, 12]).1 =
      [.spiWriteFailed 0x21 4 12 0x20] := by decide +kernel

end Transport

end TuningBridge
