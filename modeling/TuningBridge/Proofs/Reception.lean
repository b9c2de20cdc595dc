import Mathlib.Data.List.Basic
import TuningBridge.Proofs.Delivery
import TuningBridge.Proofs.WellFormed
import TuningBridge.Session

/-!
# Receiving packets

A stream that is not cut off starts with a well-formed packet, with a byte that names no operation,
or with a header that declares more than the limit.  Receiving tells these cases apart whatever the
pieces are in which the stream arrives: it takes exactly the bytes of the packet, or fails with the
cause, and a stream that ends before that meets the end of the link.
-/

namespace TuningBridge

/-- The end of a stream inside a packet: the stream is empty, or a part of a packet that lacks the
end.  Once the header is complete the packet keeps to the limit. -/
def Packet.Cut (family : Family) (limit : Nat) (stream : Bytes) : Prop :=
  stream = [] ∨ ∃ packet : Packet, ∃ bound, packet.WellFormed family bound ∧
    stream <+: packet.bytes ∧ stream ≠ packet.bytes ∧
      (packet.header.bytes <+: stream → packet.WellFormed family limit)

/-- What receiving one packet from a stream gives, and what it leaves of the stream, where the end
of the stream is met with the error `closing`. -/
inductive Reception (family : Family) (limit : Nat) (closing : Error) :
    Bytes → Except Error Packet → Bytes → Prop
  | packet {packet : Packet} (rest : Bytes) : packet.WellFormed family limit →
    Reception family limit closing (packet.bytes ++ rest) (.ok packet) rest
  | unknown {code : UInt8} (rest : Bytes) : Operation.ofCode? code = none →
    Reception family limit closing (code :: rest) (.error (.unknownOperation code)) rest
  | oversized {header : Header} {operation : Operation} (rest : Bytes) :
    header.Valid family operation → limit < header.number .dataLength →
    Reception family limit closing (header.bytes ++ rest)
      (.error (.payloadTooLarge (header.number .dataLength) limit)) rest
  | cut {stream : Bytes} : Packet.Cut family limit stream →
    Reception family limit closing stream (.error closing) []

namespace Session

/-- The session behind a number of bytes. -/
def skip (session : Session) (count : Nat) : Session :=
  { session with link := session.link.skip count }

/-- The session behind a number of bytes that start with a header. -/
def past (session : Session) (header : Header) (count : Nat) : Session :=
  { session.skip count with journal := session.journal.push (.headerReceived header.bytes) }

@[simp] theorem worker_skip (session : Session) (count : Nat) :
    (session.skip count).worker = session.worker := rfl

/-- Skipping bytes drops them from the stream of a session. -/
@[simp] theorem stream_skip (session : Session) (count : Nat) :
    (session.skip count).link.stream = session.link.stream.drop count :=
  Link.stream_skip

@[simp] theorem skip_skip (session : Session) (first second : Nat) :
    (session.skip first).skip second = session.skip (first + second) := by
  simp [skip]

@[simp] theorem skip_past (session : Session) (header : Header) (first second : Nat) :
    (session.past header first).skip second = session.past header (first + second) := by
  simp [past, skip]

@[simp] theorem stream_past (session : Session) (header : Header) (count : Nat) :
    (session.past header count).link.stream = session.link.stream.drop count :=
  Link.stream_skip

/-- What receiving a packet gives, and what is left of the stream. -/
def received (session : Session) : Except Error Packet × Bytes :=
  match SessionM.receivePacket.run session with
  | .ok packet after => (.ok packet, after.link.stream)
  | .error error after => (.error error, after.link.stream)

end Session

namespace Reception

variable {family : Family} {limit : Nat} {closing : Error} {stream left : Bytes}

/-- A stream whose first header is complete starts with a packet, declares too much or is cut
off. -/
private theorem exists_of_header {header : Header} {operation : Operation}
    (h : header.Valid family operation) (rest : Bytes) :
    ∃ outcome left, Reception family limit closing (header.bytes ++ rest) outcome left := by
  by_cases hlimit : header.number .dataLength ≤ limit
  · let length := operation.payloadLength (header.number .dataLength)
    by_cases hlength : length ≤ rest.length
    · have htake : (rest.take length).length = length := by
        rw [List.length_take, Nat.min_eq_left hlength]
      have hformed : Packet.WellFormed ⟨header, rest.take length⟩ family limit :=
        ⟨⟨operation, h, htake⟩, hlimit⟩
      have hsplit : header.bytes ++ rest =
          Packet.bytes ⟨header, rest.take length⟩ ++ rest.drop length := by
        rw [Packet.bytes, List.append_assoc, List.take_append_drop]
      rw [hsplit]
      exact ⟨_, _, .packet (rest.drop length) hformed⟩
    · let packet : Packet := ⟨header, rest ++ Bytes.zeros (length - rest.length)⟩
      have hpayload : packet.payload.length = length := by
        simp only [packet, Bytes.zeros, List.length_append, List.length_replicate]
        omega
      have hformed : packet.WellFormed family limit := ⟨⟨operation, h, hpayload⟩, hlimit⟩
      have hbytes : packet.bytes = (header.bytes ++ rest) ++
          Bytes.zeros (length - rest.length) := by
        rw [Packet.bytes, List.append_assoc]
      refine ⟨_, _, .cut (.inr ⟨packet, limit, hformed, ?_, ?_, fun _ => hformed⟩)⟩
      · exact hbytes ▸ List.prefix_append _ _
      · intro heq
        have hcount := congrArg List.length (heq.trans hbytes)
        simp only [Bytes.zeros, List.length_append, List.length_replicate] at hcount
        omega
  · exact ⟨_, _, .oversized rest h (not_le.mp hlimit)⟩

/-- A stream that ends inside its first header is cut off. -/
private theorem cut_of_length_lt {code : UInt8} {operation : Operation} {rest : Bytes}
    (hcode : Operation.ofCode? code = some operation)
    (hlt : (code :: rest).length < family.headerLength operation) :
    Packet.Cut family limit (code :: rest) := by
  let padding := Bytes.zeros (family.headerLength operation - (code :: rest).length)
  have hlength : (code :: rest ++ padding).length = family.headerLength operation := by
    simp only [padding, Bytes.zeros, List.length_append, List.length_replicate]
    omega
  have hhead : (code :: rest ++ padding).head? = some operation.code := by
    rw [Operation.code_of_ofCode? hcode]
    rfl
  obtain ⟨header, hvalid, hbytes⟩ := Header.exists_valid hlength hhead
  let payload := Bytes.zeros (operation.payloadLength (header.number .dataLength))
  have hformed : Packet.WellFormed ⟨header, payload⟩ family (header.number .dataLength) :=
    ⟨⟨operation, hvalid, List.length_replicate⟩, le_rfl⟩
  have hbegins : code :: rest <+: header.bytes := hbytes ▸ List.prefix_append _ _
  have hshort : (code :: rest).length < header.bytes.length := hbytes ▸ hlength ▸ hlt
  refine .inr ⟨⟨header, payload⟩, _, hformed, ?_, ?_, ?_⟩
  · exact hbegins.trans (List.prefix_append _ _)
  · intro heq
    have hcount : (code :: rest).length = header.bytes.length + payload.length := by
      rw [heq, Packet.bytes, List.length_append]
    omega
  · intro hcomplete
    have hcount : header.bytes.length ≤ (code :: rest).length := hcomplete.length_le
    omega

/-- Every stream is received in one of the four ways. -/
theorem exists_reception (stream : Bytes) :
    ∃ outcome left, Reception family limit closing stream outcome left := by
  cases stream with
  | nil => exact ⟨_, _, .cut (.inl rfl)⟩
  | cons code rest =>
    cases hcode : Operation.ofCode? code with
    | none => exact ⟨_, _, .unknown rest hcode⟩
    | some operation =>
      by_cases hlt : (code :: rest).length < family.headerLength operation
      · exact ⟨_, _, .cut (cut_of_length_lt hcode hlt)⟩
      · have hlength : ((code :: rest).take (family.headerLength operation)).length =
            family.headerLength operation := by
          rw [List.length_take, Nat.min_eq_left (not_lt.mp hlt)]
        have hhead : ((code :: rest).take (family.headerLength operation)).head? =
            some operation.code := by
          rw [Operation.code_of_ofCode? hcode, List.head?_take,
            if_neg (family.headerLength_pos operation).ne']
          rfl
        obtain ⟨header, hvalid, hbytes⟩ := Header.exists_valid hlength hhead
        rw [← List.take_append_drop (family.headerLength operation) (code :: rest), ← hbytes]
        exact exists_of_header hvalid _

/-- A packet is received just if the stream starts with it and it is well-formed. -/
theorem ok_iff {packet : Packet} : Reception family limit closing stream (.ok packet) left ↔
    packet.WellFormed family limit ∧ stream = packet.bytes ++ left := by
  constructor
  · rintro (⟨_, hformed⟩)
    exact ⟨hformed, rfl⟩
  · rintro ⟨hformed, rfl⟩
    exact .packet left hformed

/-- An operation is unknown just if the first byte stands for none. -/
theorem unknown_iff {code : UInt8} :
    (∃ left, Reception family limit .connectionClosed stream
      (.error (.unknownOperation code)) left) ↔
      stream.head? = some code ∧ code ≠ 0x09 ∧ code ≠ 0x0A ∧ code ≠ 0x0B := by
  rw [← Operation.ofCode?_eq_none_iff]
  constructor
  · rintro ⟨left, _ | ⟨_, hcode⟩⟩
    exact ⟨rfl, hcode⟩
  · rintro ⟨hhead, hcode⟩
    obtain ⟨rest, rfl⟩ := List.head?_eq_some_iff.mp hhead
    exact ⟨rest, .unknown rest hcode⟩

/-- The payload is too large just if the stream starts with a header that declares more than the
limit. -/
theorem oversized_iff {length bound : Nat} :
    (∃ left, Reception family limit .connectionClosed stream
      (.error (.payloadTooLarge length bound)) left) ↔
      bound = limit ∧ limit < length ∧ ∃ header : Header, ∃ operation,
      header.Valid family operation ∧
        header.bytes <+: stream ∧ header.number .dataLength = length := by
  constructor
  · rintro ⟨left, _ | _ | ⟨_, hvalid, hlt⟩⟩
    exact ⟨rfl, hlt, _, _, hvalid, List.prefix_append _ _, rfl⟩
  · rintro ⟨rfl, hlt, header, operation, hvalid, ⟨rest, rfl⟩, rfl⟩
    exact ⟨rest, .oversized rest hvalid hlt⟩

/-- The link is closed just if the stream ends inside a packet. -/
theorem closed_iff :
    (∃ left, Reception family limit .connectionClosed stream (.error .connectionClosed) left) ↔
      Packet.Cut family limit stream := by
  constructor
  · rintro ⟨left, _ | _ | _ | hcut⟩
    exact hcut
  · exact fun hcut => ⟨[], .cut hcut⟩

end Reception

namespace SessionM

open Actions

variable {session : Session} {header : Header} {operation : Operation} {rest : Bytes}

theorem run_note (event : Event) : (note event).run session =
    .ok () { session with journal := session.journal.push event } := rfl

/-- As many bytes as there are can be received. -/
theorem run_receive_of_le {count : Nat} (h : count ≤ session.link.stream.length) :
    (receive count).run session = .ok (session.link.stream.take count) (session.skip count) := by
  simp [receive, Link.receive_of_le h, Session.skip]

/-- More bytes than there are meet the end of the link. -/
theorem run_receive_of_lt {count : Nat} (h : session.link.stream.length < count) :
    (receive count).run session = .error session.link.ending.toError (session.skip count) := by
  simp [receive, Link.receive_of_lt h, Session.skip]

theorem run_checkLength_of_le {length : Nat} (h : length ≤ session.payloadLimit) :
    (checkLength length).run session = .ok () session := by
  simp [checkLength, not_lt.mpr h]

theorem run_checkLength_of_lt {length : Nat} (h : session.payloadLimit < length) :
    (checkLength length).run session =
      .error (.payloadTooLarge length session.payloadLimit) session := by
  simp [checkLength, h]

/-- The first byte is read by itself. -/
private theorem run_receive_one {code : UInt8} (h : session.link.stream = code :: rest) :
    (receive 1).run session = .ok [code] (session.skip 1) := by
  rw [run_receive_of_le (by simp [h]), h]
  rfl

/-- The first byte of a valid header selects a layout that has room for its other bytes and reads
it. -/
private theorem exists_blank {family : Family} (h : header.Valid family operation) :
    ∃ tail blank, header.bytes = operation.code :: tail ∧
      family.headerOfCode operation.code none = .ok blank ∧ blank.size - 1 = tail.length ∧
      blank.parse header.bytes = (.ok (), header) := by
  obtain ⟨tail, htail⟩ := h.bytes_eq_cons
  obtain ⟨blank, hblank, hlayout⟩ := family.headerOfCode_code operation
  refine ⟨tail, blank, htail, hblank, ?_, h.parse_bytes hlayout⟩
  rw [Header.size_eq_headerLength hlayout, ← h.length_bytes, htail, List.length_cons,
    Nat.add_sub_cancel]

/-- A complete header is read as it was written. -/
theorem run_receiveHeader (h : header.Valid session.worker.family operation)
    (hs : session.link.stream = header.bytes ++ rest) :
    receiveHeader.run session = .ok header (session.past header header.bytes.length) := by
  obtain ⟨tail, blank, htail, hblank, hsize, hparse⟩ := exists_blank h
  have hfirst : (receive 1).run session = .ok [operation.code] (session.skip 1) :=
    run_receive_one (by rw [hs, htail, List.cons_append])
  have hstream : (session.skip 1).link.stream = tail ++ rest := by
    rw [Session.stream_skip, hs, htail]
    rfl
  have hrest : (receive (blank.size - 1)).run (session.skip 1) =
      .ok tail ((session.skip 1).skip tail.length) := by
    rw [hsize, run_receive_of_le (by simp [hstream]), hstream, List.take_left]
  have hbytes : [operation.code] ++ tail = header.bytes := by rw [htail, List.singleton_append]
  have hskip : 1 + tail.length = header.bytes.length := by
    rw [htail, List.length_cons, Nat.add_comm]
  rw [receiveHeader, run_bind_ok hfirst]
  simp only [EStateM.run_bind, EStateM.run_get, Session.worker_skip, List.headD_cons, hblank,
    run_ofExcept_ok, hrest, hbytes, hparse, run_note, EStateM.run_pure, Session.skip_skip, hskip]
  rfl

/-- A byte that names no operation ends the reading of a header. -/
theorem run_receiveHeader_unknown {code : UInt8} (h : Operation.ofCode? code = none)
    (hs : session.link.stream = code :: rest) :
    receiveHeader.run session = .error (.unknownOperation code) (session.skip 1) := by
  have hblank : session.worker.family.headerOfCode code none = .error (.unknownOperation code) := by
    simp [Family.headerOfCode, Operation.ofCode, h]
  rw [receiveHeader, run_bind_ok (run_receive_one hs)]
  simp only [EStateM.run_bind, EStateM.run_get, Session.worker_skip, List.headD_cons, hblank,
    run_ofExcept_error]

/-- A stream that ends inside a header meets the end of the link with all bytes taken. -/
theorem run_receiveHeader_cut (h : header.Valid session.worker.family operation)
    (hs : session.link.stream <+: header.bytes)
    (hlt : session.link.stream.length < header.bytes.length) :
    ∃ count, receiveHeader.run session = .error session.link.ending.toError (session.skip count) ∧
      session.link.stream.length ≤ count := by
  cases hstream : session.link.stream with
  | nil =>
    have hfirst : (receive 1).run session = .error session.link.ending.toError (session.skip 1) :=
      run_receive_of_lt (by simp [hstream])
    exact ⟨1, by rw [receiveHeader, run_bind_error hfirst], Nat.zero_le _⟩
  | cons code rest =>
    obtain ⟨tail, blank, htail, hblank, hsize, _⟩ := exists_blank h
    rw [hstream, htail] at hs hlt
    obtain ⟨rfl, _⟩ := List.cons_prefix_cons.mp hs
    rw [List.length_cons, List.length_cons] at hlt
    have hrest : (receive (blank.size - 1)).run (session.skip 1) =
        .error session.link.ending.toError ((session.skip 1).skip tail.length) := by
      rw [hsize]
      refine run_receive_of_lt ?_
      rw [Session.stream_skip, hstream, List.drop_one, List.tail_cons]
      omega
    refine ⟨1 + tail.length, ?_, ?_⟩
    · rw [receiveHeader, run_bind_ok (run_receive_one hstream)]
      simp only [EStateM.run_bind, EStateM.run_get, Session.worker_skip, List.headD_cons, hblank,
        run_ofExcept_ok, hrest, Session.skip_skip]
    · rw [List.length_cons]
      omega

/-- Behind a complete header the declared length is checked, and then the payload is read if there
is one. -/
private theorem run_receivePacket_eq (h : header.Valid session.worker.family operation)
    (hs : session.link.stream = header.bytes ++ rest) :
    receivePacket.run session = (do
      checkLength (header.number .dataLength)
      if operation = .readRequest then return Packet.ofHeader header
      let payload ← receive (header.number .dataLength)
      MonadExcept.ofExcept (Packet.make header payload) : SessionM Packet).run
        (session.past header header.bytes.length) := by
  rw [receivePacket, run_bind_ok (run_receiveHeader h hs)]
  cases operation <;>
    simp [h.isReadRequest, h.carriesPayload, h.dataLength, EStateM.run_bind]

/-- A well-formed packet is received as it was sent. -/
theorem run_receivePacket {packet : Packet}
    (h : packet.WellFormed session.worker.family session.payloadLimit)
    (hs : session.link.stream = packet.bytes ++ rest) :
    receivePacket.run session = .ok packet (session.past packet.header packet.bytes.length) := by
  obtain ⟨⟨operation, hvalid, hlength⟩, hlimit⟩ := h
  rw [Packet.bytes, List.append_assoc] at hs
  let after := session.past packet.header packet.header.bytes.length
  have hstream : after.link.stream = packet.payload ++ rest := by
    rw [Session.stream_past, hs, List.drop_left]
  have hcheck : (checkLength (packet.header.number .dataLength)).run after = .ok () after :=
    run_checkLength_of_le hlimit
  rw [run_receivePacket_eq hvalid hs, run_bind_ok hcheck]
  by_cases hrequest : operation = .readRequest
  · have hpayload : packet.payload = [] := by
      rw [hrequest] at hlength
      exact List.length_eq_zero_iff.mp hlength
    rw [if_pos hrequest, EStateM.run_pure, Packet.bytes, hpayload, List.append_nil,
      Packet.ofHeader_header hpayload]
  · have hdeclared : packet.payload.length = packet.header.number .dataLength := by
      rw [hlength, Operation.payloadLength_of_ne hrequest]
    have hreceive : (receive (packet.header.number .dataLength)).run after =
        .ok packet.payload (after.skip packet.payload.length) := by
      rw [← hdeclared, run_receive_of_le (by simp [hstream]), hstream, List.take_left]
    rw [if_neg hrequest, run_bind_ok hreceive, Packet.make_eq hvalid hdeclared, run_ofExcept_ok,
      Packet.bytes, List.length_append, Session.skip_past]

/-- A header that declares too much is refused as soon as it is complete. -/
theorem run_receivePacket_oversized (h : header.Valid session.worker.family operation)
    (hs : session.link.stream = header.bytes ++ rest)
    (hlt : session.payloadLimit < header.number .dataLength) :
    receivePacket.run session =
      .error (.payloadTooLarge (header.number .dataLength) session.payloadLimit)
        (session.past header header.bytes.length) := by
  have hcheck : (checkLength (header.number .dataLength)).run
      (session.past header header.bytes.length) =
      .error (.payloadTooLarge (header.number .dataLength) session.payloadLimit) _ :=
    run_checkLength_of_lt hlt
  rw [run_receivePacket_eq h hs, run_bind_error hcheck]

/-- A byte that names no operation is refused by itself. -/
theorem run_receivePacket_unknown {code : UInt8} (h : Operation.ofCode? code = none)
    (hs : session.link.stream = code :: rest) :
    receivePacket.run session = .error (.unknownOperation code) (session.skip 1) := by
  rw [receivePacket, run_bind_error (run_receiveHeader_unknown h hs)]

/-- A stream that is cut off meets the end of the link with all bytes taken, and nothing else but
the journal has changed. -/
theorem run_receivePacket_cut
    (h : Packet.Cut session.worker.family session.payloadLimit session.link.stream) :
    ∃ count journal, receivePacket.run session =
        .error session.link.ending.toError { session.skip count with journal } ∧
      session.link.stream.length ≤ count := by
  rcases h with hnil | ⟨packet, _, ⟨⟨operation, hvalid, hlength⟩, _⟩, hbegins, hne, hcomplete⟩
  · have hfirst : (receive 1).run session = .error session.link.ending.toError (session.skip 1) :=
      run_receive_of_lt (by simp [hnil])
    have hheader : receiveHeader.run session =
        .error session.link.ending.toError (session.skip 1) := by
      rw [receiveHeader, run_bind_error hfirst]
    exact ⟨1, session.journal, by rw [receivePacket, run_bind_error hheader]; rfl, by simp [hnil]⟩
  · by_cases hheader : packet.header.bytes <+: session.link.stream
    · have hlimit := (hcomplete hheader).within
      obtain ⟨rest, hrest⟩ := hheader
      rw [← hrest] at hbegins hne
      have hpayload : rest <+: packet.payload := (List.prefix_append_right_inj _).mp hbegins
      have hlt : rest.length < packet.payload.length := by
        refine lt_of_le_of_ne hpayload.length_le fun hlen => hne ?_
        rw [hpayload.eq_of_length hlen, Packet.bytes]
      have hrequest : operation ≠ .readRequest := by
        rintro rfl
        rw [hlength, Operation.payloadLength] at hlt
        exact absurd hlt (Nat.not_lt_zero _)
      rw [hlength, Operation.payloadLength_of_ne hrequest] at hlt
      let after := session.past packet.header packet.header.bytes.length
      have hstream : after.link.stream = rest := by
        rw [Session.stream_past, ← hrest, List.drop_left]
      have hcheck : (checkLength (packet.header.number .dataLength)).run after = .ok () after :=
        run_checkLength_of_le hlimit
      have hreceive : (receive (packet.header.number .dataLength)).run after =
          .error session.link.ending.toError (after.skip (packet.header.number .dataLength)) :=
        run_receive_of_lt (by rwa [hstream])
      refine ⟨packet.header.bytes.length + packet.header.number .dataLength, after.journal, ?_, ?_⟩
      · rw [run_receivePacket_eq hvalid hrest.symm, run_bind_ok hcheck, if_neg hrequest,
          run_bind_error hreceive, Session.skip_past]
        rfl
      · rw [← hrest, List.length_append]
        omega
    · have hlt : session.link.stream.length < packet.header.bytes.length := by
        by_contra hge
        exact hheader
          (List.prefix_of_prefix_length_le (List.prefix_append _ _) hbegins (not_lt.mp hge))
      have hshort : session.link.stream <+: packet.header.bytes :=
        List.prefix_of_prefix_length_le hbegins (List.prefix_append _ _) hlt.le
      obtain ⟨count, hrun, hcount⟩ := run_receiveHeader_cut hvalid hshort hlt
      exact ⟨count, session.journal, by rw [receivePacket, run_bind_error hrun]; rfl, hcount⟩

end SessionM

/-- Where no packet is received, nothing but the pieces to come and the journal has changed. -/
theorem SessionM.run_receivePacket_error {session : Session} {error : Error} {left : Bytes}
    (h : Reception session.worker.family session.payloadLimit session.link.ending.toError
      session.link.stream (.error error) left) :
    ∃ pieces journal, SessionM.receivePacket.run session =
        .error error { session with link := { session.link with incoming := pieces }, journal } ∧
      pieces.flatten = left := by
  generalize hs : session.link.stream = stream at h
  cases h with
  | unknown rest hcode =>
    refine ⟨_, _, SessionM.run_receivePacket_unknown hcode hs, ?_⟩
    exact (session.stream_skip 1).trans (by rw [hs]; rfl)
  | oversized rest hvalid hlt =>
    refine ⟨_, _, SessionM.run_receivePacket_oversized hvalid hs hlt, ?_⟩
    exact (session.stream_skip _).trans (by rw [hs, List.drop_left])
  | cut hcut =>
    subst hs
    obtain ⟨count, journal, hrun, hcount⟩ := SessionM.run_receivePacket_cut hcut
    exact ⟨_, _, hrun, (session.stream_skip count).trans (List.drop_of_length_le hcount)⟩

/-- Receiving a packet gives what the stream stands for, whatever its pieces are. -/
theorem Session.received_eq {session : Session} {outcome : Except Error Packet} {left : Bytes}
    (h : Reception session.worker.family session.payloadLimit session.link.ending.toError
      session.link.stream outcome left) : session.received = (outcome, left) := by
  cases outcome with
  | ok packet =>
    obtain ⟨hformed, hs⟩ := Reception.ok_iff.mp h
    rw [received, SessionM.run_receivePacket hformed hs]
    simp [hs]
  | error error =>
    obtain ⟨pieces, journal, hrun, hleft⟩ := SessionM.run_receivePacket_error h
    rw [received, hrun, ← hleft]
    rfl

namespace Session

/-- What is received, and what is left, is what the stream gives. -/
theorem received_iff {session : Session} {outcome : Except Error Packet} {left : Bytes} :
    session.received = (outcome, left) ↔ Reception session.worker.family session.payloadLimit
      session.link.ending.toError session.link.stream outcome left := by
  constructor
  · intro h
    obtain ⟨outcome', left', hreception⟩ := Reception.exists_reception session.link.stream
    rw [received_eq hreception, Prod.mk.injEq] at h
    rwa [← h.1, ← h.2]
  · exact received_eq

/-- What is received is what the stream gives. -/
theorem received_fst_iff {session : Session} {outcome : Except Error Packet} :
    session.received.1 = outcome ↔ ∃ left, Reception session.worker.family session.payloadLimit
      session.link.ending.toError session.link.stream outcome left := by
  constructor
  · rintro rfl
    exact ⟨session.received.2, received_iff.mp rfl⟩
  · rintro ⟨left, h⟩
    rw [received_eq h]

/-- Over a link that ends in a hang-up, receiving gives a packet if and only if the stream starts
with the bytes of that packet and the packet is well formed, and takes exactly these bytes.
Otherwise the first byte names no operation, or a complete header declares more than the limit, or
the connection is closed inside a packet.  Other pieces of the same stream give the same. -/
theorem received_iff_wellFormed (session : Session) (h : session.link.ending.isHangUp = true) :
    let family := session.worker.family
    let limit := session.payloadLimit
    let stream := session.link.stream
    (∀ packet left, session.received = (.ok packet, left) ↔
      packet.WellFormed family limit ∧ stream = packet.bytes ++ left) ∧
    (∀ code, session.received.1 = .error (.unknownOperation code) ↔
      stream.head? = some code ∧ code ≠ 0x09 ∧ code ≠ 0x0A ∧ code ≠ 0x0B) ∧
    (∀ length bound, session.received.1 = .error (.payloadTooLarge length bound) ↔
      bound = limit ∧ limit < length ∧ ∃ header : Header, ∃ operation,
      header.Valid family operation ∧
        header.bytes <+: stream ∧ header.number .dataLength = length) ∧
    (session.received.1 = .error .connectionClosed ↔
      (¬∃ packet : Packet, packet.WellFormed family limit ∧ packet.bytes <+: stream) ∧
      (¬∃ code, stream.head? = some code ∧ code ≠ 0x09 ∧ code ≠ 0x0A ∧ code ≠ 0x0B) ∧
      ¬∃ header : Header, ∃ operation, header.Valid family operation ∧ header.bytes <+: stream ∧
        limit < header.number .dataLength) ∧
    (session.received.1 = .error .connectionClosed ↔ Packet.Cut family limit stream) ∧
    ∀ other : Session, other.worker.family = family → other.payloadLimit = limit →
      other.link.stream = stream → other.link.ending.isHangUp = true →
        other.received = session.received := by
  intro family limit stream
  have hclosing : session.link.ending.toError = .connectionClosed := by
    rw [LinkFault.toError, if_pos h]
  have hfst : ∀ outcome, session.received.1 = outcome ↔
      ∃ left, Reception family limit .connectionClosed stream outcome left := by
    intro outcome
    rw [received_fst_iff, hclosing]
  have hpacket : ∀ packet left, session.received = (.ok packet, left) ↔
      packet.WellFormed family limit ∧ stream = packet.bytes ++ left :=
    fun packet left => received_iff.trans Reception.ok_iff
  have hunknown := fun code => (hfst (.error (.unknownOperation code))).trans Reception.unknown_iff
  have hoversized := fun length bound =>
    (hfst (.error (.payloadTooLarge length bound))).trans Reception.oversized_iff
  refine ⟨hpacket, hunknown, hoversized, ⟨fun hclosed => ⟨?_, ?_, ?_⟩, ?_⟩,
    (hfst _).trans Reception.closed_iff, ?_⟩
  · rintro ⟨packet, hformed, left, hleft⟩
    rw [(hpacket packet left).mpr ⟨hformed, hleft.symm⟩] at hclosed
    cases hclosed
  · rintro ⟨code, hcode⟩
    rw [(hunknown code).mpr hcode] at hclosed
    cases hclosed
  · rintro ⟨header, operation, hvalid, hbegins, hlt⟩
    rw [(hoversized _ limit).mpr ⟨rfl, hlt, header, operation, hvalid, hbegins, rfl⟩] at hclosed
    cases hclosed
  · -- one of the four ways is taken, and only the last one is left
    rintro ⟨hnone, hknown, hsmall⟩
    obtain ⟨left, hreception⟩ := (hfst _).mp rfl
    generalize session.received.1 = outcome at hreception ⊢
    generalize hs : stream = bytes at hreception
    cases hreception with
    | packet _ hformed => exact absurd ⟨_, hformed, _, hs.symm⟩ hnone
    | unknown _ hcode =>
      have hhead : stream.head? = some _ := congrArg List.head? hs
      exact absurd ⟨_, hhead, Operation.ofCode?_eq_none_iff.mp hcode⟩ hknown
    | oversized _ hvalid hlt => exact absurd ⟨_, _, hvalid, ⟨_, hs.symm⟩, hlt⟩ hsmall
    | cut hcut => rfl
  · intro other hfamily hlimit hstream hending
    have hclosing' : other.link.ending.toError = .connectionClosed := by
      rw [LinkFault.toError, if_pos hending]
    apply received_eq
    rw [hfamily, hlimit, hstream, hclosing', ← hclosing]
    exact received_iff.mp rfl

/-- A read request in three pieces is received as one packet, and the byte behind it stays. -/
theorem received_readRequest_in_pieces :
    let session : Session :=
      { link := { incoming := [[0x0A, 0x00, 0x08, 0x01], [0x00, 0x04], [0x10, 0x00, 0x09]] }
        worker := { chip := { family := .adau1x0x, transport := .memory {}, useSafeload := false } }
        payloadLimit := 16 }
    let header : Header :=
      ⟨[⟨.operation, 0, 1, 0x0A⟩, ⟨.totalLength, 1, 2, 8⟩, ⟨.chipAddress, 3, 1, 1⟩,
        ⟨.dataLength, 4, 2, 4⟩, ⟨.address, 6, 2, 0x1000⟩]⟩
    session.received = (.ok ⟨header, []⟩, [0x09]) := by
  intro session header
  have hvalid : header.Valid .adau1x0x .readRequest := ⟨rfl, by decide, rfl⟩
  have hformed : Packet.WellFormed ⟨header, []⟩ .adau1x0x 16 :=
    ⟨⟨.readRequest, hvalid, rfl⟩, by decide⟩
  exact ((received_iff_wellFormed session rfl).1 ⟨header, []⟩ [0x09]).mpr ⟨hformed, rfl⟩

/-- A read request that declares 65535 bytes and ends in front of its address. -/
def withoutAddress : Bytes := [0x0A, 0x00, 0x08, 0x01, 0xFF, 0xFF]

/-- Of a packet that starts like this one, the header is complete with the two bytes of the
address. -/
private theorem number_of_withoutAddress {packet : Packet} {limit : Nat}
    (h : packet.WellFormed .adau1x0x limit) (hbegins : withoutAddress <+: packet.bytes) :
    packet.header.number .dataLength = 65535 := by
  obtain ⟨operation, hvalid, -⟩ := h.header
  obtain ⟨rest, hrest⟩ := hvalid.bytes_eq_cons
  have hcode : operation.code = 0x0A := by
    rw [Packet.bytes, hrest] at hbegins
    exact (List.cons_prefix_cons.mp hbegins).1.symm
  obtain rfl : operation = .readRequest := by
    cases operation <;> first | rfl | cases hcode
  have hlength : packet.header.bytes.length = 8 := hvalid.length_bytes
  obtain ⟨tail, htail⟩ : withoutAddress <+: packet.header.bytes :=
    List.prefix_of_prefix_length_le hbegins (List.prefix_append _ _) (by rw [hlength]; decide)
  have htwo : tail.length = 2 := by
    have hboth := congrArg List.length htail
    rw [List.length_append, hlength] at hboth
    exact Nat.add_left_cancel hboth
  obtain ⟨high, low, rfl⟩ := List.length_eq_two.mp htwo
  obtain ⟨blank, hblank, hl⟩ := Family.headerOfCode_code .adau1x0x .readRequest
  have hparse := hvalid.parse_bytes hl
  obtain rfl : blank = _ := (Except.ok.inj hblank).symm
  rw [← htail] at hparse
  have hnumber : packet.header.number .dataLength = (Bytes.toWord [0xFF, 0xFF]).toNat := by
    rw [← (Prod.mk.inj hparse).2]
    rfl
  exact hnumber.trans (by decide)

/-- A stream that ends inside a header that declares more than the limit is found closed, although
no packet within the limit starts like this. -/
theorem closed_without_packet : let session : Session :=
      { link := { incoming := [withoutAddress] }
        worker := { chip := { family := .adau1x0x, transport := .memory {}, useSafeload := false } }
        payloadLimit := 16 }
    session.link.ending.isHangUp = true ∧ session.received.1 = .error .connectionClosed ∧
      session.link.stream ≠ [] ∧
      ¬∃ packet : Packet, packet.WellFormed .adau1x0x 16 ∧
        session.link.stream <+: packet.bytes := by
  intro session
  refine ⟨rfl, rfl, by decide, ?_⟩
  rintro ⟨packet, hformed, hbegins⟩
  have hwithin := hformed.within
  rw [number_of_withoutAddress hformed hbegins] at hwithin
  exact absurd hwithin (by decide)

end Session

end TuningBridge
