import TuningBridge.Proofs.Access
import TuningBridge.Proofs.Reception
import TuningBridge.Proofs.Reply

/-!
# Serving one packet

A well-formed packet is classified by its operation and its safeload byte, carried out by the worker
as one command, and answered if it is a read request.  The answer carries what the transport reads,
or zeros where the read fails.  The only way to fail behind a received packet is a reply that cannot
be made or sent.
-/

namespace TuningBridge

namespace Worker

/-- What a read is answered with: the bytes that the transport reads, or zeros. -/
def readData (worker : Worker) (address : UInt16) (length : Nat) : Bytes :=
  match (worker.chip.transport.read address length).1 with
  | .ok data => data
  | .error _ => Bytes.zeros length

/-- A worker reads as many bytes as it is asked for. -/
theorem length_readData (worker : Worker) (address : UInt16) (length : Nat) :
    (worker.readData address length).length = length := by
  rw [readData]
  split
  · next data hread => exact Transport.length_read hread
  · exact List.length_replicate

/-- A read is always answered with as many bytes as it asks for. -/
theorem perform_read {worker : Worker} (halive : worker.isAlive = true) (address : UInt16)
    (length : Nat) :
    (worker.perform (.read address length)).1 = .ok (.data (worker.readData address length)) := by
  rw [readData]
  cases hread : (worker.chip.transport.read address length).1 with
  | ok data => rw [perform_of_run halive (Command.run_read_of_ok hread)]
  | error error => rw [perform_of_run halive (Command.run_read_of_error hread)]

/-- A write is done whatever comes of it. -/
theorem perform_write {worker : Worker} (halive : worker.isAlive = true) (address : UInt16)
    (data : Bytes) : (worker.perform (.write address data)).1 = .ok .done := by
  have hrun : ∃ chip, (Command.write address data).run.run worker.chip = .ok .done chip := ⟨_, rfl⟩
  obtain ⟨chip, hrun⟩ := hrun
  rw [perform_of_run halive hrun]

/-- A safeload is done whatever comes of it. -/
theorem perform_safeload {worker : Worker} (halive : worker.isAlive = true) (address : UInt16)
    (data : Bytes) : (worker.perform (.safeload address data)).1 = .ok .done := by
  have hrun : ∃ chip, (Command.safeload address data).run.run worker.chip = .ok .done chip := by
    rw [Command.run]
    cases hload : (Safeload.run address data).run worker.chip with
    | ok value chip => exact ⟨_, Actions.run_bind_ok (Actions.run_tryCatch_ok hload _) _⟩
    | error error chip =>
      have hnoted : (tryCatch (Safeload.run address data)
          fun error => ChipM.note [.safeloadFailed address error]).run worker.chip = .ok () _ :=
        (Actions.run_tryCatch_error hload _).trans rfl
      exact ⟨_, Actions.run_bind_ok hnoted _⟩
  obtain ⟨chip, hrun⟩ := hrun
  rw [perform_of_run halive hrun]

end Worker

namespace Packet

/-- What a well-formed packet asks of the chip: a write whose safeload byte is one is a safeload,
any other one is a write, and a read response asks nothing. -/
def request? (packet : Packet) : Option Request :=
  let address := UInt16.ofNat (packet.header.number .address)
  match packet.header.operation? with
  | some .write =>
    if packet.header.number .safeload = 1 then some (.safeload address packet.payload)
    else some (.write address packet.payload)
  | some .readRequest => some (.read address (packet.header.number .dataLength))
  | _ => none

/-- The reply to a packet, if it is a read request. -/
def reply? (packet : Packet) (worker : Worker) : Option Packet :=
  match packet.request? with
  | some (.read address length) =>
    some ⟨worker.family.replyHeader packet.header, worker.readData address length⟩
  | _ => none

/-- The commands of packets, in their order. -/
def commands (packets : List Packet) : List Command :=
  (packets.filterMap request?).map Command.ofRequest

/-- The replies to packets that a worker serves one after the other. -/
def replies : Worker → List Packet → List Packet
  | _, [] => []
  | worker, packet :: rest =>
    (packet.reply? worker).toList ++ replies (worker.performAll (commands [packet])) rest

/-- The commands of packets in two parts are those of both. -/
theorem commands_append (first second : List Packet) :
    commands (first ++ second) = commands first ++ commands second := by
  rw [commands, List.filterMap_append, List.map_append]
  rfl

/-- Replies to later packets come behind the replies to earlier ones. -/
theorem replies_append (worker : Worker) (first second : List Packet) :
    replies worker (first ++ second) =
      replies worker first ++ replies (worker.performAll (commands first)) second := by
  induction first generalizing worker with
  | nil => rfl
  | cons packet rest ih =>
    have hcommands : commands (packet :: rest) = commands [packet] ++ commands rest :=
      commands_append [packet] rest
    rw [List.cons_append, replies, replies, ih, hcommands, Worker.performAll_append,
      List.append_assoc]

private theorem any_safeload (header : Header) :
    (header.get? .safeload).any (·.value = 1) = decide (header.number .safeload = 1) := by
  rw [Header.number]
  cases header.get? .safeload with
  | none => rfl
  | some field =>
    rw [Option.any_some, Option.map_some, Option.getD_some]
    exact decide_eq_decide.mpr UInt64.toNat_inj.symm

/-- The request of a well-formed packet. -/
theorem ofPacket_eq {packet : Packet} {family : Family} {limit : Nat}
    (h : packet.WellFormed family limit) : Request.ofPacket packet = .ok packet.request? := by
  obtain ⟨⟨operation, hvalid, _⟩, _⟩ := h
  rw [request?, hvalid.operation?]
  cases operation with
  | write =>
    have haddress := hvalid.address (by decide)
    simp only [Request.ofPacket, Header.isSafeload, hvalid.isWrite, hvalid.isReadRequest, haddress,
      any_safeload]
    by_cases hsafeload : packet.header.number .safeload = 1 <;> simp [hsafeload]
  | readRequest =>
    have haddress := hvalid.address (by decide)
    simp [Request.ofPacket, Header.isSafeload, hvalid.isWrite, hvalid.isReadRequest, haddress,
      hvalid.dataLength]
  | readResponse => simp [Request.ofPacket, hvalid.isWrite, hvalid.isReadRequest]

/-- Only read requests read, and they read as many bytes as they declare. -/
theorem valid_of_request?_read {packet : Packet} {family : Family} {limit length : Nat}
    {address : UInt16} (h : packet.WellFormed family limit)
    (hrequest : packet.request? = some (.read address length)) :
    packet.header.Valid family .readRequest ∧ length = packet.header.number .dataLength := by
  obtain ⟨⟨operation, hvalid, _⟩, _⟩ := h
  rw [request?, hvalid.operation?] at hrequest
  cases operation with
  | readRequest =>
    simp only [Option.some.injEq, Request.read.injEq] at hrequest
    exact ⟨hvalid, hrequest.2.symm⟩
  | write =>
    dsimp only at hrequest
    split at hrequest <;> cases hrequest
  | readResponse => cases hrequest

/-- Only read requests are replied to. -/
theorem isReadRequest_of_reply? {packet : Packet} {family : Family} {limit : Nat}
    (h : packet.WellFormed family limit) (worker : Worker) :
    (packet.reply? worker).isSome = packet.header.isReadRequest := by
  obtain ⟨⟨operation, hvalid, _⟩, _⟩ := h
  rw [reply?, request?, hvalid.operation?, hvalid.isReadRequest]
  cases operation with
  | write => by_cases hsafeload : packet.header.number .safeload = 1 <;> simp [hsafeload]
  | readRequest => rfl
  | readResponse => rfl

/-- There is one reply to each read request. -/
theorem length_replies {packets : List Packet} {family : Family} {limit : Nat}
    (hall : ∀ packet ∈ packets, packet.WellFormed family limit) (worker : Worker) :
    (replies worker packets).length = packets.countP (·.header.isReadRequest) := by
  induction packets generalizing worker with
  | nil => rfl
  | cons packet packets ih =>
    obtain ⟨hformed, htail⟩ := List.forall_mem_cons.mp hall
    rw [replies, List.length_append, ih htail, List.countP_cons,
      ← isReadRequest_of_reply? hformed worker, Nat.add_comm]
    cases packet.reply? worker <;> rfl

theorem request?_of_isReadRequest {packet : Packet} {family : Family} {limit : Nat}
    (h : packet.WellFormed family limit) (hrequest : packet.header.isReadRequest = true) :
    ∃ address length, packet.request? = some (.read address length) := by
  obtain ⟨⟨operation, hvalid, _⟩, _⟩ := h
  rw [hvalid.isReadRequest, decide_eq_true_eq] at hrequest
  rw [request?, hvalid.operation?, hrequest]
  exact ⟨_, _, rfl⟩

end Packet

namespace SessionM

open Actions

variable {session : Session} {packet : Packet}

theorem run_perform {command : Command} {answer : Answer}
    (h : (session.worker.perform command).1 = .ok answer) :
    (perform command).run session =
      .ok answer { session with worker := (session.worker.perform command).2 } := by
  simp only [perform, EStateM.run_bind, EStateM.run_get, h]
  rfl

/-- Bytes that there is room for are sent. -/
theorem run_send_of_hasRoom {bytes : Bytes} (h : session.link.HasRoom bytes.length) :
    (send bytes).run session = .ok () { session with link := session.link.deliver bytes } := by
  simp only [send, EStateM.run_bind, EStateM.run_get, Link.send_of_hasRoom h]
  rfl

/-- What is left to do for a packet once the worker has answered. -/
private def respond (header : Header) : Answer → SessionM Unit
  | .data data => do
    let response ← MonadExcept.ofExcept (reply (← get).worker.family header data)
    note (.responseSending response.bytes)
    send response.bytes
  | _ => return ()

/-- The session once the worker has carried out a request. -/
private def requested (session : Session) (request : Request) : Session :=
  { session with
    worker := (session.worker.perform (Command.ofRequest request)).2
    journal := session.journal.push .requestReceived }

/-- A request goes to the worker as one command. -/
private theorem run_serve_request {request : Request} {answer : Answer}
    (h : packet.WellFormed session.worker.family session.payloadLimit)
    (hrequest : packet.request? = some request)
    (hanswer : (session.worker.perform (Command.ofRequest request)).1 = .ok answer) :
    (serve packet).run session =
      (respond packet.header answer).run (requested session request) := by
  have hpacket :
      (MonadExcept.ofExcept (Request.ofPacket packet) : SessionM (Option Request)).run session =
        .ok (some request) session := by
    rw [Packet.ofPacket_eq h, hrequest, run_ofExcept_ok]
  let noted : Session := { session with journal := session.journal.push .requestReceived }
  have hnote : (note .requestReceived).run session = .ok () noted := run_note _
  have hperform : (perform (Command.ofRequest request)).run noted =
      .ok answer (requested session request) :=
    run_perform hanswer
  rw [serve, run_bind_ok hpacket]
  dsimp only
  rw [run_bind_ok hnote, run_bind_ok hperform]
  cases answer <;> rfl

/-- The reply to a read request is made and sent. -/
private theorem run_respond_data {data : Bytes}
    (h : packet.header.Valid session.worker.family .readRequest)
    (hno : ¬session.worker.family.OverflowsReply packet.header)
    (hlen : data.length = packet.header.number .dataLength)
    (hroom : session.link.HasRoom
      (Packet.bytes ⟨session.worker.family.replyHeader packet.header, data⟩).length) :
    ∃ journal, (respond packet.header (.data data)).run session = .ok ()
      { session with
        link := session.link.deliver
          (Packet.bytes ⟨session.worker.family.replyHeader packet.header, data⟩)
        journal } := by
  let response : Packet := ⟨session.worker.family.replyHeader packet.header, data⟩
  let noted : Session :=
    { session with journal := session.journal.push (.responseSending response.bytes) }
  have hsend : (send response.bytes).run noted =
      .ok () { noted with link := noted.link.deliver response.bytes } := run_send_of_hasRoom hroom
  refine ⟨noted.journal, ?_⟩
  rw [respond]
  simp only [EStateM.run_bind, EStateM.run_get, reply_eq_ok h hno hlen, run_ofExcept_ok, run_note]
  exact hsend

/-- A packet is carried out and answered. -/
theorem run_serve (h : packet.WellFormed session.worker.family session.payloadLimit)
    (halive : session.worker.isAlive = true)
    (hreply : packet.header.isReadRequest = true →
      ¬session.worker.family.OverflowsReply packet.header)
    (hroom : session.link.HasRoom
      ((packet.reply? session.worker).toList.flatMap Packet.bytes).length) :
    ∃ journal, (serve packet).run session = .ok ()
      { session with
        link := session.link.deliver ((packet.reply? session.worker).toList.flatMap Packet.bytes)
        worker := session.worker.performAll (Packet.commands [packet])
        journal } := by
  cases hrequest : packet.request? with
  | none =>
    have hpacket :
        (MonadExcept.ofExcept (Request.ofPacket packet) : SessionM (Option Request)).run session =
          .ok none session := by
      rw [Packet.ofPacket_eq h, hrequest, run_ofExcept_ok]
    refine ⟨session.journal.push .responseIgnored, ?_⟩
    rw [serve, run_bind_ok hpacket]
    simp [Packet.reply?, Packet.commands, hrequest, run_note]
  | some request =>
    cases request with
    | write address data =>
      have hanswer := Worker.perform_write halive address data
      refine ⟨(requested session (.write address data)).journal, ?_⟩
      rw [run_serve_request h hrequest hanswer]
      simp [respond, requested, Packet.reply?, Packet.commands, hrequest]
    | safeload address data =>
      have hanswer := Worker.perform_safeload halive address data
      refine ⟨(requested session (.safeload address data)).journal, ?_⟩
      rw [run_serve_request h hrequest hanswer]
      simp [respond, requested, Packet.reply?, Packet.commands, hrequest]
    | read address length =>
      obtain ⟨hvalid, hlength⟩ := Packet.valid_of_request?_read h hrequest
      have hanswer := Worker.perform_read halive address length
      let after := requested session (.read address length)
      have hfamily : after.worker.family = session.worker.family :=
        (session.worker.grows_perform _).family
      have hno : ¬after.worker.family.OverflowsReply packet.header := by
        rw [hfamily]
        exact hreply (by rw [hvalid.isReadRequest]; rfl)
      have hlen : (session.worker.readData address length).length =
          packet.header.number .dataLength := by
        rw [Worker.length_readData, hlength]
      have hbytes : (packet.reply? session.worker).toList.flatMap Packet.bytes =
          Packet.bytes ⟨after.worker.family.replyHeader packet.header,
            session.worker.readData address length⟩ := by
        rw [Packet.reply?, hrequest, hfamily]
        simp
      rw [hbytes] at hroom ⊢
      obtain ⟨journal, hrespond⟩ := run_respond_data (hfamily ▸ hvalid) hno hlen hroom
      refine ⟨journal, ?_⟩
      rw [run_serve_request h hrequest hanswer, hrespond]
      simp [after, requested, Packet.commands, hrequest]

/-- A read request whose reply cannot be made has been carried out when the session fails. -/
theorem run_serve_overflow (h : packet.WellFormed session.worker.family session.payloadLimit)
    (halive : session.worker.isAlive = true) (hrequest : packet.header.isReadRequest = true)
    (hover : session.worker.family.OverflowsReply packet.header) :
    ∃ after, (serve packet).run session = .error
        (.invalidFieldValue .reserved (.doesNotFit (packet.header.number .reserved) 8)) after ∧
      after.worker = session.worker.performAll (Packet.commands [packet]) ∧
      after.link = session.link := by
  obtain ⟨address, length, hread⟩ := Packet.request?_of_isReadRequest h hrequest
  obtain ⟨hvalid, _⟩ := Packet.valid_of_request?_read h hread
  have hanswer := Worker.perform_read halive address length
  let after := requested session (.read address length)
  have hfamily : after.worker.family = session.worker.family :=
    (session.worker.grows_perform _).family
  refine ⟨after, ?_, by simp [after, requested, Packet.commands, hread], rfl⟩
  rw [run_serve_request h hread hanswer, respond]
  have hreply : reply after.worker.family packet.header (session.worker.readData address length) =
      .error (.invalidFieldValue .reserved (.doesNotFit (packet.header.number .reserved) 8)) :=
    reply_eq_error (hfamily ▸ hvalid) (hfamily ▸ hover)
  simp only [EStateM.run_bind, EStateM.run_get, after, hreply, run_ofExcept_error]

end SessionM

namespace Session

/-- What is received as a packet is well formed, and what is left to do with it is done in the same
state. -/
theorem wellFormed_of_receivePacket {session after : Session} {packet : Packet}
    (h : SessionM.receivePacket.run session = .ok packet after) :
    packet.WellFormed session.worker.family session.payloadLimit ∧
      after = session.past packet.header packet.bytes.length := by
  have hreceived : session.received = (.ok packet, after.link.stream) := by rw [received, h]
  obtain ⟨hformed, hstream⟩ := Reception.ok_iff.mp (received_iff.mp hreceived)
  rw [SessionM.run_receivePacket hformed hstream] at h
  cases h
  exact ⟨hformed, rfl⟩

/-- A read request that was received is answered unless it goes to `adau14xx` and its reserved bytes
are above 255.  In that case the read is carried out, no byte of an answer is sent and the session
fails. -/
theorem reply_of_received (session after : Session) (packet : Packet) (data : Bytes)
    (hreceived : SessionM.receivePacket.run session = .ok packet after)
    (hrequest : packet.header.isReadRequest = true)
    (hlength : data.length = packet.header.number .dataLength) :
    let family := session.worker.family
    let overflows := family = .adau14xx ∧ 255 < packet.header.number .reserved
    let refusal : Error :=
      .invalidFieldValue .reserved (.doesNotFit (packet.header.number .reserved) 8)
    ((∃ response, SessionM.reply family packet.header data = .ok response) ↔ ¬overflows) ∧
    (¬overflows → SessionM.reply family packet.header data =
      .ok ⟨family.replyHeader packet.header, data⟩) ∧
    (overflows → SessionM.reply family packet.header data = .error refusal) ∧
    (overflows → after.worker.isAlive = true → ∃ closed,
      (SessionM.serve packet).run after = .error refusal closed ∧
      closed.worker = after.worker.performAll (Packet.commands [packet]) ∧
      closed.link = after.link) := by
  intro family overflows refusal
  obtain ⟨hformed, rfl⟩ := wellFormed_of_receivePacket hreceived
  obtain ⟨address, length, hread⟩ := Packet.request?_of_isReadRequest hformed hrequest
  obtain ⟨hvalid, _⟩ := Packet.valid_of_request?_read hformed hread
  have hmade : ¬overflows → SessionM.reply family packet.header data =
      .ok ⟨family.replyHeader packet.header, data⟩ := fun hno => reply_eq_ok hvalid hno hlength
  have hrefused : overflows → SessionM.reply family packet.header data = .error refusal :=
    fun hover => reply_eq_error hvalid hover
  refine ⟨⟨?_, fun hno => ⟨_, hmade hno⟩⟩, hmade, hrefused, fun hover halive => ?_⟩
  · rintro ⟨response, hresponse⟩ hover
    rw [hrefused hover] at hresponse
    cases hresponse
  · exact SessionM.run_serve_overflow hformed halive hrequest hover

/-- A read of four bytes from 0x2000 whose reserved bytes are 256. -/
def wideRequest : Packet :=
  ⟨⟨[⟨.operation, 0, 1, 0x0A⟩, ⟨.totalLength, 1, 4, 14⟩, ⟨.chipAddress, 5, 1, 1⟩,
    ⟨.dataLength, 6, 4, 4⟩, ⟨.address, 10, 2, 0x2000⟩, ⟨.reserved, 12, 2, 256⟩]⟩, []⟩

/-- A session with `adau14xx` in front of that request. -/
def beforeWideRequest : Session :=
  { link := { incoming := [[0x0A, 0, 0, 0, 14, 1, 0, 0, 0, 4, 0x20, 0x00, 0x01, 0x00]] }
    worker := { chip := { family := .adau14xx, transport := .memory {}, useSafeload := false } }
    payloadLimit := 16 }

private theorem valid_wideRequest : wideRequest.header.Valid .adau14xx .readRequest :=
  ⟨rfl, by decide, rfl⟩

private theorem receivePacket_wideRequest : SessionM.receivePacket.run beforeWideRequest =
    .ok wideRequest (beforeWideRequest.past wideRequest.header wideRequest.bytes.length) := by
  have hformed : wideRequest.WellFormed .adau14xx 16 :=
    ⟨⟨.readRequest, valid_wideRequest, rfl⟩, by decide⟩
  have hstream : beforeWideRequest.link.stream = wideRequest.bytes ++ [] := rfl
  exact SessionM.run_receivePacket hformed hstream

/-- The read of the wide request is carried out and not answered. -/
theorem wideRequest_is_refused : ∃ closed : Session,
    (SessionM.serve wideRequest).run
        (beforeWideRequest.past wideRequest.header wideRequest.bytes.length) =
      .error (.invalidFieldValue .reserved (.doesNotFit 256 8)) closed ∧
    closed.worker = beforeWideRequest.worker.performAll (Packet.commands [wideRequest]) ∧
    closed.link = beforeWideRequest.link.skip 14 :=
  (reply_of_received beforeWideRequest _ wideRequest [0, 0, 0, 0] receivePacket_wideRequest
    rfl rfl).2.2.2
    (by decide) rfl

/-- Not every read request that was received is answered. -/
theorem not_all_readRequests_answered :
    ¬∀ (session after : Session) (packet : Packet) (data : Bytes),
      SessionM.receivePacket.run session = .ok packet after → packet.header.isReadRequest = true →
        data.length = packet.header.number .dataLength →
          ∃ response, SessionM.reply session.worker.family packet.header data = .ok response := by
  intro hall
  obtain ⟨response, hresponse⟩ :=
    hall beforeWideRequest _ wideRequest [0, 0, 0, 0] receivePacket_wideRequest rfl rfl
  have hover : Family.adau14xx.OverflowsReply wideRequest.header := by decide
  have hrefused :
      SessionM.reply beforeWideRequest.worker.family wideRequest.header [0, 0, 0, 0] = _ :=
    reply_eq_error valid_wideRequest hover
  rw [hrefused] at hresponse
  cases hresponse

end Session

end TuningBridge
