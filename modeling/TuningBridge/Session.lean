import TuningBridge.Link
import TuningBridge.Worker

/-!
# Sessions

A session serves one connection.  It reads one packet at a time: the first byte selects the header,
the rest of the header follows, then the payload if there is one.  A read request is answered before
the next packet is read, so replies leave in the order of the requests.
-/

namespace TuningBridge

/-- The service of one connection. -/
structure Session where
  link : Link
  worker : Worker
  /-- The most payload bytes that a packet may declare. -/
  payloadLimit : Nat
  /-- The events so far. -/
  journal : Array Event := #[]

/-- An action of a session. -/
abbrev SessionM := EStateM Error Session

namespace SessionM

/-- Put an event into the journal. -/
def note (event : Event) : SessionM Unit :=
  modify fun session => { session with journal := session.journal.push event }

/-- Read exactly a number of bytes. -/
def receive (count : Nat) : SessionM Bytes := do
  let (result, link) := (← get).link.receive count
  modify fun session => { session with link }
  MonadExcept.ofExcept result

/-- Write bytes and flush them. -/
def send (bytes : Bytes) : SessionM Unit := do
  let (result, link) := (← get).link.send bytes
  modify fun session => { session with link }
  MonadExcept.ofExcept result

/-- Hand a command to the worker. -/
def perform (command : Command) : SessionM Answer := do
  let (result, worker) := (← get).worker.perform command
  modify fun session => { session with worker }
  MonadExcept.ofExcept result

/-- Refuse a payload length above the limit. -/
def checkLength (length : Nat) : SessionM Unit := do
  let limit := (← get).payloadLimit
  if limit < length then throw (.payloadTooLarge length limit)

/-- Read a header: its first byte, then the rest of the layout that this byte selects. -/
def receiveHeader : SessionM Header := do
  let first ← receive 1
  let blank ← MonadExcept.ofExcept
    ((← get).worker.family.headerOfCode (first.headD 0) none)
  let rest ← receive (blank.size - 1)
  let (result, header) := blank.parse (first ++ rest)
  MonadExcept.ofExcept result
  note (.headerReceived (first ++ rest))
  return header

/-- Read one complete packet.  The declared length is checked for read requests too, as it is the
length of the reply. -/
def receivePacket : SessionM Packet := do
  let header ← receiveHeader
  if header.isReadRequest then
    checkLength (← MonadExcept.ofExcept header.dataLength)
  if header.carriesPayload then
    let length ← MonadExcept.ofExcept header.dataLength
    checkLength length
    let payload ← receive length
    MonadExcept.ofExcept (Packet.make header payload)
  else
    return Packet.ofHeader header

/-- The reply to a read request: the family's response header with the values of the request,
success zero, and the data. -/
def reply (family : Family) (request : Header) (data : Bytes) : Except Error Packet := do
  let header ← family.headerOf .readResponse (some request)
  let header ← header.set .success 0
  Packet.make header data

/-- Carry out the request of a packet and send the reply to a read. -/
def serve (packet : Packet) : SessionM Unit := do
  match ← MonadExcept.ofExcept (Request.ofPacket packet) with
  | none => note .responseIgnored
  | some request =>
    note .requestReceived
    match ← perform (Command.ofRequest request) with
    | .data data =>
      let response ← MonadExcept.ofExcept (reply (← get).worker.family packet.header data)
      note (.responseSending response.bytes)
      send response.bytes
    | _ => return ()

/-- Serve up to a number of packets. -/
def serveUpTo : Nat → SessionM Unit
  | 0 => return ()
  | count + 1 => do
    serve (← receivePacket)
    serveUpTo count

/-- Serve packets until the peer hangs up.  Every packet takes at least one byte, so there are no
more packets than unread bytes, and one more attempt meets the end of the connection. -/
def serveAll : SessionM Unit := do
  let count := (← get).link.unread + 1
  try serveUpTo count
  catch
    | .connectionClosed => return ()
    | error => throw error

end SessionM

end TuningBridge
