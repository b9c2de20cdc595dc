import TuningBridge.Session

/-!
# The server

The server gives every connection a session of its own; all of them share the worker.  Bytes arrive
in pieces, and a packet is served as soon as all of it has arrived.
-/

namespace TuningBridge

/-- A connection that is being served. -/
structure Connection where
  /-- The bytes of a packet that has not arrived completely. -/
  pending : Bytes := []
  deriving Repr

namespace Connection

/-- What a connection does with bytes: its state, the bytes to send, what was noted, and the error
that ends it. -/
structure Progress where
  connection : Connection
  replies : Bytes
  events : List Event
  failure : Option Error

/-- The session for the bytes of a connection. -/
def session (pending : Bytes) (worker : Worker) (payloadLimit : Nat) : Session :=
  { link := { incoming := [pending] }, worker, payloadLimit }

/-- Serve packets while they are complete.  An incomplete packet closes the session before anything
was done, so the session in front of it is kept. -/
def serveComplete : (count : Nat) → Session → Session × Option Error
  | 0, session => (session, none)
  | count + 1, session =>
    match (SessionM.serveUpTo 1).run session with
    | .ok _ after => serveComplete count after
    | .error .connectionClosed _ => (session, none)
    | .error error after => (after, some error)

/-- Take bytes from the peer and serve the packets that are complete with them. -/
def receive (connection : Connection) (bytes : Bytes) (worker : Worker) (payloadLimit : Nat) :
    Progress × Worker :=
  let pending := connection.pending ++ bytes
  let (after, failure) := serveComplete pending.length (session pending worker payloadLimit)
  ({ connection := { pending := after.link.incoming.flatten }
     replies := after.link.accepted
     events := after.journal.toList
     failure }, after.worker)

end Connection

namespace Server

/-- Serve connections one after the other, each of which sends its bytes at once.  The answer holds
the replies to each. -/
def serveInTurn (payloadLimit : Nat) : List Bytes → Worker → List Bytes × Worker
  | [], worker => ([], worker)
  | bytes :: rest, worker =>
    let (progress, worker) := Connection.receive {} bytes worker payloadLimit
    let (replies, worker) := serveInTurn payloadLimit rest worker
    (progress.replies :: replies, worker)

end Server

end TuningBridge
