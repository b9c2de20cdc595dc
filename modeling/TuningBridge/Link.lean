import TuningBridge.Error

/-!
# Links

A link carries bytes to and from a peer.  Incoming bytes arrive in pieces, outgoing bytes are
accepted up to a limit, and each direction ends in a fault of its own.
-/

namespace TuningBridge

/-- A connection to a peer. -/
structure Link where
  /-- The pieces that the peer sends, each at most one read. -/
  incoming : List Bytes
  /-- What a read meets behind the last piece. -/
  ending : LinkFault := .unexpectedEof
  /-- The bytes that the peer has accepted. -/
  accepted : Bytes := []
  /-- How many more bytes the peer accepts, if there is a limit. -/
  capacity : Option Nat := none
  /-- What a write meets at the limit. -/
  writeFault : LinkFault := .writeZero
  /-- What a flush meets. -/
  flushFault : Option LinkFault := none
  deriving Repr

namespace Link

/-- The number of bytes that have not been taken. -/
def unread (link : Link) : Nat := link.incoming.flatten.length

/-- Take a number of bytes from pieces, or all of them if there are fewer; what is left of a piece
stays in front. -/
def takeFrom : Nat → List Bytes → Bytes × List Bytes
  | 0, pieces => ([], pieces)
  | _ + 1, [] => ([], [])
  | count + 1, piece :: rest =>
    match piece.drop (count + 1) with
    | [] =>
      let (taken, left) := takeFrom (count + 1 - piece.length) rest
      (piece ++ taken, left)
    | left => (piece.take (count + 1), left :: rest)

/-- Read exactly a number of bytes.  If the peer ends before, the bytes that did arrive are lost. -/
def receive (link : Link) (count : Nat) : Except Error Bytes × Link :=
  let (taken, left) := takeFrom count link.incoming
  let after := { link with incoming := left }
  if taken.length = count then (.ok taken, after) else (.error link.ending.toError, after)

/-- Write bytes and flush them.  At the limit the peer has accepted what fits. -/
def send (link : Link) (bytes : Bytes) : Except Error Unit × Link :=
  let fitting := match link.capacity with
    | none => bytes
    | some room => bytes.take room
  let after := { link with
    accepted := link.accepted ++ fitting
    capacity := link.capacity.map (· - fitting.length) }
  if fitting.length < bytes.length then (.error link.writeFault.toError, after)
  else
    match link.flushFault with
    | some fault => (.error fault.toError, after)
    | none => (.ok (), after)

end Link

end TuningBridge
