import Std.Async.Signal
import Std.Async.TCP
import TuningBridge.Server
import TuningBridge.Service

/-!
# The program

The outermost layer: it reads arguments, variables and the settings file, prints events, and carries
bytes between connections and the worker.
-/

open Std.Async Std.Net

namespace TuningBridge

/-- What is printed. -/
structure Console where
  verbosity : Nat
  showsPayloads : Bool

namespace Console

/-- Print events as far as they are asked for. -/
def print (console : Console) (events : List Event) : IO Unit := do
  let output ← IO.getStdout
  for event in events do
    if event.isPrinted console.verbosity console.showsPayloads then
      output.putStrLn event.sourceLine
  output.flush

/-- Print the events of the start, with the pauses between two comparisons of the hash. -/
def printStart (console : Console) (backoff : Nat) : List Event → IO Unit
  | [] => return ()
  | event :: rest => do
    console.print [event]
    match event, rest with
    | .hashDiffers .., .hashRead .. :: _ => IO.sleep (UInt32.ofNat backoff)
    | _, _ => pure ()
    console.printStart backoff rest

end Console

/-- The contents of a file. -/
def readContents (path : String) : IO (Except FileFault ByteArray) := do
  try return .ok (← IO.FS.readBinFile path)
  catch error =>
    let fault? := match error with
      | .noFileOrDirectory _ code _ | .permissionDenied _ code _ | .inappropriateType _ code _
      | .invalidArgument _ code _ => FileFault.ofCode? code.toNat
      | _ => none
    return .error (fault?.getD (.other (toString error)))

/-- The environment of the program. -/
def readEnvironment : IO Environment := do
  let values ← Environment.variableNames.mapM fun name => return (name, ← IO.getEnv name)
  return Environment.ofVariables fun name => (values.lookup name).join

/-- An address and a port, as sockets take them. -/
def socketAddress (address : IpAddress) (port : UInt16) : SocketAddress :=
  match address with
  | .v4 a b c d => .v4 ⟨.ofParts a b c d, port⟩
  | .v6 [a, b, c, d, e, f, g, h] => .v6 ⟨.ofParts a b c d e f g h, port⟩
  | .v6 _ => .v6 ⟨.ofParts 0 0 0 0 0 0 0 0, port⟩

/-- What connections share. -/
structure Shared where
  console : Console
  worker : IO.Ref Worker
  payloadLimit : Nat

/-- Serve a connection until the peer hangs up or its session fails. -/
partial def serveConnection (shared : Shared) (client : TCP.Socket.Client) (peer : String)
    (connection : Connection) : Async Unit := do
  match ← client.recv? 65536 with
  | none => shared.console.print [.disconnected peer]
  | some bytes =>
    let (progress, noted) ← shared.worker.modifyGet fun worker =>
      let (progress, worker) := connection.receive bytes.toList worker shared.payloadLimit
      let (noted, worker) := worker.takeEvents
      ((progress, noted), worker)
    shared.console.print (progress.events ++ noted)
    unless progress.replies.isEmpty do client.send ⟨progress.replies.toArray⟩
    match progress.failure with
    | some error => shared.console.print [.closing peer error]
    | none => serveConnection shared client peer progress.connection

/-- Take connections until the program is interrupted. -/
partial def takeConnections (shared : Shared) (server : TCP.Socket.Server)
    (signal : Signal.Waiter) : Async Unit := do
  let next : Option TCP.Socket.Client ← Selectable.one #[
    .case server.acceptSelector fun client => return some client,
    .case signal.selector fun _ => return none]
  match next with
  | none => shared.console.print [.interrupted]
  | some client =>
    let peer := toString (← client.getPeerName)
    shared.console.print [.connected peer]
    background (serveConnection shared client peer {})
    takeConnections shared server signal

/-- Listen at the address of the settings. -/
def listen (settings : Settings) : IO (Except StartFailure TCP.Socket.Server) := do
  match settings.host.address with
  | .error error => return .error (.listen settings.host.ip error.message)
  | .ok address =>
    try
      let server ← TCP.Socket.Server.mk
      server.bind (socketAddress address settings.host.port)
      server.noDelay
      server.listen 128
      return .ok server
    catch error =>
      return .error (.listen (address.socketText settings.host.port) (toString error))

/-- Report a failure. -/
def reportFailure (failure : StartFailure) : IO UInt32 := do
  IO.eprintln failure.report
  return failure.exitCode.toUInt32

/-- Bring the service up and serve connections. -/
def runService (invocation : Invocation) : IO UInt32 := do
  let environment ← readEnvironment
  let contents ← readContents invocation.settingsPath
  let (events, outcome) := Service.start invocation environment contents
  let console : Console := ⟨invocation.verbosity, environment.showsPayloads⟩
  console.printStart environment.retryBackoff events
  match outcome with
  | .error failure => reportFailure failure
  | .ok service =>
    match ← listen service.settings with
    | .error failure => reportFailure failure
    | .ok server =>
      let signal ← Signal.Waiter.mk .sigint false
      console.print [.listening (toString (← server.getSockName))]
      let worker ← IO.mkRef service.worker.takeEvents.2
      Async.block (takeConnections ⟨console, worker, environment.payloadLimit⟩ server signal)
      return 0

end TuningBridge

open TuningBridge in
/-- Do what the arguments ask for. -/
def main (arguments : List String) : IO UInt32 := do
  match CommandLine.parse? arguments with
  | none =>
    IO.eprintln s!"error: unexpected or incomplete arguments\n\n{CommandLine.helpText}"
    return 2
  | some .help =>
    IO.println CommandLine.helpText
    return 0
  | some .version =>
    IO.println CommandLine.versionText
    return 0
  | some (.serve invocation) => runService invocation
