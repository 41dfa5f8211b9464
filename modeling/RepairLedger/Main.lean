import RepairLedger.Command.Run
import RepairLedger.Host.Http
import Std.Async.DNS
import Std.Async.TCP
import Std.Time.DateTime.Timestamp

/-!
# The program

Answers what programs ask for on a real machine, and runs the program of the command line there.
-/

namespace RepairLedger.Machine

open Host

/-! ### Files -/

/-- The number of an error of the system and what it means. -/
def errorParts? : IO.Error → Option (UInt32 × String)
  | .alreadyExists _ n s | .otherError n s | .resourceBusy n s | .resourceVanished n s
  | .unsupportedOperation n s | .hardwareFault n s | .unsatisfiedConstraints n s
  | .illegalOperation n s | .protocolError n s | .timeExpired n s | .interrupted _ n s
  | .noFileOrDirectory _ n s | .invalidArgument _ n s | .permissionDenied _ n s
  | .resourceExhausted _ n s | .inappropriateType _ n s | .noSuchThing _ n s => some (n, s)
  | .unexpectedEof | .userError _ => none

/-- Why an operation on a file failed. -/
def failureOf (e : IO.Error) : Failure :=
  match errorParts? e with
  | some (2, _) => .notFound
  | some (16, _) => .busy
  | some (17, _) => .alreadyExists
  | some (20, _) => .notDirectory
  | some (21, _) => .isDirectory
  | some (36, _) => .nameTooLong
  | some (n, meaning) => .other s!"{meaning} (os error {Numeral.textOf n.toNat})"
  | none => .other e.toString

/-- Does something with a file. -/
def onFile {α : Type} (path : Path) (act : String → IO α) : IO (Except Failure α) := do
  if path.text.toList.contains '\x00' then return .error .nulInPath
  try return .ok (← act path.text)
  catch e => return .error (failureOf e)

/-- Reads a file. -/
def read (text : String) : IO Bytes := do
  let handle ← IO.FS.Handle.mk text .read
  return (← handle.readBinToEnd).toList

/-- What is at a path. -/
def kindOf (path : Path) : IO (Option Kind) := do
  let found ← onFile path fun text => do
    let place ← IO.FS.realPath text
    return (← place.metadata).type
  match found with
  | .ok .dir => return some .directory
  | .ok .file => return some .file
  | _ => return none

/-! ### Locks -/

/-- The locks that are held. -/
abbrev Locks := IO.Ref (List (Lock × IO.FS.Handle))

/-- How long to wait before trying a lock again, in milliseconds. -/
def pause : UInt32 := 10

/-- Tries to lock a file until the time is over. -/
partial def waitFor (handle : IO.FS.Handle) (timeout : Span) (start : Nat) :
    IO (Except LockFailure Unit) := do
  if ← handle.tryLock then return .ok ()
  let waited := (← IO.monoNanosNow) - start
  if timeout.nanos ≤ waited then return .error (.held ⟨waited⟩)
  IO.sleep pause
  waitFor handle timeout start

/-- Locks a file. -/
def lock (locks : Locks) (path : Path) (timeout : Span) : IO (Except LockFailure Lock) := do
  match ← onFile path fun text => IO.FS.Handle.mk text .append with
  | .error cause => return .error (.cannotOpen cause)
  | .ok handle =>
    match ← waitFor handle timeout (← IO.monoNanosNow) with
    | .error failure => return .error failure
    | .ok () =>
      let held ← locks.get
      let key : Lock := ⟨held.length⟩
      locks.set ((key, handle) :: held)
      return .ok key

/-- Gives a lock back. -/
def unlock (locks : Locks) (lock : Lock) : IO Unit := do
  for (key, handle) in ← locks.get do
    if key = lock then handle.unlock

/-! ### Servers -/

/-- Why a server could not be reached.  The numbers of these errors come with a minus sign. -/
def connectionFailureOf (e : IO.Error) : ConnectionFailure :=
  match (errorParts? e).map fun (n, _) => (-n).toNat with
  | some 101 => .unreachable
  | some 111 => .refused
  | _ => .other s!"Connection Failed: Connect error: {e.toString}"

/-- All that comes from a server until it closes the connection. -/
partial def receive (client : Std.Async.TCP.Socket.Client) (done : List Bytes) : IO Bytes := do
  match ← (client.recv? 65536).block with
  | none => return done.reverse.flatten
  | some bytes => receive client (bytes.toList :: done)

/-- The address of a server. -/
def addressOf (a : Std.Net.IPAddr) (port : Nat) : Std.Net.SocketAddress :=
  match a with
  | .v4 a => .v4 ⟨a, .ofNat port⟩
  | .v6 a => .v6 ⟨a, .ofNat port⟩

/-- Sends a request and reads the answer. -/
def exchange (d : Http.Destination) (address : Std.Net.SocketAddress) (request : Request) :
    IO (Except ConnectionFailure Response) := do
  try
    let client ← Std.Async.TCP.Socket.Client.mk
    (client.connect address).block
    (client.send (Http.requestText d request).toUTF8).block
    match Http.response? (← receive client []) with
    | some response => return .ok response
    | none => return .error (.other "Bad Status: the answer is not understood")
  catch e => return .error (connectionFailureOf e)

/-- Fetches what is at a URL. -/
def fetch (request : Request) : IO (Except ConnectionFailure Response) := do
  match Http.Destination.ofUrl? request.url with
  | none =>
    return .error (.other
      "Unknown Scheme: cannot make HTTPS request because no TLS backend is configured")
  | some d =>
    let port := Numeral.textOf d.port
    let unknown (reason : String) : Except ConnectionFailure Response :=
      .error (.other s!"Dns Failed: resolve dns name '{d.server}:{port}': {reason}")
    try
      let addresses ← (Std.Async.DNS.getAddrInfo d.server port).block
      match addresses[0]? with
      | none => return unknown "no address"
      | some a => exchange d (addressOf a d.port) request
    catch e => return unknown e.toString

/-! ### Everything -/

/-- The time. -/
def now : IO Instant := do
  let time ← Std.Time.Timestamp.now
  return (Instant.ofNanos? time.toNanosecondsSinceUnixEpoch.val.toNat).getD .epoch

/-- Answers an operation. -/
def perform (locks : Locks) : (op : Op) → IO op.Reply
  | .read path => onFile path read
  | .write path bytes => onFile path fun text => IO.FS.writeBinFile text ⟨bytes.toArray⟩
  | .makeDirectory path => onFile path fun text => IO.FS.createDir text
  | .kind path => kindOf path
  | .rename source target => do
    if target.text.toList.contains '\x00' then return .error .nulInPath
    onFile source fun text => IO.FS.rename text target.text
  | .lock path timeout => lock locks path timeout
  | .unlock key => unlock locks key
  | .fetch request => fetch request
  | .now => now
  | .environment name => IO.getEnv name
  | .workingDirectory => return ⟨(← IO.currentDir).toString⟩
  | .print text => IO.print text
  | .complain text => IO.eprint text
  | .log _ => return ()

end RepairLedger.Machine

open RepairLedger in
/-- Runs the program on the arguments of the command line. -/
def main (arguments : List String) : IO UInt32 := do
  let locks ← IO.mkRef []
  (Invocation.program arguments).interpret (Machine.perform locks)
