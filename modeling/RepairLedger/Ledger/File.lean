import RepairLedger.Host.Program
import RepairLedger.Ledger.Report

/-!
# The ledger file

A change of the ledger file is one cycle: the lock is taken (`LedgerFile.acquire`), the ledger is
read, the new ledger is written beside it and moved into its place, and the lock is given back
(`LedgerFile.commit`).  Whoever reads the file without the lock sees it as it was before the move or
as it is after.

The lock is a lock on a file of its own, whose name is longer than that of the ledger by `.lock`.
-/

namespace RepairLedger

open Host

/-- A program that may fail. -/
abbrev Attempt (ε : Type) := ExceptT ε Program

/-- Asks for one thing. -/
def ask (op : Op) {ε : Type} : Attempt ε op.Reply :=
  ExceptT.lift (Program.request op)

/-- Asks for something that may fail. -/
def attempt {ε κ α : Type} (reply : Program (Except κ α)) (failed : κ → ε) : Attempt ε α :=
  ExceptT.mk do return (← reply).mapError failed

/-! ### Directories -/

/-- Creates the first of the directories, in one that is created before it if it is missing; each
path is followed by those around it. -/
def createDirectories : List Path → Program (Except Failure Unit)
  | [] => return .ok ()
  | path :: outer => do
    match ← Program.request (.makeDirectory path) with
    | .ok () => return .ok ()
    | .error .notFound =>
      match ← createDirectories outer with
      | .error cause => return .error cause
      | .ok () => again (← Program.request (.makeDirectory path)) path
    | .error cause => again (.error cause) path
where
  /-- Nothing is wrong if there is a directory already. -/
  again (result : Except Failure Unit) (path : Path) : Program (Except Failure Unit) := do
    match result with
    | .ok () => return .ok ()
    | .error cause =>
      return if (← Program.request (.kind path)) = some .directory then .ok () else .error cause

/-- Creates the directory that a path is in. -/
def createParent (path : Path) : Program (Except Failure Unit) :=
  match path.parent? with
  | none => return .ok ()
  | some parent => if parent.isEmpty then return .ok () else createDirectories parent.ancestors

/-! ### Loading and saving -/

namespace Ledger

/-- The part of the program that speaks in the log. -/
def target : String := "prledger_core::store"

/-- The log event of a ledger that was read or written. -/
def event (message : String) (path : Path) (l : Ledger) : Event where
  level := .debug
  target := target
  message := message
  fields := [("path", .string path.text), ("records", .ofUInt64 (.ofNat l.size))]

/-- Reads a ledger file; a missing one holds the empty ledger. -/
def load (path : Path) : Attempt LedgerError Ledger := do
  match ← ask (.read path) with
  | .error .notFound =>
    ask (.log ⟨.debug, target, "ledger missing, starting empty", [("path", .string path.text)]⟩)
    return empty
  | .error cause => throw (.readFailed path cause)
  | .ok bytes =>
    match ofBytes bytes with
    | .error fault => throw (.corrupt path fault)
    | .ok ledger =>
      ask (.log (event "loaded ledger" path ledger))
      return ledger

/-- Where a ledger is written before it takes the place of the old one. -/
def temporaryPath (path : Path) : Path :=
  path.withEnding ".tmp"

/-- Writes a ledger file; the old one stays as it is until the new one is complete. -/
def save (l : Ledger) (path : Path) : Attempt LedgerError Unit := do
  attempt (createParent path) (.writeFailed path)
  let temporary := temporaryPath path
  attempt (.request (.write temporary (Text.encode l.text))) (.writeFailed path)
  attempt (.request (.rename temporary path)) (.writeFailed path)
  ask (.log (event "persisted ledger" path l))

end Ledger

/-! ### The lock -/

namespace LedgerLock

/-- The part of the program that speaks in the log. -/
def target : String := "prledger_core::lock"

/-- The lock file of a ledger file. -/
def pathFor (ledgerPath : Path) : Path :=
  ledgerPath.withEnding ".lock"

/-- Takes the lock at a path. -/
def acquire (path : Path) (timeout : Span) : Attempt LedgerError Lock := do
  attempt (createParent path) .lockFailed
  match ← ask (.lock path timeout) with
  | .ok lock =>
    ask (.log ⟨.debug, target, "acquired ledger lock", [("path", .string path.text)]⟩)
    return lock
  | .error (.cannotOpen cause) => throw (.lockFailed cause)
  | .error (.held waited) =>
    ask (.log ⟨.warn, target, "ledger lock timed out",
      [("path", .string path.text), ("waited", .string waited.text)]⟩)
    throw (.lockTimeout path waited)

end LedgerLock

/-! ### Cycles -/

/-- A ledger file that has been locked and read. -/
structure LedgerFile where
  path : Path
  ledger : Ledger
  lock : Lock

namespace LedgerFile

/-- Gives the lock back and leaves the file as it is. -/
def close (f : LedgerFile) : Program Unit :=
  .request (.unlock f.lock)

/-- Gives a lock back if what is done under it fails. -/
def releasing {ε α : Type} (lock : Lock) (use : Attempt ε α) : Attempt ε α := do
  try use
  catch e =>
    ask (.unlock lock)
    throw e

/-- Locks and reads a ledger file. -/
def acquire (path : Path) (timeout : Span) : Attempt LedgerError LedgerFile := do
  let lock ← LedgerLock.acquire (LedgerLock.pathFor path) timeout
  let ledger ← releasing lock (Ledger.load path)
  return ⟨path, ledger, lock⟩

/-- Enters a record, writes the file and gives the lock back, even if the file cannot be
written. -/
def commit (f : LedgerFile) (id : PullId) (record : Record) : Attempt LedgerError Ledger := do
  let ledger := f.ledger.upsert id record
  releasing f.lock (ledger.save f.path)
  ask (.unlock f.lock)
  return ledger

end LedgerFile

/-! ### The report of a file -/

/-- Why a report could not be written. -/
inductive ReportFailure where
  | noLedger (path : Path)
  | ledger (error : LedgerError)
  /-- The ledger was read and cannot be rendered. -/
  | rendering (path : Path) (error : LedgerError)
  | output (path : Path) (cause : Failure)

namespace ReportFailure

/-- What went wrong. -/
def message : ReportFailure → String
  | noLedger path => s!"ledger {path.text} does not exist"
  | ledger error => error.message
  | rendering path _ => s!"failed to render report for {path.text}"
  | output path _ => s!"failed to write {path.text}"

/-- What lies behind it. -/
def causes : ReportFailure → List String
  | noLedger _ => []
  | ledger error => error.cause?.toList
  | rendering _ error => error.message :: error.cause?.toList
  | output _ cause => [cause.message]

/-- The error of the ledger, if it is one. -/
def ledgerError? : ReportFailure → Option LedgerError
  | ledger error | rendering _ error => some error
  | noLedger _ | output _ _ => none

end ReportFailure

namespace Report

/-- The part of the program that speaks in the log. -/
def target : String := "prledger_core::report"

/-- Writes the report of a ledger file to another file, and gives the number of its sections. -/
def writeFile (ledgerPath outputPath : Path) : Attempt ReportFailure Nat := do
  if (← ask (.kind ledgerPath)) ≠ some .file then throw (.noLedger ledgerPath)
  let ledger ← ExceptT.adapt .ledger (Ledger.load ledgerPath)
  match ledger.report with
  | .error error => throw (.rendering ledgerPath error)
  | .ok report =>
    attempt (.request (.write outputPath (Text.encode report))) (.output outputPath)
    ask (.log ⟨.info, target, "wrote report",
      [("output", .string outputPath.text), ("pull_requests", .ofUInt64 (.ofNat ledger.size))]⟩)
    return ledger.size

end Report

end RepairLedger
