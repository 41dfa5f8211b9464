import RepairLedger.Command.Log
import RepairLedger.Command.Manual
import RepairLedger.Command.Output
import RepairLedger.Hosting.GitHub
import RepairLedger.Settings.Load

/-!
# Running commands

Each command as a program.  A command that changes a ledger judges its arguments first, then loads
the settings, and does all else under the lock of the ledger (`Job.change`): whether the operation
may run is found out before anything is fetched, and nothing is written unless all went well.

`Invocation.program` is the whole of what the program does for a list of arguments.
-/

namespace RepairLedger

open Host

/-- A program that may be refused. -/
abbrev Job := Attempt Refusal

/-- Where and how a command is run. -/
structure Setting where
  manner : Manner
  directory : Path

namespace Job

/-! ### Steps -/

/-- Refuses if there is an error. -/
def orRefuse {α : Type} (result : Except LedgerError α) : Job α :=
  ExceptT.mk (return result.mapError Refusal.ofError)

/-- Refuses if an attempt fails. -/
def refusing {α : Type} (tried : Attempt LedgerError α) : Job α :=
  ExceptT.adapt Refusal.ofError tried

/-- The id of the pull request that a command is about. -/
def idOf (subject : Subject) : Job PullId :=
  orRefuse <| (PullId.ofParts subject.owner subject.repo subject.number).mapError .ofInvalidId

/-- The settings for a command. -/
def settingsFor (setting : Setting) (subject : Subject) : Job Settings :=
  ExceptT.adapt Refusal.ofSettingsError <|
    Settings.resolve setting.directory ⟨subject.ledgerPath, setting.manner.token⟩

/-- Reads a text file that a command was given. -/
def readText (what : String) (path : Path) : Job String := do
  match ← ask (.read path) with
  | .error cause => throw (.ofUnreadable what path cause)
  | .ok bytes =>
    match Text.decode? bytes with
    | none => throw (.ofUnreadable what path .notText)
    | some text => return text

/-- Judges the text of a statistics file. -/
def statisticsOf (path : Path) (text : String) : Except LedgerError Statistics :=
  match Json.Decoder.value.run (Text.symbolsOf text) with
  | .error fault => .error (.malformedStatistics s!"{path.text}: {fault.message}")
  | .ok value => (Statistics.ofValue value).mapError fun flaw => .malformedStatistics flaw.message

/-- Reads the statistics file, if there is one. -/
def readStatistics : Option Path → Job Statistics
  | none => return .empty
  | some path => do orRefuse (statisticsOf path (← readText "statistics file" path))

/-- Prints what has been done, unless the user wants quiet. -/
def announce (manner : Manner) (text : Style → String) : Job Unit := do
  if !manner.quiet || manner.style = .json then ask (.print (text manner.style))

/-! ### Events -/

/-- The part of the program that speaks of the operations in the log. -/
def operationTarget : String := "prledger_core::lifecycle"

/-- Logs something about a record. -/
def logRecord (level : Level) (message : String) (id : PullId) (fields : Json.Members) :
    Job Unit :=
  ask (.log ⟨level, operationTarget, message, ("record", .string id.text) :: fields⟩)

/-- A count as a field of an event. -/
def countField (name : String) (n : Nat) : String × Json.Value :=
  (name, .ofUInt64 (.ofNat n))

/-! ### Changes of the ledger -/

/-- Changes the ledger by one record: under the lock, the operation is judged, the record is made,
and the ledger is written. -/
def change (settings : Settings) (operation : Operation) (id : PullId)
    (make : Ledger → Job Record) : Job Outcome := do
  let timeout := Span.ofMillis settings.lockTimeoutMs.toNat
  let file ← refusing (LedgerFile.acquire settings.ledgerPath timeout)
  let record ← LedgerFile.releasing file.lock do
    orRefuse (operation.check file.ledger id)
    make file.ledger
  let _ ← refusing (file.commit id record)
  return ⟨operation, id, settings.ledgerPath, record⟩

/-- Carries out an operation: its arguments are judged, the settings loaded, the ledger changed, and
it is said what has been done. -/
def carryOut {α : Type} (setting : Setting) (operation : Operation) (subject : Subject)
    (judge : Job α) (make : Settings → PullId → α → Ledger → Job Record) : Job Unit := do
  let id ← idOf subject
  let argument ← judge
  let settings ← settingsFor setting subject
  let outcome ← change settings operation id (make settings id argument)
  announce setting.manner outcome.text

/-- Notes in the log that a pull request has been fetched. -/
def logFetched (id : PullId) (diff : String) : Job Unit :=
  logRecord .debug "fetched pull request" id [countField "diff_bytes" diff.utf8ByteSize]

/-- Makes the record of a pull request that has been opened. -/
def begin (settings : Settings) (id : PullId) (statistics : Statistics) (ledger : Ledger) :
    Job Record := do
  let capture ← refusing ((GitHub.source settings).captureInitial id statistics)
  logFetched id capture.diff
  let record ← orRefuse (ledger.createInitial id capture (← ask .now))
  logRecord .info "creating initial record" id []
  return record

/-- Makes the record of a pull request that has been closed. -/
def finish (settings : Settings) (id : PullId) (ledger : Ledger) : Job Record := do
  let capture ← refusing ((GitHub.source settings).capture id)
  logFetched id capture.diff
  let record ← orRefuse (ledger.finalize id capture (← ask .now))
  if (ledger.get? id).any Record.isFinalized then
    logRecord .warn "record already finalized, overwriting final capture" id []
  logRecord .info "finalized record" id []
  return record

/-- Makes the record of a pull request with one more manual edit. -/
def annotate (diffPath : Path) (reason : String) (id : PullId) (moment : EditMoment)
    (ledger : Ledger) : Job Record := do
  let diff ← readText "diff file" diffPath
  let record ← orRefuse (ledger.appendEdit id ⟨moment, reason, diff⟩ (← ask .now))
  logRecord .info "appended manual edit" id
    [("edit_type", .string moment.name), countField "edits" record.edits.length]
  return record

/-- Creates the record of a pull request that has been opened. -/
def createInitial (setting : Setting) (subject : Subject) (statisticsPath : Option Path) :
    Job Unit :=
  carryOut setting .createInitial subject (readStatistics statisticsPath) begin

/-- Enters the final state of a pull request that has been closed. -/
def finalize (setting : Setting) (subject : Subject) : Job Unit :=
  carryOut setting .finalize subject (pure ()) fun settings id () => finish settings id

/-- The moment that a text names. -/
def momentOf (text : String) : Except LedgerError EditMoment :=
  match EditMoment.ofText? text with
  | some moment => .ok moment
  | none => .error (.invalidMoment text)

/-- Adds a manual edit to a record. -/
def addManualEdit (setting : Setting) (subject : Subject) (diffPath : Path)
    (reason moment : String) : Job Unit :=
  carryOut setting .addManualEdit subject (orRefuse (momentOf moment)) fun _ =>
    annotate diffPath reason

/-! ### Reading the ledger -/

/-- The record of a pull request with its repairs. -/
def view (ledger : Ledger) (id : PullId) : Except LedgerError RecordView :=
  match ledger.get? id with
  | none => .error (.recordNotFound id)
  | some record => do
    let summary ← Summary.ofRecord record
    .ok ⟨id, record, summary.repairs⟩

/-- Prints the record of a pull request. -/
def describe (setting : Setting) (subject : Subject) : Job Unit := do
  let id ← idOf subject
  let settings ← settingsFor setting subject
  let ledger ← refusing (Ledger.load settings.ledgerPath)
  let found ← orRefuse (view ledger id)
  ask (.print (found.text setting.manner.style))

/-- Writes the report of a ledger. -/
def report (setting : Setting) (ledgerPath outputPath : Path) : Job Unit := do
  let pulls ← ExceptT.adapt Refusal.ofReportFailure (Report.writeFile ledgerPath outputPath)
  announce setting.manner (ReportOutcome.text ⟨ledgerPath, outputPath, pulls⟩)

end Job

/-- What a command does. -/
def Command.job (setting : Setting) : Command → Job Unit
  | createInitial subject statistics => Job.createInitial setting subject statistics
  | finalize subject => Job.finalize setting subject
  | addManualEdit subject diff reason moment =>
    Job.addManualEdit setting subject diff reason moment
  | report ledger output => Job.report setting ledger output
  | describe subject => Job.describe setting subject
  | completions shell => ask (.print (Manual.completions shell))

/-- How a program ends, as a number. -/
abbrev ExitCode := UInt32

namespace ExitCode

def success : ExitCode := 0

def failure : ExitCode := 1

/-- The arguments were not understood. -/
def misuse : ExitCode := 2

end ExitCode

namespace Invocation

/-- Runs a command and prints why it was refused, if it was. -/
def runCommand (manner : Manner) (command : Command) : Program ExitCode := do
  let directory ← Program.request .workingDirectory
  let start : Event :=
    ⟨.debug, "prledger", "starting prledger", [("root", .string directory.text)]⟩
  Program.request (.log start)
  match ← (command.job ⟨manner, directory⟩).run with
  | .ok () => return .success
  | .error refusal =>
    Program.request (.complain (refusal.text manner.style))
    return .failure

/-- What the program prints when it is asked for its version. -/
def versionText : String :=
  s!"prledger-cli {GitHub.version}\n"

/-- What is done for an invocation. -/
def execute : Invocation → Program ExitCode
  | misuse => do
    Program.request (.complain Manual.misuse)
    return .misuse
  | help topic => do
    Program.request (.print (Manual.help topic))
    return .success
  | version => do
    Program.request (.print versionText)
    return .success
  | run manner command => do
    let log ← Log.ofEnvironment manner.verbose
    (runCommand manner command).logging log

/-- What is done for a list of arguments. -/
def program (arguments : List String) : Program ExitCode :=
  (ofArguments arguments).execute

end Invocation

end RepairLedger
