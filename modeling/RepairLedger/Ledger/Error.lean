import RepairLedger.Host.Failure
import RepairLedger.Host.Path
import RepairLedger.Json.Fault
import RepairLedger.Pull.Id
import RepairLedger.Text.Quoted
import RepairLedger.Time.Span

/-!
# Errors

Everything that can go wrong with a ledger, with a message for each case.  An error also has a code
that scripts can rely on, with a hint for the operator.
-/

namespace RepairLedger

inductive ErrorCode where
  | badSettings
  | invalidId
  | invalidMoment
  | invalidEdit
  | duplicateRecord
  | noInitialRecord
  | recordNotFound
  | malformedStatistics
  | readFailed
  | corruptLedger
  | writeFailed
  | lockHeld
  | fetchFailed
  | unexpected
deriving DecidableEq, Repr

namespace ErrorCode

/-- The code as scripts see it. -/
def text : ErrorCode → String
  | badSettings => "E1001"
  | invalidId => "E1002"
  | invalidMoment => "E1003"
  | invalidEdit => "E1004"
  | duplicateRecord => "E2001"
  | noInitialRecord => "E2002"
  | recordNotFound => "E2003"
  | malformedStatistics => "E2004"
  | readFailed => "E3001"
  | corruptLedger => "E3002"
  | writeFailed => "E5001"
  | lockHeld => "E5002"
  | fetchFailed => "E6001"
  | unexpected => "E9001"

/-- What the code means, in a few words. -/
def summary : ErrorCode → String
  | badSettings => "Config file parse error"
  | invalidId => "Invalid record identifier"
  | invalidMoment => "Invalid manual edit type"
  | invalidEdit => "Invalid manual edit"
  | duplicateRecord => "Record already exists"
  | noInitialRecord => "Initial record missing"
  | recordNotFound => "Record not found"
  | malformedStatistics => "Malformed repair statistics"
  | readFailed => "Ledger read failed"
  | corruptLedger => "Corrupt ledger file"
  | writeFailed => "Ledger write failed"
  | lockHeld => "Lock contention"
  | fetchFailed => "Upstream fetch failed"
  | unexpected => "Internal unexpected error"

/-- What the operator can do. -/
def hint : ErrorCode → String
  | badSettings => "Fix syntax in prledger.toml and retry."
  | invalidId => "Use an identifier of the form owner/repo#number."
  | invalidMoment => "Use one of: before_open_pr, after_open_pr."
  | invalidEdit => "Provide a short, non-empty --edit-reason."
  | duplicateRecord => "Use `finalize` or `add-manual-edit` to update an existing record."
  | noInitialRecord => "Run `create-initial` for this record first."
  | recordNotFound => "Check owner, repo name and PR number."
  | malformedStatistics => "Pass the statistics file produced by the repair tool unmodified."
  | readFailed => "Check that the ledger path is readable."
  | corruptLedger => "Restore the ledger from version control."
  | writeFailed => "Check disk space and write permissions."
  | lockHeld => "Retry after the other `prledger` process releases its lock."
  | fetchFailed => "Check network access and GITHUB_TOKEN, then retry."
  | unexpected => "Retry once. If persistent, report a bug with logs."

end ErrorCode

inductive LedgerError where
  | invalidId (value reason : String)
  | invalidMoment (text : String)
  | invalidEdit (id : PullId) (reason : String)
  | duplicateRecord (id : PullId)
  | noInitialRecord (id : PullId)
  | recordNotFound (id : PullId)
  | malformedStatistics (reason : String)
  /-- The hosting service did not answer, or not well; `what` was asked for. -/
  | fetchFailed (id : PullId) (what message : String)
  | readFailed (path : Host.Path) (cause : Host.Failure)
  | corrupt (path : Host.Path) (fault : Json.Fault)
  | writeFailed (path : Host.Path) (cause : Host.Failure)
  | lockTimeout (path : Host.Path) (waited : Span)
  | lockFailed (cause : Host.Failure)

namespace LedgerError

/-- The text of an error. -/
def message : LedgerError → String
  | invalidId value reason => s!"invalid record identifier '{value}': {reason}"
  | invalidMoment text => s!"invalid edit type '{text}'"
  | invalidEdit id reason => s!"invalid manual edit for {id.text}: {reason}"
  | duplicateRecord id => s!"cannot create initial record for {id.text}: already exists"
  | noInitialRecord id =>
    s!"cannot create final record for {id.text}: initial record does not exist"
  | recordNotFound id => s!"no such record: {id.text}"
  | malformedStatistics reason => s!"malformed repair statistics: {reason}"
  | fetchFailed id what message => s!"failed to fetch {what} for {id.text}: {message}"
  | readFailed path cause => s!"failed to read ledger {path.text}: {cause.message}"
  | corrupt path fault => s!"failed to parse ledger {path.text}: {fault.message}"
  | writeFailed path cause => s!"failed to write ledger {path.text}: {cause.message}"
  | lockTimeout path waited =>
    s!"ledger is locked by another process: gave up after {waited.text} at {Text.quote path.text}"
  | lockFailed cause => s!"cannot create lock file: {cause.message}"

/-- The code of an error. -/
def code : LedgerError → ErrorCode
  | invalidId _ _ => .invalidId
  | invalidMoment _ => .invalidMoment
  | invalidEdit _ _ => .invalidEdit
  | duplicateRecord _ => .duplicateRecord
  | noInitialRecord _ => .noInitialRecord
  | recordNotFound _ => .recordNotFound
  | malformedStatistics _ => .malformedStatistics
  | fetchFailed _ _ _ => .fetchFailed
  | readFailed _ _ => .readFailed
  | corrupt _ _ => .corruptLedger
  | writeFailed _ _ => .writeFailed
  | lockTimeout _ _ => .lockHeld
  | lockFailed _ => .writeFailed

/-- The text of what lies behind an error and is part of its message. -/
def cause? : LedgerError → Option String
  | readFailed _ cause | writeFailed _ cause | lockFailed cause => some cause.message
  | corrupt _ fault => some fault.message
  | _ => none

/-- The error of a text that is no id. -/
def ofInvalidId (i : PullId.Invalid) : LedgerError :=
  invalidId i.value i.flaw.message

end LedgerError

end RepairLedger
