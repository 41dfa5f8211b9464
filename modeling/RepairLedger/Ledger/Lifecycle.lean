import RepairLedger.Ledger.Basic
import RepairLedger.Ledger.Error

/-!
# The life of a record

A record is created when its pull request is opened, finalized when it is closed, and may get manual
edits at any time between and after.  Each operation gives the new record and leaves the ledger
alone; the caller enters the record with `Ledger.upsert`.

Whether an operation may run at all depends only on whether the ledger has a record of the pull
request (`Operation.check`), so this can be found out before anything is fetched.
-/

namespace RepairLedger

/-- The operations on records. -/
inductive Operation where
  | createInitial
  | finalize
  | addManualEdit
deriving DecidableEq, Repr

namespace Operation

/-- The name of an operation. -/
def name : Operation → String
  | createInitial => "create-initial"
  | finalize => "finalize"
  | addManualEdit => "add-manual-edit"

/-- May the operation run on the pull request? -/
def check (operation : Operation) (ledger : Ledger) (id : PullId) : Except LedgerError Unit :=
  match operation, ledger.contains id with
  | createInitial, true => .error (.duplicateRecord id)
  | finalize, false => .error (.noInitialRecord id)
  | addManualEdit, false => .error (.recordNotFound id)
  | _, _ => .ok ()

end Operation

/-! ### Operations -/

/-- What is captured when a pull request is opened. -/
structure InitialCapture where
  state : PullState
  diff : String
  statistics : Statistics
deriving DecidableEq

/-- What is captured when a pull request has been closed. -/
structure FinalCapture where
  state : PullState
  diff : String
deriving DecidableEq

namespace Ledger

/-- The first record of a pull request. -/
def createInitial (l : Ledger) (id : PullId) (capture : InitialCapture) (now : Instant) :
    Except LedgerError Record := do
  Operation.createInitial.check l id
  .ok (.begin id.slug capture.state capture.statistics capture.diff now)

/-- The record of a pull request with its final state and diff.  A record that is final already is
finalized anew. -/
def finalize (l : Ledger) (id : PullId) (capture : FinalCapture) (now : Instant) :
    Except LedgerError Record :=
  match l.get? id with
  | none => .error (.noInitialRecord id)
  | some record => .ok (record.finish capture.state capture.diff now)

/-- The record of a pull request with one more manual edit, for which there must be a reason. -/
def appendEdit (l : Ledger) (id : PullId) (edit : ManualEdit) (now : Instant) :
    Except LedgerError Record :=
  match l.get? id with
  | none => .error (.recordNotFound id)
  | some record =>
    if Text.isBlankText edit.reason then .error (.invalidEdit id "edit reason must not be empty")
    else .ok (record.annotate edit now)

end Ledger

/-! ### Captures -/

/-- What the hosting service reports of a pull request. -/
structure Snapshot where
  state : PullState
  /-- Where the diff can be fetched. -/
  diffUrl : String
deriving DecidableEq

/-- A service that can be asked for pull requests and their diffs.  A refusal is a message. -/
structure Source (m : Type → Type) where
  pull : PullId → m (Except String Snapshot)
  diff : (url : String) → m (Except String String)

/-- What is fetched of a pull request. -/
inductive Fetched where
  | metadata
  | diff
deriving DecidableEq, Repr

/-- The name of what is fetched. -/
def Fetched.name : Fetched → String
  | metadata => "pull request metadata"
  | diff => "diff"

namespace Source

variable {m : Type → Type} [Monad m]

/-- The error of a fetch that failed. -/
def failure (id : PullId) (what : Fetched) (message : String) : LedgerError :=
  .fetchFailed id what.name message

/-- Fetches the state of a pull request, and then the diff from where the state says it is. -/
def capture (source : Source m) (id : PullId) : m (Except LedgerError FinalCapture) := do
  match ← source.pull id with
  | .error message => return .error (failure id .metadata message)
  | .ok snapshot =>
    match ← source.diff snapshot.diffUrl with
    | .error message => return .error (failure id .diff message)
    | .ok diff => return .ok ⟨snapshot.state, diff⟩

/-- Fetches what a first record needs. -/
def captureInitial (source : Source m) (id : PullId) (statistics : Statistics) :
    m (Except LedgerError InitialCapture) := do
  match ← source.capture id with
  | .error e => return .error e
  | .ok c => return .ok ⟨c.state, c.diff, statistics⟩

end Source

end RepairLedger
