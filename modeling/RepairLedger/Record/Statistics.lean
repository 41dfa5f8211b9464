import RepairLedger.Json.Decoder
import RepairLedger.Text.Blank

/-!
# Repair statistics

What the repair tool reported about its work.  The object is kept as it came, including members
that nothing here reads; but it is judged once, when it is captured (`Statistics.ofValue`), so that
the repairs in it can be listed later (`Statistics.repairs`).
-/

namespace RepairLedger

open Json

/-- The repairs of one rule. -/
structure Repair where
  rule : UInt64
  /-- Violations before the tool ran. -/
  before : UInt64
  /-- Violations that are left. -/
  after : UInt64
deriving DecidableEq, Repr

namespace Repair

/-- How many violations the tool found. -/
def found (r : Repair) : UInt64 :=
  r.before

/-- How many violations the tool removed: none if there are more of them than before. -/
def repaired (r : Repair) : UInt64 :=
  if r.after ≤ r.before then r.before - r.after else 0

end Repair

/-- The members of a statistics object. -/
structure Statistics where
  members : Members
deriving DecidableEq

namespace Statistics

/-- The name of the member that lists the repairs. -/
def repairsName : String := "repairs"

def ruleName : String := "ruleKey"

def beforeName : String := "nbViolationsBefore"

def afterName : String := "nbViolationsAfter"

/-- Why a value is not a statistics object. -/
inductive Flaw where
  | notObject
  | noRepairs
  | repairsNotArray
  | repairNotObject (index : Nat)
  | badRule (index : Nat)
  | badCount (index : Nat) (name : String)
deriving DecidableEq, Repr

/-- The text of a flaw. -/
def Flaw.message : Flaw → String
  | .notObject => "top-level value must be a JSON object"
  | .noRepairs => s!"missing '{repairsName}' array"
  | .repairsNotArray => s!"'{repairsName}' must be an array"
  | .repairNotObject index => s!"{repairsName}[{Numeral.textOf index}] must be an object"
  | .badRule index =>
    s!"{repairsName}[{Numeral.textOf index}].{ruleName} must be a numeric rule id"
  | .badCount index name =>
    s!"{repairsName}[{Numeral.textOf index}].{name} must be a non-negative integer"

/-- The natural number that a value is. -/
def natural? : Value → Option UInt64
  | .number (.integer i) => i.toUInt64?
  | _ => none

/-- The number of a rule: a number, or a text that holds one. -/
def rule? : Value → Option UInt64
  | .string s => Numeral.read? (Text.trim s.toList)
  | v => natural? v

/-- A number of violations. -/
def count (index : Nat) (name : String) (members : Members) : Except Flaw UInt64 :=
  match (Value.member? name members).bind natural? with
  | some n => .ok n
  | none => .error (.badCount index name)

/-- Reads the repair at an index. -/
def repair (index : Nat) : Value → Except Flaw Repair
  | .object members => do
    let rule ← match (Value.member? ruleName members).bind rule? with
      | some rule => .ok rule
      | none => .error (.badRule index)
    let before ← count index beforeName members
    let after ← count index afterName members
    .ok ⟨rule, before, after⟩
  | _ => .error (.repairNotObject index)

/-- Reads the repairs from an index on. -/
def repairsFrom (index : Nat) : List Value → Except Flaw (List Repair)
  | [] => .ok []
  | v :: vs => do
    let r ← repair index v
    let rs ← repairsFrom (index + 1) vs
    .ok (r :: rs)

/-- The repairs in the order of the statistics; without a list of them there are none. -/
def repairs (s : Statistics) : Except Flaw (List Repair) :=
  match Value.member? repairsName s.members with
  | none => .ok []
  | some (.array items) => repairsFrom 0 items
  | some _ => .error .repairsNotArray

/-- The statistics of a pull request for which the tool reported none. -/
def empty : Statistics := ⟨[]⟩

def isEmpty (s : Statistics) : Bool :=
  s.members.isEmpty

/-- Judges a value: it must be the empty object or list its repairs. -/
def ofValue : Value → Except Flaw Statistics
  | .object [] => .ok empty
  | .object members =>
    match Value.member? repairsName members with
    | none => .error .noRepairs
    | some _ => (repairs ⟨members⟩).map fun _ => ⟨members⟩
  | _ => .error .notObject

/-- The statistics as they stand in JSON. -/
def json (s : Statistics) : Value :=
  .object s.members

/-- Reads statistics from JSON without judging them. -/
def decoder : Decoder Statistics := fun depth tree =>
  (Decoder.members depth tree).map Statistics.mk

end Statistics

end RepairLedger
