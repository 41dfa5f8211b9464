import RepairLedger.Json.Value

/-!
# Log events
-/

namespace RepairLedger.Host

/-- How important an event is; a later level is of less importance. -/
inductive Level where
  | error
  | warn
  | info
  | debug
  | trace
deriving DecidableEq, Repr

namespace Level

/-- The name of a level. -/
def name : Level → String
  | error => "ERROR"
  | warn => "WARN"
  | info => "INFO"
  | debug => "DEBUG"
  | trace => "TRACE"

/-- The place of a level; the most important one comes first. -/
def rank : Level → Nat
  | error => 1
  | warn => 2
  | info => 3
  | debug => 4
  | trace => 5

end Level

structure Event where
  level : Level
  /-- The part of the program that speaks. -/
  target : String
  message : String
  fields : Json.Members
deriving DecidableEq

end RepairLedger.Host
