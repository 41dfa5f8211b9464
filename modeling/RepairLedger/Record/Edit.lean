import RepairLedger.Json.Decoder
import RepairLedger.Text.Blank

/-!
# Manual edits

A change that a person made to an automatic patch, before or after the pull request was opened.
-/

namespace RepairLedger

/-- When a manual edit was made. -/
inductive EditMoment where
  | beforeOpening
  | afterOpening
deriving DecidableEq, Repr

namespace EditMoment

/-- The name by which a moment is written. -/
def name : EditMoment → String
  | beforeOpening => "before_open_pr"
  | afterOpening => "after_open_pr"

/-- The moment in words. -/
def describe : EditMoment → String
  | beforeOpening => "before opening the PR"
  | afterOpening => "after opening the PR"

/-- The moment that is meant when none is given. -/
def default : EditMoment := afterOpening

/-- The moment of exactly this name. -/
def ofName? (name : String) : Option EditMoment :=
  if name = beforeOpening.name then some beforeOpening
  else if name = afterOpening.name then some afterOpening
  else none

/-- Reads a name; its case and blanks around it do not matter. -/
def ofText? (text : String) : Option EditMoment :=
  ofName? (String.ofList ((Text.trim text.toList).map Char.toLower))

/-- The moment as it stands in JSON. -/
def json (m : EditMoment) : Json.Value :=
  .string m.name

open Json

/-- Reads the content of a JSON string as a moment. -/
def ofContent (content : String) : Except Fault EditMoment :=
  match ofName? content with
  | some moment => .ok moment
  | none =>
    let wanted := s!"`{beforeOpening.name}` or `{afterOpening.name}`"
    .error (.mismatch (.unknownVariant content wanted))

/-- The fault of an object that should name a moment and has no members. -/
def memberFault : Ending → Fault
  | .closed | .comma _ => .valueExpected
  | .textEnds => .endInValue
  | .stray .beginArray => Tree.refusal "variant identifier" (.array [] .closed)
  | .stray .beginObject => Tree.refusal "variant identifier" (.object [] .closed)
  | .stray t => Tree.refusal "variant identifier" (.leaf t)

/-- Reads a moment from JSON: its name, or an object whose one member has that name and no
value. -/
def decoder : Decoder EditMoment
  | _, .leaf (.string s) => do ofContent (← s.content)
  | depth, .object members ending => do
    let _ ← enter depth
    match members with
    | [] => .error (memberFault ending)
    | (name, tree) :: rest =>
      let moment ← ofContent (← name.content)
      match tree with
      | .leaf .null =>
        match rest, ending with
        | [], .closed => .ok moment
        | [], .textEnds => .error .endInObject
        | _, _ => .error .valueExpected
      | tree => .error (tree.refusal "unit")
  | _, .missing => .error .endInValue
  | _, .unseparated next => .error (separatorFault next)
  | _, _ => .error .valueExpected

end EditMoment

structure ManualEdit where
  moment : EditMoment
  reason : String
  diff : String
deriving DecidableEq

namespace ManualEdit

/-- An edit as it stands in JSON. -/
def json (e : ManualEdit) : Json.Value :=
  .object [("type", e.moment.json), ("reason", .string e.reason), ("diff", .string e.diff)]

open Json in
/-- Reads an edit from JSON. -/
def decoder : Decoder ManualEdit :=
  Fields.decoder "ManualEdit"
    (.cons (.required "type" EditMoment.decoder) <|
      .cons (.required "reason" .string) <|
      .cons (.required "diff" .string) .nil)
    fun (moment, reason, diff, ()) => ⟨moment, reason, diff⟩

end ManualEdit

end RepairLedger
