import RepairLedger.Command.Invocation
import RepairLedger.Ledger.File
import RepairLedger.Ledger.Lifecycle
import RepairLedger.Settings.Load

/-!
# Output

What commands print: what they have done (`Outcome`, `ReportOutcome`), a record with its repairs
(`RecordView`), and why they failed (`Refusal`).  All of it can be printed for a human reader or as
an indented JSON document.
-/

namespace RepairLedger

open Host

/-! ### Text -/

namespace Output

/-- A number in decimal. -/
def number (n : Nat) : String :=
  Numeral.textOf n

/-- A JSON document, or a text in its place. -/
def choose (style : Style) (json : Json.Value) (human : String) : String :=
  match style with
  | .json => json.text (.indented 2) ++ "\n"
  | .human => human

/-- A text with blanks behind it up to a width. -/
def padded (width : Nat) (text : String) : String :=
  text ++ String.ofList (List.replicate (width - text.length) ' ')

/-- A line across the page. -/
def rule : String :=
  String.ofList (List.replicate 72 '─') ++ "\n"

/-- A title with a line under it. -/
def title (text : String) : String :=
  text ++ "\n" ++ rule

/-- A line with a value and what it is. -/
def field (label value : String) : String :=
  s!"  {padded 12 label} {value}\n"

/-- An instant with its time zone. -/
def instant (t : Instant) : String :=
  t.display ++ " UTC"

end Output

open Output

/-! ### Failures -/

/-- A failure as it is explained to the user. -/
structure Diagnostic where
  message : String
  suggestion : String
  code : ErrorCode
deriving DecidableEq, Repr

namespace Diagnostic

/-- A failure with the usual suggestion for its code. -/
def ofCode (message : String) (code : ErrorCode) : Diagnostic :=
  ⟨message, code.hint, code⟩

/-- A failure as a JSON object. -/
def json (d : Diagnostic) : Json.Value :=
  .object [("error", .object [
    ("message", .string d.message),
    ("suggestion", .string d.suggestion),
    ("error_code", .string d.code.text)])]

/-- A failure as it is printed. -/
def text (d : Diagnostic) (style : Style) : String :=
  choose style d.json s!"error: {d.message}\n  suggestion: {d.suggestion}\n"

end Diagnostic

/-- Why a command has failed: the explanation, and the error with what lies behind it. -/
structure Refusal where
  diagnostic : Diagnostic
  error : String
  causes : List String
deriving DecidableEq, Repr

namespace Refusal

/-- A refusal that is explained by the error alone. -/
def ofError (e : LedgerError) : Refusal :=
  ⟨.ofCode e.message e.code, e.message, e.cause?.toList⟩

/-- A refusal because of the settings. -/
def ofSettingsError (e : SettingsError) : Refusal :=
  let causes := e.cause?.toList
  ⟨.ofCode (": ".intercalate (e.message :: causes)) .badSettings, e.message, causes⟩

/-- A refusal because a file that was named could not be read. -/
def ofUnreadable (what : String) (path : Path) (cause : Failure) : Refusal :=
  let message := s!"failed to read {what} {path.text}: {cause.message}"
  ⟨⟨message, s!"check the {what} path", .readFailed⟩, message, []⟩

/-- A refusal because a report could not be written. -/
def ofReportFailure (f : ReportFailure) : Refusal :=
  let message := ": ".intercalate (f.message :: f.causes)
  let diagnostic := match f.ledgerError? with
    | some e => .ofCode message e.code
    | none => ⟨message, "check --prs-json-file and --output", .readFailed⟩
  ⟨diagnostic, f.message, f.causes⟩

/-- A text whose lines but the first begin with blanks. -/
def indented (width : Nat) (text : String) : String :=
  let blanks := String.ofList (List.replicate width ' ')
  ("\n" ++ blanks).intercalate ((Text.pieces '\n' text.toList).map String.ofList)

/-- The causes of an error, numbered if there are several. -/
def causesText : List String → String
  | [] => ""
  | [cause] => s!"\n\nCaused by:\n    {indented 4 cause}"
  | causes =>
    "\n\nCaused by:" ++ String.join (causes.zipIdx.map fun (cause, i) =>
      let label := number i
      let blanks := String.ofList (List.replicate (5 - label.length) ' ')
      s!"\n{blanks}{label}: {indented 7 cause}")

/-- A refusal as it is printed. -/
def text (r : Refusal) (style : Style) : String :=
  s!"{r.diagnostic.text style}Error: {r.error}{causesText r.causes}\n"

end Refusal

/-! ### Outcomes -/

/-- What an operation has done. -/
structure Outcome where
  operation : Operation
  id : PullId
  ledgerPath : Path
  record : Record
deriving DecidableEq

namespace Outcome

/-- An outcome as a JSON object. -/
def json (o : Outcome) : Json.Value :=
  .object [
    ("operation", .string o.operation.name),
    ("record", .string o.id.text),
    ("ledger", .string o.ledgerPath.text),
    ("finalized", .bool o.record.isFinalized),
    ("manual_edits", .ofUInt64 (.ofNat o.record.edits.length)),
    ("last_modified", o.record.times.lastModified.json)]

/-- What has been done, in words. -/
def summary (o : Outcome) : String :=
  match o.operation with
  | .createInitial => s!"created initial record {o.id.text}"
  | .finalize => s!"finalized record {o.id.text}"
  | .addManualEdit => s!"added manual edit #{number o.record.edits.length} to {o.id.text}"

/-- An outcome as it is printed. -/
def text (o : Outcome) (style : Style) : String :=
  choose style o.json s!"✓ {o.summary} in {o.ledgerPath.text}\n"

end Outcome

/-- A report that has been written. -/
structure ReportOutcome where
  ledgerPath : Path
  outputPath : Path
  pulls : Nat
deriving DecidableEq

namespace ReportOutcome

/-- An outcome as a JSON object. -/
def json (o : ReportOutcome) : Json.Value :=
  .object [
    ("ledger", .string o.ledgerPath.text),
    ("output", .string o.outputPath.text),
    ("pull_requests", .ofUInt64 (.ofNat o.pulls))]

/-- An outcome as it is printed. -/
def text (o : ReportOutcome) (style : Style) : String :=
  let pulls := number o.pulls
  choose style o.json
    s!"✓ wrote {o.outputPath.text} ({pulls} pull requests from {o.ledgerPath.text})\n"

end ReportOutcome

/-! ### Records -/

/-- A record with its repairs sorted by their rules. -/
structure RecordView where
  id : PullId
  record : Record
  repairs : List Repair
deriving DecidableEq

namespace RecordView

/-- A repair as a JSON object. -/
def repairJson (r : Repair) : Json.Value :=
  .object [
    ("rule_key", .ofUInt64 r.rule),
    ("found", .ofUInt64 r.found),
    ("repaired", .ofUInt64 r.repaired)]

/-- A record and its repairs as a JSON object. -/
def json (v : RecordView) : Json.Value :=
  .object [
    ("id", .string v.id.text),
    ("record", v.record.json),
    ("repairs", .array (v.repairs.map repairJson))]

/-- The fields of a record. -/
def fields (r : Record) : String :=
  let closed := match r.state.endedAt with
    | none => ""
    | some t => field "closed" (instant t)
  field "url" r.state.url ++
    field "status" r.state.status ++
    field "opened" (instant r.state.createdAt) ++
    closed ++
    field "final diff" (if r.isFinalized then "captured" else "pending") ++
    field "created" (instant r.times.createdAt) ++
    field "modified" (instant r.times.lastModified)

/-- A repair as a line. -/
def repairLine (r : Repair) : String :=
  let rule := padded 8 (number r.rule.toNat)
  let found := padded 6 (number r.found.toNat)
  s!"rule {rule} found {found} repaired {number r.repaired.toNat}\n"

/-- The edit at an index as a line. -/
def editLine (e : ManualEdit) (index : Nat) : String :=
  s!"[{number (index + 1)}] {e.moment.describe}: {e.reason}\n"

/-- A titled list of lines, with an empty line before it; nothing if there are none. -/
def listing (name : String) (lines : List String) : String :=
  if lines.isEmpty then ""
  else "\n" ++ title s!"{name} ({number lines.length})" ++ String.join lines

/-- A record for a human reader. -/
def human (v : RecordView) : String :=
  title s!"Record {v.id.text}" ++ fields v.record ++
    listing "Repairs" (v.repairs.map repairLine) ++
    listing "Manual edits" (v.record.edits.zipIdx.map fun (e, i) => editLine e i) ++
    rule

/-- A record as it is printed. -/
def text (v : RecordView) (style : Style) : String :=
  choose style v.json v.human

end RecordView

end RepairLedger
