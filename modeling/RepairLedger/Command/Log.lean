import RepairLedger.Host.Program
import RepairLedger.Json.Text
import RepairLedger.Text.Cut
import RepairLedger.Text.Numeral

/-!
# The log

Which events are logged, and how.  A filter is a list of directives: each speaks of the targets that
begin with a text, and says which levels are shown.  Of the directives that speak of a target, the
one with the longest text decides (`Filter.limit`).

`Program.logging` writes the events of a program that its filter shows on the channel for errors,
each as a line with the time.
-/

namespace RepairLedger

open Host

/-- Shows the events of some targets up to a level. -/
structure Directive where
  /-- How the targets begin. -/
  target : String
  /-- The last level that is shown; `none` shows nothing. -/
  limit : Option Level
  /-- The directive speaks only of what happens within a named span, and nothing does. -/
  inSpan : Bool
deriving DecidableEq, Repr

namespace Directive

/-- The limit that a text names, or that it is the number of. -/
def limit? (text : List Char) : Option (Option Level) :=
  match Numeral.read? text with
  | some n => ([none] ++ levels.map some)[n.toNat]?
  | none =>
    let name := String.ofList (text.map Char.toUpper)
    if name.isEmpty then some (some .error)
    else if name = "OFF" then some none
    else (levels.find? (·.name = name)).map some
where
  levels : List Level := [.error, .warn, .info, .debug, .trace]

/-- The limit behind an equals sign; where nothing is said, everything is shown. -/
def limitAfterSign? (text : List Char) : Option (Option Level) :=
  if text.isEmpty then some (some .trace) else limit? text

/-- May a target begin with the character? -/
def isTargetStart (c : Char) : Bool :=
  c.isAlphanum || 0x80 ≤ c.toNat || ['-', ':', '_'].contains c

/-- Reads a directive: a limit, or a target with or without a limit. -/
def read? (text : List Char) : Option Directive :=
  let name := text.takeWhile fun c => c ≠ '=' && c ≠ '['
  if !(text.head?.any fun c => isTargetStart c || c = '[') then none
  else
    match text.drop name.length with
    | [] =>
      match limit? name with
      | some limit => some ⟨"", limit, false⟩
      | none => some ⟨.ofList name, some .trace, false⟩
    | '[' :: span => do
      let (_, rest) ← Text.cutFirst ']' span
      match rest with
      | [] => some ⟨.ofList name, some .trace, true⟩
      | '=' :: limit => some ⟨.ofList name, ← limitAfterSign? limit, true⟩
      | _ => none
    | _ :: limit => do some ⟨.ofList name, ← limitAfterSign? limit, false⟩

/-- Does the directive speak of the target? -/
def covers (d : Directive) (target : String) : Bool :=
  !d.inSpan && d.target.toList.isPrefixOf target.toList

end Directive

abbrev Filter := List Directive

namespace Filter

/-- Reads directives with commas between them.  A filter without directives shows errors. -/
def ofText? (text : String) : Option Filter := do
  let pieces := (Text.pieces ',' text.toList).filter (!·.isEmpty)
  let directives ← pieces.mapM Directive.read?
  some (if directives.isEmpty then [⟨"", some .error, false⟩] else directives)

/-- The last level that is shown of a target.  Of two directives for texts of one length the later
one counts. -/
def limit (filter : Filter) (target : String) : Option Level :=
  (best? (filter.filter (·.covers target))).bind (·.limit)
where
  /-- The last directive for a longest text. -/
  best? : List Directive → Option Directive
    | [] => none
    | d :: ds =>
      match best? ds with
      | none => some d
      | some b => if d.target.length ≤ b.target.length then some b else some d

/-- Is the event shown? -/
def shows (filter : Filter) (event : Event) : Bool :=
  (filter.limit event.target).any fun last => event.level.rank ≤ last.rank

/-- The filter that is used unless another one is asked for. -/
def default (verbose : Bool) : Filter :=
  let own : Level := if verbose then .debug else .info
  let others : Level := if verbose then .info else .warn
  [⟨"prledger", some own, false⟩, ⟨"prledger_core", some own, false⟩, ⟨"", some others, false⟩]

end Filter

/-- How events are logged. -/
structure Log where
  filter : Filter
  asJson : Bool
deriving DecidableEq, Repr

namespace Log

/-- An event as a JSON object. -/
def json (event : Event) (time : Instant) : Json.Value :=
  .object [
    ("timestamp", .string time.logText),
    ("level", .string event.level.name),
    ("fields", .object (("message", .string event.message) :: event.fields)),
    ("target", .string event.target)]

/-- A field of an event for a human reader. -/
def fieldText : String × Json.Value → String
  | (name, .string s) => s!" {name}={s}"
  | (name, value) => s!" {name}={value.text .compact}"

/-- An event as a line. -/
def line (log : Log) (event : Event) (time : Instant) : String :=
  if log.asJson then (json event time).text .compact ++ "\n"
  else
    let gap := if event.level.name.length < 5 then " " else ""
    let fields := String.join (event.fields.map fieldText)
    s!"{time.logText} {gap}{event.level.name} {event.target}: {event.message}{fields}\n"

/-- How events are logged as the environment wants it. -/
def ofEnvironment (verbose : Bool) : Program Log := do
  let wanted ← Program.request (.environment "PRLEDGER_LOG")
  let debug ← Program.request (.environment "DEBUG")
  let format ← Program.request (.environment "PRLEDGER_LOG_FORMAT")
  let filter := (wanted.bind Filter.ofText?).getD (.default (verbose || debug.isSome))
  return ⟨filter, format = some "json"⟩

end Log

namespace Host.Program

/-- Writes the events of a program. -/
def logging (log : Log) {α : Type} : Program α → Program α
  | done a => done a
  | ask (.log event) next =>
    if log.filter.shows event then
      ask .now fun time => ask (.complain (log.line event time)) fun _ => (next ()).logging log
    else (next ()).logging log
  | ask op next => ask op fun reply => (next reply).logging log

end Host.Program

end RepairLedger
