import RepairLedger.Command.Form
import RepairLedger.Host.Path
import RepairLedger.Record.Edit
import RepairLedger.Text.Numeral

/-!
# Invocations

What a user wants, as it is read from the arguments of the program (`Invocation.ofArguments`): a
command with its arguments, or help, or nothing that can be understood.

Some options belong to no command and may stand before its name or behind it; where an option stands
in both places, the one behind the name counts.
-/

namespace RepairLedger

open Host

/-- The pull request that a command is about, and the ledger it is recorded in. -/
structure Subject where
  owner : String
  repo : String
  number : UInt64
  ledgerPath : Option Path
deriving DecidableEq

/-- The shells that can complete commands. -/
inductive Shell where
  | bash
  | elvish
  | fish
  | powershell
  | zsh
deriving DecidableEq, Repr

namespace Shell

/-- The name of a shell. -/
def name : Shell → String
  | bash => "bash"
  | elvish => "elvish"
  | fish => "fish"
  | powershell => "powershell"
  | zsh => "zsh"

def all : List Shell := [bash, elvish, fish, powershell, zsh]

/-- The shell of exactly this name. -/
def ofName? (name : String) : Option Shell :=
  all.find? (·.name = name)

end Shell

inductive Command where
  | createInitial (subject : Subject) (statistics : Option Path)
  | finalize (subject : Subject)
  /-- The moment is a text that the command has still to understand. -/
  | addManualEdit (subject : Subject) (diff : Path) (reason moment : String)
  | report (ledger output : Path)
  | describe (subject : Subject)
  | completions (shell : Shell)
deriving DecidableEq

/-- How output is written. -/
inductive Style where
  | human
  | json
deriving DecidableEq, Repr

/-- How a command is to be run. -/
structure Manner where
  verbose : Bool
  style : Style
  quiet : Bool
  token : Option String
deriving DecidableEq

inductive Invocation where
  | misuse
  /-- Help is wanted, perhaps for one command. -/
  | help (topic : Option String)
  | version
  | run (manner : Manner) (command : Command)
deriving DecidableEq

namespace Command

/-! ### Options -/

/-- An option whose value is any text. -/
def textOption (long : String) (short : Option Char) (meaning : String) : Parameter :=
  ⟨long, short, .value fun _ => true, meaning⟩

/-- An option whose value is a path. -/
def pathOption (long : String) (short : Option Char) (meaning : String) : Parameter :=
  ⟨long, short, .value (!·.isEmpty), meaning⟩

/-- The number that a text says. -/
def number? (text : String) : Option UInt64 :=
  Numeral.read? text.toList

def helpOption : Parameter := ⟨"help", some 'h', .help, "Print help."⟩

def versionOption : Parameter := ⟨"version", some 'V', .version, "Print the version."⟩

/-- The options that belong to no command. -/
def commonOptions : List Parameter := [
  ⟨"verbose", some 'v', .flag, "Enable debug logging."⟩,
  ⟨"json", none, .flag, "Emit JSON output instead of human-readable text."⟩,
  ⟨"quiet", some 'q', .flag, "Suppress non-essential output."⟩,
  textOption "token" none "GitHub API token. Falls back to GITHUB_TOKEN, then config.",
  helpOption]

/-- The options that name a pull request and a ledger. -/
def subjectOptions : List Parameter := [
  textOption "owner" (some 'o') "Owner of the repository the PR was opened against.",
  textOption "repo-name" (some 'r') "Name of the repository.",
  ⟨"pr-number", some 'p', .value fun text => (number? text).isSome, "Pull request number."⟩,
  pathOption "prs-json-file" (some 'f') "Ledger file."]

/-- The path that an option gives. -/
def path? (found : Found) (name : String) : Option Path :=
  (found.lookup name).map Host.Path.mk

/-- The pull request and the ledger that the options name. -/
def subject? (found : Found) : Option Subject := do
  let number ← number? (← found.lookup "pr-number")
  some ⟨← found.lookup "owner", ← found.lookup "repo-name", number, path? found "prs-json-file"⟩

/-! ### Commands -/

/-- How a command is written: its name, its form, and what the arguments make of it, unless one is
missing. -/
structure Syntax where
  name : String
  meaning : String
  form : Form
  command? : Found → Option Command

/-- The form of a command with options of its own. -/
def formOf (options : List Parameter) : Form :=
  ⟨options ++ commonOptions, none, []⟩

def createInitialSyntax : Syntax where
  name := "create-initial"
  meaning := "Record a newly opened repair PR"
  form := formOf <| subjectOptions ++
    [pathOption "stats-file" (some 's') "Statistics JSON written by the repair tool for this PR."]
  command? found := do some (.createInitial (← subject? found) (path? found "stats-file"))

def finalizeSyntax : Syntax where
  name := "finalize"
  meaning := "Record the final state of a PR"
  form := formOf subjectOptions
  command? found := do some (.finalize (← subject? found))

def addManualEditSyntax : Syntax where
  name := "add-manual-edit"
  meaning := "Attach a manual edit to a PR record"
  form := formOf <| subjectOptions ++ [
    pathOption "diff-file" (some 'd') "File holding the diff of the manual edit.",
    textOption "edit-reason" (some 'e') "Why the edit was needed.",
    textOption "edit-type" (some 't') "When the edit was made: before_open_pr or after_open_pr."]
  command? found := do
    let subject ← subject? found
    let moment := (found.lookup "edit-type").getD EditMoment.default.name
    some (.addManualEdit subject (← path? found "diff-file") (← found.lookup "edit-reason") moment)

def reportSyntax : Syntax where
  name := "report"
  meaning := "Render the ledger as Markdown"
  form := formOf [
    pathOption "prs-json-file" (some 'p') "Ledger file to read.",
    pathOption "output" (some 'o') "Markdown file to write; overwritten if it exists."]
  command? found := do some (.report (← path? found "prs-json-file") (← path? found "output"))

def describeSyntax : Syntax where
  name := "show"
  meaning := "Show one PR record"
  form := formOf subjectOptions
  command? found := do some (.describe (← subject? found))

def completionsSyntax : Syntax where
  name := "completions"
  meaning := "Generate shell completion scripts"
  form :=
    { formOf [] with
      operand := some ⟨"shell", none, .value fun name => (Shell.ofName? name).isSome,
        "Target shell for completion script generation."⟩ }
  command? found := do some (.completions (← Shell.ofName? (← found.lookup "shell")))

def syntaxes : List Syntax :=
  [createInitialSyntax, finalizeSyntax, addManualEditSyntax, reportSyntax, describeSyntax,
    completionsSyntax]

/-- The name by which help is asked for, alone or for a command. -/
def helpName : String := "help"

/-- The names that may stand in the place of a command. -/
def names : List String :=
  syntaxes.map (·.name) ++ [helpName]

/-- The form of the arguments before a command. -/
def outerForm : Form := ⟨commonOptions ++ [versionOption], none, names⟩

end Command

/-! ### Reading -/

/-- How a command is to be run if the options in front of its name and those behind it were
found. -/
def Manner.ofFound (outer inner : Command.Found) : Manner :=
  let isSet (name : String) := (inner.lookup name).isSome || (outer.lookup name).isSome
  { verbose := isSet "verbose"
    style := if isSet "json" then .json else .human
    quiet := isSet "quiet"
    token := (inner.lookup "token").or (outer.lookup "token") }

namespace Invocation

open Command

/-- What is wanted when arguments are read no further; they may be those of a command. -/
def ofStop (topic : Option String) : Stop → Invocation
  | .misuse => misuse
  | .help => help topic
  | .version => version

/-- What is wanted when help is asked for with the given names behind. -/
def ofTopics : List String → Invocation
  | [] => help none
  | [topic] => if names.contains topic then help (some topic) else misuse
  | _ => misuse

/-- What is wanted when a command is named. -/
def ofCommand (outer : Found) (name : String) (arguments : List String) : Invocation :=
  match syntaxes.find? (·.name = name) with
  | none => if name = helpName then ofTopics arguments else misuse
  | some s =>
    match s.form.read arguments with
    | .error stop => ofStop (some name) stop
    | .ok (inner, _) =>
      match s.command? inner with
      | none => misuse
      | some command => run (.ofFound outer inner) command

/-- Reads the arguments of the program. -/
def ofArguments (arguments : List String) : Invocation :=
  match outerForm.read arguments with
  | .error stop => ofStop none stop
  | .ok (_, .complete) => misuse
  | .ok (outer, .command name rest) => ofCommand outer name rest

end Invocation

end RepairLedger
