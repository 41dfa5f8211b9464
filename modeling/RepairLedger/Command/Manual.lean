import RepairLedger.Command.Invocation

/-!
# The manual

What the program says of itself: how it is used, and how shells can complete its commands.

The texts are put together from the commands, with one line on what each command, operand and option
is for.  Left out are the longer descriptions of the commands, the examples of their use that stand
behind the help for a command, the headings that group options, and what exactly is wrong with
arguments that are not understood.  The scripts complete the names of the commands, not their
options.
-/

namespace RepairLedger.Manual

open Command

def programName : String := "prledger"

/-! ### Help -/

/-- Lines of names with what they mean, under a title. -/
def listing (title : String) (rows : List (String × String)) : String :=
  let width := (rows.map (·.1.length)).foldl max 0
  let row (name meaning : String) :=
    let gap := String.ofList (List.replicate (width - name.length) ' ')
    s!"  {name}{gap}  {meaning}\n"
  s!"\n{title}:\n" ++ String.join (rows.map fun (name, meaning) => row name meaning)

/-- How an option is written. -/
def optionName (p : Parameter) : String :=
  let short := match p.short with
    | some c => s!"-{c}, "
    | none => "    "
  let value := if Form.takesValue p then s!" <{p.long.toUpper}>" else ""
  s!"{short}--{p.long}{value}"

/-- The operand and the options of a form. -/
def formText (form : Form) : String :=
  let operand := match form.operand with
    | some p => listing "Arguments" [(s!"<{p.long.toUpper}>", p.meaning)]
    | none => ""
  operand ++ listing "Options" (form.parameters.map fun p => (optionName p, p.meaning))

/-- How the program is used, in a line. -/
def usage : String :=
  s!"Usage: {programName} [OPTIONS] <COMMAND>\n"

/-- The help for all commands. -/
def overview : String :=
  let rows := syntaxes.map fun s => (s.name, s.meaning)
  usage ++ listing "Commands" (rows ++ [(helpName, helpOption.meaning)]) ++ formText outerForm

/-- The help for a command. -/
def helpFor (s : Syntax) : String :=
  let operand := match s.form.operand with
    | some p => s!" <{p.long.toUpper}>"
    | none => ""
  s!"{s.meaning}\n\nUsage: {programName} {s.name} [OPTIONS]{operand}\n" ++ formText s.form

/-- The help for a topic. -/
def help (topic : Option String) : String :=
  match topic.bind fun name => syntaxes.find? (·.name = name) with
  | some s => helpFor s
  | none => overview

/-- What is said of arguments that cannot be understood. -/
def misuse : String :=
  s!"error: the arguments are not understood\n\n{usage}"

/-! ### Completions -/

/-- The script that makes a shell complete the names of the commands. -/
def completions (shell : Shell) : String :=
  let words := " ".intercalate names
  match shell with
  | .bash => s!"complete -W '{words}' {programName}\n"
  | .elvish =>
    s!"set edit:completion:arg-completer[{programName}] = \x7b|@_| put {words} \x7d\n"
  | .fish => s!"complete -c {programName} -f -n __fish_use_subcommand -a '{words}'\n"
  | .powershell =>
    let quoted := ", ".intercalate (names.map fun name => s!"'{name}'")
    s!"Register-ArgumentCompleter -Native -CommandName {programName} " ++
      s!"-ScriptBlock \x7b param($word) {quoted} | " ++
      "Where-Object \x7b $_ -like \"$word*\" \x7d \x7d\n"
  | .zsh => s!"#compdef {programName}\ncompadd {words}\n"

end RepairLedger.Manual
