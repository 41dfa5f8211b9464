/-!
# Forms of arguments

A form says which options, operand and commands a list of arguments may hold.  The arguments are
read one after another, and the first one that is wrong or asks for help decides (`Form.scan`).

An option has a long name, by which it is known, and may have a short one.  Its value follows it, in
the same argument or in the next one; several short options may share an argument.
-/

namespace RepairLedger.Command

/-- What an option is for. -/
inductive Role where
  | flag
  /-- The option has a value. -/
  | value (isAccepted : String → Bool)
  | help
  | version

structure Parameter where
  long : String
  short : Option Char
  role : Role
  /-- What the option means, in a few words. -/
  meaning : String

/-- What a list of arguments may hold. -/
structure Form where
  parameters : List Parameter
  /-- What may stand by itself; there is no more than one such argument. -/
  operand : Option Parameter
  /-- The names that end the list; what follows them is read by a form of their own. -/
  commands : List String

/-- Why arguments are read no further. -/
inductive Stop where
  | misuse
  | help
  | version
deriving DecidableEq, Repr

/-- The options that have been read, by their long names. -/
abbrev Found := List (String × String)

/-- How a list of arguments ends. -/
inductive Ending where
  | complete
  | command (name : String) (rest : List String)
deriving DecidableEq, Repr

namespace Form

/-- Adds a value, unless there is one already. -/
def add (found : Found) (name value : String) : Except Stop Found :=
  if (found.lookup name).isSome then .error .misuse else .ok (found ++ [(name, value)])

/-- Adds an option with the value that belongs to it. -/
def addValue (found : Found) (p : Parameter) (value : String) : Except Stop Found :=
  match p.role with
  | .value isAccepted => if isAccepted value then add found p.long value else .error .misuse
  | .flag | .help | .version => .error .misuse

/-- Adds an option that has no value. -/
def addFlag (found : Found) (p : Parameter) : Except Stop Found :=
  match p.role with
  | .flag => add found p.long ""
  | .help => .error .help
  | .version => .error .version
  | .value _ => .error .misuse

/-- Does the option have a value? -/
def takesValue (p : Parameter) : Bool :=
  match p.role with
  | .value _ => true
  | .flag | .help | .version => false

/-- Adds an option; if its value is still to come, it is given back. -/
def addOption (found : Found) (p : Parameter) :
    (attached : Option String) → Except Stop (Found × Option Parameter)
  | some value => return (← addValue found p value, none)
  | none => if takesValue p then return (found, some p) else return (← addFlag found p, none)

/-- Reads an argument of short options behind its hyphen. -/
def addShort (form : Form) (found : Found) :
    List Char → Except Stop (Found × Option Parameter)
  | [] => .ok (found, none)
  | c :: rest =>
    match form.parameters.find? (·.short = some c) with
    | none => .error .misuse
    | some p =>
      if takesValue p then
        match rest with
        | [] => addOption found p none
        | '=' :: value => addOption found p (some (.ofList value))
        | value => addOption found p (some (.ofList value))
      else do addShort form (← addFlag found p) rest

/-- Reads an argument of a long option behind its hyphens. -/
def addLong (form : Form) (found : Found) (text : List Char) :
    Except Stop (Found × Option Parameter) :=
  let name := text.takeWhile (· ≠ '=')
  match form.parameters.find? (·.long.toList = name) with
  | none => .error .misuse
  | some p =>
    addOption found p <| match text.drop name.length with
      | [] => none
      | _ :: value => some (.ofList value)

/-- Reads an argument that stands by itself. -/
def addOperand (form : Form) (found : Found) (argument : String) : Except Stop Found :=
  match form.operand with
  | none => .error .misuse
  | some p => addValue found p argument

/-- May the argument not be the value of an option before it? -/
def isOption (argument : String) : Bool :=
  match argument.toList with
  | '-' :: _ :: _ => true
  | _ => false

/-- Reads arguments behind those that have been read, and behind an option whose value is still to
come. -/
def scan (form : Form) (found : Found) :
    Option Parameter → List String → Except Stop (Found × Ending)
  | none, [] => .ok (found, .complete)
  | some _, [] => .error .misuse
  | some p, argument :: rest =>
    if isOption argument then .error .misuse
    else do scan form (← addValue found p argument) none rest
  | none, argument :: rest =>
    if form.commands.contains argument then .ok (found, .command argument rest)
    else
      match argument.toList with
      | ['-', '-'] => do return (← rest.foldlM (addOperand form) found, .complete)
      | '-' :: '-' :: text => do
        let (found, next) ← addLong form found text
        scan form found next rest
      | '-' :: c :: text => do
        let (found, next) ← addShort form found (c :: text)
        scan form found next rest
      | _ => do scan form (← addOperand form found argument) none rest

/-- Reads a list of arguments. -/
def read (form : Form) (arguments : List String) : Except Stop (Found × Ending) :=
  form.scan [] none arguments

end Form

end RepairLedger.Command
