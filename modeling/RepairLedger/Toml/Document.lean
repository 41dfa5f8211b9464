import RepairLedger.Toml.Scan
import RepairLedger.Toml.Word

/-!
# Reading TOML

A document is a sequence of lines: headers of tables, keys with their items, and lines that say
nothing.  `Document.read?` gives what the document holds, or nothing if the text is no document.
-/

namespace RepairLedger.Toml

/-! ### Items -/

/-- The number of arrays and braces that may be nested. -/
def depthLimit : Nat := 79

/-- A number, a truth value, a date or a time.  Between a date and a time there may be a space. -/
def word : Scan Item := do
  let cs ← Scan.takeWhile Word.isWordChar
  if Word.isDate cs then
    let text ← get
    match text with
    | ' ' :: c :: rest =>
      if c.isDigit then
        set (c :: rest)
        let time ← Scan.takeWhile Word.isWordChar
        if Word.isTimeWithOffset time then return .moment else failure
      else return .moment
    | _ => return .moment
  else
    match Word.item? cs with
    | some item => return item
    | none => failure

/-- The items of an array and the bracket after them; there may be a comma after the last one. -/
def arrayItems (item : Scan Item) : Scan (List Item) := do
  let items ← Scan.many do
    Scan.gap
    if (← Scan.peek) = some ']' then return none
    let i ← item
    Scan.gap
    match ← Scan.peek with
    | some ',' => Scan.char ','
    | some ']' => return some i
    | _ => failure
    return some i
  Scan.char ']'
  return items

/-- A key, the sign of equality, and an item. -/
def assignment (item : Scan Item) : Scan (List String × Item) := do
  let k ← key
  Scan.char '='
  Scan.blanks
  let i ← item
  return (k, i)

/-- The entries of a table in braces and the brace after them, all on one line. -/
def inlineEntries (item : Scan Item) : Scan Entries := do
  Scan.blanks
  let entry : Scan (List String × Item) := do
    let entry ← assignment item
    Scan.blanks
    return entry
  let assignments ← if (← Scan.peek) = some '\x7d' then pure [] else do
    let first ← entry
    let rest ← Scan.many do
      if (← Scan.peek) = some ',' then
        Scan.char ','
        some <$> entry
      else return none
    pure (first :: rest)
  Scan.char '\x7d'
  StateT.lift <| assignments.foldlM (fun entries (k, i) => entries.assign? i k) []

/-- A string or a word. -/
def scalar : Scan Item := do
  match ← Scan.peek with
  | some '"' | some '\'' => return .string (← string)
  | _ => word

/-- An item with at most `depth` arrays and braces around any part of it. -/
def item : (depth : Nat) → Scan Item
  | 0 => scalar
  | depth + 1 => do
    match ← Scan.peek with
    | some '[' =>
      Scan.char '['
      return .array (← arrayItems (item depth))
    | some '\x7b' =>
      Scan.char '\x7b'
      return .table .inline (← inlineEntries (item depth))
    | _ => scalar

/-! ### Lines -/

/-- A line that says something. -/
inductive Line where
  | table (path : List String)
  | element (path : List String)
  | assignment (key : List String) (item : Item)

/-- The header of a table or of an element of an array of tables. -/
def header : Scan Line := do
  Scan.char '['
  if (← Scan.peek) = some '[' then
    Scan.char '['
    let path ← key
    Scan.char ']'
    Scan.char ']'
    return .element path
  else
    let path ← key
    Scan.char ']'
    return .table path

/-- A line; `none` if it says nothing. -/
def line : Scan (Option Line) := do
  Scan.blanks
  match ← Scan.peek with
  | none | some '\n' | some '#' =>
    Scan.restOfLine
    return none
  | some '[' =>
    let header ← header
    Scan.restOfLine
    return some header
  | _ =>
    let (k, i) ← assignment (item depthLimit)
    Scan.restOfLine
    return some (.assignment k i)

/-- What has been read: the whole document, and the header that the next line stands under. -/
structure Document where
  entries : Entries
  header : List String

namespace Document

/-- Enters a line. -/
def enter? (d : Document) : Line → Option Document
  | .table path => (d.entries.openTable? path).map (⟨·, path⟩)
  | .element path => (d.entries.openElement? path).map (⟨·, path⟩)
  | .assignment k i =>
    (d.entries.assignUnder? i k d.header).map (⟨·, d.header⟩)

/-- Reads a document. -/
def read? (text : List Char) : Option Entries := do
  let text ← unify? text
  let lines : Scan (List (Option Line)) := Scan.many do
    Scan.blanks
    if (← Scan.peek).isNone then return none else some <$> line
  let (lines, _) ← lines text
  let document ← (lines.filterMap id).foldlM enter? ⟨[], []⟩
  some document.entries

end Document

end RepairLedger.Toml
