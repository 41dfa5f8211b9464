/-!
# TOML documents

What a TOML document holds.  A table may be written in braces, or under a header of its own, or
only be named on the way to another one; which of these it is decides how later lines may add to
it.

The lines of a document are entered one after the other: `Entries.openTable?` and
`Entries.openElement?` for headers, `Entries.assign?` for the lines under them.
-/

namespace RepairLedger.Toml

/-- How a table came to be. -/
inductive Standing where
  /-- It was written in braces, and nothing can be added. -/
  | inline
  /-- It has a header. -/
  | header
  /-- It was named on the way to the table of a header, and may still get a header. -/
  | implied
  /-- It was named on the way to a key with dots. -/
  | dotted
deriving DecidableEq, Repr

inductive Item where
  | string (s : String)
  | integer (i : Int)
  | boolean (b : Bool)
  /-- A floating point number. -/
  | real
  /-- A date, a time, or both. -/
  | moment
  /-- An array in brackets. -/
  | array (items : List Item)
  | table (standing : Standing) (entries : List (String × Item))
  /-- An array of tables with a header for each; the latest comes first. -/
  | tables (elements : List (List (String × Item)))

/-- What a table holds. -/
abbrev Entries := List (String × Item)

namespace Entries

/-- The item of a name. -/
def get? (name : String) (entries : Entries) : Option Item :=
  entries.lookup name

/-- Replaces the item of a name, or adds it at the end. -/
def set (name : String) (item : Item) : Entries → Entries
  | [] => [(name, item)]
  | (x, i) :: rest => if x = name then (x, item) :: rest else (x, i) :: set name item rest

/-- Does something in the table that a header leads to, or in a new one. -/
def within? (name : String) (entries : Entries) (act : Entries → Option Entries) :
    Option Entries :=
  match entries.get? name with
  | none => (act []).map fun inner => entries.set name (.table .implied inner)
  | some (.table .inline _) => none
  | some (.table standing inner) =>
    (act inner).map fun inner => entries.set name (.table standing inner)
  | some (.tables (latest :: earlier)) =>
    (act latest).map fun latest => entries.set name (.tables (latest :: earlier))
  | some _ => none

/-- Opens the table of a header. -/
def openTable? (entries : Entries) : List String → Option Entries
  | [] => none
  | [name] =>
    match entries.get? name with
    | none => some (entries.set name (.table .header []))
    | some (.table .implied inner) => some (entries.set name (.table .header inner))
    | some _ => none
  | name :: path => within? name entries (openTable? · path)

/-- Opens one more element of an array of tables. -/
def openElement? (entries : Entries) : List String → Option Entries
  | [] => none
  | [name] =>
    match entries.get? name with
    | none => some (entries.set name (.tables [[]]))
    | some (.tables elements) => some (entries.set name (.tables ([] :: elements)))
    | some _ => none
  | name :: path => within? name entries (openElement? · path)

/-- Gives a new name its item. -/
def add? (name : String) (item : Item) (entries : Entries) : Option Entries :=
  match entries.get? name with
  | none => some (entries ++ [(name, item)])
  | some _ => none

/-- Enters an item under a key with dots.  The tables on the way must not have headers, and the last
of them must have been made by such a key. -/
def assign? (item : Item) (entries : Entries) : List String → Option Entries
  | [] => none
  | [name] => add? name item entries
  | name :: path =>
    match entries.get? name with
    | none =>
      (assign? item [] path).map fun inner => entries ++ [(name, .table .dotted inner)]
    | some (.table .dotted inner) =>
      (assign? item inner path).map fun inner => entries.set name (.table .dotted inner)
    | some (.table .implied inner) =>
      if path.length ≤ 1 then none
      else (assign? item inner path).map fun inner => entries.set name (.table .implied inner)
    | some (.tables (latest :: earlier)) =>
      if path.length ≤ 1 then none
      else (assign? item latest path).map fun latest =>
        entries.set name (.tables (latest :: earlier))
    | some _ => none

/-- Enters an item under a key, in the table that a header opened. -/
def assignUnder? (item : Item) (key : List String) (entries : Entries) :
    (header : List String) → Option Entries
  | [] => assign? item entries key
  | name :: path => within? name entries (assignUnder? item key · path)

end Entries

end RepairLedger.Toml
