import RepairLedger.Pull.Id
import RepairLedger.Record.Basic

/-!
# The ledger

Records of pull requests by their ids, in the order in which they came.  A record that is already
there is replaced where it stands (`Ledger.upsert`), so that the text of the ledger changes as
little as possible.

The text of a ledger is a JSON object with one member for each record.  Two members of a text may
not name the same pull request, even if they spell it differently (`Ledger.decoder`).
-/

namespace RepairLedger

structure Ledger where
  entries : List (PullId × Record)
deriving DecidableEq

namespace Ledger

/-- The ledger without records. -/
def empty : Ledger := ⟨[]⟩

/-- The ids in the order of the ledger. -/
def ids (l : Ledger) : List PullId :=
  l.entries.map Prod.fst

/-- The number of records. -/
def size (l : Ledger) : Nat :=
  l.entries.length

/-- The record of a pull request. -/
def get? (l : Ledger) (id : PullId) : Option Record :=
  l.entries.lookup id

/-- Is there a record of the pull request? -/
def contains (l : Ledger) (id : PullId) : Bool :=
  (l.get? id).isSome

/-- Replaces the record of a pull request in a list of entries, or adds it at the end, and gives
back the record that was there. -/
def exchangeEntry (id : PullId) (record : Record) :
    List (PullId × Record) → Option Record × List (PullId × Record)
  | [] => (none, [(id, record)])
  | (x, r) :: rest =>
    if x = id then (some r, (x, record) :: rest)
    else
      let (previous, rest) := exchangeEntry id record rest
      (previous, (x, r) :: rest)

/-- The entries after an exchange. -/
def upsertEntry (id : PullId) (record : Record) (entries : List (PullId × Record)) :
    List (PullId × Record) :=
  (exchangeEntry id record entries).2

/-- Replaces the record of a pull request, or adds it at the end. -/
def upsert (l : Ledger) (id : PullId) (record : Record) : Ledger :=
  ⟨upsertEntry id record l.entries⟩

/-- Replaces the record of a pull request, or adds it at the end, and gives back the record that was
there. -/
def exchange (l : Ledger) (id : PullId) (record : Record) : Option Record × Ledger :=
  ((exchangeEntry id record l.entries).1, l.upsert id record)

@[simp] theorem upsertEntry_nil (id : PullId) (record : Record) :
    upsertEntry id record [] = [(id, record)] := rfl

@[simp] theorem upsertEntry_cons (id x : PullId) (record r : Record)
    (rest : List (PullId × Record)) :
    upsertEntry id record ((x, r) :: rest) =
      if x = id then (x, record) :: rest else (x, r) :: upsertEntry id record rest := by
  rw [upsertEntry, exchangeEntry]
  split <;> rfl

/-! ### Text -/

open Json

/-- The ledger as it stands in JSON. -/
def json (l : Ledger) : Value :=
  .object (l.entries.map fun (id, record) => (id.text, record.json))

/-- The text of a ledger: indented by four spaces, with a line feed at the end. -/
def text (l : Ledger) : String :=
  l.json.text (.indented 4) ++ "\n"

/-- Reads the members of a ledger behind the entries that have been read. -/
def entriesAfter (depth : Nat) (done : Ledger) : List (Quoted × Tree) → Except Fault Ledger
  | [] => .ok done
  | (name, tree) :: members => do
    let id ← PullId.ofContent (← name.content)
    let record ← Record.decoder depth tree
    if done.contains id then
      .error (.mismatch (.refused s!"duplicate record id {id.text}"))
    else
      entriesAfter depth ⟨done.entries ++ [(id, record)]⟩ members

/-- Reads a ledger from JSON. -/
def decoder : Decoder Ledger
  | depth, .object members ending => do
    let depth ← enter depth
    let ledger ← entriesAfter depth empty members
    ending.object members.isEmpty
    .ok ledger
  | _, tree => .error (tree.refusal "an object mapping owner/repo#number to PR records")

/-- Reads a ledger from what a text holds. -/
def ofSymbols (symbols : List Text.Symbol) : Except Fault Ledger :=
  Decoder.run decoder symbols

/-- Reads the text of a ledger. -/
def ofText (text : String) : Except Fault Ledger :=
  ofSymbols (Text.symbolsOf text)

/-- Reads the bytes of a ledger file. -/
def ofBytes (bytes : Bytes) : Except Fault Ledger :=
  ofSymbols (Text.symbols bytes)

end Ledger

end RepairLedger
