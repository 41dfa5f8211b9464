import RepairLedger.Json.Tree

/-!
# Decoders

A decoder reads a tree as a value of a type.  Because it walks through the tree in order, what it
reports is the first fault of the text for this type.

Records are read by their fields (`Fields`): either from an object, with the fields in any order
and other members skipped, or from an array with the fields in their order.
-/

namespace RepairLedger.Json

/-- Reads a tree with at most `depth` containers around any part of it. -/
abbrev Decoder (α : Type) := (depth : Nat) → Tree → Except Fault α

/-- The number of containers that may stand around any part of a text. -/
def maxDepth : Nat := 127

/-- Reads a whole text. -/
def Decoder.run {α : Type} (decoder : Decoder α) (text : List Text.Symbol) : Except Fault α := do
  let document := Document.ofSymbols text
  let a ← decoder maxDepth document.tree
  if document.trailing then .error .trailingText else .ok a

/-- Opens a container. -/
def enter : (depth : Nat) → Except Fault Nat
  | 0 => .error .tooDeep
  | depth + 1 => .ok depth

namespace Decoder

/-- Any value, in its canonical form. -/
def value : Decoder Value := fun depth tree =>
  (tree.value depth).map Value.canonical

def string : Decoder String
  | _, .leaf (.string s) => s.content
  | _, tree => .error (tree.refusal "a string")

def bool : Decoder Bool
  | _, .leaf (.bool b) => .ok b
  | _, tree => .error (tree.refusal "a boolean")

/-- A natural number of 64 bits. -/
def natural : Decoder UInt64
  | _, .leaf (.number (.ok (.integer i))) =>
    match i.toUInt64? with
    | some n => .ok n
    | none => .error (.mismatch (.wrongValue (.number (.integer i)) "u64"))
  | _, tree => .error (tree.refusal "u64")

/-- Something that may be `null`. -/
def optional {α : Type} (decoder : Decoder α) : Decoder (Option α)
  | _, .leaf .null => .ok none
  | depth, tree => (decoder depth tree).map some

/-- The items of an array, one after the other. -/
def items {α : Type} (decoder : Decoder α) (depth : Nat) : List Tree → Except Fault (List α)
  | [] => .ok []
  | tree :: trees => do
    let a ← decoder depth tree
    let as ← items decoder depth trees
    .ok (a :: as)

/-- An array. -/
def list {α : Type} (decoder : Decoder α) : Decoder (List α)
  | depth, .array trees ending => do
    let depth ← enter depth
    let as ← items decoder depth trees
    ending.array
    .ok as
  | _, tree => .error (tree.refusal "a sequence")

/-- The members of an object, in their canonical order. -/
def members : Decoder Members
  | depth, .object members ending => do
    let depth ← enter depth
    let values ← memberValues depth members
    ending.object members.isEmpty
    .ok (Value.sortMembers (Value.canonicalMembers values))
  | _, tree => .error (tree.refusal "a map")

end Decoder

/-! ### Records -/

/-- A field of a record. -/
structure Field (α : Type) where
  name : String
  decoder : Decoder α
  /-- What the field holds when an object leaves it out; without it, the field must be there. -/
  omitted : Option α
  /-- What the field holds when an array ends before it. -/
  beyond : Option α

/-- A field that must be there. -/
def Field.required {α : Type} (name : String) (decoder : Decoder α) : Field α :=
  ⟨name, decoder, none, none⟩

/-- A field of an object that may be left out; an array must hold at least `null` for it. -/
def Field.nullable {α : Type} (name : String) (decoder : Decoder α) : Field (Option α) :=
  ⟨name, decoder.optional, some none, none⟩

/-- A field that may be left out. -/
def Field.withDefault {α : Type} (name : String) (decoder : Decoder α) (value : α) : Field α :=
  ⟨name, decoder, some value, some value⟩

/-- The fields of a record in their order.  Together they hold a `τ`; while the members of an object
are read, what has been found so far is a `σ`. -/
inductive Fields : (τ σ : Type) → Type 1 where
  | nil : Fields Unit Unit
  | cons {α τ σ : Type} (field : Field α) (rest : Fields τ σ) : Fields (α × τ) (Option α × σ)

namespace Fields

/-- Nothing has been found. -/
def none : {τ σ : Type} → Fields τ σ → σ
  | _, _, nil => ()
  | _, _, cons _ rest => (.none, rest.none)

/-- The number of fields. -/
def length : {τ σ : Type} → Fields τ σ → Nat
  | _, _, nil => 0
  | _, _, cons _ rest => rest.length + 1

/-- Reads the field of the given name, if there is one. -/
def fill (depth : Nat) (name : String) (tree : Tree) :
    {τ σ : Type} → Fields τ σ → σ → Except Fault (Option σ)
  | _, _, nil, _ => .ok .none
  | _, _, cons field rest, (slot, slots) =>
    if field.name = name then
      match slot with
      | some _ => .error (.mismatch (.duplicateField name))
      | .none => do
        let a ← field.decoder depth tree
        .ok (some (some a, slots))
    else do
      let filled ← rest.fill depth name tree slots
      .ok (filled.map fun slots => (slot, slots))

/-- Reads the members of an object in their order. -/
def fillAll (depth : Nat) {τ σ : Type} (fields : Fields τ σ) :
    List (Quoted × Tree) → σ → Except Fault σ
  | [], slots => .ok slots
  | (name, tree) :: members, slots => do
    let name ← name.content
    match ← fields.fill depth name tree slots with
    | some slots => fields.fillAll depth members slots
    | .none =>
      tree.skip
      fields.fillAll depth members slots

/-- What the fields hold after the last member. -/
def collect : {τ σ : Type} → Fields τ σ → σ → Except Fault τ
  | _, _, nil, _ => .ok ()
  | _, _, cons field rest, (slot, slots) =>
    match slot.or field.omitted with
    | .none => .error (.mismatch (.missingField field.name))
    | some a => do
      let as ← rest.collect slots
      .ok (a, as)

/-- Reads the items of an array as the fields from number `index` on. -/
def ofItems (depth : Nat) (wanted : String) (ending : Ending) :
    {τ σ : Type} → Fields τ σ → (index : Nat) → List Tree → Except Fault τ
  | _, _, nil, _, [] => ending.filled
  | _, _, nil, _, _ :: _ => .error .trailingText
  | _, _, cons field rest, index, tree :: trees => do
    let a ← field.decoder depth tree
    let as ← rest.ofItems depth wanted ending (index + 1) trees
    .ok (a, as)
  | _, _, cons field rest, index, [] => do
    ending.array
    match field.beyond with
    | .none => .error (.mismatch (.tooShort index wanted))
    | some a =>
      let as ← rest.ofItems depth wanted ending (index + 1) []
      .ok (a, as)

/-- Reads a record of the given name. -/
def decoder {τ σ α : Type} (name : String) (fields : Fields τ σ) (build : τ → α) : Decoder α
  | depth, .object members ending => do
    let depth ← enter depth
    let slots ← fields.fillAll depth members fields.none
    ending.object members.isEmpty
    let values ← fields.collect slots
    .ok (build values)
  | depth, .array items ending => do
    let depth ← enter depth
    let wanted := s!"struct {name} with {fields.length} elements"
    let values ← fields.ofItems depth wanted ending 0 items
    .ok (build values)
  | _, tree => .error (tree.refusal s!"struct {name}")

end Fields

end RepairLedger.Json
