import RepairLedger.Json.Token

/-!
# Reading JSON as far as it goes

`Document.ofSymbols` reads any text at all.  The result is a tree in the order of the text, and
where the text is not JSON the tree says so at that very place: at a leaf, or where an array or an
object should have gone on or ended.  Whoever walks through the tree in order meets the faults of
the text in order, so that of two faults the earlier one counts.  What a tree holds behind its
first fault has no meaning.

The text is read by a machine that takes one token at a time (`State.step`).
-/

namespace RepairLedger.Json

open Text

/-- Why an array or an object has no more items or members. -/
inductive Ending where
  | closed
  | textEnds
  /-- The token is neither the comma nor the bracket that is due; in an object without members, it
  is not the name that is due. -/
  | stray (t : Token)
  /-- After a comma there is no item or no name, but this token or the end of the text. -/
  | comma (next : Option Token)

inductive Tree where
  /-- A token where a value is due. -/
  | leaf (t : Token)
  /-- The text ends where a value is due. -/
  | missing
  /-- After the name of a member there is no colon, but this token or the end of the text. -/
  | unseparated (next : Option Token)
  | array (items : List Tree) (ending : Ending)
  | object (members : List (Quoted × Tree)) (ending : Ending)

/-! ### The machine -/

/-- An array or an object around the place that has been reached; the latest item or member comes
first. -/
inductive Frame where
  | array (items : List Tree)
  | object (members : List (Quoted × Tree)) (name : Quoted)

/-- What is due at the place that has been reached.  The innermost frame comes first. -/
inductive State where
  | value (stack : List Frame)
  | item (items : List Tree) (stack : List Frame)
  | member (members : List (Quoted × Tree)) (stack : List Frame)
  | colon (members : List (Quoted × Tree)) (name : Quoted) (stack : List Frame)
  | afterItem (items : List Tree) (stack : List Frame)
  | afterMember (members : List (Quoted × Tree)) (stack : List Frame)
  | done (tree : Tree)
  /-- There is more text after the value. -/
  | trailing (tree : Tree)

namespace State

/-- A value is complete. -/
def deliver (tree : Tree) : List Frame → State
  | [] => done tree
  | .array items :: stack => afterItem (tree :: items) stack
  | .object members name :: stack => afterMember ((name, tree) :: members) stack

/-- A token where a value is due. -/
def begin (t : Token) (stack : List Frame) : State :=
  match t with
  | .beginArray => item [] stack
  | .beginObject => member [] stack
  | t => deliver (.leaf t) stack

/-- The next token. -/
def step (t : Token) : State → State
  | value stack => begin t stack
  | item items stack =>
    match t, items with
    | .endArray, [] => deliver (.array [] .closed) stack
    | .endArray, items => deliver (.array items.reverse (.comma (some t))) stack
    | t, items => begin t (.array items :: stack)
  | member members stack =>
    match t, members with
    | .string name, members => colon members name stack
    | .endObject, [] => deliver (.object [] .closed) stack
    | t, [] => deliver (.object [] (.stray t)) stack
    | t, members => deliver (.object members.reverse (.comma (some t))) stack
  | colon members name stack =>
    match t with
    | .colon => value (.object members name :: stack)
    | t => deliver (.unseparated (some t)) (.object members name :: stack)
  | afterItem items stack =>
    match t with
    | .comma => item items stack
    | .endArray => deliver (.array items.reverse .closed) stack
    | t => deliver (.array items.reverse (.stray t)) stack
  | afterMember members stack =>
    match t with
    | .comma => member members stack
    | .endObject => deliver (.object members.reverse .closed) stack
    | t => deliver (.object members.reverse (.stray t)) stack
  | done tree => trailing tree
  | trailing tree => trailing tree

/-- Reads a text from its beginning to its end, or to a token that is none. -/
def read (state : State) : List Symbol → State
  | [] => state
  | .stray _ :: _ => state.step .other
  | .char c :: rest =>
    if isSpace c then state.read rest
    else read (state.step (token c rest).1) (token c rest).2
termination_by text => text.length
decreasing_by
  · simp
  · have := token_length c rest
    simp only [List.length_cons]; omega

/-- The tree with the frames around it, all of which the text leaves open. -/
def enclose (tree : Tree) : List Frame → Tree
  | [] => tree
  | .array items :: stack => enclose (.array (tree :: items).reverse .textEnds) stack
  | .object members name :: stack =>
    enclose (.object ((name, tree) :: members).reverse .textEnds) stack

/-- The tree when the text ends. -/
def tree : State → Tree
  | value stack => enclose .missing stack
  | item [] stack => enclose (.array [] .textEnds) stack
  | item items stack => enclose (.array items.reverse (.comma none)) stack
  | member [] stack => enclose (.object [] .textEnds) stack
  | member members stack => enclose (.object members.reverse (.comma none)) stack
  | colon members name stack => enclose (.unseparated none) (.object members name :: stack)
  | afterItem items stack => enclose (.array items.reverse .textEnds) stack
  | afterMember members stack => enclose (.object members.reverse .textEnds) stack
  | done tree => tree
  | trailing tree => tree

end State

/-- A text with one value. -/
structure Document where
  tree : Tree
  /-- Is there more text after the value? -/
  trailing : Bool

/-- Reads a text. -/
def Document.ofSymbols (text : List Symbol) : Document :=
  match State.read (.value []) text with
  | .trailing tree => ⟨tree, true⟩
  | state => ⟨state.tree, false⟩

/-! ### Faults -/

/-- The value of a token that is one. -/
def Token.value? : Token → Except Fault Value
  | .null => .ok .null
  | .bool b => .ok (.bool b)
  | .number n => n.map .number
  | .string s => s.content.map .string
  | .misspelt fault => .error fault
  | _ => .error .valueExpected

/-- The fault of a token that is to be skipped as a value. -/
def Token.skip : Token → Except Fault Unit
  | .null | .bool _ => .ok ()
  | .number (.ok _) | .number (.error .numberTooLarge) => .ok ()
  | .number (.error _) => .error .badNumber
  | .string ⟨_, none⟩ => .ok ()
  | .string ⟨_, some fault⟩ => .error fault
  | .misspelt fault => .error fault
  | _ => .error .valueExpected

namespace Ending

/-- How an array ends. -/
def array : Ending → Except Fault Unit
  | closed => .ok ()
  | textEnds => .error .endInArray
  | stray _ => .error .commaOrBracketExpected
  | comma none => .error .endInValue
  | comma (some _) => .error .trailingComma

/-- How an array ends of which all items wanted have been read. -/
def filled : Ending → Except Fault Unit
  | closed => .ok ()
  | textEnds => .error .endInArray
  | comma (some _) => .error .trailingComma
  | stray _ | comma none => .error .trailingText

/-- How an array ends that is skipped. -/
def skippedArray : Ending → Except Fault Unit
  | closed => .ok ()
  | textEnds => .error .endInArray
  | stray _ => .error .commaOrBracketExpected
  | comma none => .error .endInValue
  | comma (some _) => .error .valueExpected

/-- The fault of a token after the members of an object, of which there are none if `empty`. -/
def strayFault (empty : Bool) : Fault :=
  if empty then .keyNotString else .commaOrBraceExpected

/-- How an object ends. -/
def object (empty : Bool) : Ending → Except Fault Unit
  | closed => .ok ()
  | textEnds => .error .endInObject
  | stray _ => .error (strayFault empty)
  | comma none => .error .endInValue
  | comma (some .endObject) => .error .trailingComma
  | comma (some _) => .error .keyNotString

/-- How an object ends that is skipped. -/
def skippedObject (empty : Bool) : Ending → Except Fault Unit
  | closed => .ok ()
  | textEnds | comma none => .error .endInObject
  | stray _ => .error (strayFault empty)
  | comma (some _) => .error .keyNotString

end Ending

/-- The fault of a name without a colon. -/
def separatorFault : Option Token → Fault
  | none => .endInObject
  | some _ => .colonExpected

mutual

/-- Walks through a value that does not matter; it only has to be JSON in shape. -/
def Tree.skip : Tree → Except Fault Unit
  | .leaf t => t.skip
  | .missing => .error .endInValue
  | .unseparated next => .error (separatorFault next)
  | .array items ending => do
    skipItems items
    ending.skippedArray
  | .object members ending => do
    skipMembers members
    ending.skippedObject members.isEmpty

def skipItems : List Tree → Except Fault Unit
  | [] => .ok ()
  | tree :: trees => do
    tree.skip
    skipItems trees

def skipMembers : List (Quoted × Tree) → Except Fault Unit
  | [] => .ok ()
  | (name, tree) :: rest => do
    match name.flaw with
    | some fault => .error fault
    | none =>
      tree.skip
      skipMembers rest

end

/-- Why a tree is not of the wanted kind. -/
def Tree.refusal (wanted : String) : Tree → Fault
  | .leaf t =>
    match t.value? with
    | .ok found => .mismatch (.wrongKind found wanted)
    | .error fault => fault
  | .missing => .endInValue
  | .unseparated next => separatorFault next
  | .array _ _ => .mismatch (.wrongKind (.array []) wanted)
  | .object _ _ => .mismatch (.wrongKind (.object []) wanted)

mutual

/-- The value of a tree, with at most `depth` containers around any part of it. -/
def Tree.value (depth : Nat) : Tree → Except Fault Value
  | .leaf t => t.value?
  | .missing => .error .endInValue
  | .unseparated next => .error (separatorFault next)
  | .array items ending =>
    match depth with
    | 0 => .error .tooDeep
    | depth + 1 => do
      let values ← itemValues depth items
      ending.array
      .ok (.array values)
  | .object members ending =>
    match depth with
    | 0 => .error .tooDeep
    | depth + 1 => do
      let values ← memberValues depth members
      ending.object members.isEmpty
      .ok (.object values)

def itemValues (depth : Nat) : List Tree → Except Fault (List Value)
  | [] => .ok []
  | tree :: trees => do
    let v ← tree.value depth
    let vs ← itemValues depth trees
    .ok (v :: vs)

def memberValues (depth : Nat) : List (Quoted × Tree) → Except Fault (List (String × Value))
  | [] => .ok []
  | (name, tree) :: rest => do
    let name ← name.content
    let v ← tree.value depth
    let vs ← memberValues depth rest
    .ok ((name, v) :: vs)

end

end RepairLedger.Json
