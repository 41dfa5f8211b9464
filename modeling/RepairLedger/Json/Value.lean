/-!
# JSON values

A value as a text denotes it: the members of an object stand in the order of the text, and a name
may occur twice.  `Value.canonical` is the form in which values are kept: at every depth the
members are sorted by name and each name occurs once, with the value it was given last.
-/

namespace RepairLedger.Json

/-- The whole numbers that are kept exactly: those of 64 bits, with or without a sign. -/
structure Integer where
  value : Int
  inRange : -9223372036854775808 ≤ value ∧ value < 18446744073709551616
deriving DecidableEq

/-- The integer of a natural number of 64 bits. -/
def Integer.ofUInt64 (n : UInt64) : Integer :=
  ⟨n.toNat, by have := n.toNat_lt; omega⟩

/-- The integer as a natural number of 64 bits, unless it is negative. -/
def Integer.toUInt64? (i : Integer) : Option UInt64 :=
  if 0 ≤ i.value then some (.ofNat i.value.toNat) else none

/-- A number; one that is not kept as an integer is a 64-bit floating point number, given by its
bits. -/
inductive Number where
  | integer (i : Integer)
  | real (bits : UInt64)
deriving DecidableEq

inductive Value where
  | null
  | bool (b : Bool)
  | number (n : Number)
  | string (s : String)
  | array (items : List Value)
  | object (members : List (String × Value))

/-- The members of an object. -/
abbrev Members := List (String × Value)

namespace Value

/-- A natural number of 64 bits. -/
def ofUInt64 (n : UInt64) : Value :=
  .number (.integer (.ofUInt64 n))

/-! ### Equality -/

mutual

/-- Are the values equal? -/
def same : Value → Value → Bool
  | .null, .null => true
  | .bool a, .bool b => a == b
  | .number a, .number b => a == b
  | .string a, .string b => a == b
  | .array a, .array b => sameItems a b
  | .object a, .object b => sameMembers a b
  | _, _ => false

def sameItems : List Value → List Value → Bool
  | [], [] => true
  | a :: as, b :: bs => a.same b && sameItems as bs
  | _, _ => false

def sameMembers : List (String × Value) → List (String × Value) → Bool
  | [], [] => true
  | (x, a) :: as, (y, b) :: bs => x == y && a.same b && sameMembers as bs
  | _, _ => false

end

mutual

theorem same_iff : ∀ a b : Value, a.same b = true ↔ a = b
  | .null, b => by cases b <;> simp [same]
  | .bool _, b => by cases b <;> simp [same]
  | .number _, b => by cases b <;> simp [same]
  | .string _, b => by cases b <;> simp [same]
  | .array as, b => by cases b <;> simp [same, sameItems_iff as]
  | .object as, b => by cases b <;> simp [same, sameMembers_iff as]

theorem sameItems_iff : ∀ as bs : List Value, sameItems as bs = true ↔ as = bs
  | [], bs => by cases bs <;> simp [sameItems]
  | a :: as, bs => by cases bs <;> simp [sameItems, same_iff a, sameItems_iff as]

theorem sameMembers_iff : ∀ as bs : List (String × Value), sameMembers as bs = true ↔ as = bs
  | [], bs => by cases bs <;> simp [sameMembers]
  | (x, a) :: as, bs => by
    rcases bs with _ | ⟨⟨y, b⟩, bs⟩ <;>
      simp [sameMembers, same_iff a, sameMembers_iff as, and_assoc]

end

instance : DecidableEq Value := fun a b =>
  decidable_of_iff (a.same b = true) (same_iff a b)

/-! ### The canonical form -/

/-- Sets the value of a name, in a list that is sorted by name. -/
def setMember (name : String) (value : Value) : Members → Members
  | [] => [(name, value)]
  | (x, v) :: rest =>
    if name < x then (name, value) :: (x, v) :: rest
    else if name = x then (name, value) :: rest
    else (x, v) :: setMember name value rest

/-- The members sorted by name; a name that occurs twice keeps its last value. -/
def sortMembers (members : Members) : Members :=
  members.foldl (fun sorted (name, value) => setMember name value sorted) []

mutual

/-- The value with its objects sorted at every depth. -/
def canonical : Value → Value
  | .null => .null
  | .bool b => .bool b
  | .number n => .number n
  | .string s => .string s
  | .array items => .array (canonicalItems items)
  | .object members => .object (sortMembers (canonicalMembers members))

def canonicalItems : List Value → List Value
  | [] => []
  | v :: vs => v.canonical :: canonicalItems vs

def canonicalMembers : List (String × Value) → List (String × Value)
  | [] => []
  | (name, v) :: rest => (name, v.canonical) :: canonicalMembers rest

end

/-- The value of a name among members. -/
def member? (name : String) (members : Members) : Option Value :=
  members.lookup name

end Value

end RepairLedger.Json
