import RepairLedger.Json.Decoder
import RepairLedger.Text.Blank
import RepairLedger.Text.Cut
import RepairLedger.Text.Numeral

/-!
# Pull request ids

A pull request is known by the owner and the name of its repository and by its number, written
`owner/repo#number`.  `PullId.parse` reads such a text, with blanks around it allowed, and refuses
names that are empty or hold one of the separators or a blank, and the number zero.
-/

namespace RepairLedger

structure PullId where
  owner : String
  repo : String
  number : UInt64
deriving DecidableEq

namespace PullId

/-- The repository of a pull request. -/
def slug (id : PullId) : String :=
  s!"{id.owner}/{id.repo}"

/-- The text of an id. -/
def text (id : PullId) : String :=
  s!"{id.owner}/{id.repo}#{Numeral.textOf id.number.toNat}"

/-- Why a text or its parts are not an id. -/
inductive Flaw where
  /-- One of the separators is missing. -/
  | form
  | badNumber
  | noOwner
  | noRepo
  | badName
  | zeroNumber
deriving DecidableEq, Repr

/-- The text of a flaw. -/
def Flaw.message : Flaw → String
  | .form => "expected owner/repo#number"
  | .badNumber => "PR number must be a positive integer"
  | .noOwner => "owner must not be empty"
  | .noRepo => "repository name must not be empty"
  | .badName => "owner and repository name must not contain '/', '#' or whitespace"
  | .zeroNumber => "PR number must be positive"

/-- A text that is not an id, and why. -/
structure Invalid where
  value : String
  flaw : Flaw
deriving DecidableEq, Repr

/-- The text of a refusal. -/
def Invalid.message (i : Invalid) : String :=
  s!"invalid record identifier '{i.value}': {i.flaw.message}"

/-! ### Parts -/

/-- May the character stand in the name of an owner or a repository? -/
def isNameChar (c : Char) : Bool :=
  c ≠ '/' && c ≠ '#' && !Text.isBlank c

/-- Is the text the name of an owner or a repository? -/
def isName (name : String) : Bool :=
  !name.toList.isEmpty && name.toList.all isNameChar

/-- Has the id proper names and a number above zero? -/
def IsValid (id : PullId) : Prop :=
  isName id.owner ∧ isName id.repo ∧ id.number ≠ 0

instance (id : PullId) : Decidable id.IsValid :=
  inferInstanceAs (Decidable (_ ∧ _))

/-- What is wrong with a name, if it is none; `empty` is said of an empty one. -/
def nameFlaw? (name : String) (empty : Flaw) : Option Flaw :=
  if name.toList.isEmpty then some empty
  else if name.toList.all isNameChar then none
  else some .badName

/-- What is wrong with an id: the owner is judged before the repository, and the number last. -/
def flaw? (id : PullId) : Option Flaw :=
  (nameFlaw? id.owner .noOwner).or <| (nameFlaw? id.repo .noRepo).or <|
    if id.number = 0 then some .zeroNumber else none

/-- The id with these parts. -/
def ofParts (owner repo : String) (number : UInt64) : Except Invalid PullId :=
  let id : PullId := ⟨owner, repo, number⟩
  match id.flaw? with
  | none => .ok id
  | some flaw => .error ⟨id.text, flaw⟩

theorem nameFlaw?_eq_none_iff {name : String} {empty : Flaw} :
    nameFlaw? name empty = none ↔ isName name = true := by
  unfold nameFlaw? isName
  by_cases h : name.toList.isEmpty <;> by_cases h' : name.toList.all isNameChar <;> simp [h, h']

theorem flaw?_eq_none_iff {id : PullId} : id.flaw? = none ↔ id.IsValid := by
  unfold flaw? IsValid
  by_cases h : id.number = 0 <;>
    simp [h, Option.or_eq_none_iff, nameFlaw?_eq_none_iff]

/-! ### Text -/

/-- Reads an id. -/
def parse (raw : String) : Except Invalid PullId :=
  match Text.cutLast '#' (Text.trim raw.toList) with
  | none => .error ⟨raw, .form⟩
  | some (slug, number) =>
    match Text.cutFirst '/' slug with
    | none => .error ⟨raw, .form⟩
    | some (owner, repo) =>
      match Numeral.read? number with
      | none => .error ⟨raw, .badNumber⟩
      | some number => ofParts (String.ofList owner) (String.ofList repo) number

/-- The id as it stands in JSON. -/
def json (id : PullId) : Json.Value :=
  .string id.text

/-- Reads the content of a JSON string as an id. -/
def ofContent (content : String) : Except Json.Fault PullId :=
  match parse content with
  | .ok id => .ok id
  | .error invalid => .error (.mismatch (.refused invalid.message))

/-- Reads an id from JSON. -/
def decoder : Json.Decoder PullId := fun depth tree => do
  ofContent (← Json.Decoder.string depth tree)

/-! ### Order -/

/-- Ids are ordered by owner, then by repository, then by number. -/
protected def compare (a b : PullId) : Ordering :=
  (compare a.owner b.owner).then <| (compare a.repo b.repo).then <| compare a.number b.number

end PullId

end RepairLedger
