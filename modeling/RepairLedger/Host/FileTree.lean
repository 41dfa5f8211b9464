import RepairLedger.Host.Failure
import RepairLedger.Host.Path
import RepairLedger.Text.Utf8

/-!
# File trees

Files and directories by their locations.  A path is followed through the tree piece by piece: every
piece but the last has to be a directory, and to create a file the last piece must be a name.
-/

namespace RepairLedger.Host

/-- The names that lead from the root to a file or a directory. -/
abbrev Location := List String

inductive Entry where
  | file (bytes : Bytes)
  | directory
deriving DecidableEq, Repr

/-- The two kinds of entries. -/
inductive Kind where
  | file
  | directory
deriving DecidableEq, Repr

/-- The kind of an entry. -/
def Entry.kind : Entry → Kind
  | file _ => .file
  | directory => .directory

/-- The entries below the root. -/
structure FileTree where
  entries : List (Location × Entry)
deriving DecidableEq, Repr

namespace FileTree

/-- The entry at a location; the root is a directory. -/
def get? (t : FileTree) : Location → Option Entry
  | [] => some .directory
  | location => t.entries.lookup location

/-- Replaces the entry at a location in a list of entries, or adds it at the end. -/
def setEntry (location : Location) (entry : Entry) :
    List (Location × Entry) → List (Location × Entry)
  | [] => [(location, entry)]
  | (x, e) :: rest =>
    if x = location then (x, entry) :: rest else (x, e) :: setEntry location entry rest

/-- The tree with an entry at a location. -/
def set (t : FileTree) (location : Location) (entry : Entry) : FileTree :=
  ⟨setEntry location entry t.entries⟩

/-- The tree without an entry at a location. -/
def remove (t : FileTree) (location : Location) : FileTree :=
  ⟨t.entries.filter fun e => e.1 ≠ location⟩

/-! ### Paths -/

/-- The greatest number of bytes of a name. -/
def nameLimit : Nat := 255

/-- The number of bytes that no path reaches. -/
def pathLimit : Nat := 4096

/-- Is the name longer than a name may be? -/
def isTooLong (name : Piece) : Bool :=
  nameLimit < (Text.encode (String.ofList name)).length

/-- Is there a directory at the location? -/
def checkDirectory (t : FileTree) (location : Location) : Except Failure Unit :=
  match t.get? location with
  | some .directory => .ok ()
  | some (.file _) => .error .notDirectory
  | none => .error .notFound

/-- Goes one piece further from a location. -/
def enter (t : FileTree) (location : Location) (piece : Piece) : Except Failure Location := do
  t.checkDirectory location
  if piece = [] ∨ piece = ['.'] then .ok location
  else if piece = ['.', '.'] then .ok location.dropLast
  else if isTooLong piece then .error .nameTooLong
  else
    let next := location ++ [String.ofList piece]
    match t.get? next with
    | some _ => .ok next
    | none => .error .notFound

/-- Follows pieces from a location. -/
def follow (t : FileTree) (location : Location) : List Piece → Except Failure Location
  | [] => .ok location
  | piece :: pieces => do
    let next ← t.enter location piece
    t.follow next pieces

/-- Is the text a path at all? -/
def checkPath (path : Path) : Except Failure Unit :=
  if path.text.toList.contains '\x00' then .error .nulInPath
  else if path.isEmpty then .error .notFound
  else if pathLimit ≤ (Text.encode path.text).length then .error .nameTooLong
  else .ok ()

/-- Where a path begins, if it is seen from the location `base`. -/
def start (base : Location) (path : Path) : Location :=
  if path.isAbsolute then [] else base

/-- The location of what a path leads to. -/
def locate (t : FileTree) (base : Location) (path : Path) : Except Failure Location := do
  checkPath path
  t.follow (start base path) (Text.pieces '/' path.text.toList)

/-- Where something may be created. -/
inductive Place where
  /-- The path does not end with a name. -/
  | unnamed
  /-- A name in a directory, perhaps with a slash after it. -/
  | named (directory : Location) (name : Piece) (slash : Bool)

/-- The place that a path leads to; nothing needs to be there yet. -/
def place (t : FileTree) (base : Location) (path : Path) : Except Failure Place := do
  checkPath path
  let pieces := (Text.pieces '/' path.text.toList).reverse
  match pieces.dropWhile (· = []) with
  | [] => .ok .unnamed
  | last :: outer =>
    let directory ← t.follow (start base path) outer.reverse
    t.checkDirectory directory
    if last = ['.'] ∨ last = ['.', '.'] then .ok .unnamed
    else .ok (.named directory last (pieces.head? = some []))

/-! ### Operations -/

/-- What is at a path. -/
def kind? (t : FileTree) (base : Location) (path : Path) : Option Kind :=
  match t.locate base path with
  | .ok location => (t.get? location).map Entry.kind
  | .error _ => none

/-- The bytes of the file at a path. -/
def read (t : FileTree) (base : Location) (path : Path) : Except Failure Bytes := do
  match t.get? (← t.locate base path) with
  | some (.file bytes) => .ok bytes
  | some .directory => .error .isDirectory
  | none => .error .notFound

/-- The location at which a path lets a file be created or replaced. -/
def fileLocation (t : FileTree) (base : Location) (path : Path) : Except Failure Location := do
  match ← t.place base path with
  | .unnamed | .named _ _ true => .error .isDirectory
  | .named directory name false =>
    if isTooLong name then .error .nameTooLong
    else
      let location := directory ++ [String.ofList name]
      match t.get? location with
      | some .directory => .error .isDirectory
      | _ => .ok location

/-- Writes a file, which is created or replaced. -/
def write (t : FileTree) (base : Location) (path : Path) (bytes : Bytes) :
    Except Failure FileTree := do
  let location ← t.fileLocation base path
  .ok (t.set location (.file bytes))

/-- Creates an empty file at a path if there is none, and gives its location. -/
def ensureFile (t : FileTree) (base : Location) (path : Path) :
    Except Failure (FileTree × Location) := do
  let location ← t.fileLocation base path
  match t.get? location with
  | some _ => .ok (t, location)
  | none => .ok (t.set location (.file []), location)

/-- Creates a directory. -/
def makeDirectory (t : FileTree) (base : Location) (path : Path) : Except Failure FileTree := do
  match ← t.place base path with
  | .unnamed => .error .alreadyExists
  | .named directory name _ =>
    if isTooLong name then .error .nameTooLong
    else
      let location := directory ++ [String.ofList name]
      match t.get? location with
      | some _ => .error .alreadyExists
      | none => .ok (t.set location .directory)

/-- Moves a file to a path, where it replaces any other file; gives the two locations as well. -/
def rename (t : FileTree) (base : Location) (source target : Path) :
    Except Failure (FileTree × Location × Location) := do
  let source ← t.fileLocation base source
  match ← t.place base target with
  | .unnamed => .error .busy
  | .named directory name slash =>
    let target := directory ++ [String.ofList name]
    if isTooLong name then .error .nameTooLong
    else
      match t.get? source, t.get? target with
      | none, _ | some .directory, _ => .error .notFound
      | some (.file bytes), entry =>
        if slash then .error .notDirectory
        else if entry = some .directory then .error .isDirectory
        else .ok (((t.remove source).set target (.file bytes)), source, target)

end FileTree

end RepairLedger.Host
