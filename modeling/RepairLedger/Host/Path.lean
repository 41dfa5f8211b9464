import RepairLedger.Text.Cut

/-!
# Paths

A path is a text with slashes.  Its components are what stands between them, except that an empty
piece is none, and neither is a single dot unless the path begins with it.  `Path.parent?` and
`Path.fileName?` take the last component off; what stands before it is kept as it is written.
-/

namespace RepairLedger.Host

structure Path where
  text : String
deriving DecidableEq, Repr

/-- What stands between two slashes of a path. -/
abbrev Piece := List Char

/-- Is the piece a component, if it is not the first one? -/
def Piece.isComponent (p : Piece) : Bool :=
  p ≠ [] && p ≠ ['.']

namespace Path

/-- The text that consists of the given pieces. -/
def joinPieces : List Piece → List Char
  | [] => []
  | [p] => p
  | p :: ps => p ++ '/' :: joinPieces ps

/-- The path of a first piece and of more pieces, which come last first. -/
def ofPieces (first : Piece) (reversed : List Piece) : Path :=
  match first, reversed with
  | [], [] => ⟨"/"⟩
  | _, _ => ⟨String.ofList (joinPieces (first :: reversed.reverse))⟩

/-- The first piece of a path, and the pieces after it that matter, last first: what follows the
last component is left out. -/
def split (p : Path) : Piece × List Piece :=
  match Text.pieces '/' p.text.toList with
  | [] => ([], [])
  | first :: rest => (first, rest.reverse.dropWhile (!Piece.isComponent ·))

/-- Is it the path without a text? -/
def isEmpty (p : Path) : Bool :=
  p.text.toList.isEmpty

/-- Does the path begin at the root? -/
def isAbsolute (p : Path) : Bool :=
  p.text.toList.head? = some '/'

/-- The path without its last component; the root and the empty path have none. -/
def parent? (p : Path) : Option Path :=
  match p.split with
  | ([], []) => none
  | (_, []) => some ⟨""⟩
  | (first, _ :: rest) => some (ofPieces first (rest.dropWhile (!Piece.isComponent ·)))

/-- The last component, unless it is one or two dots. -/
def fileName? (p : Path) : Option String :=
  let last := match p.split with
    | (first, []) => first
    | (_, last :: _) => last
  if last = [] ∨ last = ['.'] ∨ last = ['.', '.'] then none else some (String.ofList last)

/-- The path with a name added to it; a name that begins at the root replaces it. -/
def join (p : Path) (name : String) : Path :=
  if name.toList.head? = some '/' then ⟨name⟩
  else if p.isEmpty ∨ p.text.toList.getLast? = some '/' then ⟨p.text ++ name⟩
  else ⟨p.text ++ "/" ++ name⟩

/-- The path with another name in the place of its last component, or after it if that is no
name. -/
def withFileName (p : Path) (name : String) : Path :=
  match p.fileName? with
  | none => p.join name
  | some _ => (p.parent?.getD p).join name

/-- The sibling whose name is longer by an ending. -/
def withEnding (p : Path) (ending : String) : Path :=
  p.withFileName (p.fileName?.getD "" ++ ending)

/-- The paths of a first piece with ever fewer of the pieces after it. -/
def prefixes (first : Piece) : List Piece → List Path
  | [] => [ofPieces first []]
  | p :: ps =>
    if Piece.isComponent p then ofPieces first (p :: ps) :: prefixes first ps
    else prefixes first ps

/-- The path and the directories around it, up to the first component. -/
def ancestors (p : Path) : List Path :=
  let (first, rest) := p.split
  prefixes first rest

example : (Path.mk "data/prs.json/").withEnding ".lock" = ⟨"data/prs.json.lock"⟩ := by
  decide +kernel

example : (Path.mk "a/..").withEnding ".lock" = ⟨"a/../.lock"⟩ := by decide +kernel

example : (Path.mk "/a//b").parent? = some ⟨"/a"⟩ := by decide +kernel

end Path

end RepairLedger.Host
