import RepairLedger.Text.Blank
import RepairLedger.Text.Cut
import RepairLedger.Text.Utf8

/-!
# URLs

A URL as it is sent to a server and named in its errors: the name of the server in lower case and
without the usual port, the path without dots, and every character that may not stand in a path or
a query as the bytes that encode it.
-/

namespace RepairLedger.Host.Url

/-- A byte after a percent sign. -/
def percentByte (b : UInt8) : List Char :=
  ['%', (Nat.digitChar (b.toNat / 16)).toUpper, (Nat.digitChar (b.toNat % 16)).toUpper]

/-- A character as it may stand in a URL, where those for which `isKept` holds stand for
themselves. -/
def encodeChar (isKept : Char → Bool) (c : Char) : List Char :=
  if 0x20 < c.toNat ∧ c.toNat < 0x7F ∧ isKept c then [c]
  else (Text.encodeChar c).flatMap percentByte

/-- May the character stand in a path? -/
def isPathChar (c : Char) : Bool :=
  !(['"', '#', '<', '>', '?', '\x60', '\x7b', '\x7d'].contains c)

/-- May the character stand in a query? -/
def isQueryChar (c : Char) : Bool :=
  !(['"', '#', '<', '>', '\''].contains c)

/-- A piece of a path with every dot in plain writing. -/
def plainDots : List Char → List Char
  | '%' :: '2' :: c :: rest =>
    if c = 'e' ∨ c = 'E' then '.' :: plainDots rest else '%' :: '2' :: c :: plainDots rest
  | c :: rest => c :: plainDots rest
  | [] => []

/-- The pieces of a path without those that are one or two dots, after pieces that come last
first.  Where the path ends with dots, an empty piece takes their place. -/
def withoutDots (done : List (List Char)) : List (List Char) → List (List Char)
  | [] => done.reverse
  | p :: ps =>
    let dots := plainDots p
    let done := if dots = ['.', '.'] then done.tail else done
    if dots = ['.'] ∨ dots = ['.', '.'] then
      if ps.isEmpty then ([] :: done).reverse else withoutDots done ps
    else withoutDots (p :: done) ps

/-- Is the character a slash of some kind? -/
def isSlash (c : Char) : Bool :=
  c = '/' || c = '\\'

/-- A path that begins with a slash. -/
def pathChars (path : List Char) : List Char :=
  let pieces := Text.pieces '/' (path.map fun c => if c = '\\' then '/' else c)
  let pieces := withoutDots [] (pieces.drop 1)
  let pieces := if pieces.isEmpty then [[]] else pieces
  pieces.flatMap fun p => '/' :: p.flatMap (encodeChar isPathChar)

/-- A query with the question mark before it. -/
def queryChars : List Char → List Char
  | [] => []
  | mark :: query => mark :: query.flatMap (encodeChar isQueryChar)

/-- A server and its port, unless it is the usual one. -/
def authorityChars (scheme authority : List Char) : List Char :=
  let usual := if scheme = ['h', 't', 't', 'p', 's'] then ['4', '4', '3'] else ['8', '0']
  let authority := authority.map Char.toLower
  match Text.cutLast ':' authority with
  | some (server, port) => if port = usual ∨ port = [] then server else authority
  | none => authority

/-- What stands before the first colon of a URL, in lower case. -/
def scheme (url : String) : String :=
  String.ofList ((url.toList.takeWhile (· ≠ ':')).map Char.toLower)

/-- A URL as it is sent, unless it does not say how to reach the server. -/
def sent? (url : String) : Option String := do
  let (scheme, rest) ← Text.cutFirst ':' url.toList
  let scheme := scheme.map Char.toLower
  if !(scheme.head?.any Char.isAlpha) then none
  else if scheme ≠ ['h', 't', 't', 'p'] ∧ scheme ≠ ['h', 't', 't', 'p', 's'] then some url
  else
    let rest := rest.dropWhile isSlash
    let authority := rest.takeWhile fun c => !isSlash c && c ≠ '?' && c ≠ '#'
    if authority.isEmpty then none
    else
      let rest := rest.drop authority.length
      let path := rest.takeWhile fun c => c ≠ '?' && c ≠ '#'
      let query := rest.drop path.length
      some <| String.ofList <|
        scheme ++ [':', '/', '/'] ++ authorityChars scheme authority ++ pathChars path ++
          queryChars query

end RepairLedger.Host.Url
