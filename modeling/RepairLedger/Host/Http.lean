import RepairLedger.Host.Exchange
import RepairLedger.Text.Blank
import RepairLedger.Text.Cut
import RepairLedger.Text.Numeral

/-!
# Messages to and from servers

How a request is written for a server of plain HTTP, and how its answer is read: a line with the
status, lines of headers, an empty line, and the body, which may come in chunks.
-/

namespace RepairLedger.Host.Http

/-- The end of a line. -/
def lineEnd : String := "\r\n"

/-! ### Requests -/

/-- Where a request is sent. -/
structure Destination where
  server : String
  port : Nat
  /-- The server and the port, as the URL names them. -/
  authority : String
  /-- What is asked for on the server. -/
  path : String
deriving DecidableEq, Repr

/-- Where a request for a URL is sent, if it is a URL of plain HTTP. -/
def Destination.ofUrl? (url : String) : Option Destination :=
  let scheme := "http://".toList
  let chars := url.toList
  if scheme.isPrefixOf chars then
    let rest := chars.drop scheme.length
    let authority := rest.takeWhile (· ≠ '/')
    let path := String.ofList (rest.drop authority.length)
    match Text.cutLast ':' authority with
    | none => some ⟨.ofList authority, 80, .ofList authority, path⟩
    | some (server, port) => do
      some ⟨.ofList server, (← Numeral.read? port).toNat, .ofList authority, path⟩
  else none

example : (Destination.ofUrl? "http://a.test:8080/x").map (·.port) = some 8080 := by decide +kernel

/-- A request as it is sent. -/
def requestText (d : Destination) (request : Request) : String :=
  let authorization := match request.authorization with
    | some credentials => s!"Authorization: {credentials}{lineEnd}"
    | none => ""
  s!"GET {d.path} HTTP/1.1{lineEnd}Host: {d.authority}{lineEnd}" ++
    s!"Accept: {request.accept}{lineEnd}User-Agent: {request.userAgent}{lineEnd}" ++
    s!"{authorization}Connection: close{lineEnd}{lineEnd}"

/-! ### Answers -/

/-- The first line of a message without its end, and what follows it. -/
def takeLine : Bytes → Option (Bytes × Bytes)
  | [] => none
  | 0x0D :: 0x0A :: rest => some ([], rest)
  | b :: rest => (takeLine rest).map fun (line, rest) => (b :: line, rest)

theorem takeLine_rest_length {bytes line rest : Bytes} (h : takeLine bytes = some (line, rest)) :
    rest.length < bytes.length := by
  fun_induction takeLine bytes generalizing line rest with
  | case1 => simp at h
  | case2 tail =>
    obtain ⟨-, rfl⟩ : [] = line ∧ tail = rest := by simpa using h
    simp only [List.length_cons]
    omega
  | case3 b tail _ ih =>
    obtain ⟨⟨line', rest'⟩, hl, he⟩ := Option.map_eq_some_iff.1 h
    obtain ⟨-, rfl⟩ : b :: line' = line ∧ rest' = rest := by simpa using he
    have := ih hl
    simp only [List.length_cons]
    omega

/-- The characters of a line. -/
def lineChars (line : Bytes) : List Char :=
  line.map fun b => Char.ofNat b.toNat

/-- The status that the first line of an answer gives. -/
def status? (line : Bytes) : Option Nat :=
  match Text.pieces ' ' (lineChars line) with
  | version :: status :: _ =>
    if ['H', 'T', 'T', 'P', '/', '1', '.'].isPrefixOf version then
      (Numeral.read? status).map UInt64.toNat
    else none
  | _ => none

/-- A header: its name in lower case, and its value. -/
abbrev Header := List Char × List Char

/-- Reads a header. -/
def header? (line : Bytes) : Option Header :=
  (Text.cutFirst ':' (lineChars line)).map fun (name, value) =>
    (name.map Char.toLower, Text.trim value)

/-- The headers before the empty line, and what follows it. -/
def takeHeaders (bytes : Bytes) : Option (List Header × Bytes) :=
  match _h : takeLine bytes with
  | none => none
  | some ([], rest) => some ([], rest)
  | some (line, rest) =>
    match takeHeaders rest with
    | none => none
    | some (headers, body) => some ((header? line).toList ++ headers, body)
termination_by bytes.length
decreasing_by exact takeLine_rest_length (by assumption)

/-- The value of a hexadecimal digit. -/
def hexValue? (c : Char) : Option Nat :=
  if c.isDigit then some (c.toNat - '0'.toNat)
  else
    let c := c.toLower
    if 'a' ≤ c ∧ c ≤ 'f' then some (c.toNat - 'a'.toNat + 10) else none

/-- The size at the beginning of a chunk. -/
def chunkSize? (line : Bytes) : Option Nat :=
  let digits := (lineChars line).takeWhile fun c => (hexValue? c).isSome
  if digits.isEmpty then none
  else some (digits.foldl (fun n c => n * 16 + (hexValue? c).getD 0) 0)

/-- A body that comes in chunks, each with its size in a line before it; the last one is empty. -/
def unchunk (bytes : Bytes) : Option Bytes :=
  match _h : takeLine bytes with
  | none => none
  | some (line, rest) =>
    match chunkSize? line with
    | none => none
    | some 0 => some []
    | some size =>
      if rest.length < size then none
      else (unchunk (rest.drop (size + 2))).map (rest.take size ++ ·)
termination_by bytes.length
decreasing_by
  have := takeLine_rest_length (by assumption)
  simp only [List.length_drop]
  omega

/-- The body of an answer with these headers, of all that follows them. -/
def body? (headers : List Header) (bytes : Bytes) : Option Bytes :=
  if headers.lookup "transfer-encoding".toList = some "chunked".toList then unchunk bytes
  else
    match (headers.lookup "content-length".toList).bind Numeral.read? with
    | none => some bytes
    | some n => if bytes.length < n.toNat then none else some (bytes.take n.toNat)

/-- Reads an answer. -/
def response? (bytes : Bytes) : Option Response := do
  let (line, rest) ← takeLine bytes
  let (headers, rest) ← takeHeaders rest
  some ⟨← status? line, ← body? headers rest⟩

end RepairLedger.Host.Http
