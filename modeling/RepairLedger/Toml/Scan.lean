import RepairLedger.Text.Numeral

/-!
# Scanning TOML

A TOML text is scanned character by character, after its line ends have been unified
(`Toml.unify?`): what is left holds no control characters but tabs and line feeds, so that nothing
later needs to look for others.
-/

namespace RepairLedger.Toml

/-- May the character stand in a text? -/
def isAllowed (c : Char) : Bool :=
  c = '\t' || c = '\n' || (0x20 ≤ c.toNat && c.toNat ≠ 0x7F)

/-- The text with a line feed at the end of every line, unless it holds a control character that
no text may hold. -/
def unifyLines? : List Char → Option (List Char)
  | [] => some []
  | '\r' :: '\n' :: rest => (unifyLines? rest).map ('\n' :: ·)
  | c :: rest => if isAllowed c then (unifyLines? rest).map (c :: ·) else none

/-- The text that is scanned; a byte order mark at its beginning does not count. -/
def unify? (text : List Char) : Option (List Char) :=
  match text with
  | '\uFEFF' :: rest => unifyLines? rest
  | text => unifyLines? text

/-- Takes something off a text, if the text begins with it. -/
abbrev Scan := StateT (List Char) Option

namespace Scan

/-- The next character, which is left in the text. -/
def peek : Scan (Option Char) :=
  fun text => some (text.head?, text)

/-- A character that must be there. -/
def char (c : Char) : Scan Unit
  | [] => none
  | x :: rest => if x = c then some ((), rest) else none

/-- As many characters as have a property. -/
def takeWhile (p : Char → Bool) : Scan (List Char) :=
  fun text => some (text.takeWhile p, text.dropWhile p)

/-- Scans until there is nothing more to scan; each time, something has to be taken off. -/
def many {α : Type} (scan : Scan (Option α)) : Scan (List α) := fun text =>
  match scan text with
  | none => none
  | some (none, rest) => some ([], rest)
  | some (some a, rest) =>
    if rest.length < text.length then
      match many scan rest with
      | none => none
      | some (as, rest) => some (a :: as, rest)
    else none
termination_by text => text.length

/-! ### Blanks and comments -/

/-- Spaces and tabs. -/
def isBlank (c : Char) : Bool :=
  c = ' ' || c = '\t'

/-- Leaves out spaces and tabs. -/
def blanks : Scan Unit :=
  discard (takeWhile isBlank)

/-- Leaves out a comment, if there is one, up to the end of its line. -/
def comment : Scan Unit := do
  if (← peek) = some '#' then discard (takeWhile (· ≠ '\n'))

/-- The end of a line, or of the text. -/
def lineEnd : Scan Unit
  | [] => some ((), [])
  | c :: rest => if c = '\n' then some ((), rest) else none

/-- The rest of a line, in which nothing more is said. -/
def restOfLine : Scan Unit := do
  blanks
  comment
  lineEnd

/-- Leaves out blanks, comments and line ends. -/
def gap : Scan Unit := do
  let _ ← many do
    let blank ← takeWhile fun c => isBlank c || c = '\n'
    if (← peek) = some '#' then
      comment
      return some ()
    else return if blank.isEmpty then none else some ()

end Scan

/-! ### Strings -/

/-- The value of a hexadecimal digit. -/
def hexDigit? (c : Char) : Option Nat :=
  if c.isDigit then some (c.toNat - 48)
  else if 'a' ≤ c ∧ c ≤ 'f' then some (c.toNat - 87)
  else if 'A' ≤ c ∧ c ≤ 'F' then some (c.toNat - 55)
  else none

/-- The character with the code point that hexadecimal digits stand for. -/
def codePoint? (digits : List Char) : Option Char := do
  let code ← digits.foldlM (fun n c => (hexDigit? c).map (n * 16 + ·)) 0
  if code.isValidChar then some (Char.ofNat code) else none

/-- The character that a letter after a backslash stands for. -/
def unescape? (letter : Char) : Option Char :=
  if letter = '"' ∨ letter = '\\' then some letter
  else if letter = 'b' then some '\x08'
  else if letter = 'f' then some '\x0c'
  else if letter = 'n' then some '\n'
  else if letter = 'r' then some '\r'
  else if letter = 't' then some '\t'
  else none

/-- The character that is written after a backslash, and the text behind it. -/
def escape? : List Char → Option (Char × List Char)
  | 'u' :: a :: b :: c :: d :: rest => (codePoint? [a, b, c, d]).map (·, rest)
  | 'U' :: a :: b :: c :: d :: e :: f :: g :: h :: rest =>
    (codePoint? [a, b, c, d, e, f, g, h]).map (·, rest)
  | letter :: rest => (unescape? letter).map (·, rest)
  | [] => none

theorem escape?_length {text rest : List Char} {c : Char} (h : escape? text = some (c, rest)) :
    rest.length < text.length := by
  unfold escape? at h
  split at h <;> simp only [Option.map_eq_some_iff, Prod.mk.injEq, reduceCtorEq] at h
  all_goals
    obtain ⟨_, _, _, rfl⟩ := h
    simp only [List.length_cons]
    omega

/-- The rest of a string in quotation marks, after the first of them. -/
def basicString : Scan (List Char)
  | [] => none
  | '"' :: rest => some ([], rest)
  | '\n' :: _ => none
  | '\\' :: rest =>
    match _h : escape? rest with
    | none => none
    | some (c, rest') => (basicString rest').map fun (cs, rest) => (c :: cs, rest)
  | c :: rest => (basicString rest).map fun (cs, rest) => (c :: cs, rest)
termination_by text => text.length
decreasing_by
  · have := escape?_length _h
    simp only [List.length_cons]
    omega
  · simp

/-- The rest of a string in apostrophes, after the first of them. -/
def literalString : Scan (List Char) := do
  let cs ← Scan.takeWhile fun c => c ≠ '\'' && c ≠ '\n'
  Scan.char '\''
  return cs

/-- The text after three quotes that end a string; up to two more of them belong to it. -/
def closing (quote : Char) : List Char → List Char × List Char
  | a :: b :: rest =>
    if a = quote then
      if b = quote then ([quote, quote], rest) else ([quote], b :: rest)
    else ([], a :: b :: rest)
  | [a] => if a = quote then ([quote], []) else ([], [a])
  | [] => ([], [])

/-- The text behind blanks and line ends, if the first line of it holds nothing but blanks. -/
def fold? (text : List Char) : Option (List Char) :=
  match text.dropWhile Scan.isBlank with
  | '\n' :: rest => some (rest.dropWhile fun c => Scan.isBlank c || c = '\n')
  | _ => none

theorem length_dropWhile_le (p : Char → Bool) (text : List Char) :
    (text.dropWhile p).length ≤ text.length :=
  (List.dropWhile_suffix p).length_le

theorem fold?_length {text rest : List Char} (h : fold? text = some rest) :
    rest.length < text.length := by
  unfold fold? at h
  split at h
  · rename_i tail hd
    obtain rfl := Option.some.inj h
    have h₁ := length_dropWhile_le Scan.isBlank text
    have h₂ := length_dropWhile_le (fun c => Scan.isBlank c || c = '\n') tail
    rw [hd] at h₁
    simp only [List.length_cons] at h₁
    omega
  · simp at h

/-- The rest of a string of several lines in quotation marks.  A backslash at the end of a line
joins it with what comes next. -/
def basicLines : Scan (List Char)
  | [] => none
  | '"' :: '"' :: '"' :: rest => some (closing '"' rest)
  | '\\' :: rest =>
    match _h : fold? rest with
    | some rest' => basicLines rest'
    | none =>
      match _h : escape? rest with
      | none => none
      | some (c, rest') => (basicLines rest').map fun (cs, rest) => (c :: cs, rest)
  | c :: rest => (basicLines rest).map fun (cs, rest) => (c :: cs, rest)
termination_by text => text.length
decreasing_by
  · have := fold?_length _h
    simp only [List.length_cons]
    omega
  · have := escape?_length _h
    simp only [List.length_cons]
    omega
  · simp

/-- The rest of a string of several lines in apostrophes. -/
def literalLines : Scan (List Char)
  | [] => none
  | '\'' :: '\'' :: '\'' :: rest => some (closing '\'' rest)
  | c :: rest => (literalLines rest).map fun (cs, rest) => (c :: cs, rest)

/-- A text without the line end it begins with. -/
def dropLineEnd : List Char → List Char
  | '\n' :: rest => rest
  | text => text

/-- A string of any kind. -/
def string : Scan String := do
  let cs ← fun text => match text with
    | '"' :: '"' :: '"' :: rest => basicLines (dropLineEnd rest)
    | '\'' :: '\'' :: '\'' :: rest => literalLines (dropLineEnd rest)
    | '"' :: rest => basicString rest
    | '\'' :: rest => literalString rest
    | _ => none
  return String.ofList cs

/-! ### Keys -/

/-- A part of a key: a word, or a string of one line. -/
def keyPart : Scan String := do
  let cs ← fun text => match text with
    | '"' :: rest => basicString rest
    | '\'' :: rest => literalString rest
    | text =>
      let isWordChar (c : Char) := c.isAlphanum || c = '_' || c = '-'
      if (text.takeWhile isWordChar).isEmpty then none else Scan.takeWhile isWordChar text
  return String.ofList cs

/-- The greatest number of parts of a key. -/
def keyLimit : Nat := 79

/-- A key with its parts, between which there are dots. -/
def key : Scan (List String) := do
  let part : Scan String := do
    Scan.blanks
    let s ← keyPart
    Scan.blanks
    return s
  let first ← part
  let rest ← Scan.many do
    if (← Scan.peek) = some '.' then
      Scan.char '.'
      some <$> part
    else return none
  if rest.length < keyLimit then return first :: rest else failure

end RepairLedger.Toml
