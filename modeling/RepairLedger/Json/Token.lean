import RepairLedger.Json.Literal

/-!
# Tokens of a JSON text

A token carries what was read even where it is faulty, because the same text is judged more or
less strictly: a value that is skipped may hold numbers that are too large and strings that are no
text, as long as it is JSON in shape.
-/

namespace RepairLedger.Json

open Text

/-- A string of a JSON text. -/
structure Quoted where
  content : Except Fault String
  /-- What is wrong even if the content does not matter. -/
  flaw : Option Fault

inductive Token where
  | beginArray
  | endArray
  | beginObject
  | endObject
  | colon
  | comma
  | null
  | bool (b : Bool)
  /-- A word that begins like `null`, `true` or `false`. -/
  | misspelt (fault : Fault)
  | number (n : Except Fault Number)
  | string (s : Quoted)
  /-- A symbol that begins no token. -/
  | other

/-! ### Strings -/

/-- The value of a hexadecimal digit. -/
def hexDigit? : Symbol → Option Nat
  | .stray _ => none
  | .char c =>
    if c.isDigit then some (c.toNat - 48)
    else if 'a' ≤ c ∧ c ≤ 'f' then some (c.toNat - 87)
    else if 'A' ≤ c ∧ c ≤ 'F' then some (c.toNat - 55)
    else none

/-- The number that four hexadecimal digits stand for. -/
def hexUnit? (a b c d : Symbol) : Option Nat := do
  some (((← hexDigit? a) * 16 + (← hexDigit? b)) * 256 + (← hexDigit? c) * 16 + (← hexDigit? d))

/-- The character that a letter after a backslash stands for. -/
def unescape? (letter : Char) : Option Char :=
  if letter = '"' ∨ letter = '\\' ∨ letter = '/' then some letter
  else if letter = 'b' then some '\x08'
  else if letter = 'f' then some '\x0c'
  else if letter = 'n' then some '\n'
  else if letter = 'r' then some '\r'
  else if letter = 't' then some '\t'
  else none

/-- The content of a string so far; its characters come latest first. -/
inductive Content where
  | reading (chars : List Char) (stray : Bool)
  /-- The latest unit is the first half of a surrogate pair. -/
  | paired (chars : List Char) (stray : Bool) (high : Nat)
  | failed (fault : Fault)

namespace Content

/-- Goes on with a character. -/
def push (c : Char) : Content → Content
  | reading chars stray => reading (c :: chars) stray
  | paired _ _ _ => failed .surrogateExpected
  | failed fault => failed fault

/-- Goes on with bytes that belong to no character. -/
def pushStray : Content → Content
  | reading chars _ => reading chars true
  | paired _ _ _ => failed .surrogateExpected
  | failed fault => failed fault

/-- Goes on with a unit given by its hexadecimal digits. -/
def pushUnit (unit : Nat) : Content → Content
  | reading chars stray =>
    if 0xD800 ≤ unit ∧ unit ≤ 0xDBFF then paired chars stray unit
    else if 0xDC00 ≤ unit ∧ unit ≤ 0xDFFF then failed .loneSurrogate
    else reading (Char.ofNat unit :: chars) stray
  | paired chars stray high =>
    if 0xDC00 ≤ unit ∧ unit ≤ 0xDFFF then
      reading (Char.ofNat ((high - 0xD800) * 1024 + (unit - 0xDC00) + 0x10000) :: chars) stray
    else failed .loneSurrogate
  | failed fault => failed fault

/-- Breaks off at a fault. -/
def fail (fault : Fault) : Content → Quoted
  | failed earlier => ⟨.error earlier, some fault⟩
  | _ => ⟨.error fault, some fault⟩

/-- Breaks off at a letter that no backslash may precede. -/
def failEscape : Content → Quoted
  | paired _ _ _ => ⟨.error .surrogateExpected, some .badEscape⟩
  | content => content.fail .badEscape

/-- Breaks off at a control character. -/
def failControl : Content → Quoted
  | paired _ _ _ => ⟨.error .surrogateExpected, some .controlCharacter⟩
  | content => content.fail .controlCharacter

/-- The string that ends here. -/
def finish : Content → Quoted
  | reading chars stray =>
    ⟨if stray then .error .strayBytes else .ok (String.ofList chars.reverse), none⟩
  | paired _ _ _ => ⟨.error .surrogateExpected, none⟩
  | failed fault => ⟨.error fault, none⟩

end Content

/-- The fault of a code unit without four digits: the text may end too early for them. -/
def unitFault (rest : List Symbol) : Fault :=
  if rest.foldl (fun n s => n + s.size) 0 < 4 then .endInString else .badEscape

/-- The rest of a string whose opening quotation mark has been read, and the text after it. -/
def scanString (content : Content) : List Symbol → Quoted × List Symbol
  | [] => (content.fail .endInString, [])
  | .stray _ :: rest => scanString content.pushStray rest
  | .char c :: rest =>
    if c = '"' then (content.finish, rest)
    else if c = '\\' then
      match rest with
      | .char 'u' :: a :: b :: c :: d :: rest =>
        match hexUnit? a b c d with
        | some unit => scanString (content.pushUnit unit) rest
        | none => (content.fail .badEscape, rest)
      | .char 'u' :: rest => (content.fail (unitFault rest), [])
      | .char letter :: rest =>
        match unescape? letter with
        | some c => scanString (content.push c) rest
        | none => (content.failEscape, rest)
      | .stray _ :: rest => (content.failEscape, rest)
      | [] => (content.fail .endInString, [])
    else if c.toNat < 0x20 then (content.failControl, rest)
    else scanString (content.push c) rest

theorem scanString_length (content : Content) (text : List Symbol) :
    (scanString content text).2.length ≤ text.length := by
  fun_induction scanString content text <;> simp_all <;> omega

/-! ### Words and numbers -/

/-- The text after a word, of which the letters are still due. -/
def scanWord : List Char → List Symbol → Except Fault (List Symbol)
  | [], rest => .ok rest
  | _ :: _, [] => .error .endInValue
  | letter :: letters, s :: rest =>
    if s = .char letter then scanWord letters rest else .error .wordExpected

theorem scanWord_length {letters : List Char} {text rest : List Symbol}
    (h : scanWord letters text = .ok rest) : rest.length ≤ text.length := by
  fun_induction scanWord letters text with
  | case1 => simp_all
  | case2 => simp at h
  | case3 _ _ _ ih => have := ih h; simp; omega
  | case4 => simp at h

/-- The token of a word and the text after it. -/
def wordToken (token : Token) (letters : List Char) (text : List Symbol) : Token × List Symbol :=
  match scanWord letters text with
  | .ok rest => (token, rest)
  | .error fault => (.misspelt fault, [])

theorem wordToken_length (token : Token) (letters : List Char) (text : List Symbol) :
    (wordToken token letters text).2.length ≤ text.length := by
  unfold wordToken
  split
  · exact scanWord_length ‹_›
  · simp

/-- The token of a number and the text after it. -/
def numberToken (negative : Bool) (text : List Symbol) : Token × List Symbol :=
  match Literal.scan negative text with
  | .ok (literal, rest) => (.number literal.number, rest)
  | .error fault => (.number (.error fault), [])

theorem scanSomeDigits_length {text rest : List Symbol} {ds : List Nat}
    (h : scanSomeDigits text = .ok (ds, rest)) : rest.length < text.length := by
  unfold scanSomeDigits at h
  split at h
  · simp at h
  · rename_i ds' rest' hne hs
    obtain ⟨rfl, rfl⟩ : ds' = ds ∧ rest' = rest := by simpa using h
    match text with
    | [] => simp_all [scanDigits]
    | s :: tail =>
      have := scanDigits_length tail
      rw [scanDigits] at hs
      split at hs
      · have hr : (scanDigits tail).2 = rest' := congrArg Prod.snd hs
        rw [List.length_cons, ← hr]
        omega
      · exact absurd (congrArg Prod.fst hs).symm hne

theorem scanWhole_length {text rest : List Symbol} {ds : List Nat}
    (h : scanWhole text = .ok (ds, rest)) : rest.length < text.length := by
  simp only [scanWhole, bind, Except.bind] at h
  split at h
  · simp at h
  · rename_i p hp
    obtain ⟨ds', rest'⟩ := p
    have := scanSomeDigits_length hp
    split at h
    · simp at h
    · simp_all

theorem scanFraction_length {text rest : List Symbol} {ds : Option (List Nat)}
    (h : scanFraction text = .ok (ds, rest)) : rest.length ≤ text.length := by
  unfold scanFraction at h
  split at h
  · simp only [bind, Except.bind] at h
    split at h
    · simp at h
    · rename_i p hp
      obtain ⟨ds', rest'⟩ := p
      have := scanSomeDigits_length hp
      simp_all
      omega
  · simp_all

theorem scanSign_length (text : List Symbol) : (scanSign text).2.length ≤ text.length := by
  unfold scanSign
  split <;> simp

theorem scanExponent_length {text rest : List Symbol} {e : Option (Bool × List Nat)}
    (h : scanExponent text = .ok (e, rest)) : rest.length ≤ text.length := by
  unfold scanExponent at h
  split at h
  · rename_i c tail
    split at h
    · simp only [bind, Except.bind] at h
      split at h
      · simp at h
      · rename_i p hp
        obtain ⟨ds', rest'⟩ := p
        have := scanSomeDigits_length hp
        have := scanSign_length tail
        simp_all
        omega
    · simp_all
  · simp_all

theorem scan_length {negative : Bool} {text rest : List Symbol} {l : Literal}
    (h : Literal.scan negative text = .ok (l, rest)) : rest.length < text.length := by
  simp only [Literal.scan, bind, Except.bind] at h
  split at h
  · simp at h
  rename_i p hp
  obtain ⟨w, r₁⟩ := p
  have h₁ := scanWhole_length hp
  simp only at h
  split at h
  · simp at h
  rename_i p hp
  obtain ⟨f, r₂⟩ := p
  have h₂ := scanFraction_length hp
  simp only at h
  split at h
  · simp at h
  rename_i p hp
  obtain ⟨e, r₃⟩ := p
  have h₃ := scanExponent_length hp
  simp_all
  omega

theorem numberToken_length (negative : Bool) {text : List Symbol} {n : Nat}
    (h : text.length ≤ n + 1) : (numberToken negative text).2.length ≤ n := by
  unfold numberToken
  split
  · have := scan_length ‹_›
    simp only
    omega
  · simp

/-! ### Tokens -/

/-- The white space of JSON. -/
def isSpace (c : Char) : Bool :=
  c = ' ' || c = '\n' || c = '\t' || c = '\r'

/-- The tokens of one character. -/
def punctuation? (c : Char) : Option Token :=
  if c = '[' then some .beginArray
  else if c = ']' then some .endArray
  else if c = '\x7b' then some .beginObject
  else if c = '\x7d' then some .endObject
  else if c = ':' then some .colon
  else if c = ',' then some .comma
  else none

/-- The word that begins with the character, with its other letters. -/
def word? (c : Char) : Option (Token × List Char) :=
  if c = 'n' then some (.null, ['u', 'l', 'l'])
  else if c = 't' then some (.bool true, ['r', 'u', 'e'])
  else if c = 'f' then some (.bool false, ['a', 'l', 's', 'e'])
  else none

/-- The token that begins with the character, and the text after it. -/
def token (c : Char) (rest : List Symbol) : Token × List Symbol :=
  match punctuation? c, word? c with
  | some t, _ => (t, rest)
  | none, some (t, letters) => wordToken t letters rest
  | none, none =>
    if c = '"' then
      let (s, rest) := scanString (.reading [] false) rest
      (.string s, rest)
    else if c = '-' then numberToken true rest
    else if c.isDigit then numberToken false (.char c :: rest)
    else (.other, [])

theorem token_length (c : Char) (rest : List Symbol) :
    (token c rest).2.length ≤ rest.length := by
  unfold token
  split
  · exact Nat.le_refl _
  · exact wordToken_length _ _ _
  · split
    · exact scanString_length _ _
    split
    · exact numberToken_length _ (by omega)
    split
    · exact numberToken_length _ (by simp)
    · simp

end RepairLedger.Json
