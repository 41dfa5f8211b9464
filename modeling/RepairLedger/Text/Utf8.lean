/-!
# UTF-8

Bytes are read as a sequence of symbols: the characters they encode and, between them, the stray
runs of bytes that belong to no character.  A stray run is as long as it can be and still be the
beginning of a character; a byte that begins none is a run of its own.  No byte is lost.
-/

namespace RepairLedger

/-- The contents of a file or of an answer. -/
abbrev Bytes := List UInt8

namespace Text

/-- What a text holds at one place. -/
inductive Symbol where
  | char (c : Char)
  /-- Bytes that belong to no character. -/
  | stray (run : Bytes)
deriving DecidableEq, Repr

/-- The bytes of a character. -/
def encodeChar (c : Char) : Bytes :=
  String.utf8EncodeChar c

/-- The bytes of a text. -/
def encode (s : String) : Bytes :=
  s.toList.flatMap encodeChar

/-- The symbols of a text. -/
def symbolsOf (s : String) : List Symbol :=
  s.toList.map .char

namespace Utf8

/-- A range of bytes, both ends included. -/
structure Range where
  first : UInt8
  last : UInt8

/-- The bytes that may continue a character. -/
def tail : Range := ⟨0x80, 0xBF⟩

/-- For the first byte of a character its payload and the ranges of the bytes to follow; other
bytes begin no character. -/
def lead? (b : UInt8) : Option (Nat × List Range) :=
  if b ≤ 0x7F then some (b.toNat, [])
  else if 0xC2 ≤ b && b ≤ 0xDF then some (b.toNat - 0xC0, [tail])
  else if b == 0xE0 then some (0, [⟨0xA0, 0xBF⟩, tail])
  else if b == 0xED then some (13, [⟨0x80, 0x9F⟩, tail])
  else if 0xE1 ≤ b && b ≤ 0xEF then some (b.toNat - 0xE0, [tail, tail])
  else if b == 0xF0 then some (0, [⟨0x90, 0xBF⟩, tail, tail])
  else if b == 0xF4 then some (4, [⟨0x80, 0x8F⟩, tail, tail])
  else if 0xF1 ≤ b && b ≤ 0xF3 then some (b.toNat - 0xF0, [tail, tail, tail])
  else none

/-- What a character's later bytes come to. -/
structure Continuation where
  /-- The bytes that were fit to follow. -/
  taken : Bytes
  /-- The code point, if every range found its byte. -/
  code? : Option Nat
  rest : Bytes

/-- Reads on through the ranges, as far as the bytes fit. -/
def continuation (payload : Nat) : List Range → Bytes → Continuation
  | [], rest => ⟨[], some payload, rest⟩
  | _ :: _, [] => ⟨[], none, []⟩
  | range :: ranges, b :: rest =>
    if range.first ≤ b && b ≤ range.last then
      let next := continuation (payload * 64 + (b.toNat - 0x80)) ranges rest
      { next with taken := b :: next.taken }
    else ⟨[], none, b :: rest⟩

theorem continuation_append (payload : Nat) (ranges : List Range) (bytes : Bytes) :
    (continuation payload ranges bytes).taken ++ (continuation payload ranges bytes).rest =
      bytes := by
  fun_induction continuation payload ranges bytes with
  | case1 | case2 | case4 => rfl
  | case3 _ _ _ _ _ _ _ ih => simpa using ih

theorem continuation_rest_length (payload : Nat) (ranges : List Range) (bytes : Bytes) :
    (continuation payload ranges bytes).rest.length ≤ bytes.length := by
  have := congrArg List.length (continuation_append payload ranges bytes)
  simp only [List.length_append] at this
  omega

end Utf8

/-- The symbols that bytes are read as, after those of `done`, which come latest first. -/
def symbolsOnto (done : List Symbol) : Bytes → List Symbol
  | [] => done.reverse
  | b :: bytes =>
    match Utf8.lead? b with
    | none => symbolsOnto (.stray [b] :: done) bytes
    | some (payload, ranges) =>
      let next := Utf8.continuation payload ranges bytes
      match next.code? with
      | some code => symbolsOnto (.char (Char.ofNat code) :: done) next.rest
      | none => symbolsOnto (.stray (b :: next.taken) :: done) next.rest
termination_by bytes => bytes.length
decreasing_by
  · simp
  · have := Utf8.continuation_rest_length payload ranges bytes
    simp only [List.length_cons]; omega
  · have := Utf8.continuation_rest_length payload ranges bytes
    simp only [List.length_cons]; omega

/-- The symbols that bytes are read as. -/
def symbols (bytes : Bytes) : List Symbol :=
  symbolsOnto [] bytes

/-- The text that the bytes are, if no byte of them is astray. -/
def decode? (bytes : Bytes) : Option String :=
  let chars := (symbols bytes).mapM fun
    | .char c => some c
    | .stray _ => none
  chars.map String.ofList

/-- The bytes as a text, with the replacement character U+FFFD for each stray run. -/
def decodeLossy (bytes : Bytes) : String :=
  String.ofList <| (symbols bytes).map fun
    | .char c => c
    | .stray _ => Char.ofNat 0xFFFD

/-- The number of bytes that a symbol takes. -/
def Symbol.size : Symbol → Nat
  | .char c => c.utf8Size
  | .stray run => run.length

example : decode? [0x61, 0xC3, 0xA9, 0xF0, 0x9F, 0x98, 0x80] = some "aé😀" := by cbv

example : symbols [0xE2, 0x82, 0x41, 0xFF] = [.stray [0xE2, 0x82], .char 'A', .stray [0xFF]] := by
  cbv

end Text

end RepairLedger
