import Mathlib.Tactic.ByContra
import Mathlib.Tactic.SplitIfs
import RepairLedger.Json.Token
import RepairLedger.Proofs.Json.Grammar

/-!
# Tokens of a text

What spells a string, a number or a word is read as one token, which holds what was spelled, and the
text behind it is left (`token_string`, `token_integer`, `token_word`).  A number has to be followed
by something that does not go on with it (`EndsNumber`).
-/

namespace RepairLedger.Json

open Text Numeral

/-! ### Strings -/

theorem SpellsDigit.hexDigit?_eq {n : Nat} {c : Char} (h : SpellsDigit n c) :
    hexDigit? (.char c) = some n := by
  have hall : ∀ n < 16, hexDigit? (.char n.digitChar) = some n ∧
      hexDigit? (.char n.digitChar.toUpper) = some n := by decide
  obtain ⟨hn, rfl | rfl⟩ := h
  · exact (hall n hn).1
  · exact (hall n hn).2

theorem unescape?_of_mem {letter c : Char} (h : (letter, c) ∈ shortEscapes) :
    unescape? letter = some c ∧ letter ≠ 'u' := by
  have hall : shortEscapes.all fun (letter, c) => unescape? letter = some c ∧ letter ≠ 'u' := by
    decide
  exact of_decide_eq_true (List.all_eq_true.1 hall (letter, c) h)

theorem scanString_quote (content : Content) (rest : List Symbol) :
    scanString content (.char '"' :: rest) = (content.finish, rest) := by
  rw [scanString.eq_def]
  exact if_pos rfl

theorem scanString_plain {c : Char} (hq : c ≠ '"') (hb : c ≠ '\\') (hc : ¬ c.toNat < 0x20)
    (content : Content) (rest : List Symbol) :
    scanString content (.char c :: rest) = scanString (content.push c) rest := by
  rw [scanString.eq_def]
  simp only [hq, hb, hc, if_false]

theorem scanString_unit {n : Nat} {u : List Char} (h : SpellsUnit n u) (content : Content)
    (rest : List Symbol) :
    scanString content (u.map .char ++ rest) = scanString (content.pushUnit n) rest := by
  obtain ⟨ha, hb, hc, hd⟩ := h
  rename_i p q r s a b c d
  have hunit : hexUnit? (.char a) (.char b) (.char c) (.char d) =
      some (((p * 16 + q) * 16 + r) * 16 + s) := by
    simp only [hexUnit?, ha.hexDigit?_eq, hb.hexDigit?_eq, hc.hexDigit?_eq, hd.hexDigit?_eq,
      Option.bind_eq_bind, Option.bind_some, Option.some.injEq]
    omega
  simp [scanString, hunit]

/-- A character is read from any of its spellings. -/
theorem scanString_char {c : Char} {u : List Char} (h : SpellsChar c u) (acc : List Char)
    (stray : Bool) (rest : List Symbol) :
    scanString (.reading acc stray) (u.map .char ++ rest) =
      scanString (.reading (c :: acc) stray) rest := by
  -- The code of a character is no surrogate.
  have hvalid : c.toNat < 0xD800 ∨ 0xDFFF < c.toNat ∧ c.toNat < 0x110000 := c.valid
  cases h with
  | plain hq hb hc => exact scanString_plain hq hb hc _ rest
  | letter h =>
    obtain ⟨hu, hn⟩ := unescape?_of_mem h
    simp [scanString, hu, hn, Content.push]
  | unit hu =>
    have hpush : (Content.reading acc stray).pushUnit c.toNat = .reading (c :: acc) stray := by
      rw [Content.pushUnit, if_neg (by omega), if_neg (by omega), Char.ofNat_toNat]
    rw [scanString_unit hu, hpush]
  | pair hc hu hv =>
    have hcode : (0xD800 + (c.toNat - 0x10000) / 1024 - 0xD800) * 1024 +
        (0xDC00 + (c.toNat - 0x10000) % 1024 - 0xDC00) + 0x10000 = c.toNat := by omega
    rw [List.map_append, List.append_assoc, scanString_unit hu, scanString_unit hv]
    rw [Content.pushUnit, if_pos (by omega), Content.pushUnit, if_pos (by omega), hcode,
      Char.ofNat_toNat]

theorem scanString_chars {cs : List Char} {parts : List (List Char)}
    (h : List.Forall₂ SpellsChar cs parts) (acc : List Char) (stray : Bool) (rest : List Symbol) :
    scanString (.reading acc stray) (parts.flatten.map .char ++ rest) =
      scanString (.reading (cs.reverse ++ acc) stray) rest := by
  induction h generalizing acc with
  | nil => rfl
  | cons hc _ ih =>
    rw [List.flatten_cons, List.map_append, List.append_assoc, scanString_char hc, ih]
    simp

/-- The string of a text, without a flaw. -/
def Quoted.ofText (s : String) : Quoted := ⟨.ok s, none⟩

theorem token_string {s : String} {cs : List Char} (h : SpellsString s cs) (rest : List Symbol) :
    ∃ tail, cs = '"' :: tail ∧
      token '"' (tail.map .char ++ rest) = (.string (.ofText s), rest) := by
  obtain ⟨parts, hparts, rfl⟩ := h
  refine ⟨parts.flatten ++ ['"'], rfl, ?_⟩
  have hscan : scanString (.reading [] false) ((parts.flatten ++ ['"']).map .char ++ rest) =
      (.ofText s, rest) := by
    rw [List.map_append, List.append_assoc, scanString_chars hparts]
    refine (scanString_quote _ rest).trans ?_
    simp [Content.finish, Quoted.ofText]
  simp only [token, punctuation?, word?, Char.reduceEq, if_false, if_true, hscan]

/-! ### Words -/

theorem scanWord_self (letters : List Char) (rest : List Symbol) :
    scanWord letters (letters.map .char ++ rest) = .ok rest := by
  induction letters with
  | nil => cases rest <;> rfl
  | cons c cs ih =>
    rw [List.map_cons, List.cons_append, scanWord, if_pos rfl]
    exact ih

theorem token_word {c : Char} {t : Token} {letters : List Char} (hw : word? c = some (t, letters))
    (hp : punctuation? c = none) (rest : List Symbol) :
    token c (letters.map .char ++ rest) = (t, rest) := by
  simp [token, hw, hp, wordToken, scanWord_self]

/-! ### Numbers -/

/-- The text does not go on with a number that stands before it. -/
def EndsNumber (rest : List Symbol) : Prop :=
  ∀ s tail, rest = s :: tail →
    digit? s = none ∧ s ≠ .char '.' ∧ s ≠ .char 'e' ∧ s ≠ .char 'E'

/-- The text does not go on with digits that stand before it. -/
def EndsDigits (rest : List Symbol) : Prop :=
  ∀ s tail, rest = s :: tail → digit? s = none

theorem EndsNumber.endsDigits {rest : List Symbol} (h : EndsNumber rest) : EndsDigits rest :=
  fun s tail heq => (h s tail heq).1

theorem endsDigits_cons {c : Char} (h : digit? (.char c) = none) (rest : List Symbol) :
    EndsDigits (.char c :: rest) := by
  rintro s tail ⟨⟩
  exact h

theorem endsNumber_nil : EndsNumber [] := by
  rintro s tail ⟨⟩

theorem endsNumber_cons {c : Char} (h : digit? (.char c) = none ∧ c ≠ '.' ∧ c ≠ 'e' ∧ c ≠ 'E')
    (rest : List Symbol) : EndsNumber (.char c :: rest) := by
  rintro s tail ⟨⟩
  obtain ⟨hd, hp, he, hE⟩ := h
  exact ⟨hd, by simpa using hp, by simpa using he, by simpa using hE⟩

theorem digit?_of_isDigit {c : Char} (h : c.isDigit = true) :
    digit? (.char c) = some (digitValue c) := by
  simp [digit?, h]

theorem scanDigits_of_endsDigits {rest : List Symbol} (h : EndsDigits rest) :
    scanDigits rest = ([], rest) := by
  cases rest with
  | nil => rfl
  | cons s tail => simp [scanDigits, h s tail rfl]

theorem scanDigits_append {cs : List Char} (hc : cs.all Char.isDigit = true) {rest : List Symbol}
    (hr : EndsDigits rest) :
    scanDigits (cs.map .char ++ rest) = (cs.map digitValue, rest) := by
  induction cs with
  | nil => exact scanDigits_of_endsDigits hr
  | cons c cs ih =>
    rw [List.all_cons, Bool.and_eq_true] at hc
    simp [scanDigits, digit?_of_isDigit hc.1, ih hc.2]

theorem scanSomeDigits_append {cs : List Char} (hc : cs.all Char.isDigit = true) (hne : cs ≠ [])
    {rest : List Symbol} (hr : EndsDigits rest) :
    scanSomeDigits (cs.map .char ++ rest) = .ok (cs.map digitValue, rest) := by
  rw [scanSomeDigits, scanDigits_append hc hr]
  cases cs with
  | nil => exact absurd rfl hne
  | cons c cs => rfl

/-- The digits before a point: a zero stands alone. -/
structure IsWhole (cs : List Char) : Prop where
  isDigit : cs.all Char.isDigit = true
  ne_nil : cs ≠ []
  leading : ∀ c c' tail, cs = c :: c' :: tail → digitValue c ≠ 0

theorem scanWhole_append {cs : List Char} (h : IsWhole cs) {rest : List Symbol}
    (hr : EndsDigits rest) :
    scanWhole (cs.map .char ++ rest) = .ok (cs.map digitValue, rest) := by
  rw [scanWhole, scanSomeDigits_append h.isDigit h.ne_nil hr]
  simp only [bind, Except.bind]
  split
  · rename_i heq
    obtain ⟨c, tail, rfl, hc, htail⟩ := List.map_eq_cons_iff.1 heq
    obtain ⟨c', tail', rfl, -, -⟩ := List.map_eq_cons_iff.1 htail
    exact absurd hc (h.leading c c' tail' rfl)
  · rfl

/-- A number greater than zero does not begin with a zero. -/
theorem digits_eq_cons {n : Nat} (h : 0 < n) :
    ∃ c cs, digits n = c :: cs ∧ digitValue c ≠ 0 := by
  fun_induction digits n with
  | case1 n hn => exact ⟨_, _, rfl, by rw [digitValue_digitChar hn]; omega⟩
  | case2 n hn ih =>
    obtain ⟨c, cs, hc, hv⟩ := ih (by omega)
    exact ⟨c, cs ++ [digitChar (n % 10)], by rw [hc, List.cons_append], hv⟩

theorem isWhole_digits (n : Nat) : IsWhole (digits n) := by
  refine ⟨all_isDigit_digits n, digits_ne_nil n, fun c c' tail hcs => ?_⟩
  -- Zero itself is one digit.
  rcases Nat.eq_zero_or_pos n with rfl | hn
  · rw [digits, if_pos (by decide)] at hcs
    cases hcs
  · obtain ⟨c₀, cs, hc, hv⟩ := digits_eq_cons hn
    rw [hc] at hcs
    cases hcs
    exact hv

theorem scanFraction_of_endsNumber {rest : List Symbol} (h : EndsNumber rest) :
    scanFraction rest = .ok (none, rest) := by
  unfold scanFraction
  split
  · exact absurd rfl (h _ _ rfl).2.1
  · rfl

theorem scanExponent_of_endsNumber {rest : List Symbol} (h : EndsNumber rest) :
    scanExponent rest = .ok (none, rest) := by
  unfold scanExponent
  split
  · obtain ⟨-, -, he, hE⟩ := h _ _ rfl
    rw [if_neg]
    rintro (rfl | rfl)
    · exact he rfl
    · exact hE rfl
  · rfl

theorem scan_digits (negative : Bool) (n : Nat) {rest : List Symbol} (hr : EndsNumber rest) :
    Literal.scan negative ((digits n).map .char ++ rest) =
      .ok (⟨negative, (digits n).map digitValue, none, none⟩, rest) := by
  rw [Literal.scan, scanWhole_append (isWhole_digits n) hr.endsDigits]
  simp only [bind, Except.bind, scanFraction_of_endsNumber hr, scanExponent_of_endsNumber hr]

theorem le_foldl_digits (n : Nat) (ds : List Nat) :
    n ≤ ds.foldl (fun n d => n * 10 + d) n := by
  induction ds generalizing n with
  | nil => exact Nat.le_refl n
  | cons d ds ih =>
    have := ih (n * 10 + d)
    rw [List.foldl_cons]
    omega

/-- All digits are gathered if the number stays below `2^64`. -/
theorem gather_eq {n : Nat} {ds : List Nat}
    (h : ds.foldl (fun n d => n * 10 + d) n < 18446744073709551616) :
    gather n ds = (ds.foldl (fun n d => n * 10 + d) n, []) := by
  induction ds generalizing n with
  | nil => rfl
  | cons d ds ih =>
    rw [List.foldl_cons] at h
    have := le_foldl_digits (n * 10 + d) ds
    rw [gather, if_pos (by omega), ih h, List.foldl_cons]

theorem gather_digits {n : Nat} (h : n < 18446744073709551616) :
    gather 0 ((digits n).map digitValue) = (n, []) := by
  have hv : ((digits n).map digitValue).foldl (fun n d => n * 10 + d) 0 = n := by
    rw [List.foldl_map]
    exact value_digits n
  rw [gather_eq (by rw [hv]; exact h), hv]

/-- The literal of an integer stands for it. -/
theorem number_digits (i : Integer) :
    Literal.number ⟨decide (i.value < 0), (digits i.value.natAbs).map digitValue, none, none⟩ =
      .ok (.integer i) := by
  obtain ⟨i, hi⟩ := i
  have hg := gather_digits (n := i.natAbs) (by omega)
  have hv : (if decide (i < 0) = true then -(i.natAbs : Int) else i.natAbs) = i := by
    by_cases hn : i < 0
    · rw [decide_eq_true hn, if_pos rfl]
      omega
    · rw [decide_eq_false hn, if_neg Bool.false_ne_true]
      omega
  -- A negative literal is not `-0`, which would be a floating point number.
  have hz : ¬ (decide (i < 0) && decide (i.natAbs = 0)) = true := by
    rw [Bool.and_eq_true, decide_eq_true_eq, decide_eq_true_eq]
    omega
  simp only [Literal.number, hg, hv]
  rw [dif_pos hi, if_neg hz]

theorem numberToken_integer (i : Integer) {rest : List Symbol} (hr : EndsNumber rest) :
    numberToken (decide (i.value < 0)) ((digits i.value.natAbs).map .char ++ rest) =
      (.number (.ok (.integer i)), rest) := by
  rw [numberToken, scan_digits _ _ hr]
  simp only [number_digits]

/-- A digit begins no other token. -/
theorem token_of_isDigit {c : Char} (h : c.isDigit = true) (rest : List Symbol) :
    token c rest = numberToken false (.char c :: rest) := by
  have hne : ∀ d : Char, d.isDigit = false → c ≠ d := by
    rintro d hd rfl
    rw [h] at hd
    cases hd
  have hp : punctuation? c = none := by
    simp [punctuation?, hne '[' (by decide), hne ']' (by decide), hne '\x7b' (by decide),
      hne '\x7d' (by decide), hne ':' (by decide), hne ',' (by decide)]
  have hw : word? c = none := by
    simp [word?, hne 'n' (by decide), hne 't' (by decide), hne 'f' (by decide)]
  simp [token, hp, hw, hne '"' (by decide), hne '-' (by decide), h]

theorem isSpace_of_isDigit {c : Char} (h : c.isDigit = true) : isSpace c = false ∧ c ≠ ']' := by
  constructor
  · by_contra hs
    have : c = ' ' ∨ c = '\n' ∨ c = '\t' ∨ c = '\r' := by
      simpa only [isSpace, Bool.not_eq_false, Bool.or_eq_true, decide_eq_true_eq, or_assoc] using hs
    rcases this with rfl | rfl | rfl | rfl <;> revert h <;> decide
  · rintro rfl
    revert h
    decide

/-- An integer is read as it was written. -/
theorem token_integer (i : Integer) {rest : List Symbol} (hr : EndsNumber rest) :
    ∃ c cs, signed i.value = c :: cs ∧ isSpace c = false ∧ c ≠ ']' ∧
      token c (cs.map .char ++ rest) = (.number (.ok (.integer i)), rest) := by
  have ht := numberToken_integer i hr
  by_cases hn : i.value < 0
  · refine ⟨'-', digits i.value.natAbs, if_pos hn, by decide, by decide, ?_⟩
    rw [decide_eq_true hn] at ht
    simpa [token, punctuation?, word?] using ht
  · rw [decide_eq_false hn] at ht
    cases hd : digits i.value.natAbs with
    | nil => exact absurd hd (digits_ne_nil _)
    | cons c cs =>
      have hc : c.isDigit = true := by
        have := all_isDigit_digits i.value.natAbs
        rw [hd, List.all_cons, Bool.and_eq_true] at this
        exact this.1
      obtain ⟨hs, hb⟩ := isSpace_of_isDigit hc
      refine ⟨c, cs, (if_neg hn).trans hd, hs, hb, ?_⟩
      rw [token_of_isDigit hc, ← ht, hd]
      rfl

end RepairLedger.Json
