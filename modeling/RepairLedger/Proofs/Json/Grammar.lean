import Mathlib.Data.List.Forall2
import Mathlib.Tactic.SplitIfs
import RepairLedger.Json.Text

/-!
# What a JSON text spells

The grammar of JSON, without a way to read it: which characters spell a value (`Spells`), and which
texts (`Value.IsSpelledBy`).  Between two tokens there may be any white space.  A character of a
string stands for itself or is escaped, by a letter or by its code.  There is one spelling of an
integer; of a floating point number, only the one that the writer uses is taken up.

What the writer writes is one of these spellings (`spells_chars`), in any layout.
-/

namespace RepairLedger.Json

/-! ### The grammar -/

/-- White space. -/
def Blanks (cs : List Char) : Prop :=
  ∀ c ∈ cs, c ∈ [' ', '\n', '\t', '\r']

instance (cs : List Char) : Decidable (Blanks cs) :=
  List.decidableBAll _ cs

/-- The letters that stand behind a backslash, with the characters that they stand for. -/
def shortEscapes : List (Char × Char) :=
  [('"', '"'), ('\\', '\\'), ('/', '/'), ('b', '\x08'), ('f', '\x0c'), ('n', '\n'), ('r', '\r'),
    ('t', '\t')]

/-- The character is the hexadecimal digit of a number, in either case. -/
def SpellsDigit (n : Nat) (c : Char) : Prop :=
  n < 16 ∧ (c = n.digitChar ∨ c = n.digitChar.toUpper)

instance (n : Nat) (c : Char) : Decidable (SpellsDigit n c) :=
  inferInstanceAs (Decidable (_ ∧ _))

/-- Four hexadecimal digits spell a code unit. -/
inductive SpellsUnit : Nat → List Char → Prop
  | digits {p q r s : Nat} {a b c d : Char} (ha : SpellsDigit p a) (hb : SpellsDigit q b)
      (hc : SpellsDigit r c) (hd : SpellsDigit s d) :
    SpellsUnit (((p * 16 + q) * 16 + r) * 16 + s) ['\\', 'u', a, b, c, d]

/-- A character as it may stand in a string. -/
inductive SpellsChar : Char → List Char → Prop
  | plain {c : Char} (hq : c ≠ '"') (hb : c ≠ '\\') (hc : ¬ c.toNat < 0x20) : SpellsChar c [c]
  | letter {letter c : Char} (h : (letter, c) ∈ shortEscapes) : SpellsChar c ['\\', letter]
  | unit {c : Char} {u : List Char} (hu : SpellsUnit c.toNat u) : SpellsChar c u
  /-- A character beyond the first 65536 has a pair of units. -/
  | pair {c : Char} {u v : List Char} (hc : 0x10000 ≤ c.toNat)
      (hu : SpellsUnit (0xD800 + (c.toNat - 0x10000) / 1024) u)
      (hv : SpellsUnit (0xDC00 + (c.toNat - 0x10000) % 1024) v) : SpellsChar c (u ++ v)

/-- The spellings of the characters, one after the other, between quotation marks. -/
def SpellsString (s : String) (cs : List Char) : Prop :=
  ∃ parts, List.Forall₂ SpellsChar s.toList parts ∧ cs = '"' :: parts.flatten ++ ['"']

mutual

inductive Spells : Value → List Char → Prop
  | null : Spells .null ['n', 'u', 'l', 'l']
  | yes : Spells (.bool true) ['t', 'r', 'u', 'e']
  | no : Spells (.bool false) ['f', 'a', 'l', 's', 'e']
  | number (n : Number) : Spells (.number n) n.chars
  | string {s : String} {cs : List Char} (hs : SpellsString s cs) : Spells (.string s) cs
  | emptyArray {b : List Char} (hb : Blanks b) : Spells (.array []) ('[' :: b ++ [']'])
  | array {v : Value} {vs : List Value} {b cs rest : List Char} (hb : Blanks b) (hv : Spells v cs)
      (hvs : SpellsItems vs rest) : Spells (.array (v :: vs)) ('[' :: b ++ cs ++ rest)
  | emptyObject {b : List Char} (hb : Blanks b) : Spells (.object []) ('\x7b' :: b ++ ['\x7d'])
  | object {name : String} {v : Value} {members : Members} {b cs rest : List Char} (hb : Blanks b)
      (hm : SpellsMember name v cs) (hms : SpellsMembers members rest) :
    Spells (.object ((name, v) :: members)) ('\x7b' :: b ++ cs ++ rest)

/-- What stands behind an item, with the closing bracket. -/
inductive SpellsItems : List Value → List Char → Prop
  | close {b : List Char} (hb : Blanks b) : SpellsItems [] (b ++ [']'])
  | more {v : Value} {vs : List Value} {a b cs rest : List Char} (ha : Blanks a) (hb : Blanks b)
      (hv : Spells v cs) (hvs : SpellsItems vs rest) :
    SpellsItems (v :: vs) (a ++ ',' :: b ++ cs ++ rest)

inductive SpellsMember : String → Value → List Char → Prop
  | member {name : String} {v : Value} {key a b cs : List Char} (hk : SpellsString name key)
      (ha : Blanks a) (hb : Blanks b) (hv : Spells v cs) :
    SpellsMember name v (key ++ a ++ ':' :: b ++ cs)

/-- What stands behind a member, with the closing bracket. -/
inductive SpellsMembers : Members → List Char → Prop
  | close {b : List Char} (hb : Blanks b) : SpellsMembers [] (b ++ ['\x7d'])
  | more {name : String} {v : Value} {members : Members} {a b cs rest : List Char} (ha : Blanks a)
      (hb : Blanks b) (hm : SpellsMember name v cs) (hms : SpellsMembers members rest) :
    SpellsMembers ((name, v) :: members) (a ++ ',' :: b ++ cs ++ rest)

end

/-- The text spells the value, with white space around it or not. -/
def Value.IsSpelledBy (v : Value) (text : String) : Prop :=
  ∃ before cs after, Blanks before ∧ Spells v cs ∧ Blanks after ∧
    text.toList = before ++ cs ++ after

/-! ### The writer -/

theorem blanks_nil : Blanks [] :=
  List.forall_mem_nil _

theorem blanks_lineStart (layout : Layout) (level : Nat) : Blanks (layout.lineStart level) := by
  cases layout with
  | compact => exact blanks_nil
  | indented width =>
    refine List.forall_mem_cons.2 ⟨by decide, fun c hc => ?_⟩
    obtain rfl := List.eq_of_mem_replicate hc
    decide

theorem exists_colon (layout : Layout) : ∃ b, Blanks b ∧ layout.colon = ':' :: b := by
  cases layout with
  | compact => exact ⟨[], blanks_nil, rfl⟩
  | indented width => exact ⟨[' '], by decide, rfl⟩

theorem spellsDigit_digitChar {n : Nat} (h : n < 16) : SpellsDigit n n.digitChar :=
  ⟨h, .inl rfl⟩

theorem mem_shortEscapes_of_escapeLetter? {c letter : Char} (h : escapeLetter? c = some letter) :
    (letter, c) ∈ shortEscapes := by
  unfold escapeLetter? at h
  split_ifs at h <;> cases h <;> subst_vars <;> decide

theorem spellsChar_escapeChar (c : Char) : SpellsChar c (escapeChar c) := by
  unfold escapeChar
  split
  · rename_i hq
    exact .letter (by rw [hq]; decide)
  rename_i hq
  split
  · rename_i hb
    exact .letter (by rw [hb]; decide)
  rename_i hb
  split
  · exact .letter (mem_shortEscapes_of_escapeLetter? ‹_›)
  split
  · -- The unit of a control character has two zeros in front.
    have hunit := SpellsUnit.digits (spellsDigit_digitChar (n := 0) (by decide))
      (spellsDigit_digitChar (n := 0) (by decide))
      (spellsDigit_digitChar (n := c.toNat / 16) (by omega))
      (spellsDigit_digitChar (n := c.toNat % 16) (by omega))
    have hcode : ((0 * 16 + 0) * 16 + c.toNat / 16) * 16 + c.toNat % 16 = c.toNat := by omega
    rw [hcode] at hunit
    exact .unit hunit
  · exact .plain hq hb ‹_›

theorem spellsString_stringChars (s : String) : SpellsString s (stringChars s) := by
  refine ⟨s.toList.map escapeChar, ?_, by rw [stringChars, List.flatMap_def]⟩
  rw [List.forall₂_map_right_iff, List.forall₂_same]
  exact fun c _ => spellsChar_escapeChar c

/-- A member is written with a colon and perhaps a blank between the name and the value. -/
theorem SpellsMember.written (layout : Layout) (name : String) {v : Value} {cs : List Char}
    (hv : Spells v cs) : SpellsMember name v (stringChars name ++ layout.colon ++ cs) := by
  obtain ⟨b, hb, hcolon⟩ := exists_colon layout
  have h := SpellsMember.member (spellsString_stringChars name) blanks_nil hb hv
  rwa [List.append_nil, List.append_assoc, List.cons_append, ← List.cons_append, ← hcolon,
    ← List.append_assoc] at h

mutual

/-- **What is written for a value spells it.** -/
theorem spells_chars (layout : Layout) (level : Nat) :
    ∀ v : Value, Spells v (v.chars layout level)
  | .null => .null
  | .bool true => .yes
  | .bool false => .no
  | .number n => .number n
  | .string s => .string (spellsString_stringChars s)
  | .array [] => .emptyArray blanks_nil
  | .array (v :: vs) => by
    have h := Spells.array (blanks_lineStart layout (level + 1))
      (spells_chars layout (level + 1) v) (spellsItems_chars layout level vs)
    simpa only [Value.chars, List.append_assoc] using h
  | .object [] => .emptyObject blanks_nil
  | .object ((name, v) :: members) => by
    have h := Spells.object (blanks_lineStart layout (level + 1))
      (.written layout name (spells_chars layout (level + 1) v))
      (spellsMembers_chars layout level members)
    simpa only [Value.chars, List.append_assoc] using h

theorem spellsItems_chars (layout : Layout) (level : Nat) : ∀ vs : List Value,
    SpellsItems vs (itemsChars layout (level + 1) vs ++ layout.lineStart level ++ [']'])
  | [] => .close (blanks_lineStart layout level)
  | v :: vs => by
    have h := SpellsItems.more blanks_nil (blanks_lineStart layout (level + 1))
      (spells_chars layout (level + 1) v) (spellsItems_chars layout level vs)
    simpa only [itemsChars, List.nil_append, List.append_assoc, List.cons_append] using h

theorem spellsMembers_chars (layout : Layout) (level : Nat) : ∀ members : List (String × Value),
    SpellsMembers members
      (membersChars layout (level + 1) members ++ layout.lineStart level ++ ['\x7d'])
  | [] => .close (blanks_lineStart layout level)
  | (name, v) :: members => by
    have h := SpellsMembers.more blanks_nil (blanks_lineStart layout (level + 1))
      (.written layout name (spells_chars layout (level + 1) v))
      (spellsMembers_chars layout level members)
    simpa only [membersChars, List.nil_append, List.append_assoc, List.cons_append] using h

end

theorem Value.isSpelledBy_text (layout : Layout) (v : Value) :
    v.IsSpelledBy (v.text layout ++ "\n") :=
  ⟨[], v.chars layout 0, ['\n'], blanks_nil, spells_chars layout 0 v, by decide,
    by simp [text]⟩

end RepairLedger.Json
