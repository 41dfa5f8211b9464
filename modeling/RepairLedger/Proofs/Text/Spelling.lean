import Mathlib.Data.List.DropRight
import Mathlib.Data.List.TakeWhile
import RepairLedger.Proofs.Text.Written

/-!
# What trimming leaves, and what is a numeral

Readers of short texts, each beside a description of what it reads that names no order of steps.
Trimming leaves the one part of a text that has nothing but blanks around it and no blank at its
ends (`Text.trim_eq_iff`), or the one part with nothing but one letter behind it that does not end
with this letter (`Text.trimRightOf_eq_iff`).  The texts that are read as a number are its numerals,
as long as the number has 64 bits (`Numeral.read?_eq_some_iff`): digits, as many zeros in front as
one likes, and a plus sign before them or not.
-/

namespace RepairLedger

/-! ### Blanks around a text -/

namespace Text

/-- Without the blanks at its ends, the text is this core. -/
structure Strips (text core : List Char) : Prop where
  around : ∃ before after, text = before ++ core ++ after ∧
    (∀ c ∈ before, isBlank c = true) ∧ ∀ c ∈ after, isBlank c = true
  first : ∀ c ∈ core.head?, isBlank c = false
  last : ∀ c ∈ core.getLast?, isBlank c = false

variable {text core : List Char}

theorem trimLeft_append {before : List Char} (h : ∀ c ∈ before, isBlank c = true)
    (rest : List Char) : trimLeft (before ++ rest) = trimLeft rest :=
  List.dropWhile_append_of_pos h

theorem trimLeft_eq_nil (h : ∀ c ∈ text, isBlank c = true) : trimLeft text = [] := by
  have := trimLeft_append h []
  rwa [List.append_nil] at this

theorem trimLeft_of_head? {rest : List Char} (h : ∀ c ∈ text.head?, isBlank c = false)
    (hne : text ≠ []) : trimLeft (text ++ rest) = text ++ rest := by
  obtain ⟨c, cs, rfl⟩ := List.exists_cons_of_ne_nil hne
  exact trimLeft_cons (h c rfl) (cs ++ rest)

/-- Before what is left, there are the blanks that were taken away. -/
theorem exists_trimLeft (text : List Char) :
    ∃ before, text = before ++ trimLeft text ∧ (∀ c ∈ before, isBlank c = true) ∧
      ∀ c ∈ (trimLeft text).head?, isBlank c = false := by
  refine ⟨text.takeWhile isBlank, List.takeWhile_append_dropWhile.symm,
    fun c hc => List.mem_takeWhile_imp hc, fun c hc => ?_⟩
  have hnot := List.head?_dropWhile_not isBlank text
  rw [show text.dropWhile isBlank = trimLeft text from rfl, Option.mem_def.1 hc] at hnot
  simpa using hnot

theorem strips_trim (text : List Char) : Strips text (trim text) := by
  obtain ⟨before, htext, hbefore, hfirst⟩ := exists_trimLeft text
  obtain ⟨after, hleft, hafter, hlast⟩ := exists_trimLeft (trimLeft text).reverse
  -- Seen from its end, what is left of the text begins with the blanks behind the core.
  have hsplit : trimLeft text = trim text ++ after.reverse := by
    have := congrArg List.reverse hleft
    rwa [List.reverse_reverse, List.reverse_append] at this
  refine ⟨⟨before, after.reverse, ?_, hbefore, fun c hc => hafter c (List.mem_reverse.1 hc)⟩,
    fun c hc => hfirst c ?_, fun c hc => hlast c ?_⟩
  · rw [List.append_assoc, ← hsplit]
    exact htext
  · rw [hsplit, List.head?_append, Option.mem_def.1 hc]
    rfl
  · rwa [trim, List.getLast?_reverse] at hc

theorem Strips.trim_eq (h : Strips text core) : trim text = core := by
  obtain ⟨⟨before, after, rfl, hbefore, hafter⟩, hfirst, hlast⟩ := h
  rw [trim, List.append_assoc, trimLeft_append hbefore]
  by_cases hne : core = []
  · subst hne
    rw [List.nil_append, trimLeft_eq_nil hafter]
    rfl
  · have hafter' : ∀ c ∈ after.reverse, isBlank c = true := fun c hc =>
      hafter c (List.mem_reverse.1 hc)
    have hlast' : ∀ c ∈ core.reverse.head?, isBlank c = false := by
      rwa [List.head?_reverse]
    have hback : trimLeft (core.reverse ++ []) = core.reverse ++ [] :=
      trimLeft_of_head? hlast' (by simpa using hne)
    rw [List.append_nil] at hback
    rw [trimLeft_of_head? hfirst hne, List.reverse_append, trimLeft_append hafter', hback,
      List.reverse_reverse]

/-- **What trimming leaves** is the one core of a text with nothing but blanks around it. -/
theorem trim_eq_iff : trim text = core ↔ Strips text core :=
  ⟨fun h => h ▸ strips_trim text, Strips.trim_eq⟩

/-- More blanks around a text make no difference. -/
theorem Strips.append {before after : List Char} (h : Strips text core)
    (hbefore : ∀ c ∈ before, isBlank c = true) (hafter : ∀ c ∈ after, isBlank c = true) :
    Strips (before ++ text ++ after) core := by
  obtain ⟨⟨before', after', rfl, hbefore', hafter'⟩, hfirst, hlast⟩ := h
  refine ⟨⟨before ++ before', after' ++ after, by simp, fun c hc => ?_, fun c hc => ?_⟩, hfirst,
    hlast⟩
  · exact (List.mem_append.1 hc).elim (hbefore c) (hbefore' c)
  · exact (List.mem_append.1 hc).elim (hafter' c) (hafter c)

/-! ### A letter at the end of a text -/

/-- Without the letters `c` at its end, the text is this core. -/
structure Sheds (c : Char) (text core : List Char) : Prop where
  behind : ∃ n, text = core ++ List.replicate n c
  last : c ∉ core.getLast?

variable {c : Char}

/-- How many letters stand at the end makes no difference. -/
theorem trimRightOf_append_replicate (c : Char) (text : List Char) (n : Nat) :
    trimRightOf c (text ++ List.replicate n c) = trimRightOf c text := by
  rw [trimRightOf, List.reverse_append, List.reverse_replicate,
    List.dropWhile_append_of_pos (by simp), trimRightOf]

theorem sheds_trimRightOf (c : Char) (text : List Char) : Sheds c text (trimRightOf c text) := by
  have hsplit : trimRightOf c text ++ text.rtakeWhile (· == c) = text :=
    List.rdropWhile_append_rtakeWhile
  have hbehind : ∀ d ∈ text.rtakeWhile (· == c), d = c := fun d hd =>
    beq_iff_eq.1 (List.mem_rtakeWhile_imp (p := (· == c)) hd)
  refine ⟨⟨(text.rtakeWhile (· == c)).length, ?_⟩, fun hlast => ?_⟩
  · rw [← List.eq_replicate_of_mem hbehind, hsplit]
  · obtain ⟨hne, hc⟩ := List.mem_getLast?_eq_getLast hlast
    exact List.rdropWhile_last_not (· == c) text hne (beq_iff_eq.2 hc.symm)

theorem Sheds.trimRightOf_eq (h : Sheds c text core) : trimRightOf c text = core := by
  obtain ⟨⟨n, rfl⟩, hlast⟩ := h
  rw [trimRightOf_append_replicate]
  refine List.rdropWhile_eq_self_iff.2 fun hne hc => hlast ?_
  rw [← beq_iff_eq.1 hc]
  exact List.getLast?_eq_some_getLast hne

/-- **What trimming one letter leaves** is the one core of a text with nothing but this letter
behind it. -/
theorem trimRightOf_eq_iff : trimRightOf c text = core ↔ Sheds c text core :=
  ⟨fun h => h ▸ sheds_trimRightOf c text, Sheds.trimRightOf_eq⟩

end Text

/-! ### Numerals -/

namespace Numeral

/-- The text is a numeral of the number: digits, of which there is at least one, behind a plus sign
or not. -/
def Spells (text : List Char) (n : Nat) : Prop :=
  ∃ ds, (text = ds ∨ text = '+' :: ds) ∧ ds ≠ [] ∧ (∀ d ∈ ds, d.isDigit = true) ∧ value ds = n

variable {text : List Char} {m n : Nat}

/-- A plus sign is no digit, so it is clear which digits are meant. -/
theorem Spells.unique (hm : Spells text m) (hn : Spells text n) : m = n := by
  have hplus : ('+').isDigit = false := by decide
  obtain ⟨ds, htext, -, hds, rfl⟩ := hm
  obtain ⟨es, htext', -, hes, rfl⟩ := hn
  obtain rfl | rfl := htext <;> obtain h | h := htext'
  · rw [h]
  · have := hds '+' (h ▸ List.mem_cons_self)
    rw [hplus] at this
    cases this
  · have := hes '+' (h ▸ List.mem_cons_self)
    rw [hplus] at this
    cases this
  · rw [List.tail_eq_of_cons_eq h]

/-- What is read is a numeral of the number. -/
theorem spells_of_read? {n : UInt64} (h : read? text = some n) : Spells text n.toNat := by
  have hread {ds : List Char} (h : (if ds ≠ [] ∧ ds.all Char.isDigit ∧ value ds < UInt64.size then
      some (UInt64.ofNat (value ds)) else none) = some n) :
      ds ≠ [] ∧ (∀ d ∈ ds, d.isDigit = true) ∧ value ds = n.toNat := by
    split at h
    · rename_i hds
      obtain ⟨hne, hall, hlt⟩ := hds
      obtain rfl := Option.some.inj h
      exact ⟨hne, List.all_eq_true.1 hall, (UInt64.toNat_ofNat_of_lt hlt).symm⟩
    · cases h
  unfold read? at h
  dsimp only at h
  split at h
  · rename_i ds
    exact ⟨ds, .inr rfl, hread h⟩
  · exact ⟨text, .inl rfl, hread h⟩

theorem read?_plus {ds : List Char} (hne : ds ≠ []) (hall : ds.all Char.isDigit = true)
    (hv : value ds < UInt64.size) : read? ('+' :: ds) = some (.ofNat (value ds)) :=
  if_pos ⟨hne, hall, hv⟩

/-- **A text is read as a number of 64 bits exactly if it is a numeral of it.** -/
theorem read?_eq_some_iff {n : UInt64} : read? text = some n ↔ Spells text n.toNat := by
  refine ⟨spells_of_read?, ?_⟩
  rintro ⟨ds, htext, hne, hds, hvalue⟩
  have hall : ds.all Char.isDigit = true := List.all_eq_true.2 hds
  have hlt : value ds < UInt64.size := hvalue ▸ n.toNat_lt
  have hn : UInt64.ofNat (value ds) = n := by rw [hvalue, UInt64.ofNat_toNat]
  obtain rfl | rfl := htext
  · rw [read?_of_isDigit hne hall hlt, hn]
  · rw [read?_plus hne hall hlt, hn]

end Numeral

end RepairLedger
