import RepairLedger.Proofs.Text.Written
import RepairLedger.Pull.Id

/-!
# Ids survive being written

A valid id is read from its own text (`PullId.parse_text`), and whatever text is read as an id, the
id is valid (`PullId.isValid_of_parse`).  So no two valid ids have one text
(`PullId.text_injective`), nor one repository and one number (`PullId.slug_injective`).
-/

namespace RepairLedger.PullId

variable {id a b : PullId}

theorem ofParts_eq_ok_iff {owner repo : String} {number : UInt64} :
    ofParts owner repo number = .ok id ↔ id = ⟨owner, repo, number⟩ ∧ id.IsValid := by
  rw [← flaw?_eq_none_iff]
  unfold ofParts
  dsimp only
  split
  · rename_i hf
    constructor
    · rintro ⟨⟩
      exact ⟨rfl, hf⟩
    · rintro ⟨rfl, -⟩
      rfl
  · rename_i flaw hf
    constructor
    · rintro ⟨⟩
    · rintro ⟨rfl, hn⟩
      rw [hf] at hn
      cases hn

theorem toList_text (id : PullId) :
    id.text.toList =
      (id.owner.toList ++ '/' :: id.repo.toList) ++ '#' :: Numeral.digits id.number.toNat := by
  rw [← Numeral.toList_textOf]
  simp [text, toString]

theorem all_isNameChar_of_isName {name : String} (h : isName name = true) :
    ∀ c ∈ name.toList, c ≠ '/' ∧ c ≠ '#' ∧ Text.isBlank c = false := by
  intro c hc
  rw [isName, Bool.and_eq_true, List.all_eq_true] at h
  simpa [isNameChar, and_assoc] using h.2 c hc

theorem not_mem_name {c : Char} (hc : isNameChar c = false) {name : String}
    (h : isName name = true) : c ∉ name.toList := by
  intro hm
  rw [isName, Bool.and_eq_true, List.all_eq_true] at h
  rw [h.2 c hm] at hc
  cases hc

theorem not_mem_digits {c : Char} (hc : c.isDigit = false) (n : Nat) : c ∉ Numeral.digits n := by
  intro h
  rw [List.all_eq_true.1 (Numeral.all_isDigit_digits n) c h] at hc
  cases hc

/-- The text of a valid id neither begins nor ends with a blank. -/
theorem trim_text (h : id.IsValid) : Text.trim id.text.toList = id.text.toList := by
  obtain ⟨ho, -, -⟩ := h
  have hall := all_isNameChar_of_isName ho
  rw [isName, Bool.and_eq_true, Bool.not_eq_true', List.isEmpty_eq_false_iff] at ho
  have hd := Numeral.digits_ne_nil id.number.toNat
  obtain ⟨c, cs, hc⟩ := List.exists_cons_of_ne_nil ho.1
  have hblank : Text.isBlank ((Numeral.digits id.number.toNat).getLast hd) = false :=
    Text.isBlank_of_isDigit
      (List.all_eq_true.1 (Numeral.all_isDigit_digits _) _ (List.getLast_mem hd))
  -- It begins with a character of the owner and ends with a digit.
  have hlast : id.text.toList = (c :: (cs ++ '/' :: id.repo.toList) ++ '#' ::
      (Numeral.digits id.number.toNat).dropLast) ++
      [(Numeral.digits id.number.toNat).getLast hd] := by
    simp [toList_text, hc, List.dropLast_concat_getLast hd]
  have hfirst : id.text.toList =
      c :: (cs ++ '/' :: id.repo.toList ++ '#' :: Numeral.digits id.number.toNat) := by
    rw [toList_text, hc, List.cons_append, List.cons_append]
  rw [hfirst] at hlast ⊢
  exact Text.trim_of_ends (hall c (by simp [hc])).2.2 hblank hlast

/-- **A valid id is read from its text.** -/
theorem parse_text (h : id.IsValid) : parse id.text = .ok id := by
  have hvalid := h
  obtain ⟨ho, hr, -⟩ := h
  have hhash : '#' ∉ Numeral.digits id.number.toNat := not_mem_digits (by decide) _
  rw [parse, trim_text hvalid, toList_text, Text.cutLast_append hhash]
  dsimp only
  rw [Text.cutFirst_append (not_mem_name (by decide) ho)]
  dsimp only
  rw [Numeral.read?_digits]
  dsimp only
  rw [String.ofList_toList, String.ofList_toList, ofParts_eq_ok_iff]
  exact ⟨rfl, hvalid⟩

theorem ofContent_text (h : id.IsValid) : ofContent id.text = .ok id := by
  rw [ofContent, parse_text h]

/-- Only valid ids are read. -/
theorem isValid_of_parse {raw : String} (h : parse raw = .ok id) : id.IsValid := by
  unfold parse at h
  split at h
  · cases h
  split at h
  · cases h
  split at h
  · cases h
  · exact (ofParts_eq_ok_iff.1 h).2

theorem isValid_of_ofContent {content : String} (h : ofContent content = .ok id) :
    id.IsValid := by
  unfold ofContent at h
  split at h
  · rename_i hp
    cases h
    exact isValid_of_parse hp
  · cases h

/-- The ids that are made from parts or read from a text. -/
inductive IsAccepted (id : PullId) : Prop
  | made {owner repo : String} {number : UInt64} (h : ofParts owner repo number = .ok id)
  | read {raw : String} (h : parse raw = .ok id)

theorem isAccepted_iff : id.IsAccepted ↔ id.IsValid := by
  constructor
  · rintro (h | h)
    · exact (ofParts_eq_ok_iff.1 h).2
    · exact isValid_of_parse h
  · intro h
    exact .read (parse_text h)

/-! ### Ids are told apart by their texts -/

/-- **No two valid ids have one text.** -/
theorem text_injective (ha : a.IsValid) (hb : b.IsValid) (h : a.text = b.text) : a = b := by
  have hread := parse_text ha
  rw [h, parse_text hb] at hread
  exact (Except.ok.inj hread).symm

/-- If a name could hold a slash, there would be two. -/
example : (⟨"a/b", "c", 1⟩ : PullId).text = (⟨"a", "b/c", 1⟩ : PullId).text := by decide +kernel

theorem eq_of_toList (howner : a.owner.toList = b.owner.toList)
    (hrepo : a.repo.toList = b.repo.toList) (hnumber : a.number = b.number) : a = b := by
  obtain ⟨owner, repo, number⟩ := a
  rw [PullId.mk.injEq]
  exact ⟨String.toList_inj.1 howner, String.toList_inj.1 hrepo, hnumber⟩

/-- **No two valid ids have one repository and one number.** -/
theorem slug_injective (ha : a.IsValid) (hb : b.IsValid) (hslug : a.slug = b.slug)
    (hnumber : a.number = b.number) : a = b := by
  have hchars : ∀ id : PullId, id.slug.toList = id.owner.toList ++ '/' :: id.repo.toList := by
    intro id
    simp [slug, toString]
  have h := congrArg String.toList hslug
  rw [hchars, hchars] at h
  obtain ⟨howner, hrepo⟩ :=
    Text.cut_injective (not_mem_name (by decide) ha.1) (not_mem_name (by decide) hb.1) h
  exact eq_of_toList howner hrepo hnumber

end RepairLedger.PullId
