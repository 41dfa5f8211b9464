import RepairLedger.Ledger.Error
import RepairLedger.Proofs.Pull.Text
import RepairLedger.Proofs.Text.Spelling

/-!
# Which texts are ids

The reader of ids looks for the last hash, then for the first slash before it, and judges the parts
only then.  Nothing of this order is left in what it reads: a text is an id exactly if it is an
owner, a slash, a repository, a hash and a numeral (`PullId.Spelling`), with blanks around them.
Since proper names hold no separator, a text can be taken apart in one way only
(`PullId.Spelling.text_injective`), whichever separator is looked for first.  `PullId.parse_grammar`
puts this together with the way back, from an id to its text.
-/

namespace RepairLedger.PullId

variable {id : PullId} {raw : String}

/-! ### Spellings -/

/-- The parts of a text between its separators. -/
structure Spelling where
  owner : String
  repo : String
  numeral : String
deriving DecidableEq

namespace Spelling

/-- The parts with their separators. -/
def text (s : Spelling) : String :=
  s.owner ++ "/" ++ s.repo ++ "#" ++ s.numeral

/-- The parts are names and a numeral of this number, which is positive and has 64 bits.  A name is
not empty and holds neither a separator nor a blank. -/
structure Denotes (s : Spelling) (n : Nat) : Prop where
  owner : s.owner ≠ "" ∧ ∀ c ∈ s.owner.toList, c ≠ '/' ∧ c ≠ '#' ∧ Text.isBlank c = false
  repo : s.repo ≠ "" ∧ ∀ c ∈ s.repo.toList, c ≠ '/' ∧ c ≠ '#' ∧ Text.isBlank c = false
  numeral : Numeral.Spells s.numeral.toList n
  range : 1 ≤ n ∧ n ≤ 2 ^ 64 - 1

variable {s t : Spelling} {m n : Nat}

theorem toList_text (s : Spelling) :
    s.text.toList = (s.owner.toList ++ '/' :: s.repo.toList) ++ '#' :: s.numeral.toList := by
  simp [text]

theorem Denotes.not_mem_numeral (h : s.Denotes n) {c : Char} (hc : c.isDigit = false)
    (hplus : c ≠ '+') : c ∉ s.numeral.toList := by
  obtain ⟨ds, hds, -, hall, -⟩ := h.numeral
  have hnot : c ∉ ds := fun hm => absurd (hall c hm) (by simp [hc])
  obtain h | h := hds <;> simp [h, hnot, hplus]

/-- **A text can be taken apart in one way only.** -/
theorem text_injective (hs : s.Denotes m) (ht : t.Denotes n) (h : s.text = t.text) :
    s = t ∧ m = n := by
  obtain ⟨owner, repo, numeral⟩ := s
  obtain ⟨owner', repo', numeral'⟩ := t
  have hslash : '/' ∉ owner.toList := fun hm => (hs.owner.2 _ hm).1 rfl
  have hslash' : '/' ∉ owner'.toList := fun hm => (ht.owner.2 _ hm).1 rfl
  have hhash : '#' ∉ repo.toList := fun hm => (hs.repo.2 _ hm).2.1 rfl
  have hhash' : '#' ∉ repo'.toList := fun hm => (ht.repo.2 _ hm).2.1 rfl
  have h := congrArg String.toList h
  simp only [toList_text, List.append_assoc, List.cons_append] at h
  obtain ⟨howner, h⟩ := Text.cut_injective hslash hslash' h
  obtain ⟨hrepo, hnumeral⟩ := Text.cut_injective hhash hhash' h
  obtain rfl := String.toList_inj.1 howner
  obtain rfl := String.toList_inj.1 hrepo
  obtain rfl := String.toList_inj.1 hnumeral
  exact ⟨rfl, hs.numeral.unique ht.numeral⟩

end Spelling

/-! ### Reading -/

theorem isName_iff {name : String} : isName name = true ↔
    name ≠ "" ∧ ∀ c ∈ name.toList, c ≠ '/' ∧ c ≠ '#' ∧ Text.isBlank c = false := by
  have hempty : name.toList = [] ↔ name = "" := String.toList_eq_nil_iff
  simp [isName, isNameChar, hempty, and_assoc]

/-- What is read is spelt by the text. -/
theorem exists_spelling_of_parse (h : parse raw = .ok id) :
    ∃ s : Spelling, Text.Strips raw.toList s.text.toList ∧ s.Denotes id.number.toNat ∧
      s.owner = id.owner ∧ s.repo = id.repo := by
  unfold parse at h
  split at h
  · cases h
  rename_i slug number hcut
  split at h
  · cases h
  rename_i owner repo hcut'
  split at h
  · cases h
  rename_i n hnumber
  obtain ⟨rfl, howner, hrepo, hzero⟩ := ofParts_eq_ok_iff.1 h
  obtain ⟨htrim, -⟩ := Text.cutLast_eq_some hcut
  obtain ⟨rfl, -⟩ := Text.cutFirst_eq_some hcut'
  refine ⟨⟨String.ofList owner, String.ofList repo, String.ofList number⟩, ?_, ⟨isName_iff.1 howner,
    isName_iff.1 hrepo, ?_, ?_⟩, rfl, rfl⟩
  · rw [← Text.trim_eq_iff, htrim, Spelling.toList_text]
    simp
  · rw [String.toList_ofList]
    exact Numeral.read?_eq_some_iff.1 hnumber
  · have hlt := n.toNat_lt
    have hpos : n.toNat ≠ 0 := fun h => hzero (UInt64.toNat_inj.1 h)
    show 1 ≤ n.toNat ∧ n.toNat ≤ 2 ^ 64 - 1
    omega

/-- What the text spells is read. -/
theorem parse_of_spelling {s : Spelling} (hraw : Text.Strips raw.toList s.text.toList)
    (hs : s.Denotes id.number.toNat) (howner : s.owner = id.owner) (hrepo : s.repo = id.repo) :
    parse raw = .ok id := by
  have hhash : '#' ∉ s.numeral.toList := hs.not_mem_numeral (by decide) (by decide)
  have hslash : '/' ∉ s.owner.toList := fun hm => (hs.owner.2 _ hm).1 rfl
  have hpos : id.number ≠ 0 := by
    intro h
    have := hs.range.1
    rw [h] at this
    exact absurd this (by decide)
  rw [parse, hraw.trim_eq, Spelling.toList_text, Text.cutLast_append hhash]
  dsimp only
  rw [Text.cutFirst_append hslash]
  dsimp only
  rw [Numeral.read?_eq_some_iff.2 hs.numeral]
  dsimp only
  rw [String.ofList_toList, String.ofList_toList, howner, hrepo, ofParts_eq_ok_iff]
  exact ⟨rfl, isName_iff.2 (howner ▸ hs.owner), isName_iff.2 (hrepo ▸ hs.repo), hpos⟩

/-- The text of an id is read with blanks around it. -/
theorem parse_blanks {before after : String} (h : id.IsValid)
    (hbefore : Text.isBlankText before = true) (hafter : Text.isBlankText after = true) :
    parse (before ++ id.text ++ after) = .ok id := by
  obtain ⟨s, hs, hdenotes, howner, hrepo⟩ := exists_spelling_of_parse (parse_text h)
  have hraw := hs.append (List.all_eq_true.1 hbefore) (List.all_eq_true.1 hafter)
  rw [← String.toList_append, ← String.toList_append] at hraw
  exact parse_of_spelling hraw hdenotes howner hrepo

/-- **The grammar of ids.**  A text is read as an id exactly if it is, without the blanks around it,
an owner, a slash, a repository, a hash and a numeral of a positive number of 64 bits.  It can be
taken apart in one way only.  Every other text is refused as an invalid id.  The text of an id made
from proper parts is read as that id, with any blanks around it, and reading the text of what has
been read changes nothing. -/
theorem parse_grammar (raw : String) :
    (∀ id, parse raw = .ok id ↔ ∃ (s : Spelling) (n : Nat),
      Text.Strips raw.toList s.text.toList ∧ s.Denotes n ∧
        id.owner = s.owner ∧ id.repo = s.repo ∧ id.number.toNat = n) ∧
    (∀ (s t : Spelling) (m n : Nat), Text.Strips raw.toList s.text.toList →
      Text.Strips raw.toList t.text.toList → s.Denotes m → t.Denotes n → s = t ∧ m = n) ∧
    ((¬ ∃ (s : Spelling) (n : Nat), Text.Strips raw.toList s.text.toList ∧ s.Denotes n) →
      ∃ value reason,
        (parse raw).mapError LedgerError.ofInvalidId = .error (.invalidId value reason)) ∧
    (∀ owner repo number id, ofParts owner repo number = .ok id → ∀ before after : String,
      Text.isBlankText before = true → Text.isBlankText after = true →
      parse (before ++ id.text ++ after) = .ok id) ∧
    (parse raw >>= fun id => parse id.text) = parse raw := by
  refine ⟨fun id => ⟨fun h => ?_, ?_⟩, fun s t m n hs ht hm hn => ?_, fun hnone => ?_,
    fun owner repo number id h before after hbefore hafter => ?_, ?_⟩
  · obtain ⟨s, hraw, hs, howner, hrepo⟩ := exists_spelling_of_parse h
    exact ⟨s, _, hraw, hs, howner.symm, hrepo.symm, rfl⟩
  · rintro ⟨s, n, hraw, hs, howner, hrepo, rfl⟩
    exact parse_of_spelling hraw hs howner.symm hrepo.symm
  · have htext : s.text = t.text := String.toList_inj.1 (hs.trim_eq.symm.trans ht.trim_eq)
    exact Spelling.text_injective hm hn htext
  · cases h : parse raw with
    | ok id =>
      obtain ⟨s, hraw, hs, -⟩ := exists_spelling_of_parse h
      exact absurd ⟨s, _, hraw, hs⟩ hnone
    | error invalid => exact ⟨invalid.value, invalid.flaw.message, rfl⟩
  · exact parse_blanks (ofParts_eq_ok_iff.1 h).2 hbefore hafter
  · cases h : parse raw with
    | error invalid => rfl
    | ok id => exact parse_text (isValid_of_parse h)

/-- The greatest number there is, with a sign, a zero and blanks of two kinds; and a repository with
a slash in it. -/
theorem parse_grammar_signed :
    let raw := "\u3000acme/wid.get#+018446744073709551615\n"
    let s : Spelling := ⟨"acme", "wid.get", "+018446744073709551615"⟩
    let k : PullId := ⟨"acme", "wid.get", 18446744073709551615⟩
    parse raw = .ok k ∧
      (∀ (t : Spelling) (n : Nat), Text.Strips raw.toList t.text.toList → t.Denotes n → t = s) ∧
      parse ("\t" ++ k.text ++ " ") = .ok k ∧
      ∃ value reason, (parse "acme/a/b#1").mapError LedgerError.ofInvalidId =
        .error (.invalidId value reason) := by
  intro raw s k
  have hs : s.Denotes k.number.toNat := by
    have hnumeral : Numeral.read? "+018446744073709551615".toList = some k.number := by
      decide +kernel
    exact ⟨isName_iff.1 (by decide +kernel), isName_iff.1 (by decide +kernel),
      Numeral.read?_eq_some_iff.1 hnumeral, by decide +kernel⟩
  have hraw : Text.Strips raw.toList s.text.toList := Text.trim_eq_iff.1 (by decide +kernel)
  obtain ⟨hread, hunique, -, hblanks, -⟩ := parse_grammar raw
  have hk : ofParts k.owner k.repo k.number = .ok k := ofParts_eq_ok_iff.2 ⟨rfl, by decide +kernel⟩
  refine ⟨(hread k).2 ⟨s, _, hraw, hs, rfl, rfl, rfl⟩,
    fun t n ht hn => (hunique t s n _ ht hraw hn hs).1,
    hblanks _ _ _ k hk "\t" " " (by decide +kernel) (by decide +kernel), ?_⟩
  obtain ⟨hread', -, hnone, -⟩ := parse_grammar "acme/a/b#1"
  refine hnone fun ⟨t, n, ht, hn⟩ => ?_
  -- If it had a spelling, it would be read.
  have hok := (hread' ⟨t.owner, t.repo, .ofNat n⟩).2 ⟨t, n, ht, hn, rfl, rfl,
    UInt64.toNat_ofNat_of_lt (Nat.lt_of_le_of_lt hn.range.2 (by decide))⟩
  have herror : (parse "acme/a/b#1").toOption = none := by decide +kernel
  rw [hok] at herror
  cases herror

end RepairLedger.PullId
