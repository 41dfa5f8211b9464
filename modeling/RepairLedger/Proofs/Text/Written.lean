import Mathlib.Algebra.Group.Nat.Defs
import Mathlib.Tactic.ByContra
import RepairLedger.Text.Blank
import RepairLedger.Text.Cut
import RepairLedger.Text.Numeral

/-!
# Written numbers, blanks and separators

What the readers of the library do with texts that it has written itself: a number is written with
its decimal digits, a padded one has the digits and the length that were asked for, a text without
blanks at its ends is not trimmed, and a text is cut at the separator that was put in, if the parts
hold none.
-/

namespace RepairLedger

/-! ### Numerals -/

namespace Numeral

/-- A number below `10 ^ k` has at most `k` digits. -/
theorem length_digits_le {n k : Nat} (hk : 0 < k) (h : n < 10 ^ k) : (digits n).length ≤ k := by
  fun_induction digits n generalizing k with
  | case1 n hn => exact hk
  | case2 n hn ih =>
    obtain ⟨k, rfl⟩ : ∃ j, k = j + 1 := ⟨k - 1, by omega⟩
    have hk : 0 < k := by
      by_contra h0
      obtain rfl : k = 0 := by omega
      simp only [Nat.zero_add, Nat.pow_one] at h
      exact hn h
    have := ih hk (by rw [Nat.pow_succ] at h; omega)
    rw [List.length_append, List.length_singleton]
    omega

theorem value_replicate_zero_append (k : Nat) (ds : List Char) :
    value (List.replicate k '0' ++ ds) = value ds := by
  induction k with
  | zero => rfl
  | succ k ih => simpa [value, List.replicate_succ, digitValue] using ih

theorem value_padded (width n : Nat) : value (padded width n) = n := by
  rw [padded, value_replicate_zero_append, value_digits]

theorem all_isDigit_padded (width n : Nat) : (padded width n).all Char.isDigit = true := by
  rw [padded, List.all_append, all_isDigit_digits, Bool.and_true, List.all_replicate]
  simp

theorem padded_ne_nil (width n : Nat) : padded width n ≠ [] := by
  simp [padded, digits_ne_nil]

theorem length_padded {width n : Nat} (hw : 0 < width) (h : n < 10 ^ width) :
    (padded width n).length = width := by
  have := length_digits_le hw h
  rw [padded, List.length_append, List.length_replicate]
  omega

theorem padded_eq_cons (width n : Nat) :
    ∃ c cs, padded width n = c :: cs ∧ c.isDigit = true := by
  have hall := all_isDigit_padded width n
  cases hp : padded width n with
  | nil => exact absurd hp (padded_ne_nil width n)
  | cons c cs =>
    rw [hp, List.all_cons, Bool.and_eq_true] at hall
    exact ⟨c, cs, rfl, hall.1⟩

theorem read?_of_isDigit {ds : List Char} (hne : ds ≠ []) (hall : ds.all Char.isDigit = true)
    (hv : value ds < UInt64.size) : read? ds = some (.ofNat (value ds)) := by
  unfold read?
  dsimp only
  split
  · exact absurd hall (by simp)
  · rw [if_pos ⟨hne, hall, hv⟩]

/-- A number below `2^64` is read from its digits. -/
theorem read?_digits (n : UInt64) : read? (digits n.toNat) = some n := by
  rw [read?_of_isDigit (digits_ne_nil _) (all_isDigit_digits _)
    (by rw [value_digits]; exact n.toNat_lt), value_digits, UInt64.ofNat_toNat]

theorem digits_injective {m n : Nat} (h : digits m = digits n) : m = n := by
  rw [← value_digits m, h, value_digits]

theorem toList_textOf (n : Nat) : (textOf n).toList = digits n := by
  have hn : ¬ (n : Int) < 0 := by omega
  simp [textOf, signed, hn]

theorem digitChar_eq {n : Nat} (h : n < 10) : digitChar n = n.digitChar :=
  (by decide : ∀ n < 10, digitChar n = n.digitChar) n h

/-- The digits are those of the number in base ten. -/
theorem digits_eq_toDigits (n : Nat) : digits n = Nat.toDigits 10 n := by
  fun_induction digits n with
  | case1 n h => rw [digitChar_eq h, Nat.toDigits_of_lt_base h]
  | case2 n h ih =>
    rw [ih, digitChar_eq (Nat.mod_lt n (by omega)),
      ← Nat.toDigits_of_base_le (by omega) (Nat.not_lt.1 h)]

theorem textOf_eq_toString (n : Nat) : textOf n = toString n := by
  rw [← String.toList_inj, toList_textOf, digits_eq_toDigits, Nat.toString_eq_ofList_toDigits,
    String.toList_ofList]

end Numeral

/-! ### Blanks -/

namespace Text

theorem isBlank_of_isDigit {c : Char} (h : c.isDigit = true) : isBlank c = false := by
  have hc : 48 ≤ c.toNat ∧ c.toNat ≤ 57 := by
    simpa [Char.isDigit, UInt32.le_iff_toNat_le] using h
  simp only [isBlank, Bool.or_eq_false_iff, Bool.and_eq_false_iff, decide_eq_false_iff_not,
    beq_eq_false_iff_ne]
  omega

theorem trimLeft_cons {c : Char} (h : isBlank c = false) (cs : List Char) :
    trimLeft (c :: cs) = c :: cs := by
  rw [trimLeft, List.dropWhile_cons_of_neg (by simp [h])]

/-- A text that neither begins nor ends with a blank is not trimmed. -/
theorem trim_of_ends {c d : Char} {cs ds : List Char} (hc : isBlank c = false)
    (hd : isBlank d = false) (h : c :: cs = ds ++ [d]) : trim (c :: cs) = c :: cs := by
  rw [trim, trimLeft_cons hc, h, List.reverse_append, List.reverse_singleton,
    List.singleton_append, trimLeft_cons hd, List.reverse_cons, List.reverse_reverse]

/-! ### Separators -/

theorem cutFirst_append {c : Char} {before : List Char} (h : c ∉ before) (after : List Char) :
    cutFirst c (before ++ c :: after) = some (before, after) := by
  induction before with
  | nil => simp [cutFirst]
  | cons x xs ih =>
    rw [List.mem_cons, not_or] at h
    rw [List.cons_append, cutFirst, if_neg (Ne.symm h.1), ih h.2, Option.map_some]

theorem cutLast_eq_none {c : Char} {cs : List Char} (h : c ∉ cs) : cutLast c cs = none := by
  induction cs with
  | nil => rfl
  | cons x xs ih =>
    rw [List.mem_cons, not_or] at h
    simp only [cutLast, ih h.2, Ne.symm h.1, if_false]

theorem cutLast_append {c : Char} {after : List Char} (h : c ∉ after) (before : List Char) :
    cutLast c (before ++ c :: after) = some (before, after) := by
  induction before with
  | nil => simp [cutLast, cutLast_eq_none h]
  | cons x xs ih => simp only [List.cons_append, cutLast, ih]

theorem cutLast_eq_some {c : Char} {cs before after : List Char}
    (h : cutLast c cs = some (before, after)) : cs = before ++ c :: after ∧ c ∉ after := by
  -- Cut where the last one stands, of which there is one unless the text is not cut at all.
  by_cases hc : c ∈ cs
  · obtain ⟨before', after', hcs, hafter⟩ := List.eq_append_cons_of_mem (List.mem_reverse.2 hc)
    have hsplit : cs = after'.reverse ++ c :: before'.reverse := by
      have := congrArg List.reverse hcs
      simpa using this
    have hnot : c ∉ before'.reverse := fun hm => hafter (List.mem_reverse.1 hm)
    rw [hsplit, cutLast_append hnot] at h
    cases h
    exact ⟨hsplit, hnot⟩
  · rw [cutLast_eq_none hc] at h
    cases h

/-- Two texts that are the same are cut alike. -/
theorem cut_injective {c : Char} {before before' after after' : List Char} (hb : c ∉ before)
    (hb' : c ∉ before') (h : before ++ c :: after = before' ++ c :: after') :
    before = before' ∧ after = after' := by
  have hcut := congrArg (cutFirst c) h
  rwa [cutFirst_append hb, cutFirst_append hb', Option.some.injEq, Prod.mk.injEq] at hcut

end Text

end RepairLedger
