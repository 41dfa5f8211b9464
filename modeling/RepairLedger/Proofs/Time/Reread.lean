import Mathlib.Tactic.SplitIfs
import RepairLedger.Proofs.Result
import RepairLedger.Proofs.Text.Written
import RepairLedger.Time.Reader

/-!
# Instants survive being written

The reader finds an instant in its own text (`Instant.ofText_text`): years with a sign, fractions
of three, six or nine digits and leap seconds at the end of a minute included.  A leap second
anywhere else has the text of the second after it and is read as that (`Instant.asRead`), so it is
the regular instants that come back (`Instant.asRead_eq_self_iff`).
-/

namespace RepairLedger.Instant

open Text Numeral

/-- The text does not go on with a digit. -/
def EndsDigits (text : List Char) : Prop :=
  ∀ c ∈ text.head?, c.isDigit = false

theorem takeWhile_isDigit_append {ds rest : List Char} (hd : ds.all Char.isDigit = true)
    (hr : EndsDigits rest) : (ds ++ rest).takeWhile Char.isDigit = ds := by
  induction ds with
  | nil =>
    cases rest with
    | nil => rfl
    | cons c rest => simp [hr c rfl]
  | cons c ds ih =>
    rw [List.all_cons, Bool.and_eq_true] at hd
    rw [List.cons_append, List.takeWhile_cons_of_pos hd.1, ih hd.2]

theorem scanDigits_append {width : Nat} {ds rest : List Char} (hd : ds.all Char.isDigit = true)
    (hne : ds ≠ []) (hw : ds.length ≤ width) (hr : ds.length = width ∨ EndsDigits rest)
    (hv : value ds ≤ greatestNumber) : scanDigits width (ds ++ rest) = .ok (value ds, rest) := by
  -- Either the width or the end of the digits stops the scan.
  have htake : ((ds ++ rest).take width).takeWhile Char.isDigit = ds := by
    rw [List.take_append, List.take_of_length_le hw]
    refine takeWhile_isDigit_append hd fun c hc => ?_
    rcases hr with hr | hr
    · simp [hr] at hc
    · refine hr c ?_
      cases rest with
      | nil => simp at hc
      | cons x rest =>
        cases hk : width - ds.length with
        | zero => simp [hk] at hc
        | succ k => simpa [hk] using hc
  have hcons : ∃ c cs, ds ++ rest = c :: cs := by
    cases ds with
    | nil => exact absurd rfl hne
    | cons c cs => exact ⟨c, cs ++ rest, rfl⟩
  obtain ⟨c, cs, hcs⟩ := hcons
  rw [hcs] at htake ⊢
  rw [scanDigits, htake, if_neg hne, if_pos hv, ← hcs, List.drop_left]

/-- A number written with the full width is read back. -/
theorem scanDigits_padded {width n : Nat} (hw : 0 < width) (hn : n < 10 ^ width)
    (hv : n ≤ greatestNumber) (rest : List Char) :
    scanDigits width (padded width n ++ rest) = .ok (n, rest) := by
  have hlen := length_padded hw hn
  rw [scanDigits_append (all_isDigit_padded width n) (padded_ne_nil width n) (Nat.le_of_eq hlen)
    (.inl hlen) (by rw [value_padded]; exact hv), value_padded]

theorem trimLeft_padded (width n : Nat) (rest : List Char) :
    trimLeft (padded width n ++ rest) = padded width n ++ rest := by
  obtain ⟨c, cs, hc, hd⟩ := padded_eq_cons width n
  rw [hc, List.cons_append, trimLeft_cons (isBlank_of_isDigit hd)]

theorem scanNumber_padded {least greatest n : Nat} (hl : least ≤ n) (hg : n ≤ greatest)
    (hn : n < 100) (rest : List Char) :
    scanNumber least greatest (padded 2 n ++ rest) = .ok (n, rest) := by
  have hd : scanDigits 2 (padded 2 n ++ rest) = .ok (n, rest) :=
    scanDigits_padded (by decide) hn (by unfold greatestNumber; omega) rest
  rw [scanNumber, trimLeft_padded, hd]
  simp only [bind, Except.bind]
  rw [if_pos ⟨hl, hg⟩]

theorem scanYear_yearChars {year : Int} (hy : firstYear ≤ year ∧ year ≤ lastYear)
    (rest : List Char) : scanYear (yearChars year ++ '-' :: rest) = .ok (year, '-' :: rest) := by
  obtain ⟨hf, hl⟩ := hy
  unfold firstYear at hf
  unfold lastYear at hl
  have hr : EndsDigits ('-' :: rest) := by
    rintro c ⟨⟩
    decide
  -- Behind a sign there may be any number of digits.
  have hsigned : scanDigits (padded 4 year.natAbs ++ '-' :: rest).length
      (padded 4 year.natAbs ++ '-' :: rest) = .ok (year.natAbs, '-' :: rest) := by
    rw [scanDigits_append (all_isDigit_padded _ _) (padded_ne_nil _ _) (by simp) (.inr hr)
      (by rw [value_padded]; unfold greatestNumber; omega), value_padded]
  have hrange : -2147483648 ≤ year ∧ year ≤ 2147483647 := by omega
  unfold yearChars
  by_cases hneg : year < 0
  · have habs : -(year.natAbs : Int) = year := by omega
    simp only [hneg, if_true, List.cons_append, scanYear]
    rw [trimLeft_cons (by decide)]
    simp only [hsigned, bind, Except.bind, habs, hrange, and_self, if_true]
  · have habs : (year.natAbs : Int) = year := by omega
    by_cases hbig : year ≤ 9999
    · have hd : scanDigits 4 (padded 4 year.natAbs ++ '-' :: rest) =
          .ok (year.natAbs, '-' :: rest) :=
        scanDigits_padded (by decide) (by omega) (by unfold greatestNumber; omega) _
      obtain ⟨c, cs, hc, hdigit⟩ := padded_eq_cons 4 year.natAbs
      -- Four digits have no sign in front, and no more are read.
      have hminus : c ≠ '-' := by rintro rfl; exact absurd hdigit (by decide)
      have hplus : c ≠ '+' := by rintro rfl; exact absurd hdigit (by decide)
      simp only [hneg, hbig, if_true, if_false, scanYear]
      rw [trimLeft_padded]
      rw [hc, List.cons_append] at hd ⊢
      split
      · rename_i heq
        exact absurd (List.cons.inj heq).1 hminus
      · rename_i heq
        exact absurd (List.cons.inj heq).1 hplus
      · simp only [hd, bind, Except.bind, habs, hrange, and_self, if_true]
    · simp only [hneg, hbig, if_false, List.cons_append, scanYear]
      rw [trimLeft_cons (by decide)]
      simp only [hsigned, bind, Except.bind, habs, hrange, and_self, if_true]

/-! ### The fraction -/

/-- A fraction of `width` digits, written without its point, is read in nanoseconds. -/
theorem scanFraction_padded {width n : Nat} (hw : 0 < width) (hle : width ≤ 9)
    (hn : n < 10 ^ width) :
    scanFraction ('.' :: padded width n ++ ['Z']) = .ok (n * 10 ^ (9 - width), ['Z']) := by
  have hr : EndsDigits ['Z'] := by
    rintro c ⟨⟩
    decide
  have hlen := length_padded hw hn
  have hpow : 10 ^ width ≤ 10 ^ 9 := Nat.pow_le_pow_right (by decide) hle
  rw [List.cons_append, scanFraction, scanDigits_append (all_isDigit_padded width n)
    (padded_ne_nil width n) (by omega) (.inr hr)
    (by rw [value_padded]; unfold greatestNumber; omega)]
  simp only [bind, Except.bind, value_padded, List.length_append, hlen, List.length_singleton,
    Nat.add_sub_cancel]
  rfl

theorem scanFraction_fractionChars (t : Instant) :
    scanFraction (fractionChars t ++ ['Z']) = .ok (t.nano % 1000000000, ['Z']) := by
  have hn : t.nano % 1000000000 < 1000000000 := Nat.mod_lt _ (by decide)
  unfold fractionChars
  dsimp only
  split_ifs with h₀ h₁ h₂
  · rw [h₀]
    rfl
  · rw [scanFraction_padded (by decide) (by decide) (by omega)]
    congr 2
    omega
  · rw [scanFraction_padded (by decide) (by decide) (by omega)]
    congr 2
    omega
  · rw [scanFraction_padded (by decide) (by decide) (by omega)]
    simp

/-! ### Leap seconds -/

/-- The instant that the text of `t` is read as. -/
def asRead (t : Instant) : Instant where
  date := t.date
  second := if t.IsRegular then t.second else t.second + 1
  nano := if t.IsRegular then t.nano else t.nano - 1000000000
  second_lt := by
    have hs := t.second_lt
    by_cases h : t.IsRegular
    · rwa [if_pos h]
    · rw [if_neg h]
      unfold IsRegular at h
      omega
  nano_lt := by
    have hn := t.nano_lt
    split_ifs <;> omega

/-- An instant is read as itself, or as one in the second after its leap second. -/
theorem asRead_cases (t : Instant) : t.IsRegular ∧ t.asRead = t ∨
    1000000000 ≤ t.nano ∧ t.second % 60 ≠ 59 ∧ t.asRead.second = t.second + 1 ∧
      t.asRead.nano = t.nano - 1000000000 := by
  by_cases h : t.IsRegular
  · exact .inl ⟨h, by simp only [asRead, h, if_true]⟩
  · obtain ⟨hn, hs⟩ : 1000000000 ≤ t.nano ∧ t.second % 60 ≠ 59 := Classical.not_imp.1 h
    exact .inr ⟨hn, hs, if_neg h, if_neg h⟩

theorem isRegular_asRead (t : Instant) : t.asRead.IsRegular := by
  have hn := t.nano_lt
  obtain ⟨h, heq⟩ | ⟨_, _, _, hnano⟩ := t.asRead_cases
  · rwa [heq]
  · intro hleap
    omega

/-- **Regular instants are those that are read as themselves.** -/
theorem asRead_eq_self_iff {t : Instant} : t.asRead = t ↔ t.IsRegular := by
  constructor
  · intro h
    exact h ▸ t.isRegular_asRead
  · intro h
    simp only [asRead, h, if_true]

@[simp] theorem asRead_asRead (t : Instant) : t.asRead.asRead = t.asRead :=
  asRead_eq_self_iff.2 t.isRegular_asRead

/-- The second after a leap second that ends no minute is in the same minute. -/
theorem clockChars_asRead (t : Instant) : clockChars t.asRead = clockChars t := by
  have hn := t.nano_lt
  obtain ⟨_, heq⟩ | ⟨_, _, hsecond, hnano⟩ := t.asRead_cases
  · rw [heq]
  · rw [clockChars, clockChars, hsecond, hnano, if_pos (by omega), if_neg (by omega),
      show (t.second + 1) / 3600 = t.second / 3600 by omega,
      show (t.second + 1) / 60 % 60 = t.second / 60 % 60 by omega,
      show (t.second + 1) % 60 + 0 = t.second % 60 + 1 by omega]

theorem fractionChars_asRead (t : Instant) : fractionChars t.asRead = fractionChars t := by
  obtain ⟨_, heq⟩ | ⟨_, _, _, hnano⟩ := t.asRead_cases
  · rw [heq]
  · have hmod : t.asRead.nano % 1000000000 = t.nano % 1000000000 := by omega
    rw [fractionChars, fractionChars, hmod]

/-- What an instant is read as has the same text. -/
theorem text_asRead (t : Instant) : t.asRead.text = t.text := by
  rw [text, text, clockChars_asRead, fractionChars_asRead]
  rfl

/-! ### The whole text -/

/-- The parts that are written are those of the instant that is read. -/
theorem ofLocal_parts (t : Instant) :
    ofLocal t.date.year t.date.month t.date.day (t.second / 3600) (t.second / 60 % 60)
      (t.second % 60 + if t.nano < 1000000000 then 0 else 1) (t.nano % 1000000000) 0 =
      .ok t.asRead := by
  have hs := t.second_lt
  have hn := t.nano_lt
  have hminutes : ((t.second / 3600 : Nat) : Int) * 60 + (t.second / 60 % 60 : Nat) - 0 =
      (t.second / 60 : Nat) := by omega
  have hmod : (((t.second / 60 : Nat) : Int) % 1440).toNat = t.second / 60 := by omega
  have hnot : ¬ ((t.second / 60 : Nat) : Int) < 0 := by omega
  have hlt : ((t.second / 60 : Nat) : Int) < 1440 := by omega
  -- The second 60 is kept in the nanoseconds of the second 59.
  have hsecond : t.second / 60 * 60 +
      (if t.second % 60 + (if t.nano < 1000000000 then 0 else 1) = 60
      then 59 else t.second % 60 + if t.nano < 1000000000 then 0 else 1) = t.asRead.second := by
    obtain ⟨h, heq⟩ | ⟨_, _, hsecond, _⟩ := t.asRead_cases
    · rw [heq]
      unfold IsRegular at h
      split_ifs <;> omega
    · rw [hsecond]
      split_ifs <;> omega
  have hnano : (if t.second % 60 + (if t.nano < 1000000000 then 0 else 1) = 60
      then 1000000000 + t.nano % 1000000000 else t.nano % 1000000000) = t.asRead.nano := by
    obtain ⟨h, heq⟩ | ⟨_, _, _, hnano⟩ := t.asRead_cases
    · rw [heq]
      unfold IsRegular at h
      split_ifs <;> omega
    · rw [hnano]
      split_ifs <;> omega
  unfold ofLocal
  rw [Date.ofParts?_self]
  dsimp only
  rw [if_neg (by decide)]
  simp only [hminutes, hmod, hsecond, hnano]
  rw [if_neg hnot, if_pos hlt]
  exact dif_pos ⟨t.asRead.second_lt, t.asRead.nano_lt, t.isRegular_asRead⟩

/-- **Every instant is read from its text**: as itself if it is regular. -/
theorem ofText_text (t : Instant) : ofText t.text = .ok t.asRead := by
  obtain ⟨hyear, ⟨hm₁, hm₂⟩, hd₁, hd₂⟩ := t.date.inCalendar
  have hd₃ := Date.daysInMonth_le t.date.year t.date.month
  have hs := t.second_lt
  have hsecond : t.second % 60 + (if t.nano < 1000000000 then 0 else 1) ≤ 60 := by
    split_ifs <;> omega
  have hchar (c : Char) (rest : List Char) : scanChar c (c :: rest) = .ok ((), rest) := by
    rw [scanChar, if_pos rfl]
  have hzone : scanZone ['Z'] = .ok (0, []) := rfl
  have htrim (c : Char) (hc : isBlank c = false) (rest : List Char) :
      trimLeft (c :: rest) = c :: rest := trimLeft_cons hc rest
  rw [ofText, text, String.toList_ofList, ofChars]
  simp only [dateChars, clockChars, List.append_assoc, List.cons_append]
  rw [scanYear_yearChars hyear]
  simp only [bind, Except.bind, htrim '-' (by decide), hchar]
  rw [scanNumber_padded hm₁ hm₂ (by omega)]
  simp only [htrim '-' (by decide), hchar]
  rw [scanNumber_padded hd₁ (by omega) (by omega)]
  simp only [scanBetween, true_or, if_true]
  rw [scanNumber_padded (Nat.zero_le _) (by omega) (by omega)]
  simp only [htrim ':' (by decide), hchar]
  rw [scanNumber_padded (Nat.zero_le _) (by omega) (by omega)]
  simp only [htrim ':' (by decide), hchar]
  rw [scanNumber_padded (Nat.zero_le _) hsecond (by omega)]
  simp only [scanFraction_fractionChars, htrim 'Z' (by decide), hzone]
  exact ofLocal_parts t

/-! ### What is read -/

theorem isRegular_of_ofLocal {year offset : Int} {month day hour minute second nano : Nat}
    {t : Instant} (h : ofLocal year month day hour minute second nano offset = .ok t) :
    t.IsRegular := by
  unfold ofLocal at h
  split at h
  · cases h
  · split at h
    · cases h
    · dsimp only at h
      split at h
      · cases h
      · split_ifs at h with _ hparts hparts
        all_goals
          cases h
          exact hparts.2.2

/-- **Every instant that is read is regular.** -/
theorem isRegular_of_ofText {s : String} {t : Instant} (h : ofText s = .ok t) : t.IsRegular := by
  unfold ofText ofChars at h
  -- The parts are read one by one, and the instant is made of them in the end.
  iterate 13 obtain ⟨_, -, h⟩ := bind_eq_ok.1 h
  dsimp only at h
  split at h
  · cases h
  · exact isRegular_of_ofLocal h

end RepairLedger.Instant
