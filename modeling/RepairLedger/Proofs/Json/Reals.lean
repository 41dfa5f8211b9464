import Mathlib.Algebra.Order.Ring.Nat
import RepairLedger.Json.Tree
import RepairLedger.Proofs.Json.Lexing

/-!
# Floating point numbers as text

Whatever the bits of a floating point number are, its text is a number literal
(`isLiteral_realDigits`), and is read as one token (`Number.read_token`).  The number that the token
stands for may be another one next to it, but it is a number: a literal can be no worse than too
large (`Literal.skip_number`).

A literal does not begin with a zero that other digits follow, and that is where the digits matter:
the shortest decimal of a number other than zero is not zero (`Binary.shortest_pos`).
-/

namespace RepairLedger

open Numeral

/-! ### The shortest decimal -/

theorem Decimal.strip_pos {d : Decimal} (h : 0 < d.coefficient) (digits : Nat) :
    0 < (d.strip digits).coefficient := by
  induction digits generalizing d with
  | zero => exact h
  | succ digits ih =>
    rw [Decimal.strip]
    split
    · exact ih (by dsimp only; omega)
    · exact h

namespace Binary

variable {x : Binary} {d : Decimal} {grid : Int}

/-- Zero does not round to a number that is greater. -/
theorem coefficient_pos_of_covers (hx : 0 < x.mantissa) (h : x.covers d = true) :
    0 < d.coefficient := by
  refine Nat.pos_of_ne_zero fun hzero => ?_
  have hbelow : ∀ lowest, 0 < lowest → d.compareTo lowest (x.exponent - 2) = .lt := by
    intro lowest hlowest
    rw [Decimal.compareTo, hzero, Nat.zero_mul, Nat.zero_mul]
    exact Nat.compare_eq_lt.2 (Nat.mul_pos (Nat.mul_pos hlowest (Nat.pow_pos (by decide)))
      (Nat.pow_pos (by decide)))
  simp only [covers] at h
  rw [hbelow _ (by split <;> omega)] at h
  simp at h

theorem onGrid?_pos (hx : 0 < x.mantissa) (h : x.onGrid? grid = some d) : 0 < d.coefficient := by
  unfold onGrid? at h
  dsimp only at h
  split at h
  · rename_i hbelow _
    have hpos := coefficient_pos_of_covers hx hbelow
    split at h
    · cases h
      exact hpos
    · cases h
      exact Nat.succ_pos _
    · cases h
      dsimp only
      split
      · exact hpos
      · exact Nat.succ_pos _
  · rename_i hbelow _
    cases h
    exact coefficient_pos_of_covers hx hbelow
  · cases h
    exact Nat.succ_pos _
  · cases h

theorem shortest_pos (hx : 0 < x.mantissa) : 0 < x.shortest.coefficient := by
  unfold shortest
  dsimp only
  split
  · rename_i found hfound
    obtain ⟨digits, -, hgrid⟩ := List.exists_of_findSome?_eq_some hfound
    exact Decimal.strip_pos (onGrid?_pos hx hgrid) 17
  · exact Nat.mul_pos (Nat.mul_pos hx (Nat.pow_pos (by decide))) (Nat.pow_pos (by decide))

end Binary

namespace Json

open Text

/-! ### Literals -/

theorem scanFraction_point {ds : List Char} (hd : ds.all Char.isDigit = true) (hne : ds ≠ [])
    {rest : List Symbol} (hr : EndsDigits rest) :
    scanFraction (.char '.' :: (ds.map .char ++ rest)) = .ok (some (ds.map digitValue), rest) := by
  rw [scanFraction, scanSomeDigits_append hd hne hr]
  rfl

theorem scanExponent_sign {ds : List Char} (hd : ds.all Char.isDigit = true) (hne : ds ≠ [])
    (negative : Bool) {rest : List Symbol} (hr : EndsDigits rest) :
    scanExponent (.char 'e' :: .char (if negative then '-' else '+') :: (ds.map .char ++ rest)) =
      .ok (some (negative, ds.map digitValue), rest) := by
  have hsign : scanSign (.char (if negative then '-' else '+') :: (ds.map .char ++ rest)) =
      (negative, ds.map .char ++ rest) := by
    cases negative <;> rfl
  rw [scanExponent, if_pos (.inl rfl), hsign]
  simp only [bind, Except.bind, scanSomeDigits_append hd hne hr]

/-- The characters are a number literal, whatever ends it. -/
def IsLiteral (negative : Bool) (cs : List Char) : Prop :=
  ∃ l, ∀ {rest}, EndsNumber rest → Literal.scan negative (cs.map .char ++ rest) = .ok (l, rest)

/-- Digits on both sides of a point. -/
theorem isLiteral_point (negative : Bool) {whole ds : List Char} (hw : IsWhole whole)
    (hd : ds.all Char.isDigit = true) (hne : ds ≠ []) :
    IsLiteral negative (whole ++ '.' :: ds) := by
  refine ⟨⟨negative, whole.map digitValue, some (ds.map digitValue), none⟩, fun {rest} hr => ?_⟩
  have hpoint : EndsDigits (.char '.' :: (ds.map .char ++ rest)) := endsDigits_cons (by decide) _
  rw [List.map_append, List.map_cons, List.append_assoc, List.cons_append, Literal.scan,
    scanWhole_append hw hpoint]
  simp only [bind, Except.bind, scanFraction_point hd hne hr.endsDigits,
    scanExponent_of_endsNumber hr]

/-- A whole number, perhaps digits after a point, and an exponent. -/
theorem isLiteral_exponent (negative below : Bool) {whole fraction ds : List Char}
    (hw : IsWhole whole)
    (hf : fraction = [] ∨ ∃ fs, fraction = '.' :: fs ∧ fs.all Char.isDigit = true ∧ fs ≠ [])
    (hd : ds.all Char.isDigit = true) (hne : ds ≠ []) :
    IsLiteral negative (whole ++ (fraction ++ 'e' :: (if below then '-' else '+') :: ds)) := by
  have hexponent : ∀ {rest : List Symbol}, EndsNumber rest → _ := fun hr =>
    scanExponent_sign hd hne below hr.endsDigits
  have hend : ∀ rest : List Symbol, EndsDigits (.char 'e' :: rest) := endsDigits_cons (by decide)
  rcases hf with rfl | ⟨fs, rfl, hfs, hfne⟩
  · refine ⟨⟨negative, whole.map digitValue, none, some (below, ds.map digitValue)⟩,
      fun {rest} hr => ?_⟩
    have hfraction : ∀ rest : List Symbol, scanFraction (.char 'e' :: rest) =
      .ok (none, .char 'e' :: rest) := fun rest => rfl
    simp only [List.map_append, List.map_cons, List.append_assoc, List.cons_append,
      List.nil_append]
    rw [Literal.scan, scanWhole_append hw (hend _)]
    simp only [bind, Except.bind, hfraction, hexponent hr]
  · refine ⟨⟨negative, whole.map digitValue, some (fs.map digitValue),
      some (below, ds.map digitValue)⟩, fun {rest} hr => ?_⟩
    have hpoint : ∀ rest : List Symbol, EndsDigits (.char '.' :: rest) :=
      endsDigits_cons (by decide)
    simp only [List.map_append, List.map_cons, List.append_assoc, List.cons_append]
    rw [Literal.scan, scanWhole_append hw (hpoint _)]
    simp only [bind, Except.bind, scanFraction_point hfs hfne (hend _), hexponent hr]

theorem isWhole_cons {c : Char} {cs : List Char} (hd : (c :: cs).all Char.isDigit = true)
    (hc : digitValue c ≠ 0) : IsWhole (c :: cs) := by
  refine ⟨hd, List.cons_ne_nil c cs, ?_⟩
  rintro _ _ _ ⟨⟩
  exact hc

theorem isWhole_zero : IsWhole ['0'] :=
  ⟨by decide, by decide, by rintro _ _ _ ⟨⟩⟩

/-- The text of a decimal that is not zero. -/
theorem isLiteral_realDigits (negative : Bool) {d : Decimal} (h : 0 < d.coefficient) :
    IsLiteral negative (realDigits d) := by
  obtain ⟨c, cs, hds, hc⟩ := digits_eq_cons h
  have hall := all_isDigit_digits d.coefficient
  rw [hds] at hall
  obtain ⟨hfirst, hcs⟩ : c.isDigit = true ∧ cs.all Char.isDigit = true := by
    rwa [List.all_cons, Bool.and_eq_true] at hall
  have hsome : ∀ ds : List Char, (∀ x ∈ ds, x ∈ cs) → ds.all Char.isDigit = true := fun ds h =>
    List.all_eq_true.2 fun x hx => List.all_eq_true.1 hcs x (h x hx)
  have hwhole : ∀ ds : List Char, ds.all Char.isDigit = true → IsWhole (c :: ds) := fun ds hd =>
    isWhole_cons (by rw [List.all_cons, hfirst, hd]; rfl) hc
  unfold realDigits
  simp only [hds, List.length_cons, Nat.add_sub_cancel]
  -- As in the writer: the place of the point, or an exponent.
  split
  · split
    · have hzeros := hwhole (cs ++ List.replicate d.exponent.toNat '0') (by simp [hcs])
      have hpoint : IsLiteral negative (c :: (cs ++ _) ++ '.' :: ['0']) :=
        isLiteral_point negative hzeros (by decide) (by decide)
      simpa using hpoint
    · split
      · have hpoint := isLiteral_point negative
          (hwhole (cs.take (d.exponent + cs.length).toNat) (hsome _ fun _ => List.mem_of_mem_take))
          (hsome (cs.drop (d.exponent + cs.length).toNat) fun _ => List.mem_of_mem_drop)
          (by simp; omega)
        simpa using hpoint
      · have hpoint : IsLiteral negative (['0'] ++ '.' ::
            (List.replicate ((-(d.exponent + cs.length)).toNat - 1) '0' ++ c :: cs)) :=
          isLiteral_point negative isWhole_zero (by simp [hfirst, hcs]) (by simp)
        simpa using hpoint
  · have hfraction : (if cs.length + 1 = 1 then [] else '.' :: cs) = [] ∨
        ∃ fs, (if cs.length + 1 = 1 then [] else '.' :: cs) = '.' :: fs ∧
          fs.all Char.isDigit = true ∧ fs ≠ [] := by
      split
      · exact .inl rfl
      · exact .inr ⟨cs, rfl, hcs, by rintro rfl; simp_all⟩
    have hexponent := isLiteral_exponent negative (decide (d.exponent + cs.length < 0))
      (hwhole [] rfl) hfraction (all_isDigit_digits (d.exponent + cs.length).natAbs)
      (digits_ne_nil _)
    have hsign : (if d.exponent + (cs.length : Int) < 0 then ['-'] else ['+']) =
        [if decide (d.exponent + (cs.length : Int) < 0) then '-' else '+'] := by
      split <;> simp_all
    simpa [hsign] using hexponent

/-- The text of a floating point number is a sign and a literal. -/
theorem realChars_cases (bits : UInt64) :
    (∃ cs, realChars bits = '-' :: cs ∧ IsLiteral true cs) ∨ IsLiteral false (realChars bits) := by
  have hsize : ∀ negative, IsLiteral negative
      (if (Binary.ofBits bits).mantissa = 0 then ['0', '.', '0']
        else realDigits (Binary.ofBits bits).shortest) := by
    intro negative
    split
    · have hzero : IsLiteral negative (['0'] ++ '.' :: ['0']) :=
        isLiteral_point negative isWhole_zero (by decide) (by decide)
      exact hzero
    · rename_i hne
      exact isLiteral_realDigits negative (Binary.shortest_pos (Nat.pos_of_ne_zero hne))
  unfold realChars
  dsimp only
  split
  · exact .inl ⟨_, rfl, hsize true⟩
  · exact .inr (hsize false)

/-! ### Tokens -/

theorem skip_realOf (negative : Bool) (significand : Nat) (power : Int) :
    Token.skip (.number (realOf negative significand power)) = .ok () := by
  unfold realOf
  dsimp only
  split_ifs <;> rfl

/-- A literal is a number, or one that is too large. -/
theorem Literal.skip_number (l : Literal) : Token.skip (.number l.number) = .ok () := by
  unfold number
  dsimp only
  split
  · split_ifs <;> first | exact skip_realOf _ _ _ | rfl
  · split
    · exact skip_realOf _ _ _
    · split_ifs <;> first | exact skip_realOf _ _ _ | rfl

theorem IsLiteral.isDigit {negative : Bool} {cs : List Char} (h : IsLiteral negative cs) :
    ∃ c tail, cs = c :: tail ∧ c.isDigit = true := by
  obtain ⟨l, hl⟩ := h
  have hscan := hl endsNumber_nil
  cases cs with
  | nil => cases hscan
  | cons c tail =>
    refine ⟨c, tail, rfl, ?_⟩
    by_contra hc
    have hdigits := scanDigits_of_endsDigits
      (endsDigits_cons (c := c) (by simp [digit?, hc]) (tail.map .char))
    rw [List.append_nil, List.map_cons] at hscan
    simp [Literal.scan, scanWhole, scanSomeDigits, hdigits, bind, Except.bind] at hscan

/-- The token that the text of a number is read as. -/
def Number.token (n : Number) : Token :=
  match n.chars with
  | [] => .other
  | c :: cs => (Json.token c (cs.map .char)).1

/-- The text begins with no blank and no bracket, and is read as a token for a number. -/
def Number.ReadsAs (n : Number) (r : Except Fault Number) : Prop :=
  ∃ c cs, n.chars = c :: cs ∧ isSpace c = false ∧ c ≠ ']' ∧
    ∀ {rest}, EndsNumber rest → Json.token c (cs.map .char ++ rest) = (.number r, rest)

theorem Number.ReadsAs.token_eq {n : Number} {r : Except Fault Number} (h : n.ReadsAs r) :
    n.token = .number r := by
  obtain ⟨c, cs, hchars, -, -, htoken⟩ := h
  have hnil := htoken endsNumber_nil
  rw [List.append_nil] at hnil
  rw [Number.token, hchars]
  exact congrArg Prod.fst hnil

theorem Number.readsAs_integer (i : Integer) : (Number.integer i).ReadsAs (.ok (.integer i)) := by
  obtain ⟨c, cs, hchars, hs, hb, -⟩ := token_integer i endsNumber_nil
  refine ⟨c, cs, hchars, hs, hb, fun {rest} hr => ?_⟩
  obtain ⟨c', cs', hchars', -, -, htoken⟩ := token_integer i hr
  rw [hchars] at hchars'
  cases hchars'
  exact htoken

/-- A floating point number is read as one, which may be next to it. -/
theorem Number.exists_readsAs_real (bits : UInt64) :
    ∃ l : Literal, (Number.real bits).ReadsAs l.number := by
  rcases realChars_cases bits with ⟨cs, hchars, l, hl⟩ | hliteral
  · refine ⟨l, '-', cs, hchars, by decide, by decide, fun {rest} hr => ?_⟩
    simp [Json.token, punctuation?, word?, numberToken, hl hr]
  · obtain ⟨c, cs, hchars, hc⟩ := hliteral.isDigit
    obtain ⟨l, hl⟩ := hliteral
    obtain ⟨hs, hb⟩ := isSpace_of_isDigit hc
    refine ⟨l, c, cs, hchars, hs, hb, fun {rest} hr => ?_⟩
    have hscan := hl hr
    rw [hchars, List.map_cons, List.cons_append] at hscan
    rw [token_of_isDigit hc, numberToken, hscan]

theorem Number.exists_readsAs (n : Number) :
    ∃ r, n.ReadsAs r ∧ Token.skip (.number r) = .ok () := by
  cases n with
  | integer i => exact ⟨_, readsAs_integer i, rfl⟩
  | real bits =>
    obtain ⟨l, hl⟩ := exists_readsAs_real bits
    exact ⟨_, hl, l.skip_number⟩

end Json

end RepairLedger
