/-!
# Decimal numerals

Natural numbers written in decimal, and the texts that are read as a natural number below `2^64`:
an optional plus sign and at least one digit, with leading zeros allowed.
-/

namespace RepairLedger.Numeral

/-- The digit character of a number below ten. -/
def digitChar (n : Nat) : Char :=
  Char.ofNat (48 + n)

/-- The number that a digit character stands for. -/
def digitValue (c : Char) : Nat :=
  c.toNat - 48

/-- The decimal digits of a number, most significant first. -/
def digits (n : Nat) : List Char :=
  if n < 10 then [digitChar n] else digits (n / 10) ++ [digitChar (n % 10)]
termination_by n
decreasing_by omega

/-- The number that a run of digits stands for. -/
def value (ds : List Char) : Nat :=
  ds.foldl (fun n c => n * 10 + digitValue c) 0

/-- The digits of `n`, with zeros in front up to `width` of them. -/
def padded (width n : Nat) : List Char :=
  List.replicate (width - (digits n).length) '0' ++ digits n

/-- The decimal text of an integer. -/
def signed (i : Int) : List Char :=
  if i < 0 then '-' :: digits i.natAbs else digits i.natAbs

/-- The number below `2^64` that a text stands for. -/
def read? (cs : List Char) : Option UInt64 :=
  let ds := match cs with
    | '+' :: rest => rest
    | _ => cs
  if ds ≠ [] ∧ ds.all Char.isDigit ∧ value ds < UInt64.size then some (.ofNat (value ds)) else none

theorem digitValue_digitChar {n : Nat} (h : n < 10) : digitValue (digitChar n) = n :=
  (by decide : ∀ n < 10, digitValue (digitChar n) = n) n h

theorem isDigit_digitChar {n : Nat} (h : n < 10) : (digitChar n).isDigit = true :=
  (by decide : ∀ n < 10, (digitChar n).isDigit = true) n h

/-- A number written in decimal reads back. -/
theorem value_digits (n : Nat) : value (digits n) = n := by
  fun_induction digits n with
  | case1 n h => simp [value, digitValue_digitChar h]
  | case2 n h ih =>
    have : n % 10 < 10 := Nat.mod_lt _ (by omega)
    simp only [value, List.foldl_append, List.foldl_cons, List.foldl_nil] at ih ⊢
    rw [ih, digitValue_digitChar this]
    omega

theorem all_isDigit_digits (n : Nat) : (digits n).all Char.isDigit = true := by
  fun_induction digits n with
  | case1 n h => simp [isDigit_digitChar h]
  | case2 n h ih => simp_all [isDigit_digitChar (Nat.mod_lt n (by omega : 10 > 0))]

theorem digits_ne_nil (n : Nat) : digits n ≠ [] := by
  rw [digits]
  split <;> simp

/-- The decimal text of an integer. -/
def textOf (i : Int) : String :=
  String.ofList (signed i)

end RepairLedger.Numeral
