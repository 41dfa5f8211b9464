/-!
# Cutting a text at a character

`cutFirst c` and `cutLast c` take a text apart at the first or the last `c` in it.  The character
itself belongs to neither part; a text without it cannot be cut.
-/

namespace RepairLedger.Text

/-- The parts before and after the first `c`. -/
def cutFirst (c : Char) : List Char → Option (List Char × List Char)
  | [] => none
  | x :: xs =>
    if x = c then some ([], xs)
    else (cutFirst c xs).map fun (before, after) => (x :: before, after)

/-- The parts before and after the last `c`. -/
def cutLast (c : Char) : List Char → Option (List Char × List Char)
  | [] => none
  | x :: xs =>
    match cutLast c xs with
    | some (before, after) => some (x :: before, after)
    | none => if x = c then some ([], xs) else none

/-- The pieces between the characters `c`; there is one piece more than there are such
characters. -/
def pieces (c : Char) : List Char → List (List Char)
  | [] => [[]]
  | x :: xs =>
    match pieces c xs with
    | [] => [[x]]
    | piece :: rest => if x = c then [] :: piece :: rest else (x :: piece) :: rest

theorem cutFirst_eq_some {c : Char} {cs before after : List Char}
    (h : cutFirst c cs = some (before, after)) : cs = before ++ c :: after ∧ c ∉ before := by
  induction cs generalizing before with
  | nil => simp [cutFirst] at h
  | cons x xs ih =>
    by_cases hx : x = c
    · simp only [cutFirst, hx, if_true, Option.some.injEq, Prod.mk.injEq] at h
      simp [← h.1, ← h.2, hx]
    · simp only [cutFirst, hx, if_false, Option.map_eq_some_iff, Prod.exists, Prod.mk.injEq] at h
      obtain ⟨b, a, hb, rfl, rfl⟩ := h
      obtain ⟨rfl, hc⟩ := ih hb
      exact ⟨rfl, by simp [hc, Ne.symm hx]⟩

example : cutFirst '/' ['a', '/', 'b', '/', 'c'] = some (['a'], ['b', '/', 'c']) := by decide

example : cutLast '/' ['a', '/', 'b', '/', 'c'] = some (['a', '/', 'b'], ['c']) := by decide

example : pieces ',' ['a', ',', ',', 'b'] = [['a'], [], ['b']] := by decide

end RepairLedger.Text
