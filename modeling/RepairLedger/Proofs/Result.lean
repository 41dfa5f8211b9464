/-!
# Results and entries

When a result that is made of another one is a success: the other one has been a success too.  And
what is found among entries, one by one.
-/

namespace RepairLedger

variable {ε κ α β : Type}

theorem bind_eq_ok {x : Except ε α} {f : α → Except ε β} {b : β} :
    (x >>= f) = .ok b ↔ ∃ a, x = .ok a ∧ f a = .ok b := by
  cases x with
  | error e =>
    constructor
    · rintro ⟨⟩
    · rintro ⟨_, ⟨⟩, _⟩
  | ok a =>
    constructor
    · intro h
      exact ⟨a, rfl, h⟩
    · rintro ⟨_, ⟨⟩, h⟩
      exact h

theorem map_eq_ok {x : Except ε α} {f : α → β} {b : β} :
    x.map f = .ok b ↔ ∃ a, x = .ok a ∧ f a = b := by
  constructor
  · intro h
    cases x with
    | error e => cases h
    | ok a => exact ⟨a, rfl, Except.ok.inj h⟩
  · rintro ⟨a, rfl, rfl⟩
    rfl

theorem mapError_eq_ok {x : Except κ α} {f : κ → ε} {a : α} :
    x.mapError f = .ok a ↔ x = .ok a := by
  constructor
  · intro h
    cases x <;> cases h
    rfl
  · rintro rfl
    rfl

theorem mapError_eq_error {x : Except κ α} {f : κ → ε} {e : ε} :
    x.mapError f = .error e ↔ ∃ k, x = .error k ∧ f k = e := by
  constructor
  · intro h
    cases x with
    | error k => exact ⟨k, rfl, Except.error.inj h⟩
    | ok a => cases h
  · rintro ⟨k, rfl, rfl⟩
    rfl

theorem eq_ok_of_toOption {x : Except ε α} {a : α} (h : x.toOption = some a) : x = .ok a := by
  cases x with
  | error e => cases h
  | ok b => exact congrArg Except.ok (Option.some.inj h)

theorem lookup_cons_eq_ite [BEq κ] [LawfulBEq κ] [DecidableEq κ] (k x : κ) (a : α)
    (rest : List (κ × α)) :
    List.lookup k ((x, a) :: rest) = if k = x then some a else rest.lookup k := by
  rw [List.lookup_cons]
  by_cases hk : k = x
  · simp [hk]
  · simp [beq_false_of_ne hk, hk]

end RepairLedger
