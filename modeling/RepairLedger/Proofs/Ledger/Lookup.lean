import RepairLedger.Ledger.Basic
import RepairLedger.Proofs.Result

/-!
# Looking records up

A ledger is known by what `Ledger.get?` finds in it.  Entering a record changes what is found under
its id and nothing else (`Ledger.get?_upsert`), and the ids stay as they were or one more comes at
their end (`Ledger.ids_upsert`).  The record that was found before is what `Ledger.exchange` gives
back (`Ledger.exchange_eq`).  The entered record stands in the place of the one that was found
(`Ledger.exists_place`), or behind the others (`Ledger.upsert_of_not_contains`).
-/

namespace RepairLedger

namespace Ledger

variable {l : Ledger} {id k : PullId} {record : Record}

theorem lookup_upsertEntry (entries : List (PullId × Record)) :
    (upsertEntry id record entries).lookup k =
      if k = id then some record else entries.lookup k := by
  induction entries with
  | nil => rw [upsertEntry_nil, lookup_cons_eq_ite]
  | cons e rest ih =>
    obtain ⟨x, r⟩ := e
    rw [upsertEntry_cons]
    split
    · rename_i hx
      subst hx
      rw [lookup_cons_eq_ite, lookup_cons_eq_ite]
      split <;> rfl
    · rename_i hx
      rw [lookup_cons_eq_ite, lookup_cons_eq_ite, ih]
      by_cases hk : k = x
      · subst hk
        simp only [if_true, hx, if_false]
      · simp only [hk, if_false]

theorem get?_upsert :
    (l.upsert id record).get? k = if k = id then some record else l.get? k :=
  lookup_upsertEntry l.entries

@[simp] theorem get?_upsert_self : (l.upsert id record).get? id = some record := by
  simp [get?_upsert]

theorem get?_upsert_of_ne (h : k ≠ id) : (l.upsert id record).get? k = l.get? k := by
  simp [get?_upsert, h]

@[simp] theorem get?_empty : empty.get? k = none := rfl

theorem contains_iff : l.contains id = true ↔ ∃ r, l.get? id = some r :=
  Option.isSome_iff_exists

theorem contains_eq_false_iff : l.contains id = false ↔ l.get? id = none := by
  simp [contains]

theorem get?_eq_none_iff : l.get? id = none ↔ id ∉ l.ids := by
  simp only [get?, List.lookup_eq_none_iff, ids, List.mem_map, not_exists, not_and, bne_iff_ne]
  exact ⟨fun h e he hi => h e he hi.symm, fun h e he hi => h e he hi.symm⟩

theorem contains_eq : l.contains id = decide (id ∈ l.ids) := by
  by_cases h : id ∈ l.ids
  · have : l.get? id ≠ none := fun hn => get?_eq_none_iff.1 hn h
    simpa [contains, h, Option.isSome_iff_ne_none] using this
  · simpa [contains_eq_false_iff, h] using get?_eq_none_iff.2 h

/-! ### Ids -/

theorem map_fst_upsertEntry (entries : List (PullId × Record)) :
    (upsertEntry id record entries).map Prod.fst =
      if id ∈ entries.map Prod.fst then entries.map Prod.fst
      else entries.map Prod.fst ++ [id] := by
  induction entries with
  | nil => rfl
  | cons e rest ih =>
    obtain ⟨x, r⟩ := e
    by_cases hx : x = id
    · simp [hx]
    · simp only [upsertEntry_cons, hx, if_false, List.map_cons, ih, List.mem_cons, Ne.symm hx,
        false_or]
      split <;> rfl

theorem ids_upsert :
    (l.upsert id record).ids = if id ∈ l.ids then l.ids else l.ids ++ [id] :=
  map_fst_upsertEntry l.entries

theorem nodup_ids_upsert (h : l.ids.Nodup) : (l.upsert id record).ids.Nodup := by
  rw [ids_upsert]
  split
  · exact h
  · rename_i hid
    refine List.nodup_append.2 ⟨h, by simp, ?_⟩
    rintro a ha b hb rfl
    rw [List.mem_singleton] at hb
    exact hid (hb ▸ ha)

/-- An entry of the new ledger is the entered one, or was there under another id. -/
theorem mem_upsertEntry {entries : List (PullId × Record)} {e : PullId × Record}
    (h : e ∈ upsertEntry id record entries) : e = (id, record) ∨ e ∈ entries := by
  induction entries with
  | nil => simpa using h
  | cons x rest ih =>
    obtain ⟨y, r⟩ := x
    rw [upsertEntry_cons] at h
    split at h
    · rename_i hy
      rcases List.mem_cons.1 h with rfl | h
      · exact Or.inl (by rw [hy])
      · exact Or.inr (List.mem_cons_of_mem _ h)
    · rcases List.mem_cons.1 h with rfl | h
      · exact Or.inr List.mem_cons_self
      · exact (ih h).imp_right (List.mem_cons_of_mem _)

/-- What holds of the records that are there and of the one that is entered holds of all. -/
theorem forall_upsert {P : Record → Prop} (h : ∀ e ∈ l.entries, P e.2) (hr : P record) :
    ∀ e ∈ (l.upsert id record).entries, P e.2 := by
  intro e he
  rcases mem_upsertEntry he with rfl | he
  · exact hr
  · exact h e he

theorem mem_upsertEntry_self (entries : List (PullId × Record)) :
    (id, record) ∈ upsertEntry id record entries := by
  induction entries with
  | nil => simp
  | cons x rest ih =>
    obtain ⟨y, r⟩ := x
    rw [upsertEntry_cons]
    split
    · rename_i hy
      simp [hy]
    · exact List.mem_cons_of_mem _ ih

/-! ### Places -/

theorem upsertEntry_of_not_mem {entries : List (PullId × Record)}
    (h : id ∉ entries.map Prod.fst) :
    upsertEntry id record entries = entries ++ [(id, record)] := by
  induction entries with
  | nil => rfl
  | cons e rest ih =>
    obtain ⟨x, q⟩ := e
    rw [List.map_cons, List.mem_cons, not_or] at h
    rw [upsertEntry_cons, if_neg (Ne.symm h.1), ih h.2, List.cons_append]

/-- A record of a new pull request comes behind the others. -/
theorem upsert_of_not_contains (h : l.contains id = false) :
    l.upsert id record = ⟨l.entries ++ [(id, record)]⟩ :=
  congrArg mk (upsertEntry_of_not_mem (get?_eq_none_iff.1 (contains_eq_false_iff.1 h)))

theorem upsertEntry_append {before after : List (PullId × Record)} {q : Record}
    (h : id ∉ before.map Prod.fst) :
    upsertEntry id record (before ++ (id, q) :: after) = before ++ (id, record) :: after := by
  induction before with
  | nil => rw [List.nil_append, upsertEntry_cons, if_pos rfl, List.nil_append]
  | cons e rest ih =>
    obtain ⟨x, r⟩ := e
    rw [List.map_cons, List.mem_cons, not_or] at h
    rw [List.cons_append, upsertEntry_cons, if_neg (Ne.symm h.1), ih h.2, List.cons_append]

/-- What is entered under the id of a record stands in its place. -/
theorem exists_place {q : Record} (h : l.get? id = some q) :
    ∃ before after, l.entries = before ++ (id, q) :: after ∧
      ∀ record, l.upsert id record = ⟨before ++ (id, record) :: after⟩ := by
  obtain ⟨before, after, hentries, hbefore⟩ := List.lookup_eq_some_iff.1 h
  have hnot : id ∉ before.map Prod.fst := by
    intro hmem
    obtain ⟨e, he, hid⟩ := List.mem_map.1 hmem
    exact bne_iff_ne.1 (hbefore e he) hid.symm
  refine ⟨before, after, hentries, fun record => ?_⟩
  rw [upsert, hentries, upsertEntry_append hnot]

/-! ### The replaced record -/

theorem exchangeEntry_fst (entries : List (PullId × Record)) :
    (exchangeEntry id record entries).1 = entries.lookup id := by
  induction entries with
  | nil => rfl
  | cons e rest ih =>
    obtain ⟨x, r⟩ := e
    rw [exchangeEntry, lookup_cons_eq_ite]
    by_cases hx : x = id
    · rw [if_pos hx, if_pos hx.symm]
    · rw [if_neg hx, if_neg (Ne.symm hx), ← ih]

/-- What an exchange gives back is what was found before. -/
theorem exchange_eq : l.exchange id record = (l.get? id, l.upsert id record) := by
  rw [exchange, exchangeEntry_fst]
  rfl

end Ledger

end RepairLedger
