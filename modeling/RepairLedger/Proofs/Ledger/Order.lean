import Mathlib.Data.List.Nodup
import RepairLedger.Proofs.Ledger.Loaded
import RepairLedger.Proofs.Ledger.Runs

/-!
# The order of the records

A ledger is a list that is searched from its start, so nothing in its form keeps an id from standing
there twice.  Yet none ever does: the reader refuses a text in which it would, and entering a record
adds an id only where it is missing.  Hence every ledger that can come about (`Ledger.Reachable`) is
a finite map whose keys stand in the order in which they came (`Ledger.ordered_map`).

In a run of calls only an accepted creation adds a key, and nothing takes one away
(`Ledger.ids_run`).
-/

namespace RepairLedger

/-- The pull request that a call begins a record for, if it is a creation. -/
def Call.created? (c : Call) : Option PullId :=
  match c.action with
  | .create _ => some c.id
  | .finalize _ => none
  | .annotate _ => none

namespace Ledger

/-- The ledgers that can come about: the empty one, those read from a text, and what becomes of
these when records are entered. -/
inductive Reachable : Ledger → Prop
  | empty : Reachable .empty
  | read {symbols : List Text.Symbol} {l : Ledger} (h : ofSymbols symbols = .ok l) : Reachable l
  | exchange {l : Ledger} (h : Reachable l) (id : PullId) (record : Record) :
      Reachable (l.exchange id record).2

variable {l : Ledger} {c : Call} {id : PullId} {record : Record}

theorem Reachable.nodup (h : l.Reachable) : l.ids.Nodup := by
  induction h with
  | empty => exact .nil
  | read h => exact (readable_of_ofSymbols h).nodup
  | exchange _ id record ih =>
    rw [exchange_eq]
    exact nodup_ids_upsert ih

/-! ### Entries -/

theorem size_eq (l : Ledger) : l.size = l.ids.length :=
  List.length_map _ |>.symm

theorem nodup_entries (h : l.ids.Nodup) : l.entries.Nodup :=
  List.Nodup.of_map Prod.fst h

/-- Where no id stands twice, the entries are what is found. -/
theorem mem_entries_iff (h : l.ids.Nodup) : (id, record) ∈ l.entries ↔ l.get? id = some record := by
  obtain ⟨entries⟩ := l
  simp only [ids, get?] at h ⊢
  induction entries with
  | nil => simp
  | cons e rest ih =>
    obtain ⟨x, r⟩ := e
    obtain ⟨hx, hrest⟩ := List.nodup_cons.1 h
    rw [lookup_cons_eq_ite, List.mem_cons, ih hrest]
    by_cases hid : id = x
    · subst hid
      -- The id does not stand in the rest, so nothing is found there.
      have hnone : rest.lookup id = none := get?_eq_none_iff (l := ⟨rest⟩).2 hx
      simp [hnone, eq_comm]
    · simp [hid]

theorem contains_iff_mem_ids : l.contains id = true ↔ id ∈ l.ids := by
  rw [contains_eq, decide_eq_true_iff]

/-- To be contained is to be met when going through the entries. -/
theorem contains_iff_exists_mem : l.contains id = true ↔ ∃ r, (id, r) ∈ l.entries := by
  rw [contains_iff_mem_ids, ids, List.mem_map]
  constructor
  · rintro ⟨⟨_, r⟩, hr, rfl⟩
    exact ⟨r, hr⟩
  · rintro ⟨r, hr⟩
    exact ⟨(id, r), hr, rfl⟩

theorem ids_upsert_of_contains (h : l.contains id = true) (record : Record) :
    (l.upsert id record).ids = l.ids := by
  rw [ids_upsert, if_pos (contains_iff_mem_ids.1 h)]

theorem ids_upsert_of_not_contains (h : l.contains id = false) (record : Record) :
    (l.upsert id record).ids = l.ids ++ [id] := by
  have hid : id ∉ l.ids := get?_eq_none_iff.1 (contains_eq_false_iff.1 h)
  rw [ids_upsert, if_neg hid]

/-! ### Runs -/

/-- One call adds the id that it creates, and no other. -/
theorem ids_after_of_ok (h : l.perform c = .ok record) :
    (l.after c).ids = l.ids ++ c.created?.toList := by
  rw [after_of_ok h]
  obtain ⟨capture, ha, hc, -⟩ | ⟨capture, q, ha, hc, -⟩ | ⟨edit, q, ha, hc, -⟩ := perform_cases h
  · simp [Call.created?, ha, ids_upsert_of_not_contains (contains_eq_false_iff.2 hc)]
  · simp [Call.created?, ha, ids_upsert_of_contains (contains_iff.2 ⟨q, hc⟩)]
  · simp [Call.created?, ha, ids_upsert_of_contains (contains_iff.2 ⟨q, hc⟩)]

/-- **After a run the ids are those from before and behind them those created, in the order of their
creation.** -/
theorem ids_run (l : Ledger) (calls : List Call) :
    (l.run calls).ids = l.ids ++ (l.accepted calls).filterMap Call.created? := by
  induction calls generalizing l with
  | nil => simp [run, accepted]
  | cons c calls ih =>
    rw [run_cons, ih]
    cases h : l.perform c with
    | ok record =>
      rw [accepted_of_ok h, ids_after_of_ok h, List.append_assoc]
      cases hc : c.created? <;> simp [hc]
    | error e => rw [accepted_of_error h, after_of_error h]

/-- What can come about stays so when calls are performed. -/
theorem Reachable.run (h : l.Reachable) (calls : List Call) : (l.run calls).Reachable := by
  induction calls generalizing l with
  | nil => exact h
  | cons c calls ih =>
    rw [run_cons]
    cases hp : l.perform c with
    | ok record =>
      rw [after_of_ok hp]
      -- To enter a record is to exchange it for the one that was there.
      have hentered := h.exchange c.id record
      rw [exchange_eq] at hentered
      exact ih hentered
    | error e =>
      rw [after_of_error hp]
      exact ih h

/-- **A ledger is a finite map in the order of insertion.**  No id stands twice.  An exchange gives
back what was found under the id and changes that alone; the ids stay as they are, or the new one
comes behind them.  Going through the entries meets each record that can be found, and meets it
once.  A run of calls adds the created ids at the end, in their order, and removes nothing. -/
theorem ordered_map (h : l.Reachable) :
    l.ids.Nodup ∧
    (∀ (id : PullId) (record : Record),
      (l.exchange id record).1 = l.get? id ∧
      (l.exchange id record).2.get? id = some record ∧
      (∀ k, k ≠ id → (l.exchange id record).2.get? k = l.get? k) ∧
      (l.contains id = true →
        (l.exchange id record).2.ids = l.ids ∧ (l.exchange id record).2.size = l.size) ∧
      (l.contains id = false →
        (l.exchange id record).2.ids = l.ids ++ [id] ∧
          (l.exchange id record).2.size = l.size + 1)) ∧
    (∀ id, l.contains id = true ↔ ∃ r, (id, r) ∈ l.entries) ∧
    l.entries.Nodup ∧
    (∀ id r, (id, r) ∈ l.entries ↔ l.get? id = some r) ∧
    ∀ calls,
      (l.run calls).ids = l.ids ++ (l.accepted calls).filterMap Call.created? ∧
      ∀ id, l.contains id = true → (l.run calls).contains id = true := by
  refine ⟨h.nodup, fun id record => ?_, fun id => contains_iff_exists_mem, nodup_entries h.nodup,
    fun id r => mem_entries_iff h.nodup, fun calls => ⟨ids_run l calls, fun id hid => ?_⟩⟩
  · rw [exchange_eq]
    refine ⟨rfl, get?_upsert_self, fun k hk => get?_upsert_of_ne hk, fun hid => ?_, fun hid => ?_⟩
    · have hids := ids_upsert_of_contains hid record
      exact ⟨hids, by rw [size_eq, size_eq, hids]⟩
    · have hids := ids_upsert_of_not_contains hid record
      exact ⟨hids, by rw [size_eq, size_eq, hids, List.length_append, List.length_singleton]⟩
  · rw [contains_iff_mem_ids] at hid ⊢
    rw [ids_run]
    exact List.mem_append_left _ hid

/-- A ledger read from an empty object: a record is entered, and a run creates another one, is
refused a second creation and finishes the first record. -/
theorem ordered_map_entered :
    let k : PullId := ⟨"acme", "widget", 42⟩
    let other : PullId := ⟨"acme", "widget", 7⟩
    let state : PullState := ⟨"url", .epoch, none, none, "open", false, 42⟩
    let record : Record := .begin k.slug state .empty "diff" .epoch
    let create (id : PullId) : Call := ⟨id, .create ⟨state, "diff", .empty⟩, .epoch⟩
    let calls : List Call := [create other, create k, ⟨k, .finalize ⟨state, "final"⟩, .epoch⟩]
    let l := (empty.exchange k record).2
    (ofText "\x7b\x7d").toOption = some empty ∧ l.Reachable ∧ l.ids.Nodup ∧
      (l.exchange k record).1 = some record ∧ (l.exchange other record).2.size = 2 ∧
      (l.run calls).ids = [k, other] := by
  intro k other state record create calls l
  have hread : (ofText "\x7b\x7d").toOption = some empty := by decide +kernel
  have hl : l.Reachable := .exchange (.read (eq_ok_of_toOption hread)) k record
  obtain ⟨hnodup, hexchange, -, -, -, hrun⟩ := ordered_map hl
  exact ⟨hread, hl, hnodup, (hexchange k record).1, ((hexchange other record).2.2.2.2 rfl).2,
    (hrun calls).1⟩

end Ledger

end RepairLedger
