import RepairLedger.Proofs.Ledger.History
import RepairLedger.Proofs.Ledger.Order

/-!
# Calls that commute

What a call gives depends on the record of its pull request and on nothing else
(`Ledger.perform_congr`).  So calls on different pull requests do not see each other, and it does
not matter which of them comes first, except that two new entries stand in the order in which they
came (`Ledger.upsert_comm`, `Ledger.upsert_of_not_contains`).

A finalization and a manual edit of one record change different parts of it, and the time of the
last change is the later one of both (`Record.annotate_finish`).  They commute as well.  Both facts
together are `Ledger.independent_calls_commute`.
-/

namespace RepairLedger

/-! ### Records -/

theorem Instant.later_right_comm (a b c : Instant) :
    (a.later b).later c = (a.later c).later b := by
  apply eq_of_position_eq
  simp only [position_later]
  omega

theorem RecordTimes.touch_comm (times : RecordTimes) (t u : Instant) :
    (times.touch t).touch u = (times.touch u).touch t := by
  simp only [touch, Instant.later_right_comm]

/-- To finish a record and to annotate it are changes of different parts. -/
theorem Record.annotate_finish (r : Record) (state : PullState) (diff : String) (edit : ManualEdit)
    (t u : Instant) :
    (r.finish state diff t).annotate edit u = (r.annotate edit u).finish state diff t := by
  simp only [finish, annotate, RecordTimes.touch_comm r.times t u]

namespace Ledger

variable {l m : Ledger} {c d : Call} {id k : PullId} {r s : Record}

/-! ### Entering two records -/

theorem upsertEntry_self (entries : List (PullId × Record)) :
    upsertEntry id s (upsertEntry id r entries) = upsertEntry id s entries := by
  induction entries with
  | nil => simp
  | cons e rest ih =>
    obtain ⟨x, q⟩ := e
    by_cases hx : x = id
    · simp [hx]
    · simp [hx, ih]

/-- Of two records of one pull request the later one is left. -/
theorem upsert_upsert_self : (l.upsert id r).upsert id s = l.upsert id s :=
  congrArg mk (upsertEntry_self l.entries)

theorem upsertEntry_comm {entries : List (PullId × Record)} (hne : id ≠ k)
    (hk : k ∈ entries.map Prod.fst) :
    upsertEntry k s (upsertEntry id r entries) = upsertEntry id r (upsertEntry k s entries) := by
  induction entries with
  | nil => cases hk
  | cons e rest ih =>
    obtain ⟨x, q⟩ := e
    by_cases hid : x = id
    · subst hid
      simp [hne]
    · by_cases hx : x = k
      · subst hx
        simp [hid]
      · have hrest : k ∈ rest.map Prod.fst := (List.mem_cons.1 hk).resolve_left (Ne.symm hx)
        simp [hid, hx, ih hrest]

/-- Records of different pull requests can be entered in either order if one of the two is there
already. -/
theorem upsert_comm (hne : id ≠ k) (hk : l.contains k = true) :
    (l.upsert id r).upsert k s = (l.upsert k s).upsert id r :=
  congrArg mk (upsertEntry_comm hne (contains_iff_mem_ids.1 hk))

/-! ### Calls on different pull requests -/

/-- A call sees no more of a ledger than the record of its pull request. -/
theorem perform_congr (h : l.get? c.id = m.get? c.id) : l.perform c = m.perform c := by
  have hcontains : l.contains c.id = m.contains c.id := by rw [contains, contains, h]
  unfold perform
  split
  · simp only [createInitial, Operation.check, hcontains]
  · simp only [finalize, h]
  · simp only [appendEdit, h]

theorem perform_after_of_ne (h : c.id ≠ d.id) : (l.after d).perform c = l.perform c :=
  perform_congr (get?_after_of_ne h)

/-- The call is an accepted creation, and this is the record that it makes. -/
def Creates (l : Ledger) (c : Call) (r : Record) : Prop :=
  (∃ capture, c.action = .create capture) ∧ l.perform c = .ok r

theorem Creates.not_contains (h : l.Creates c r) : l.contains c.id = false := by
  obtain ⟨⟨capture, ha⟩, hok⟩ := h
  rw [perform, ha] at hok
  exact contains_eq_false_iff.2 (createInitial_eq_ok.1 hok).1

/-- An accepted call that is no creation is about a record that is there. -/
theorem contains_of_ok (h : l.perform c = .ok r) (hc : ¬ l.Creates c r) :
    l.contains c.id = true := by
  obtain ⟨capture, ha, -, -⟩ | ⟨_, q, -, hq, -⟩ | ⟨_, q, -, hq, -⟩ := perform_cases h
  · exact absurd ⟨⟨capture, ha⟩, h⟩ hc
  · exact contains_iff.2 ⟨q, hq⟩
  · exact contains_iff.2 ⟨q, hq⟩

theorem run_pair_of_ok (hne : c.id ≠ d.id) (hc : l.perform c = .ok r) (hd : l.perform d = .ok s) :
    l.run [c, d] = (l.upsert c.id r).upsert d.id s := by
  have hd' : (l.after c).perform d = .ok s := (perform_after_of_ne hne.symm).trans hd
  show (l.after c).after d = _
  rw [after_of_ok hd', after_of_ok hc]

/-- Two creations leave their records in the order in which they came. -/
theorem run_pair_of_creates (hne : c.id ≠ d.id) (hc : l.Creates c r) (hd : l.Creates d s) :
    l.run [c, d] = ⟨l.entries ++ [(c.id, r), (d.id, s)]⟩ := by
  have hnew : (l.upsert c.id r).contains d.id = false := by
    rw [contains, get?_upsert_of_ne hne.symm]
    exact hd.not_contains
  rw [run_pair_of_ok hne hc.2 hd.2, upsert_of_not_contains hnew,
    upsert_of_not_contains hc.not_contains, List.append_assoc, List.singleton_append]

/-- Calls on different pull requests commute unless both are accepted creations. -/
theorem run_pair_comm (hne : c.id ≠ d.id) (h : ¬ ((∃ r, l.Creates c r) ∧ ∃ s, l.Creates d s)) :
    l.run [c, d] = l.run [d, c] := by
  show (l.after c).after d = (l.after d).after c
  cases hc : l.perform c with
  | error e =>
    rw [after_of_error hc, after_of_error ((perform_after_of_ne hne).trans hc)]
  | ok r =>
    cases hd : l.perform d with
    | error e =>
      rw [after_of_error hd, after_of_error ((perform_after_of_ne hne.symm).trans hd)]
    | ok s =>
      have hcd : l.run [c, d] = (l.upsert c.id r).upsert d.id s := run_pair_of_ok hne hc hd
      have hdc : l.run [d, c] = (l.upsert d.id s).upsert c.id r := run_pair_of_ok hne.symm hd hc
      refine hcd.trans (Eq.trans ?_ hdc.symm)
      -- One of the two changes a record that is there.
      by_cases hcreates : l.Creates c r
      · have hnot : ¬ l.Creates d s := fun hd => h ⟨⟨r, hcreates⟩, s, hd⟩
        exact upsert_comm hne (contains_of_ok hd hnot)
      · exact (upsert_comm hne.symm (contains_of_ok hc hcreates)).symm

/-! ### Calls on one pull request -/

/-- Whether a call is accepted, and why it is not. -/
def verdict (l : Ledger) (c : Call) : Except LedgerError Unit :=
  (l.perform c).map fun _ => ()

/-- What decides about a call is whether there is a record, not which. -/
theorem verdict_congr (h : l.contains c.id = m.contains c.id) : l.verdict c = m.verdict c := by
  have hget : l.get? c.id = none ∧ m.get? c.id = none ∨
      ∃ q q', l.get? c.id = some q ∧ m.get? c.id = some q' := by
    unfold contains at h
    cases hl : l.get? c.id <;> cases hm : m.get? c.id <;> simp_all
  unfold verdict perform
  split
  · simp only [createInitial, Operation.check, h]
  · obtain ⟨hl, hm⟩ | ⟨q, q', hl, hm⟩ := hget
    · simp only [finalize, hl, hm]
    · simp only [finalize, hl, hm]
      rfl
  · obtain ⟨hl, hm⟩ | ⟨q, q', hl, hm⟩ := hget
    · simp only [appendEdit, hl, hm]
    · simp only [appendEdit, hl, hm]
      split <;> rfl

/-- After another call on its pull request that is no creation, a call is accepted or refused as
before. -/
theorem verdict_after (hid : c.id = d.id) (hd : ∀ capture, d.action ≠ .create capture) :
    (l.after d).verdict c = l.verdict c := by
  cases hp : l.perform d with
  | error e => rw [after_of_error hp]
  | ok r =>
    have hthere : l.contains d.id = true := contains_of_ok hp fun h => by
      obtain ⟨⟨capture, ha⟩, -⟩ := h
      exact hd capture ha
    refine verdict_congr ?_
    rw [after_of_ok hp, hid, hthere, contains_iff]
    exact ⟨r, get?_upsert_self⟩

/-- A finalization and a manual edit of one record commute. -/
theorem run_finalize_annotate (id : PullId) (capture : FinalCapture) (edit : ManualEdit)
    (t u : Instant) :
    l.run [⟨id, .finalize capture, t⟩, ⟨id, .annotate edit, u⟩] =
      l.run [⟨id, .annotate edit, u⟩, ⟨id, .finalize capture, t⟩] := by
  set f : Call := ⟨id, .finalize capture, t⟩
  set a : Call := ⟨id, .annotate edit, u⟩
  show (l.after f).after a = (l.after a).after f
  cases hq : l.get? id with
  | none =>
    have hf : l.perform f = .error (.noInitialRecord id) := by
      simp only [f, perform, finalize, hq]
    have ha : l.perform a = .error (.recordNotFound id) := by
      simp only [a, perform, appendEdit, hq]
    rw [after_of_error hf, after_of_error ha, after_of_error hf]
  | some q =>
    have hf : ∀ {m : Ledger} {q}, m.get? id = some q →
        m.after f = m.upsert id (q.finish capture.state capture.diff t) := fun hq =>
      after_of_ok (finalize_eq_ok.2 ⟨_, hq, rfl⟩)
    by_cases hblank : Text.isBlankText edit.reason = false
    · have ha : ∀ {m : Ledger} {q}, m.get? id = some q →
          m.after a = m.upsert id (q.annotate edit u) := fun hq =>
        after_of_ok (appendEdit_eq_ok.2 ⟨_, hq, hblank, rfl⟩)
      rw [hf hq, ha get?_upsert_self, ha hq, hf get?_upsert_self, upsert_upsert_self,
        upsert_upsert_self, Record.annotate_finish]
    · -- An edit without a reason is refused before and after.
      have ha : ∀ m : Ledger, m.after a = m := by
        intro m
        cases hp : m.perform a with
        | error e => exact after_of_error hp
        | ok r =>
          obtain ⟨_, -, hreason, -⟩ := appendEdit_eq_ok.1 hp
          exact absurd hreason hblank
      rw [ha, ha]

/-- **Independent calls commute.**  Calls on different pull requests give the same records and the
same errors whichever comes first, and the same ledger in the end; only if both create a record do
the two new entries stand in the order in which they came.  A finalization and a manual edit of one
pull request are accepted or refused alike in both orders, and they end in the same ledger whatever
the times are at which they come. -/
theorem independent_calls_commute (l : Ledger) (c d : Call) :
    (c.id ≠ d.id →
      (l.after d).perform c = l.perform c ∧ (l.after c).perform d = l.perform d ∧
      (∀ r s, l.Creates c r → l.Creates d s →
        l.run [c, d] = ⟨l.entries ++ [(c.id, r), (d.id, s)]⟩ ∧
        l.run [d, c] = ⟨l.entries ++ [(d.id, s), (c.id, r)]⟩) ∧
      (¬ ((∃ r, l.Creates c r) ∧ ∃ s, l.Creates d s) → l.run [c, d] = l.run [d, c])) ∧
    ∀ capture edit, c.action = .finalize capture → d.action = .annotate edit → c.id = d.id →
      (l.after d).verdict c = l.verdict c ∧ (l.after c).verdict d = l.verdict d ∧
      l.run [c, d] = l.run [d, c] := by
  constructor
  · intro hne
    exact ⟨perform_after_of_ne hne, perform_after_of_ne hne.symm,
      fun r s hc hd => ⟨run_pair_of_creates hne hc hd, run_pair_of_creates hne.symm hd hc⟩,
      run_pair_comm hne⟩
  · intro capture edit hc hd hid
    have hc' : ∀ capture, c.action ≠ .create capture := by simp [hc]
    have hd' : ∀ capture, d.action ≠ .create capture := by simp [hd]
    refine ⟨verdict_after hid hd', verdict_after hid.symm hc', ?_⟩
    obtain ⟨id, _, t⟩ := c
    obtain ⟨_, _, u⟩ := d
    cases hc
    cases hd
    cases hid
    exact run_finalize_annotate id capture edit t u

/-- Two creations, and a finalization with an edit that comes behind it with an earlier time. -/
theorem independent_calls_commute_earlier_edit :
    let k : PullId := ⟨"acme", "widget", 42⟩
    let other : PullId := ⟨"acme", "widget", 7⟩
    let late : Instant := ⟨⟨2021, 3, 4, by decide⟩, 0, 0, by decide, by decide⟩
    let state : PullState := ⟨"url", .epoch, none, none, "open", false, 42⟩
    let create (id : PullId) : Call := ⟨id, .create ⟨state, "diff", .empty⟩, .epoch⟩
    let begun (id : PullId) : Record := .begin id.slug state .empty "diff" .epoch
    let finalize : Call := ⟨k, .finalize ⟨state, "final"⟩, late⟩
    let annotate : Call := ⟨k, .annotate ⟨.afterOpening, "why", "edit"⟩, .epoch⟩
    let l : Ledger := ⟨[(k, begun k)]⟩
    (empty.run [create k, create other]).entries = [(k, begun k), (other, begun other)] ∧
      (empty.run [create other, create k]).entries = [(other, begun other), (k, begun k)] ∧
      l.run [finalize, create other] = l.run [create other, finalize] ∧
      l.run [finalize, annotate] = l.run [annotate, finalize] ∧
      ((l.run [finalize, annotate]).get? k).map (·.times.lastModified) = some late := by
  intro k other late state create begun finalize annotate l
  have hne : k ≠ other := by decide
  have hcreates : ∀ id, empty.Creates (create id) (begun id) := fun id => ⟨⟨_, rfl⟩, rfl⟩
  obtain ⟨-, -, htwo, -⟩ := (independent_calls_commute empty (create k) (create other)).1 hne
  obtain ⟨h₁, h₂⟩ := htwo _ _ (hcreates k) (hcreates other)
  obtain ⟨-, -, -, hone⟩ := (independent_calls_commute l finalize (create other)).1 hne
  have hnot : ¬ ((∃ r, l.Creates finalize r) ∧ ∃ s, l.Creates (create other) s) := by
    rintro ⟨⟨_, ⟨_, ha⟩, _⟩, -⟩
    cases ha
  exact ⟨congrArg entries h₁, congrArg entries h₂, hone hnot,
    ((independent_calls_commute l finalize annotate).2 _ _ rfl rfl rfl).2.2, by decide +kernel⟩

end Ledger

end RepairLedger
