import Mathlib.Tactic.ByContra
import RepairLedger.Proofs.Ledger.Runs

/-!
# The history of a record

What calls make of a record that is there already (`Follows`): what was captured at first stays, the
manual edits grow in the order of the calls, the state and the final diff are those of the last
finalization, and the time of the last change is the latest that was noted.

`follows_of_perform` says this of one call, and `Follows.trans` puts the calls of a run together:
`Ledger.exists_follows` is the law of a run from any ledger.  In a run from the empty ledger every
record begins with a creation (`Ledger.exists_creation`), so that its whole history is known
(`Ledger.record_history`).
-/

namespace RepairLedger

/-! ### The latest of some instants -/

namespace Instant

/-- The instant is one of these, and none of them comes after it. -/
def IsLatest (t : Instant) (ts : List Instant) : Prop :=
  t ∈ ts ∧ ∀ u ∈ ts, u.position ≤ t.position

theorem position_later (a b : Instant) :
    (a.later b).position = max a.position b.position := by
  unfold later
  split <;> omega

theorem later_eq_or (a b : Instant) : a.later b = a ∨ a.later b = b := by
  unfold later
  split
  · exact .inr rfl
  · exact .inl rfl

theorem isLatest_singleton (t : Instant) : IsLatest t [t] := by
  refine ⟨List.mem_singleton_self t, fun u hu => ?_⟩
  obtain rfl := List.mem_singleton.1 hu
  exact Int.le_refl _

theorem isLatest_pair (a b : Instant) : IsLatest (a.later b) [a, b] := by
  refine ⟨?_, fun u hu => ?_⟩
  · rcases later_eq_or a b with h | h <;> simp [h]
  · have := position_later a b
    simp only [List.mem_cons, List.not_mem_nil, or_false] at hu
    rcases hu with rfl | rfl <;> omega

/-- The latest of the instants up to now, and the latest from there on. -/
theorem IsLatest.trans {t₀ t₁ t₂ : Instant} {ts us : List Instant} (h : IsLatest t₁ (t₀ :: ts))
    (h' : IsLatest t₂ (t₁ :: us)) : IsLatest t₂ (t₀ :: (ts ++ us)) := by
  obtain ⟨hm, hle⟩ := h
  obtain ⟨hm', hle'⟩ := h'
  -- The instant in the middle counts as one of the first, and it is not later than the last one.
  refine ⟨?_, fun u hu => ?_⟩
  · rcases List.mem_cons.1 hm' with rfl | hu
    · exact List.mem_append_left us hm
    · exact List.mem_append_right (t₀ :: ts) hu
  · rcases List.mem_append.1 (show u ∈ (t₀ :: ts) ++ us from hu) with hu | hu
    · exact Int.le_trans (hle u hu) (hle' t₁ List.mem_cons_self)
    · exact hle' u (List.mem_cons_of_mem _ hu)

end Instant

/-! ### What calls say of one pull request -/

namespace Call

variable (k : PullId)

/-- The edit that a call adds to the record of the pull request. -/
def edit? (c : Call) : Option ManualEdit :=
  match c.action with
  | .annotate edit => if c.id = k then some edit else none
  | _ => none

/-- What a call captures of the pull request when it has been closed. -/
def final? (c : Call) : Option FinalCapture :=
  match c.action with
  | .finalize capture => if c.id = k then some capture else none
  | _ => none

/-- When a call changes the record of the pull request. -/
def change? (c : Call) : Option Instant :=
  match c.action with
  | .create _ => none
  | _ => if c.id = k then some c.now else none

variable {k} {c : Call}

theorem edit?_of_ne (h : k ≠ c.id) : c.edit? k = none := by
  unfold edit?; split <;> simp [h.symm]

theorem final?_of_ne (h : k ≠ c.id) : c.final? k = none := by
  unfold final?; split <;> simp [h.symm]

theorem change?_of_ne (h : k ≠ c.id) : c.change? k = none := by
  unfold change?; split <;> simp [h.symm]

end Call

/-- The state and the final diff are those that were captured, or those of the earlier record if
nothing was. -/
def AsCaptured (r₀ r : Record) : Option FinalCapture → Prop
  | none => r.state = r₀.state ∧ r.diffs.final = r₀.diffs.final
  | some capture => r.state = capture.state ∧ r.diffs.final = some capture.diff

/-- What accepted calls make of the record `r₀` of the pull request `k`. -/
structure Follows (k : PullId) (calls : List Call) (r₀ r : Record) : Prop where
  slug : r.slug = r₀.slug
  statistics : r.statistics = r₀.statistics
  initial : r.diffs.initial = r₀.diffs.initial
  createdAt : r.times.createdAt = r₀.times.createdAt
  edits : r.edits = r₀.edits ++ calls.filterMap (·.edit? k)
  captured : AsCaptured r₀ r (calls.filterMap (·.final? k)).getLast?
  lastModified : r.times.lastModified.IsLatest
    (r₀.times.lastModified :: calls.filterMap (·.change? k))

namespace Follows

variable {k : PullId} {calls calls' : List Call} {r₀ r₁ r₂ : Record}

theorem refl (k : PullId) (r : Record) : Follows k [] r r where
  slug := rfl
  statistics := rfl
  initial := rfl
  createdAt := rfl
  edits := (List.append_nil _).symm
  captured := ⟨rfl, rfl⟩
  lastModified := Instant.isLatest_singleton _

theorem trans (h : Follows k calls r₀ r₁) (h' : Follows k calls' r₁ r₂) :
    Follows k (calls ++ calls') r₀ r₂ where
  slug := h'.slug.trans h.slug
  statistics := h'.statistics.trans h.statistics
  initial := h'.initial.trans h.initial
  createdAt := h'.createdAt.trans h.createdAt
  edits := by rw [h'.edits, h.edits, List.filterMap_append, List.append_assoc]
  captured := by
    have h₁ := h.captured
    have h₂ := h'.captured
    rw [List.filterMap_append, List.getLast?_append]
    -- The later calls decide, unless none of them finalizes.
    cases hl : (calls'.filterMap (·.final? k)).getLast? with
    | some capture => rw [hl] at h₂; exact h₂
    | none =>
      rw [hl] at h₂
      obtain ⟨hs, hf⟩ := h₂
      rw [Option.none_or]
      cases hl₁ : (calls.filterMap (·.final? k)).getLast? with
      | none => rw [hl₁] at h₁; exact ⟨hs.trans h₁.1, hf.trans h₁.2⟩
      | some capture => rw [hl₁] at h₁; exact ⟨hs.trans h₁.1, hf.trans h₁.2⟩
  lastModified := by
    rw [List.filterMap_append]
    exact h.lastModified.trans h'.lastModified

/-- Calls on other pull requests do not matter. -/
theorem cons_of_ne {c : Call} (hk : k ≠ c.id) (h : Follows k calls r₀ r₁) :
    Follows k (c :: calls) r₀ r₁ where
  slug := h.slug
  statistics := h.statistics
  initial := h.initial
  createdAt := h.createdAt
  edits := by rw [List.filterMap_cons_none (Call.edit?_of_ne hk)]; exact h.edits
  captured := by rw [List.filterMap_cons_none (Call.final?_of_ne hk)]; exact h.captured
  lastModified := by
    rw [List.filterMap_cons_none (Call.change?_of_ne hk)]
    exact h.lastModified

/-- A record that has its final diff keeps one. -/
theorem isFinalized (h : Follows k calls r₀ r₁) (hf : r₀.isFinalized = true) :
    r₁.isFinalized = true := by
  have hc := h.captured
  unfold Record.isFinalized at hf ⊢
  cases hl : (calls.filterMap (·.final? k)).getLast? with
  | none => rw [hl] at hc; rw [hc.2]; exact hf
  | some capture => rw [hl] at hc; rw [hc.2]; rfl

/-- The time of the last change does not go back. -/
theorem position_lastModified_le (h : Follows k calls r₀ r₁) :
    r₀.times.lastModified.position ≤ r₁.times.lastModified.position :=
  h.lastModified.2 _ List.mem_cons_self

end Follows

/-! ### One call -/

theorem follows_finish {c : Call} {capture : FinalCapture} (ha : c.action = .finalize capture)
    (q : Record) : Follows c.id [c] q (q.finish capture.state capture.diff c.now) where
  slug := rfl
  statistics := rfl
  initial := rfl
  createdAt := rfl
  edits := by simp [Call.edit?, ha, Record.finish]
  captured := by simp [Call.final?, ha, Record.finish, PullState.merge, AsCaptured]
  lastModified := by
    have hc : [c].filterMap (·.change? c.id) = [c.now] := by simp [Call.change?, ha]
    rw [hc]
    exact Instant.isLatest_pair q.times.lastModified c.now

theorem follows_annotate {c : Call} {edit : ManualEdit} (ha : c.action = .annotate edit)
    (q : Record) : Follows c.id [c] q (q.annotate edit c.now) where
  slug := rfl
  statistics := rfl
  initial := rfl
  createdAt := rfl
  edits := by simp [Call.edit?, ha, Record.annotate]
  captured := by simp [Call.final?, ha, Record.annotate, AsCaptured]
  lastModified := by
    have hc : [c].filterMap (·.change? c.id) = [c.now] := by simp [Call.change?, ha]
    rw [hc]
    exact Instant.isLatest_pair q.times.lastModified c.now

namespace Ledger

variable {l : Ledger} {k : PullId} {c : Call} {r r₀ : Record} {calls : List Call}

/-- What an accepted call makes of the record that it is about. -/
theorem follows_of_perform (hr : l.get? c.id = some r₀) (h : l.perform c = .ok r) :
    Follows c.id [c] r₀ r := by
  obtain ⟨_, _, hn, _⟩ | ⟨capture, q, ha, hq, rfl⟩ | ⟨edit, q, ha, hq, rfl⟩ := perform_cases h
  · rw [hn] at hr
    cases hr
  · obtain rfl : q = r₀ := Option.some.inj (hq.symm.trans hr)
    exact follows_finish ha q
  · obtain rfl : q = r₀ := Option.some.inj (hq.symm.trans hr)
    exact follows_annotate ha q

/-! ### Runs -/

/-- A record stays, and becomes what the accepted calls make of it. -/
theorem exists_follows (h : l.get? k = some r₀) (calls : List Call) :
    ∃ r, (l.run calls).get? k = some r ∧ Follows k (l.accepted calls) r₀ r := by
  induction calls generalizing l r₀ with
  | nil => exact ⟨r₀, h, .refl k r₀⟩
  | cons c calls ih =>
    rw [run_cons]
    cases hp : l.perform c with
    | error e =>
      rw [accepted_of_error hp]
      exact ih (by rw [after_of_error hp]; exact h)
    | ok q =>
      rw [accepted_of_ok hp]
      -- The call makes its own record a new one, and leaves the others to the calls behind it.
      by_cases hk : k = c.id
      · subst hk
        obtain ⟨r, hr, hf⟩ := ih (l := l.after c) (by rw [after_of_ok hp]; exact get?_upsert_self)
        exact ⟨r, hr, (follows_of_perform h hp).trans hf⟩
      · obtain ⟨r, hr, hf⟩ := ih (l := l.after c) (by rw [get?_after_of_ne hk]; exact h)
        exact ⟨r, hr, hf.cons_of_ne hk⟩

/-- A record that was not there at first was created by one of the calls. -/
theorem exists_creation (h : l.get? k = none) (hr : (l.run calls).get? k = some r) :
    ∃ before after capture now r₀,
      calls = before ++ ⟨k, .create capture, now⟩ :: after ∧
      (l.run before).createInitial k capture now = .ok r₀ ∧
      Follows k (((l.run before).upsert k r₀).accepted after) r₀ r := by
  induction calls generalizing l with
  | nil =>
    rw [run, List.foldl_nil, h] at hr
    cases hr
  | cons c calls ih =>
    rw [run_cons] at hr
    cases hn : (l.after c).get? k with
    | none =>
      obtain ⟨before, after, capture, now, r₀, rfl, hc, hf⟩ := ih hn hr
      exact ⟨c :: before, after, capture, now, r₀, rfl, hc, hf⟩
    | some r₀ =>
      -- Only a creation makes a record where there was none.
      have hk : k = c.id := by
        by_contra hk
        rw [get?_after_of_ne hk, h] at hn
        cases hn
      subst hk
      cases hp : l.perform c with
      | error e =>
        rw [after_of_error hp, h] at hn
        cases hn
      | ok q =>
        obtain ⟨capture, ha, _, hq⟩ | ⟨_, _, _, hs, _⟩ | ⟨_, _, _, hs, _⟩ := perform_cases hp
        · have hl : l.after c = l.upsert c.id q := after_of_ok hp
          obtain ⟨r', hr', hf⟩ := exists_follows (l := l.upsert c.id q) get?_upsert_self calls
          rw [hl, hr'] at hr
          obtain rfl : r' = r := Option.some.inj hr
          obtain ⟨id, action, now⟩ := c
          obtain rfl : action = .create capture := ha
          exact ⟨[], calls, capture, now, q, rfl, createInitial_eq_ok.2 ⟨h, hq⟩, hf⟩
        · rw [h] at hs
          cases hs
        · rw [h] at hs
          cases hs

/-- **The history of a record.**  In a run of calls on any pull requests, refused ones included, a
record that is there at first becomes what the accepted calls on it make of it, and is never again
without a final diff.  A record that has just been created holds what was captured and nothing
else.  In a run from the empty ledger every record was created once, and all that came after
follows. -/
theorem record_history (k : PullId) :
    (∀ (l : Ledger) (calls : List Call) (r₀ : Record), l.get? k = some r₀ →
      ∃ r, (l.run calls).get? k = some r ∧ Follows k (l.accepted calls) r₀ r ∧
        (r₀.isFinalized = true → r.isFinalized = true)) ∧
    (∀ (l : Ledger) (capture : InitialCapture) (now : Instant) (r₀ : Record),
      l.createInitial k capture now = .ok r₀ →
      (l.upsert k r₀).get? k = some r₀ ∧ r₀.slug = k.slug ∧ r₀.state = capture.state ∧
        r₀.statistics = capture.statistics ∧ r₀.diffs = ⟨capture.diff, none⟩ ∧
        r₀.edits = [] ∧ r₀.times = ⟨now, now⟩) ∧
    (∀ (calls : List Call) (r : Record), (empty.run calls).get? k = some r →
      r.slug = k.slug ∧ r.times.createdAt.position ≤ r.times.lastModified.position ∧
      ∃ before after capture now r₀,
        calls = before ++ ⟨k, .create capture, now⟩ :: after ∧
        (empty.run before).createInitial k capture now = .ok r₀ ∧
        Follows k (((empty.run before).upsert k r₀).accepted after) r₀ r) := by
  refine ⟨fun l calls r₀ h => ?_, fun l capture now r₀ h => ?_, fun calls r h => ?_⟩
  · obtain ⟨r, hr, hf⟩ := exists_follows h calls
    exact ⟨r, hr, hf, hf.isFinalized⟩
  · obtain ⟨-, rfl⟩ := createInitial_eq_ok.1 h
    exact ⟨get?_upsert_self, rfl, rfl, rfl, rfl, rfl, rfl⟩
  · obtain ⟨before, after, capture, now, r₀, hc, hr₀, hf⟩ := exists_creation get?_empty h
    refine ⟨?_, ?_, before, after, capture, now, r₀, hc, hr₀, hf⟩
    · obtain ⟨-, rfl⟩ := createInitial_eq_ok.1 hr₀
      exact hf.slug
    · have hle := hf.position_lastModified_le
      obtain ⟨-, rfl⟩ := createInitial_eq_ok.1 hr₀
      rw [hf.createdAt]
      exact hle

/-- A finalization, a refused creation, an edit on another pull request and an edit, with a clock
that goes back. -/
theorem record_history_reopened :
    let k : PullId := ⟨"acme", "widget", 42⟩
    let other : PullId := ⟨"acme", "widget", 7⟩
    let early := Instant.epoch
    let late : Instant := ⟨⟨2021, 3, 1, by decide⟩, 32400, 0, by decide, by decide⟩
    let opened : PullState := ⟨"url", early, none, none, "open", false, 42⟩
    let merged : PullState := ⟨"url", early, some late, some late, "closed", true, 42⟩
    let capture : InitialCapture := ⟨opened, "diff", .empty⟩
    let r₀ : Record := .begin k.slug opened .empty "diff" early
    let edit : ManualEdit := ⟨.afterOpening, "why", "edit"⟩
    let calls : List Call := [⟨k, .finalize ⟨merged, "final"⟩, late⟩, ⟨k, .create capture, late⟩,
      ⟨other, .annotate edit, late⟩, ⟨k, .annotate edit, early⟩]
    (∃ r, ((empty.upsert k r₀).run calls).get? k = some r ∧
      Follows k ((empty.upsert k r₀).accepted calls) r₀ r ∧
      (r₀.isFinalized = true → r.isFinalized = true)) ∧
    (empty.upsert k r₀).get? k = some r₀ ∧
    ∃ r, (empty.run [⟨k, .create capture, early⟩]).get? k = some r ∧ r.slug = k.slug := by
  intro k other early late opened merged capture r₀ edit calls
  have hr₀ : (empty.upsert k r₀).get? k = some r₀ := get?_upsert_self
  exact ⟨(record_history k).1 (empty.upsert k r₀) calls r₀ hr₀,
    ((record_history k).2.1 empty capture early r₀ rfl).1,
    r₀, hr₀, ((record_history k).2.2 [⟨k, .create capture, early⟩] r₀ hr₀).1⟩

end Ledger

end RepairLedger
