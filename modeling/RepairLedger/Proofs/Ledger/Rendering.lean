import RepairLedger.Command.Run
import RepairLedger.Ledger.Report
import RepairLedger.Proofs.Ledger.History
import RepairLedger.Proofs.Ledger.Order
import RepairLedger.Proofs.Result

/-!
# Rendering

Statistics are judged once, when they are captured (`Statistics.IsJudged`), and read again whenever
a record is summarized.  The second reading cannot fail where the first one did not
(`Statistics.IsJudged.exists_repairs`), and it finds one repair for each element of the payload
(`Statistics.lists_of_repairs`).

No operation touches the statistics of a record once it is there, so in a ledger that grew from
judged captures every record can be summarized (`Ledger.exists_summary`).  Hence the report of such
a ledger, and the view of each of its records, can always be made: `Ledger.rendering_succeeds`.
-/

namespace RepairLedger

open Json

namespace Statistics

/-- The elements of the payload that stand for repairs. -/
def listed (s : Statistics) : List Value :=
  match Value.member? repairsName s.members with
  | some (.array items) => items
  | _ => []

/-- Statistics that are empty or have been accepted. -/
def IsJudged (s : Statistics) : Prop :=
  s = empty ∨ ∃ v, ofValue v = .ok s

/-- The repairs are those that the elements stand for, one for each. -/
def Lists (items : List Value) (rs : List Repair) : Prop :=
  List.Forall₂ (fun v r => ∃ index, repair index v = .ok r) items rs

theorem lists_of_repairsFrom {index : Nat} {items : List Value} {rs : List Repair}
    (h : repairsFrom index items = .ok rs) : Lists items rs := by
  induction items generalizing index rs with
  | nil =>
    obtain rfl := Except.ok.inj h
    exact .nil
  | cons v items ih =>
    obtain ⟨r, hr, h⟩ := bind_eq_ok.1 h
    obtain ⟨rest, hrest, h⟩ := bind_eq_ok.1 h
    obtain rfl := Except.ok.inj h
    exact .cons ⟨index, hr⟩ (ih hrest)

/-- What can be read of a payload is one repair for each element. -/
theorem lists_of_repairs {s : Statistics} {rs : List Repair} (h : s.repairs = .ok rs) :
    Lists s.listed rs := by
  unfold repairs at h
  unfold listed
  split at h
  · rename_i hnone
    obtain rfl := Except.ok.inj h
    rw [hnone]
    exact .nil
  · rename_i items hitems
    rw [hitems]
    exact lists_of_repairsFrom h
  · cases h

/-- The repairs of judged statistics can be read. -/
theorem IsJudged.exists_repairs {s : Statistics} (h : s.IsJudged) : ∃ rs, s.repairs = .ok rs := by
  obtain rfl | ⟨v, hv⟩ := h
  · exact ⟨[], rfl⟩
  · unfold ofValue at hv
    split at hv
    · obtain rfl := Except.ok.inj hv
      exact ⟨[], rfl⟩
    · split at hv
      · cases hv
      · -- To judge a payload that is not empty is to read its repairs.
        obtain ⟨rs, hrs, rfl⟩ := map_eq_ok.1 hv
        exact ⟨rs, hrs⟩
    · cases hv

end Statistics

/-! ### One record -/

namespace Summary

/-- The summary shows the repairs of a payload, in whatever order. -/
def Shows (s : Summary) (statistics : Statistics) : Prop :=
  s.repairs.length = statistics.listed.length ∧
    ∃ rs, s.repairs.Perm rs ∧ Statistics.Lists statistics.listed rs

theorem perm_sortRepairs (rs : List Repair) : (sortRepairs rs).Perm rs :=
  List.mergeSort_perm rs _

theorem trans_rule (a b c : Repair) :
    decide (a.rule ≤ b.rule) → decide (b.rule ≤ c.rule) → decide (a.rule ≤ c.rule) := by
  simp only [decide_eq_true_eq]
  exact UInt64.le_trans

theorem total_rule (a b : Repair) : decide (a.rule ≤ b.rule) || decide (b.rule ≤ a.rule) := by
  simp only [Bool.or_eq_true, decide_eq_true_eq]
  exact UInt64.le_total _ _

theorem pairwise_sortRepairs (rs : List Repair) :
    (sortRepairs rs).Pairwise fun a b => a.rule ≤ b.rule :=
  (List.pairwise_mergeSort trans_rule total_rule rs).imp of_decide_eq_true

/-- Sorting leaves the repairs of one rule in their order. -/
theorem filter_sortRepairs (rs : List Repair) (rule : UInt64) :
    (sortRepairs rs).filter (·.rule = rule) = rs.filter (·.rule = rule) := by
  have hsame : (rs.filter (·.rule = rule)).Pairwise fun a b => decide (a.rule ≤ b.rule) := by
    refine List.pairwise_of_forall_mem_list fun a ha b hb => ?_
    rw [of_decide_eq_true (List.mem_filter.1 ha).2, of_decide_eq_true (List.mem_filter.1 hb).2]
    exact decide_eq_true (UInt64.le_refl rule)
  -- What is sorted already is found again behind the sorting, and there are no more of that rule.
  have hsub := (List.sublist_mergeSort trans_rule total_rule hsame List.filter_sublist).filter
    (·.rule = rule)
  rw [List.filter_filter] at hsub
  simp only [Bool.and_self] at hsub
  exact (hsub.eq_of_length ((perm_sortRepairs rs).filter _).length_eq.symm).symm

/-- A record with judged statistics has a summary, which shows them. -/
theorem exists_ofRecord {r : Record} (h : r.statistics.IsJudged) :
    ∃ s, ofRecord r = .ok s ∧ s.Shows r.statistics := by
  obtain ⟨rs, hrs⟩ := h.exists_repairs
  have hlists := Statistics.lists_of_repairs hrs
  unfold ofRecord
  rw [hrs]
  refine ⟨_, rfl, ?_, rs, perm_sortRepairs rs, hlists⟩
  exact (perm_sortRepairs rs).length_eq.trans hlists.length_eq.symm

end Summary

/-! ### Ledgers -/

section Calls

variable {ε α β : Type} {f : α → Except ε β} {as : List α}

/-- If each call gives a result, so does the list of them. -/
theorem exists_mapM (h : ∀ a ∈ as, ∃ b, f a = .ok b) :
    ∃ bs, as.mapM f = .ok bs ∧ List.Forall₂ (fun a b => f a = .ok b) as bs := by
  induction as with
  | nil => exact ⟨[], rfl, .nil⟩
  | cons a as ih =>
    obtain ⟨b, hb⟩ := h a List.mem_cons_self
    obtain ⟨bs, hbs, hall⟩ := ih fun a ha => h a (List.mem_cons_of_mem _ ha)
    refine ⟨b :: bs, ?_, .cons hb hall⟩
    rw [List.mapM_cons, hb, hbs]
    rfl

theorem exists_of_mapM {bs : List β} (h : as.mapM f = .ok bs) : ∀ a ∈ as, ∃ b, f a = .ok b := by
  induction as generalizing bs with
  | nil => simp
  | cons a as ih =>
    rw [List.mapM_cons] at h
    obtain ⟨b, hb, h⟩ := bind_eq_ok.1 h
    obtain ⟨rest, hrest, -⟩ := bind_eq_ok.1 h
    exact List.forall_mem_cons.2 ⟨⟨b, hb⟩, ih hrest⟩

/-- The error of a list of calls is that of the first one that gives no result. -/
theorem mapM_eq_error {e : ε} :
    as.mapM f = .error e ↔
      ∃ before a after, as = before ++ a :: after ∧ (∀ x ∈ before, ∃ b, f x = .ok b) ∧
        f a = .error e := by
  constructor
  · intro h
    induction as with
    | nil => cases h
    | cons a as ih =>
      rw [List.mapM_cons] at h
      cases ha : f a with
      | error e' =>
        rw [ha] at h
        cases h
        exact ⟨[], a, as, rfl, by simp, ha⟩
      | ok b =>
        rw [ha] at h
        cases hrest : as.mapM f with
        | ok bs =>
          rw [hrest] at h
          cases h
        | error e' =>
          rw [hrest] at h
          cases h
          obtain ⟨before, x, after, rfl, hok, hx⟩ := ih hrest
          exact ⟨a :: before, x, after, rfl, List.forall_mem_cons.2 ⟨⟨b, ha⟩, hok⟩, hx⟩
  · rintro ⟨before, a, after, rfl, hok, he⟩
    obtain ⟨bs, hbs, -⟩ := exists_mapM hok
    rw [List.mapM_append, hbs, List.mapM_cons, he]
    rfl

end Calls

namespace Ledger

variable {l : Ledger} {calls : List Call} {id : PullId} {r : Record}

/-- A ledger whose records can all be summarized has a report, with a section for each record. -/
theorem exists_report (h : ∀ e ∈ l.entries, ∃ s, Summary.ofRecord e.2 = .ok s) :
    ∃ summaries, l.report = .ok (Report.page summaries) ∧
      List.Forall₂ (fun e s => Summary.ofRecord e.2 = .ok s) l.entries summaries := by
  obtain ⟨summaries, hs, hall⟩ := exists_mapM h
  exact ⟨summaries, map_eq_ok.2 ⟨summaries, hs, rfl⟩, hall⟩

/-- What is shown of a pull request: its record and its repairs, or that there is no record. -/
theorem view_of_ofRecord {s : Summary} (hr : l.get? id = some r)
    (hs : Summary.ofRecord r = .ok s) : Job.view l id = .ok ⟨id, r, s.repairs⟩ := by
  unfold Job.view
  rw [hr]
  exact bind_eq_ok.2 ⟨s, hs, rfl⟩

/-- A record that came about by calls has a summary, which shows the payload that it was created
with, and can be shown. -/
theorem exists_summary
    (h : ∀ c ∈ calls, ∀ capture, c.action = .create capture → capture.statistics.IsJudged)
    (hr : (id, r) ∈ (empty.run calls).entries) :
    ∃ before after capture now s,
      calls = before ++ ⟨id, .create capture, now⟩ :: after ∧
      (empty.run before).get? id = none ∧
      Summary.ofRecord r = .ok s ∧ s.Shows capture.statistics ∧
      Job.view (empty.run calls) id = .ok ⟨id, r, s.repairs⟩ := by
  have hr : (empty.run calls).get? id = some r :=
    (mem_entries_iff (Reachable.empty.run calls).nodup).1 hr
  obtain ⟨before, after, capture, now, r₀, hcalls, hr₀, hf⟩ := exists_creation get?_empty hr
  obtain ⟨hnone, rfl⟩ := createInitial_eq_ok.1 hr₀
  have hstatistics : r.statistics = capture.statistics := hf.statistics
  have hjudged : capture.statistics.IsJudged :=
    h ⟨id, .create capture, now⟩ (by rw [hcalls]; simp) capture rfl
  obtain ⟨s, hs, hshows⟩ := Summary.exists_ofRecord (r := r) (by rwa [hstatistics])
  rw [hstatistics] at hshows
  exact ⟨before, after, capture, now, s, hcalls, hnone, hs, hshows, view_of_ofRecord hr hs⟩

/-- **What is judged when it is captured can be rendered for ever.**  In a ledger that grew from
nothing by calls whose payloads were empty or accepted, the report can be made, with a section for
each record.  Each record has a summary, with one repair for each element of the payload of the call
that created it.  And to show a pull request fails only if there is no record of it. -/
theorem rendering_succeeds (calls : List Call)
    (h : ∀ c ∈ calls, ∀ capture, c.action = .create capture → capture.statistics.IsJudged) :
    (∃ summaries, (empty.run calls).report = .ok (Report.page summaries) ∧
      List.Forall₂ (fun e s => Summary.ofRecord e.2 = .ok s) (empty.run calls).entries
        summaries) ∧
    (∀ id r, (id, r) ∈ (empty.run calls).entries →
      ∃ before after capture now s,
        calls = before ++ ⟨id, .create capture, now⟩ :: after ∧
        (empty.run before).get? id = none ∧
        Summary.ofRecord r = .ok s ∧ s.Shows capture.statistics ∧
        Job.view (empty.run calls) id = .ok ⟨id, r, s.repairs⟩) ∧
    ∀ id, (empty.run calls).get? id = none →
      Job.view (empty.run calls) id = .error (.recordNotFound id) := by
  refine ⟨exists_report ?_, fun id r hr => exists_summary h hr, fun id hnone => ?_⟩
  · rintro ⟨id, r⟩ hr
    obtain ⟨_, _, _, _, s, _, _, hs, _⟩ := exists_summary h hr
    exact ⟨s, hs⟩
  · unfold Job.view
    rw [hnone]

/-- A payload with two repairs and another member is captured, finalized and edited; a second
creation, with an empty payload, is refused for the one and accepted for another pull request. -/
theorem rendering_succeeds_two_repairs :
    let k : PullId := ⟨"acme", "widget", 42⟩
    let other : PullId := ⟨"acme", "widget", 7⟩
    let natural (n : UInt64) : Value := .ofUInt64 n
    let payload : Members := [("version", .string "1.0"), ("repairs", .array [
      .object [("ruleKey", .string " 2095 "), ("nbViolationsBefore", natural 3),
        ("nbViolationsAfter", natural 1)],
      .object [("ruleKey", natural 117), ("nbViolationsBefore", natural 0),
        ("nbViolationsAfter", natural 2)]])]
    let state : PullState := ⟨"url", .epoch, none, none, "open", false, 42⟩
    let calls : List Call := [⟨k, .create ⟨state, "diff", ⟨payload⟩⟩, .epoch⟩,
      ⟨k, .create ⟨state, "again", .empty⟩, .epoch⟩, ⟨k, .finalize ⟨state, "final"⟩, .epoch⟩,
      ⟨other, .create ⟨state, "other", .empty⟩, .epoch⟩,
      ⟨k, .annotate ⟨.afterOpening, "why", "edit"⟩, .epoch⟩]
    (∃ summaries, (empty.run calls).report = .ok (Report.page summaries) ∧
      summaries.length = 2) ∧
      ∃ r s, (empty.run calls).get? k = some r ∧ Summary.ofRecord r = .ok s ∧
        s.repairs.length = 2 ∧ Job.view (empty.run calls) k = .ok ⟨k, r, s.repairs⟩ := by
  intro k other natural payload state calls
  have hpayload : (Statistics.ofValue (.object payload)).toOption = some ⟨payload⟩ := by
    decide +kernel
  have hjudged : ∀ c ∈ calls, ∀ capture, c.action = .create capture →
      capture.statistics.IsJudged := by
    intro c hc capture ha
    simp only [calls, List.mem_cons, List.not_mem_nil, or_false] at hc
    obtain rfl | rfl | rfl | rfl | rfl := hc
    · obtain rfl := Action.create.inj ha
      exact .inr ⟨.object payload, eq_ok_of_toOption hpayload⟩
    · obtain rfl := Action.create.inj ha
      exact .inl rfl
    · cases ha
    · obtain rfl := Action.create.inj ha
      exact .inl rfl
    · cases ha
  obtain ⟨⟨summaries, hreport, hall⟩, hentries, -⟩ := rendering_succeeds calls hjudged
  refine ⟨⟨summaries, hreport, hall.length_eq.symm⟩, ?_⟩
  obtain ⟨r, hr⟩ : ∃ r, (k, r) ∈ (empty.run calls).entries := ⟨_, List.mem_cons_self⟩
  obtain ⟨before, after, capture, now, s, hcalls, hnone, hs, hshows, hview⟩ := hentries k r hr
  -- The record was created by the first call, since after it there is one.
  cases before with
  | nil =>
    obtain ⟨hc, -⟩ := List.cons.inj hcalls
    obtain rfl := Action.create.inj (Call.mk.inj hc).2.1
    exact ⟨r, s, (mem_entries_iff (Reachable.empty.run calls).nodup).1 hr, hs, hshows.1, hview⟩
  | cons c before =>
    obtain ⟨rfl, -⟩ := List.cons.inj hcalls
    obtain ⟨r', hr', -⟩ := exists_follows (k := k) get?_upsert_self before
    rw [run_cons, after_of_ok rfl, hr'] at hnone
    cases hnone

end Ledger

end RepairLedger
