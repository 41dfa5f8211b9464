import RepairLedger.Ledger.Report
import RepairLedger.Proofs.Ledger.History
import RepairLedger.Proofs.Result

/-!
# Sections

A report is the preamble and then the sections of the records one after the other
(`Ledger.report_eq`).  The section of a record is its own affair: neither the records around it nor
its place in the ledger have a part in it (`Record.reportSection`), and of the record it shows only
the repository, the state, the statistics, and whether there is a manual edit
(`Record.reportSection_congr`).

So an accepted call changes the report in one section at most.  A new record has its section behind
the others; a record that was there has it where it was; and a change that the section does not show
leaves the whole report alone.  This is `Ledger.report_changes_one_section`.
-/

namespace RepairLedger

/-! ### The section of a record -/

namespace Record

/-- The section of a record, unless its statistics are malformed. -/
def reportSection (r : Record) : Except LedgerError String :=
  (Summary.ofRecord r).map Report.sectionOf

variable {q r : Record}

/-- What the section shows of a record. -/
theorem reportSection_congr (hslug : q.slug = r.slug) (hstate : q.state = r.state)
    (hstatistics : q.statistics = r.statistics) (hedits : q.edits.isEmpty = r.edits.isEmpty) :
    q.reportSection = r.reportSection := by
  simp only [reportSection, Summary.ofRecord, hslug, hstate, hstatistics, hedits]

/-- There is a section if the repairs can be read. -/
theorem exists_reportSection_iff :
    (∃ text, r.reportSection = .ok text) ↔ ∃ repairs, r.statistics.repairs = .ok repairs := by
  unfold reportSection Summary.ofRecord
  cases r.statistics.repairs with
  | error flaw => exact iff_of_false (fun ⟨_, h⟩ => nomatch h) (fun ⟨_, h⟩ => nomatch h)
  | ok repairs => exact iff_of_true ⟨_, rfl⟩ ⟨repairs, rfl⟩

/-- An edit behind other ones is not shown. -/
theorem reportSection_annotate (h : r.edits ≠ []) (edit : ManualEdit) (now : Instant) :
    (r.annotate edit now).reportSection = r.reportSection := by
  have hedits : (r.edits ++ [edit]).isEmpty = r.edits.isEmpty := by
    rw [List.isEmpty_eq_false_iff.2 h, List.isEmpty_eq_false_iff.2 (by simp)]
  exact reportSection_congr rfl rfl rfl hedits

/-- Diffs and times are not shown. -/
theorem reportSection_finish (r : Record) (diff : String) (now : Instant) :
    (r.finish r.state diff now).reportSection = r.reportSection :=
  reportSection_congr rfl rfl rfl rfl

end Record

namespace Ledger

variable {l : Ledger} {c : Call} {id : PullId} {r q : Record}

/-! ### The sections of a ledger -/

/-- The sections of some entries, one after the other. -/
def sections (entries : List (PullId × Record)) : Except LedgerError String :=
  (summaries ⟨entries⟩).map fun ss => String.join (ss.map Report.sectionOf)

/-- **The report consists of sections.** -/
theorem report_eq (l : Ledger) : l.report = (sections l.entries).map (Report.preamble ++ ·) := by
  unfold report sections
  cases l.summaries <;> rfl

theorem summaries_append (before after : List (PullId × Record)) :
    summaries ⟨before ++ after⟩ = do return (← summaries ⟨before⟩) ++ (← summaries ⟨after⟩) :=
  List.mapM_append

theorem sections_append (before after : List (PullId × Record)) :
    sections (before ++ after) =
      sections before >>= fun front => (sections after).map (front ++ ·) := by
  unfold sections
  rw [summaries_append]
  cases summaries ⟨before⟩ with
  | error _ => rfl
  | ok ss =>
    cases summaries ⟨after⟩ with
    | error _ => rfl
    | ok ts =>
      have hjoin : String.join ((ss ++ ts).map Report.sectionOf) =
          String.join (ss.map Report.sectionOf) ++ String.join (ts.map Report.sectionOf) := by
        rw [List.map_append, String.join_append]
      exact congrArg Except.ok hjoin

theorem sections_singleton (id : PullId) (r : Record) : sections [(id, r)] = r.reportSection := by
  unfold sections summaries Record.reportSection
  simp only [List.mapM_cons, List.mapM_nil]
  cases Summary.ofRecord r with
  | error _ => rfl
  | ok s =>
    have hjoin : String.join ([s].map Report.sectionOf) = Report.sectionOf s := by simp
    exact congrArg Except.ok hjoin

/-- The report of the entries up to some place, and then the sections of the others. -/
theorem report_append (before after : List (PullId × Record)) :
    (⟨before ++ after⟩ : Ledger).report =
      report ⟨before⟩ >>= fun front => (sections after).map (front ++ ·) := by
  rw [report_eq, report_eq, sections_append]
  cases sections before with
  | error _ => rfl
  | ok front =>
    cases sections after with
    | error _ => rfl
    | ok back => exact congrArg Except.ok String.append_assoc.symm

/-- **The report around one section.** -/
theorem report_place (before : List (PullId × Record)) (id : PullId) (r : Record)
    (after : List (PullId × Record)) :
    (⟨before ++ (id, r) :: after⟩ : Ledger).report = do
      let front ← report ⟨before⟩
      let part ← r.reportSection
      let back ← sections after
      return front ++ part ++ back := by
  rw [List.append_cons, report_append, report_append, sections_singleton]
  cases report ⟨before⟩ with
  | error _ => rfl
  | ok front =>
    cases r.reportSection with
    | error _ => rfl
    | ok part => cases sections after <;> rfl

/-! ### Entering a record -/

/-- The section of a new record comes behind the others. -/
theorem report_upsert_of_not_contains (h : l.contains id = false) {report part : String}
    (hreport : l.report = .ok report) (hpart : r.reportSection = .ok part) :
    (l.upsert id r).report = .ok (report ++ part) := by
  rw [upsert_of_not_contains h, report_append, sections_singleton, hpart]
  exact bind_eq_ok.2 ⟨report, hreport, rfl⟩

/-- A record with the same section is not noticed, even where there is no report. -/
theorem report_upsert_of_eq (h : l.get? id = some q) (heq : r.reportSection = q.reportSection) :
    (l.upsert id r).report = l.report := by
  obtain ⟨before, after, hentries, hupsert⟩ := exists_place h
  have hl : l = ⟨before ++ (id, q) :: after⟩ := congrArg mk hentries
  rw [hupsert, hl, report_place, report_place, heq]

/-- **An accepted call changes one section of the report.**  A new record that has a section adds it
at the end.  The section of a record that was there is replaced, which never fails, and what stands
before it and behind it is kept.  A section shows of a record the repository, the state, the
statistics, and whether there is an edit; so an edit behind other ones leaves the whole report
alone, and so does a finalization with the state that was there, whatever the diffs and the
clock. -/
theorem report_changes_one_section (h : l.perform c = .ok r) :
    (∀ report, l.report = .ok report →
      (l.get? c.id = none → ∀ new, r.reportSection = .ok new →
        (l.upsert c.id r).report = .ok (report ++ new)) ∧
      (∀ q, l.get? c.id = some q → ∃ before after front old new back,
        l.entries = before ++ (c.id, q) :: after ∧
        Ledger.report ⟨before⟩ = .ok front ∧ q.reportSection = .ok old ∧
        r.reportSection = .ok new ∧ sections after = .ok back ∧
        report = front ++ old ++ back ∧
        (l.upsert c.id r).report = .ok (front ++ new ++ back))) ∧
    (∀ s s' : Record, s.slug = s'.slug → s.state = s'.state → s.statistics = s'.statistics →
      s.edits.isEmpty = s'.edits.isEmpty → s.reportSection = s'.reportSection) ∧
    (∀ edit q, c.action = .annotate edit → l.get? c.id = some q → q.edits ≠ [] →
      (l.upsert c.id r).report = l.report) ∧
    (∀ capture q, c.action = .finalize capture → l.get? c.id = some q →
      capture.state = q.state → (l.upsert c.id r).report = l.report) := by
  refine ⟨fun report hreport => ⟨fun hnone new hnew => ?_, fun q hq => ?_⟩, ?_, ?_, ?_⟩
  · exact report_upsert_of_not_contains (contains_eq_false_iff.2 hnone) hreport hnew
  · obtain ⟨before, after, hentries, hupsert⟩ := exists_place hq
    have hl : l = ⟨before ++ (c.id, q) :: after⟩ := congrArg mk hentries
    rw [hl, report_place] at hreport
    obtain ⟨front, hfront, hreport⟩ := bind_eq_ok.1 hreport
    obtain ⟨old, hold, hreport⟩ := bind_eq_ok.1 hreport
    obtain ⟨back, hback, hreport⟩ := bind_eq_ok.1 hreport
    obtain ⟨new, hnew⟩ : ∃ new, r.reportSection = .ok new := by
      rw [Record.exists_reportSection_iff, (follows_of_perform hq h).statistics,
        ← Record.exists_reportSection_iff]
      exact ⟨old, hold⟩
    refine ⟨before, after, front, old, new, back, hentries, hfront, hold, hnew, hback,
      (Except.ok.inj hreport).symm, ?_⟩
    rw [hupsert, report_place, hfront, hnew, hback]
    rfl
  · exact fun s s' => Record.reportSection_congr
  · intro edit q ha hq hedits
    rw [perform, ha] at h
    obtain ⟨q', hq', -, rfl⟩ := appendEdit_eq_ok.1 h
    obtain rfl := Option.some.inj (hq'.symm.trans hq)
    exact report_upsert_of_eq hq (Record.reportSection_annotate hedits edit c.now)
  · intro capture q ha hq hstate
    rw [perform, ha] at h
    obtain ⟨q', hq', rfl⟩ := finalize_eq_ok.1 h
    obtain rfl := Option.some.inj (hq'.symm.trans hq)
    rw [hstate]
    exact report_upsert_of_eq hq (Record.reportSection_finish q' capture.diff c.now)

/-- In a ledger with two records of which one has an edit, a third one is created, the other one is
edited, and the first one is edited again and finalized. -/
theorem report_changes_one_section_of_two :
    let a : PullId := ⟨"acme", "widget", 1⟩
    let b : PullId := ⟨"acme", "widget", 2⟩
    let c : PullId := ⟨"acme", "widget", 3⟩
    let state : PullState := ⟨"url", .epoch, none, none, "open", false, 1⟩
    let edit : ManualEdit := ⟨.afterOpening, "why", "edit"⟩
    let r : Record := .begin "acme/widget" state .empty "diff" .epoch
    let s : Record := r.annotate edit .epoch
    let l : Ledger := ⟨[(a, s), (b, r)]⟩
    ∃ report, l.report = .ok report ∧
      (∃ new, (l.upsert c (.begin c.slug state .empty "diff" .epoch)).report =
        .ok (report ++ new)) ∧
      (∃ front old new back, report = front ++ old ++ back ∧
        (l.upsert b (r.annotate edit .epoch)).report = .ok (front ++ new ++ back)) ∧
      (l.upsert a (s.annotate edit .epoch)).report = .ok report ∧
      (l.upsert a (s.finish state "final" .epoch)).report = .ok report := by
  intro a b c state edit r s l
  have hcreate : l.perform ⟨c, .create ⟨state, "diff", .empty⟩, .epoch⟩ =
      .ok (.begin c.slug state .empty "diff" .epoch) := rfl
  have hreason : Text.isBlankText edit.reason = false := by decide
  have hedit : l.perform ⟨b, .annotate edit, .epoch⟩ = .ok (r.annotate edit .epoch) := by
    have hfound : l.get? b = some r := rfl
    exact appendEdit_eq_ok.2 ⟨r, hfound, hreason, rfl⟩
  have hagain : l.perform ⟨a, .annotate edit, .epoch⟩ = .ok (s.annotate edit .epoch) := by
    have hfound : l.get? a = some s := rfl
    exact appendEdit_eq_ok.2 ⟨s, hfound, hreason, rfl⟩
  have hfinal : l.perform ⟨a, .finalize ⟨state, "final"⟩, .epoch⟩ =
      .ok (s.finish state "final" .epoch) := rfl
  obtain ⟨report, hreport⟩ : ∃ report, l.report = .ok report := ⟨_, rfl⟩
  obtain ⟨hnew, -⟩ := (report_changes_one_section hcreate).1 report hreport
  obtain ⟨-, hthere⟩ := (report_changes_one_section hedit).1 report hreport
  obtain ⟨-, -, hannotate, -⟩ := report_changes_one_section hagain
  obtain ⟨-, -, -, hfinalize⟩ := report_changes_one_section hfinal
  obtain ⟨_, _, front, old, new, back, -, -, -, -, -, hfront, hback⟩ := hthere r rfl
  exact ⟨report, hreport, ⟨_, hnew rfl _ rfl⟩, ⟨front, old, new, back, hfront, hback⟩,
    (hannotate edit s rfl rfl (List.cons_ne_nil _ _)).trans hreport,
    (hfinalize ⟨state, "final"⟩ s rfl rfl rfl).trans hreport⟩

end Ledger

end RepairLedger
