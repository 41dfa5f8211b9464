import RepairLedger.Proofs.Command.Atomicity
import RepairLedger.Proofs.Ledger.Loaded
import RepairLedger.Proofs.Ledger.Locality
import RepairLedger.Proofs.Ledger.Normalizing
import RepairLedger.Proofs.Ledger.Rendering

/-!
# A record shown in two ways

The repairs of a record are listed in its section of the report, and where the record is shown on
its own.  Both are made of one account of the record (`Account`): a row for each repair, the state
in one word, and when the pull request ended.  The rows come from a stable sort of the payload, so
that none is lost and the repairs of one rule keep their order.

The report stops at the first record whose statistics are malformed (`Ledger.report_eq_error`).  If
there is none, each record can be shown, and the two ways agree: `Invocation.describe_agrees`.
-/

namespace RepairLedger

open Host Attempt

/-! ### Accounts -/

/-- What is said of a repair: the rule, how many violations of it were found, and how many of them
were removed. -/
structure Row where
  rule : UInt64
  found : UInt64
  repaired : UInt64
deriving DecidableEq, Repr

namespace Row

def ofRepair (r : Repair) : Row :=
  ⟨r.rule, r.found, r.repaired⟩

/-- The row is right about the repair: all violations that were there before have been found, and
those of them that are not left have been removed. -/
structure IsOf (row : Row) (r : Repair) : Prop where
  rule : row.rule = r.rule
  found : row.found = r.before
  repaired : r.after ≤ r.before → row.repaired = r.before - r.after
  none : ¬ r.after ≤ r.before → row.repaired = 0
  le : row.repaired ≤ row.found

theorem isOf_ofRepair (r : Repair) : (ofRepair r).IsOf r where
  rule := rfl
  found := rfl
  repaired h := if_pos h
  none h := if_neg h
  le := by
    show r.repaired ≤ r.before
    unfold Repair.repaired
    split
    · rename_i h
      rw [UInt64.le_iff_toNat_le, UInt64.toNat_sub_of_le _ _ h]
      exact Nat.sub_le _ _
    · exact UInt64.zero_le

/-- A repair has one row. -/
theorem IsOf.eq_ofRepair {row : Row} {r : Repair} (h : row.IsOf r) : row = ofRepair r := by
  obtain ⟨rule, found, repaired⟩ := row
  have hrepaired : repaired = r.repaired := by
    unfold Repair.repaired
    split
    · rename_i hle
      exact h.repaired hle
    · rename_i hle
      exact h.none hle
  rw [ofRepair, mk.injEq]
  exact ⟨h.rule, h.found, hrepaired⟩

theorem eq_map_of_forall₂ {rows : List Row} {rs : List Repair} (h : List.Forall₂ IsOf rows rs) :
    rows = rs.map ofRepair := by
  induction h with
  | nil => rfl
  | cons h _ ih => rw [List.map_cons, h.eq_ofRepair, ih]

/-- The lines of a row in the report. -/
def entry (r : Row) : String :=
  Report.line ("* [Rule " ++ Report.number r.rule ++
      "](https://rules.sonarsource.com/java/RSPEC-" ++ Report.number r.rule ++ ")") ++
    Report.line ("    - Number of violations found: " ++ Report.number r.found) ++
    Report.line ("    - Number of violations repaired: " ++ Report.number r.repaired)

/-- The line of a row where the record is shown to a human reader. -/
def line (r : Row) : String :=
  "rule " ++ Output.padded 8 (Output.number r.rule.toNat) ++
    " found " ++ Output.padded 6 (Output.number r.found.toNat) ++
    " repaired " ++ Output.number r.repaired.toNat ++ "\n"

/-- A row as a JSON object. -/
def json (r : Row) : Json.Value :=
  .object [
    ("rule_key", .ofUInt64 r.rule),
    ("found", .ofUInt64 r.found),
    ("repaired", .ofUInt64 r.repaired)]

theorem entry_ofRepair (r : Repair) : (ofRepair r).entry = Report.repair r := by
  simp only [entry, ofRepair, Report.repair, toString]

theorem line_ofRepair (r : Repair) : (ofRepair r).line = RecordView.repairLine r := by
  simp only [line, ofRepair, RecordView.repairLine, toString]

end Row

/-- What is said of a record in both ways of showing it. -/
structure Account where
  rows : List Row
  status : String
  ended : Option Instant
deriving DecidableEq

namespace Account

def ofSummary (s : Summary) : Account :=
  ⟨s.repairs.map Row.ofRepair, s.status, s.endedAt⟩

/-- A section of the report with the account; the rest of it is the heading, when the pull request
was opened, and the sentence about edits. -/
def reported (a : Account) (heading opened edits : String) : String :=
  let ending := match a.ended with
    | none => ""
    | some t => " and " ++ a.status ++ " at " ++ t.display
  let verb := if a.ended.isSome then "provided" else "provides"
  "\n" ++ Report.line heading ++
    Report.line ("This PR was opened at " ++ opened ++ ending ++ ".") ++
    Report.line edits ++ Report.line ("It " ++ verb ++ " the following repairs:") ++
    (if a.rows.isEmpty then "" else "\n") ++ String.join (a.rows.map Row.entry)

/-- A record with the account, for a human reader. -/
def shown (a : Account) (id : PullId) (r : Record) : String :=
  Output.title ("Record " ++ id.text) ++ Output.field "url" r.state.url ++
    Output.field "status" a.status ++
    Output.field "opened" (Output.instant r.state.createdAt) ++
    (match a.ended with
      | none => ""
      | some t => Output.field "closed" (Output.instant t)) ++
    Output.field "final diff" (if r.isFinalized then "captured" else "pending") ++
    Output.field "created" (Output.instant r.times.createdAt) ++
    Output.field "modified" (Output.instant r.times.lastModified) ++
    RecordView.listing "Repairs" (a.rows.map Row.line) ++
    RecordView.listing "Manual edits"
      (r.edits.zipIdx.map fun (e, i) => RecordView.editLine e i) ++
    Output.rule

/-- A record with the account, as a JSON object. -/
def json (a : Account) (id : PullId) (r : Record) : Json.Value :=
  .object [
    ("id", .string id.text),
    ("record", r.json),
    ("repairs", .array (a.rows.map Row.json))]

/-- What is printed of a record. -/
def printed (a : Account) (id : PullId) (r : Record) : Style → String
  | .human => a.shown id r
  | .json => (a.json id r).text (.indented 2) ++ "\n"

theorem reported_ofSummary (s : Summary) :
    (ofSummary s).reported (Report.heading s) s.openedAt.display (Report.edits s) =
      Report.sectionOf s := by
  have hrows : (ofSummary s).rows.map Row.entry = s.repairs.map Report.repair := by
    simp only [ofSummary, List.map_map, Function.comp_def, Row.entry_ofRepair]
  have hverb : "It " ++ (if s.endedAt.isSome then "provided" else "provides") ++
      " the following repairs:" = Report.announcement s := by
    unfold Report.announcement
    split <;> decide +kernel
  have hopening : "This PR was opened at " ++ s.openedAt.display ++ (match s.endedAt with
      | none => ""
      | some t => " and " ++ s.status ++ " at " ++ t.display) ++ "." = Report.opening s := by
    unfold Report.opening
    cases s.endedAt <;> simp only [toString]
  have hgap : (ofSummary s).rows.isEmpty = s.repairs.isEmpty := List.isEmpty_map
  unfold reported Report.sectionOf
  dsimp only
  rw [hrows, hgap, ← hverb, ← hopening]
  rfl

theorem printed_ofSummary {s : Summary} {id : PullId} {r : Record}
    (hs : Summary.ofRecord r = .ok s) (style : Style) :
    (ofSummary s).printed id r style = RecordView.text ⟨id, r, s.repairs⟩ style := by
  obtain ⟨hstatus, hended⟩ : s.status = r.state.status ∧ s.endedAt = r.state.endedAt := by
    unfold Summary.ofRecord at hs
    split at hs
    · cases hs
    · cases hs
      exact ⟨rfl, rfl⟩
  cases style with
  | json =>
    simp only [printed, json, ofSummary, List.map_map]
    rfl
  | human =>
    have hrows : (ofSummary s).rows.map Row.line = s.repairs.map RecordView.repairLine := by
      simp only [ofSummary, List.map_map, Function.comp_def, Row.line_ofRepair]
    simp only [printed, shown, hrows, RecordView.text, Output.choose, RecordView.human,
      RecordView.fields]
    cases hr : r.state.endedAt <;>
      simp only [ofSummary, hstatus, hended, hr, toString, String.append_assoc]

end Account

/-! ### The report -/

namespace Summary

/-- What a record is summarized as: its repairs sorted by their rules, those of one rule in the
order of the payload. -/
theorem ofRecord_cases {r : Record} {s : Summary} (h : ofRecord r = .ok s) :
    ∃ repairs, r.statistics.repairs = .ok repairs ∧ s.repairs = sortRepairs repairs := by
  unfold ofRecord at h
  split at h
  · cases h
  · rename_i repairs hrepairs
    cases h
    exact ⟨repairs, hrepairs, rfl⟩

theorem ofRecord_eq_error {r : Record} {e : LedgerError} :
    ofRecord r = .error e ↔
      ∃ flaw, r.statistics.repairs = .error flaw ∧ e = .malformedStatistics flaw.message := by
  unfold ofRecord
  cases r.statistics.repairs <;> simp [eq_comm]

end Summary

namespace Ledger

variable {l : Ledger} {id : PullId} {r : Record}

theorem exists_report_iff :
    (∃ text, l.report = .ok text) ↔ ∀ e ∈ l.entries, ∃ s, Summary.ofRecord e.2 = .ok s := by
  constructor
  · rintro ⟨text, h⟩
    obtain ⟨summaries, hs, -⟩ := map_eq_ok.1 h
    exact exists_of_mapM hs
  · intro h
    obtain ⟨summaries, hreport, -⟩ := exists_report h
    exact ⟨_, hreport⟩

/-- A report fails for the first record whose statistics are malformed. -/
theorem report_eq_error {e : LedgerError} :
    l.report = .error e ↔
      ∃ before id r after, l.entries = before ++ (id, r) :: after ∧
        (∀ x ∈ before, ∃ s, Summary.ofRecord x.2 = .ok s) ∧ Summary.ofRecord r = .error e := by
  have hmap : l.report = .error e ↔ l.summaries = .error e := by
    unfold report
    cases l.summaries <;> simp [Except.map]
  rw [hmap, summaries, mapM_eq_error]
  constructor
  · rintro ⟨before, ⟨id, r⟩, after, hentries, hok, he⟩
    exact ⟨before, id, r, after, hentries, hok, he⟩
  · rintro ⟨before, id, r, after, hentries, hok, he⟩
    exact ⟨before, (id, r), after, hentries, hok, he⟩

/-- In a ledger that was loaded, each entry is the record of its id, and the id is valid. -/
theorem get?_of_load {path : Path} {w : World} (h : runIn (load path) w = (.ok l, w))
    (hr : (id, r) ∈ l.entries) : l.get? id = some r ∧ id.IsValid := by
  rw [runIn_load] at h
  have hread : ofRead path (w.files.read w.base path) = .ok l := congrArg Prod.fst h
  unfold ofRead at hread
  split at hread
  · cases hread
    cases hr
  · cases hread
  · have hreadable := readable_of_ofBytes (mapError_eq_ok.1 hread)
    exact ⟨(mem_entries_iff hreadable.nodup).1 hr,
      hreadable.valid id (List.mem_map.2 ⟨(id, r), hr, rfl⟩)⟩

end Ledger

/-! ### Showing a record -/

namespace Job

variable {setting : Setting} {subject : Subject} {w : World}

theorem runIn_describe {id : PullId} {settings : Settings} {l : Ledger} {found : RecordView}
    (hid : runIn (idOf subject) w = (.ok id, w))
    (hs : runIn (settingsFor setting subject) w = (.ok settings, w))
    (hl : runIn (Ledger.load settings.ledgerPath) w = (.ok l, w)) (hview : view l id = .ok found) :
    runIn (describe setting subject) w =
      (.ok (), { w with output := w.output ++ found.text setting.manner.style }) := by
  have hjudged : runIn (orRefuse (view l id)) w = (.ok found, w) :=
    runIn_orRefuse_ok.2 ⟨hview, rfl⟩
  unfold describe
  rw [runIn_bind, hid]
  dsimp only
  rw [runIn_bind, hs]
  dsimp only
  rw [runIn_bind, runIn_refusing_ok.2 hl]
  dsimp only
  rw [runIn_bind, hjudged]
  rfl

end Job

namespace Invocation

/-- **The report and a record on its own tell the same.**  A ledger has a report just if each record
has a summary, and otherwise the error is that of the first record, in the order of the ledger,
whose statistics are malformed.  If there is a report, the repairs in the summary of a record are
those of its payload, sorted by their rules, and those of one rule in the order of the payload.  Of
these, of the state and of the time of the end there is one account, which the section of the record
in the report is made of; and showing that record, from any ledger file that holds the ledger,
succeeds and prints the same account. -/
theorem describe_agrees (l : Ledger) :
    ((∃ text, l.report = .ok text) ↔ ∀ e ∈ l.entries, ∃ s, Summary.ofRecord e.2 = .ok s) ∧
    (∀ error, l.report = .error error ↔
      ∃ before id r after flaw, l.entries = before ++ (id, r) :: after ∧
        (∀ e ∈ before, ∃ s, Summary.ofRecord e.2 = .ok s) ∧ Summary.ofRecord r = .error error ∧
        r.statistics.repairs = .error flaw ∧ error = .malformedStatistics flaw.message) ∧
    ∀ text, l.report = .ok text →
      ∀ before id r after, l.entries = before ++ (id, r) :: after →
      ∃ (s : Summary) (repairs : List Repair) (a : Account),
        Summary.ofRecord r = .ok s ∧ r.statistics.repairs = .ok repairs ∧
        s.repairs.Perm repairs ∧ s.repairs.Pairwise (fun p q => p.rule ≤ q.rule) ∧
        (∀ rule, s.repairs.filter (·.rule = rule) = repairs.filter (·.rule = rule)) ∧
        List.Forall₂ Row.IsOf a.rows s.repairs ∧ a.status = s.status ∧ a.ended = s.endedAt ∧
        (∃ front back, Ledger.report ⟨before⟩ = .ok front ∧ Ledger.sections after = .ok back ∧
          text = front ++
            a.reported (Report.heading s) s.openedAt.display (Report.edits s) ++ back) ∧
        ∀ manner path found w,
          settings manner ⟨id.owner, id.repo, id.number, path⟩ w = .ok found →
          runIn (Ledger.load found.ledgerPath) w = (.ok l, w) →
          ∃ v, (run manner (.describe ⟨id.owner, id.repo, id.number, path⟩)).execute.run w =
              (.success, v) ∧
            v.output = w.output ++ a.printed id r manner.style := by
  refine ⟨Ledger.exists_report_iff, fun error => ?_, fun text htext before id r after hl => ?_⟩
  · rw [Ledger.report_eq_error]
    constructor
    · rintro ⟨before, id, r, after, hentries, hok, he⟩
      obtain ⟨flaw, hflaw, hmessage⟩ := Summary.ofRecord_eq_error.1 he
      exact ⟨before, id, r, after, flaw, hentries, hok, he, hflaw, hmessage⟩
    · rintro ⟨before, id, r, after, _, hentries, hok, he, -⟩
      exact ⟨before, id, r, after, hentries, hok, he⟩
  have hmem : (id, r) ∈ l.entries := hl ▸ List.mem_append_right _ List.mem_cons_self
  obtain ⟨s, hs⟩ := Ledger.exists_report_iff.1 ⟨text, htext⟩ (id, r) hmem
  obtain ⟨repairs, hrepairs, hsorted⟩ := Summary.ofRecord_cases hs
  have hrows : List.Forall₂ Row.IsOf (Account.ofSummary s).rows s.repairs := by
    rw [Account.ofSummary, List.forall₂_map_left_iff, List.forall₂_same]
    exact fun p _ => Row.isOf_ofRepair p
  refine ⟨s, repairs, .ofSummary s, hs, hrepairs, ?_, ?_, ?_, hrows, rfl, rfl, ?_, ?_⟩
  · rw [hsorted]
    exact Summary.perm_sortRepairs repairs
  · rw [hsorted]
    exact Summary.pairwise_sortRepairs repairs
  · rw [hsorted]
    exact Summary.filter_sortRepairs repairs
  · have hplace := Ledger.report_place before id r after
    obtain ⟨entries⟩ := l
    obtain rfl : entries = _ := hl
    rw [htext] at hplace
    obtain ⟨front, hfront, hplace⟩ := bind_eq_ok.1 hplace.symm
    obtain ⟨part, hpart, hplace⟩ := bind_eq_ok.1 hplace
    obtain ⟨back, hback, hplace⟩ := bind_eq_ok.1 hplace
    obtain ⟨s', hs', rfl⟩ := map_eq_ok.1 hpart
    rw [hs] at hs'
    cases hs'
    cases hplace
    exact ⟨front, back, hfront, hback, by rw [Account.reported_ofSummary]⟩
  · intro manner path found w hsettings hload
    obtain ⟨hget, hvalid⟩ := Ledger.get?_of_load hload hmem
    have hid : runIn (Job.idOf ⟨id.owner, id.repo, id.number, path⟩) w = (.ok id, w) :=
      Job.runIn_idOf_ok.2 ⟨PullId.ofParts_eq_ok_iff.2 ⟨rfl, hvalid⟩, rfl⟩
    have hjob : runIn ((Command.describe ⟨id.owner, id.repo, id.number, path⟩).job
        ⟨manner, World.pathOf w.base⟩) w = (.ok (), { w with
          output := w.output ++ RecordView.text ⟨id, r, s.repairs⟩ manner.style }) :=
      Job.runIn_describe hid (runIn_settingsFor_ok.2 hsettings) hload
        (Ledger.view_of_ofRecord hget hs)
    obtain ⟨log, hrun⟩ := execute_run manner (.describe ⟨id.owner, id.repo, id.number, path⟩) w
    rw [runCommand_ok hjob] at hrun
    exact ⟨_, hrun, by rw [Account.printed_ofSummary hs]⟩

/-- A world in which a ledger is the only file. -/
def filed (l : Ledger) : World :=
  { World.empty .epoch [] with files := ⟨[(["prs.json"], .file (Text.encode l.text))]⟩ }

theorem load_filed {l : Ledger} (h : l.Readable) (hx : l.IsExact) :
    runIn (Ledger.load ⟨"prs.json"⟩) (filed l) = (.ok l, filed l) := by
  have hread : (filed l).files.read (filed l).base ⟨"prs.json"⟩ = .ok (Text.encode l.text) := rfl
  rw [Ledger.runIn_load, hread, Ledger.ofRead, Ledger.ofBytes_text, h.reread hx]
  rfl

/-- A ledger with a merged pull request, in whose payload two repairs of one rule stand around one
of a lesser rule, of which more violations are left than were found; and an open one behind it. -/
theorem describe_agrees_merged :
    let k : PullId := ⟨"acme", "widget", 42⟩
    let other : PullId := ⟨"acme", "widget", 7⟩
    let repair (rule before after : UInt64) : Json.Value := .object [
      ("nbViolationsAfter", .ofUInt64 after), ("nbViolationsBefore", .ofUInt64 before),
      ("ruleKey", .ofUInt64 rule)]
    let payload : Json.Members :=
      [("repairs", .array [repair 2095 3 1, repair 117 0 2, repair 2095 5 5])]
    let merged : PullState := ⟨"u", .epoch, none, some .epoch, "closed", true, 42⟩
    let r : Record := ⟨"acme/widget", merged, ⟨payload⟩, ⟨"d", some "f"⟩, [], ⟨.epoch, .epoch⟩⟩
    let q : Record := .begin "acme/widget" ⟨"u", .epoch, none, none, "open", false, 7⟩ .empty "d"
      .epoch
    let l : Ledger := ⟨[(k, r), (other, q)]⟩
    ∃ text front back v, l.report = .ok text ∧
      text = front ++ Account.reported
        ⟨[⟨117, 0, 0⟩, ⟨2095, 3, 2⟩, ⟨2095, 5, 0⟩], "merged", some .epoch⟩
        "## [acme/widget#42](https://github.com/acme/widget/pull/42)" "1970-01-01 00:00:00"
        "The patch was generated fully automatically with Sorald." ++ back ∧
      (run ⟨false, .human, true, none⟩ (.describe ⟨"acme", "widget", 42, none⟩)).execute.run
        (filed l) = (.success, v) ∧
      v.output = Account.shown
        ⟨[⟨117, 0, 0⟩, ⟨2095, 3, 2⟩, ⟨2095, 5, 0⟩], "merged", some .epoch⟩ k r := by
  intro k other repair payload merged r q l
  have hcanonical : Json.Value.canonical (.object payload) = .object payload := by decide +kernel
  have hsorted : Json.Value.IsSorted (.object payload) := by
    rw [← hcanonical]
    exact Json.Value.isSorted_canonical _
  have hreadable : l.Readable := by
    have hfirst : Ledger.Readable ⟨[(k, r)]⟩ :=
      Ledger.readable_empty.append rfl (by decide +kernel) ⟨hsorted, by decide +kernel⟩
        (by decide)
    exact hfirst.append (by decide) (by decide +kernel)
      ⟨Statistics.isSorted_json_empty, by decide⟩ (by decide)
  have hexact : l.IsExact := by
    simp [l, Ledger.IsExact, r, q, Record.begin, payload, repair, Statistics.json, Statistics.empty,
      Json.Value.ofUInt64, Json.Value.IsExact, Json.Value.ExactItems, Json.Value.ExactMembers]
  have hrepairs : r.statistics.repairs = .ok [⟨2095, 3, 1⟩, ⟨117, 0, 2⟩, ⟨2095, 5, 5⟩] :=
    eq_ok_of_toOption (by decide +kernel)
  have horder : Summary.sortRepairs [⟨2095, 3, 1⟩, ⟨117, 0, 2⟩, ⟨2095, 5, 5⟩] =
      [⟨117, 0, 2⟩, ⟨2095, 3, 1⟩, ⟨2095, 5, 5⟩] := by
    simp [Summary.sortRepairs, List.mergeSort]
  have hsummary : Summary.ofRecord r = .ok ⟨"acme/widget", 42, .epoch, some .epoch, "merged", false,
      [⟨117, 0, 2⟩, ⟨2095, 3, 1⟩, ⟨2095, 5, 5⟩]⟩ := by
    rw [Summary.ofRecord, hrepairs]
    dsimp only
    rw [horder]
    rfl
  obtain ⟨text, htext⟩ := (describe_agrees l).1.2
    (List.forall_mem_cons.2 ⟨⟨_, hsummary⟩, List.forall_mem_singleton.2 ⟨_, rfl⟩⟩)
  obtain ⟨s, _, ⟨rows, status, ended⟩, hs, -, -, -, -, hrows, hstatus, hended,
    ⟨front, back, -, -, hfront⟩, hshow⟩ :=
    (describe_agrees l).2.2 text htext [] k r [(other, q)] rfl
  rw [hsummary] at hs
  cases hs
  obtain rfl : rows = [⟨117, 0, 0⟩, ⟨2095, 3, 2⟩, ⟨2095, 5, 0⟩] := Row.eq_map_of_forall₂ hrows
  obtain rfl : status = "merged" := hstatus
  obtain rfl : ended = some .epoch := hended
  have hsettings : settings ⟨false, .human, true, none⟩ ⟨"acme", "widget", 42, none⟩ (filed l) =
      .ok ⟨⟨"prs.json"⟩, "https://api.github.com", none, 2000⟩ :=
    eq_ok_of_toOption (by decide +kernel)
  obtain ⟨v, hrun, hprinted⟩ := hshow _ none _ _ hsettings (load_filed hreadable hexact)
  refine ⟨text, front, back, v, htext, ?_, hrun, (hprinted.trans String.empty_append)⟩
  have hheading : Report.heading ⟨"acme/widget", 42, .epoch, some .epoch, "merged", false,
      [⟨117, 0, 2⟩, ⟨2095, 3, 1⟩, ⟨2095, 5, 5⟩]⟩ =
        "## [acme/widget#42](https://github.com/acme/widget/pull/42)" := by decide +kernel
  have hopened : Instant.display .epoch = "1970-01-01 00:00:00" := by decide +kernel
  rw [hfront, hheading, hopened]
  rfl

end Invocation

end RepairLedger
