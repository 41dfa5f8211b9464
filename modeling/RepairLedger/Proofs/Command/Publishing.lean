import RepairLedger.Proofs.Command.Reading
import RepairLedger.Proofs.Command.Showing
import RepairLedger.Proofs.Command.Traffic
import RepairLedger.Proofs.Host.Replies
import RepairLedger.Proofs.Record.Judging

/-!
# Publishing a report

A report is written just if there is a ledger file, the bytes in it are a ledger, the statistics of
each record are well formed, and there is a place for the report
(`Report.exists_runIn_writeFile_iff`).  Then one location has new contents, and no other.

What is wrong with a ledger is found out by looking (`Report.Unfit`), and each of the faults has a
code that the refusal carries, also where a sentence has been put before the error
(`Report.reaches_of_unfit`).  The replies to a program need not be those of a `World` here, since in
a world each file that is there can be read.  All this is put together in
`Invocation.execute_report`.
-/

namespace RepairLedger

open Host Attempt

/-! ### Ledgers that cannot be reported -/

theorem Summary.exists_ofRecord_iff {r : Record} :
    (∃ s, ofRecord r = .ok s) ↔ r.statistics.IsWellFormed := by
  rw [← Statistics.exists_repairs_iff]
  unfold ofRecord
  cases r.statistics.repairs <;> simp

namespace Report

/-- What is wrong with the ledger file at a path, going by what is replied about it: there is no
file, or it cannot be read, or it holds no ledger, or a ledger with malformed statistics. -/
inductive Unfit (reply : (op : Op) → op.Reply) (path : Path) : ErrorCode → Prop
  | missing (h : reply (.kind path) ≠ some .file) : Unfit reply path .readFailed
  | unreadable {cause : Failure} (hk : reply (.kind path) = some .file)
      (hr : reply (.read path) = .error cause) (hc : cause ≠ .notFound) :
    Unfit reply path .readFailed
  | corrupt {bytes : Bytes} {fault : Json.Fault} (hk : reply (.kind path) = some .file)
      (hr : reply (.read path) = .ok bytes) (hl : Ledger.ofBytes bytes = .error fault) :
    Unfit reply path .corruptLedger
  | malformed {bytes : Bytes} {l : Ledger} {e : PullId × Record}
      (hk : reply (.kind path) = some .file) (hr : reply (.read path) = .ok bytes)
      (hl : Ledger.ofBytes bytes = .ok l) (he : e ∈ l.entries)
      (hs : ¬ e.2.statistics.IsWellFormed) :
    Unfit reply path .malformedStatistics

variable {reply : (op : Op) → op.Reply} {ledgerPath outputPath : Path} {w v : World}

theorem reaches_load_error {cause : Failure} (hr : reply (.read ledgerPath) = .error cause)
    (hc : cause ≠ .notFound) :
    Reaches reply Program.Looks (Ledger.load ledgerPath)
      (.error (.readFailed ledgerPath cause)) := by
  unfold Ledger.load
  refine .bind (.ask trivial) ?_
  rw [hr]
  cases cause with
  | notFound => exact absurd rfl hc
  | _ => exact .throw _

theorem reaches_load_corrupt {bytes : Bytes} {fault : Json.Fault}
    (hr : reply (.read ledgerPath) = .ok bytes) (hl : Ledger.ofBytes bytes = .error fault) :
    Reaches reply Program.Looks (Ledger.load ledgerPath) (.error (.corrupt ledgerPath fault)) := by
  unfold Ledger.load
  refine .bind (.ask trivial) ?_
  rw [hr]
  dsimp only
  rw [hl]
  exact .throw _

theorem reaches_load {bytes : Bytes} {l : Ledger} (hr : reply (.read ledgerPath) = .ok bytes)
    (hl : Ledger.ofBytes bytes = .ok l) :
    Reaches reply Program.Looks (Ledger.load ledgerPath) (.ok l) := by
  unfold Ledger.load
  refine .bind (.ask trivial) ?_
  rw [hr]
  dsimp only
  rw [hl]
  exact .bind (.ask trivial) (.pure _)

/-- A report that gets as far as the loading goes on with what comes of it. -/
theorem reaches_writeFile_of_load {e : LedgerError}
    (hk : reply (.kind ledgerPath) = some .file)
    (hload : Reaches reply Program.Looks (Ledger.load ledgerPath) (.error e)) :
    Reaches reply Program.Looks (writeFile ledgerPath outputPath) (.error (.ledger e)) := by
  unfold writeFile
  refine .bind (.ask trivial) ?_
  rw [hk]
  exact .bind_error (hload.adapt _)

/-- What is wrong with a ledger is found by looking, and the refusal has its code.  For malformed
statistics that is so although a sentence stands before the error. -/
theorem reaches_of_unfit {code : ErrorCode} (h : Unfit reply ledgerPath code) (outputPath : Path) :
    ∃ e, Reaches reply Program.Looks (writeFile ledgerPath outputPath) (.error e) ∧
      (Refusal.ofReportFailure e).diagnostic.code = code ∧
      (code = .malformedStatistics → ∃ reason, (Refusal.ofReportFailure e).diagnostic.message =
        "failed to render report for " ++ ledgerPath.text ++
          ": malformed repair statistics: " ++ reason) := by
  cases h with
  | missing hk =>
    refine ⟨.noLedger ledgerPath, ?_, rfl, by rintro ⟨⟩⟩
    unfold writeFile
    refine .bind (.ask trivial) ?_
    rw [if_pos hk]
    exact .bind_error (.throw _)
  | unreadable hk hr hc =>
    exact ⟨_, reaches_writeFile_of_load hk (reaches_load_error hr hc), rfl, by rintro ⟨⟩⟩
  | corrupt hk hr hl =>
    exact ⟨_, reaches_writeFile_of_load hk (reaches_load_corrupt hr hl), rfl, by rintro ⟨⟩⟩
  | @malformed bytes l e hk hr hl he hs =>
    -- The report stops at some record, if not at this one.
    obtain ⟨error, hreport⟩ : ∃ error, l.report = .error error := by
      cases hreport : l.report with
      | error error => exact ⟨error, rfl⟩
      | ok text =>
        have hall := Ledger.exists_report_iff.1 ⟨text, hreport⟩
        exact absurd (Summary.exists_ofRecord_iff.1 (hall e he)) hs
    obtain ⟨_, _, r, _, -, -, hr'⟩ := Ledger.report_eq_error.1 hreport
    obtain ⟨flaw, -, rfl⟩ := Summary.ofRecord_eq_error.1 hr'
    refine ⟨.rendering ledgerPath (.malformedStatistics flaw.message), ?_, rfl, fun _ =>
      ⟨flaw.message, ?_⟩⟩
    · unfold writeFile
      refine .bind (.ask trivial) ?_
      rw [if_neg (not_not.2 hk)]
      refine .bind ((reaches_load hr hl).adapt _) ?_
      rw [hreport]
      exact .throw _
    · show ": ".intercalate ["failed to render report for " ++ ledgerPath.text,
        "malformed repair statistics: " ++ flaw.message] = _
      have hcolon : ": malformed repair statistics: " =
          ": " ++ "malformed repair statistics: " := by
        decide +kernel
      rw [String.intercalate_cons_cons, String.intercalate_singleton, hcolon]
      simp only [String.append_assoc]

/-- A report of a ledger with which something is wrong is refused by looking. -/
theorem reaches_report_of_unfit {code : ErrorCode} (h : Unfit reply ledgerPath code)
    (setting : Setting) (outputPath : Path) :
    ∃ refusal, Reaches reply Program.Looks (Job.report setting ledgerPath outputPath)
        (.error refusal) ∧
      refusal.diagnostic.code = code ∧
      (code = .malformedStatistics → ∃ reason, refusal.diagnostic.message =
        "failed to render report for " ++ ledgerPath.text ++
          ": malformed repair statistics: " ++ reason) := by
  obtain ⟨e, hreaches, hcode, hmessage⟩ := reaches_of_unfit h outputPath
  exact ⟨_, .bind_error (hreaches.adapt _), hcode, hmessage⟩

/-! ### The file that is written -/

/-- A file can be read just if it is there. -/
theorem kind?_eq_file_iff {t : FileTree} {base : Location} {path : Path} :
    t.kind? base path = some .file ↔ ∃ bytes, t.read base path = .ok bytes := by
  constructor
  · intro h
    unfold FileTree.kind? at h
    split at h
    · rename_i l hl
      rw [FileTree.read_of_locate hl]
      cases he : t.get? l with
      | none =>
        rw [he] at h
        cases h
      | some entry =>
        rw [he] at h
        cases entry with
        | file bytes => exact ⟨bytes, rfl⟩
        | directory => cases h
    · cases h
  · rintro ⟨bytes, h⟩
    exact FileTree.kind?_of_read h

/-- A file that is written holds what was written, and no other location has changed. -/
theorem get?_of_write {t t' : FileTree} {base : Location} {path : Path} {bytes : Bytes}
    (h : t.write base path bytes = .ok t') :
    t'.read base path = .ok bytes ∧
      ∀ loc, loc ≠ FileTree.goal base path → t'.get? loc = t.get? loc := by
  constructor
  · obtain ⟨loc, hloc, hbytes⟩ := Ledger.fileLocation_of_write h
    rw [FileTree.read_of_fileLocation hloc, hbytes]
  · obtain ⟨loc, hloc, h⟩ := bind_eq_ok.1 h
    cases h
    have hnames := FileTree.names_of_fileLocation hloc
    intro other hother
    rw [FileTree.get?_set hnames.ne_nil, if_neg]
    rwa [hnames.eq_goal]

/-- **When a report is written.** -/
theorem exists_runIn_writeFile_iff :
    (∃ n, (runIn (writeFile ledgerPath outputPath) w).1 = .ok n) ↔
      w.files.kind? w.base ledgerPath = some .file ∧
      (∃ bytes l, w.files.read w.base ledgerPath = .ok bytes ∧ Ledger.ofBytes bytes = .ok l ∧
        ∀ e ∈ l.entries, e.2.statistics.IsWellFormed) ∧
      ∃ loc, w.files.fileLocation w.base outputPath = .ok loc := by
  constructor
  · rintro ⟨n, hn⟩
    rcases writeFile_cases rfl with ⟨e, he, -⟩ | ⟨l, summaries, files, -, hk, hload, hreport, hw, -⟩
    · cases hn.symm.trans he
    obtain ⟨bytes, hread⟩ := kind?_eq_file_iff.1 hk
    obtain ⟨loc, hloc, -⟩ := bind_eq_ok.1 hw
    rw [Ledger.runIn_load, hread] at hload
    refine ⟨hk, ⟨bytes, l, hread, mapError_eq_ok.1 (congrArg Prod.fst hload), fun e he => ?_⟩,
      loc, hloc⟩
    exact Summary.exists_ofRecord_iff.1 (Ledger.exists_report_iff.1 ⟨_, hreport⟩ e he)
  · rintro ⟨hk, ⟨bytes, l, hread, hl, hs⟩, loc, hloc⟩
    obtain ⟨text, hreport⟩ := Ledger.exists_report_iff.2 fun e he =>
      Summary.exists_ofRecord_iff.2 (hs e he)
    have hload : Ledger.ofRead ledgerPath (.ok bytes) = .ok l := by
      rw [Ledger.ofRead, hl]
      rfl
    have hwrite : w.files.write w.base outputPath (Text.encode text) =
        .ok (w.files.set loc (.file (Text.encode text))) := bind_eq_ok.2 ⟨loc, hloc, rfl⟩
    refine ⟨l.size, ?_⟩
    rw [runIn_writeFile, if_neg (not_not.2 hk), hread, hload]
    dsimp only
    rw [hreport]
    dsimp only
    rw [hwrite]

end Report

/-! ### Whole runs -/

namespace Invocation

/-- **Reports from end to end.**  A report is written just if there is a ledger file, its bytes are
a ledger, the statistics of each record are well formed, and the output path leads to a place for a
file.  Then that file holds the report of the ledger, the number of its records is announced, and
nothing else has changed.  If something is wrong with the ledger, the command only looks at what is
there, and the refusal has the code of what is wrong; in a world, such a run leaves all files alone
and prints the refusal last. -/
theorem execute_report (ledgerPath outputPath : Path) :
    (∀ w, (∃ n, (runIn (Report.writeFile ledgerPath outputPath) w).1 = .ok n) ↔
      w.files.kind? w.base ledgerPath = some .file ∧
      (∃ bytes l, w.files.read w.base ledgerPath = .ok bytes ∧ Ledger.ofBytes bytes = .ok l ∧
        ∀ e ∈ l.entries, e.2.statistics.IsWellFormed) ∧
      ∃ loc, w.files.fileLocation w.base outputPath = .ok loc) ∧
    (∀ w n v, runIn (Report.writeFile ledgerPath outputPath) w = (.ok n, v) →
      ∃ bytes l text, w.files.read w.base ledgerPath = .ok bytes ∧ Ledger.ofBytes bytes = .ok l ∧
        l.report = .ok text ∧ n = l.entries.length ∧
        v.files.read v.base outputPath = .ok (Text.encode text) ∧
        (∀ loc, loc ≠ FileTree.goal w.base outputPath → v.files.get? loc = w.files.get? loc) ∧
        v = { w with files := v.files }) ∧
    (∀ reply code setting, Report.Unfit reply ledgerPath code →
      ∃ refusal, Reaches reply Program.Looks (Job.report setting ledgerPath outputPath)
          (.error refusal) ∧
        refusal.diagnostic.code = code ∧
        (code = .malformedStatistics → ∃ reason, refusal.diagnostic.message =
          "failed to render report for " ++ ledgerPath.text ++
            ": malformed repair statistics: " ++ reason)) ∧
    (∀ w code, Report.Unfit w.replies ledgerPath code →
      ∀ manner exit v, (run manner (.report ledgerPath outputPath)).execute.run w = (exit, v) →
        exit = .failure ∧ v.files = w.files ∧
        ∃ refusal before, v.complaints = before ++ Refusal.text refusal manner.style ∧
          refusal.diagnostic.code = code) ∧
    ∀ w manner exit v, (run manner (.report ledgerPath outputPath)).execute.run w = (exit, v) →
      (exit = .success ↔ ∃ n, (runIn (Report.writeFile ledgerPath outputPath) w).1 = .ok n) ∧
      v.files = (runIn (Report.writeFile ledgerPath outputPath) w).2.files := by
  refine ⟨fun w => Report.exists_runIn_writeFile_iff, ?_, fun reply code setting h =>
    Report.reaches_report_of_unfit h setting outputPath, ?_, ?_⟩
  · intro w n v h
    rcases Report.writeFile_cases h with ⟨e, he, -⟩ | ⟨l, summaries, files, hn, hk, hload, hreport,
      hw, rfl⟩
    · cases he
    cases hn
    obtain ⟨bytes, hread⟩ := Report.kind?_eq_file_iff.1 hk
    rw [Ledger.runIn_load, hread] at hload
    obtain ⟨hwritten, hothers⟩ := Report.get?_of_write hw
    exact ⟨bytes, l, _, hread, mapError_eq_ok.1 (congrArg Prod.fst hload), hreport, rfl, hwritten,
      hothers, rfl⟩
  · intro w code h manner exit v hrun
    obtain ⟨refusal, hreaches, hcode, -⟩ :=
      Report.reaches_report_of_unfit h ⟨manner, World.pathOf w.base⟩ outputPath
    have hjob : runIn ((Command.report ledgerPath outputPath).job ⟨manner, World.pathOf w.base⟩) w =
        (.error refusal, w) := hreaches.runIn
    obtain ⟨before, hrefused⟩ := execute_refused hjob
    rw [hrun] at hrefused
    cases hrefused
    exact ⟨rfl, rfl, refusal, before, rfl, hcode⟩
  · intro w manner exit v hrun
    obtain ⟨r, u, hjob, hexit, hfiles, -⟩ := execute_files hrun
    have hsteps :
        runIn (Job.report ⟨manner, World.pathOf w.base⟩ ledgerPath outputPath) w = (r, u) :=
      hjob
    unfold Job.report at hsteps
    rw [runIn_bind, runIn_adapt] at hsteps
    rw [hfiles, hexit]
    rcases hwrite : runIn (Report.writeFile ledgerPath outputPath) w with ⟨e | n, x⟩
    · rw [hwrite] at hsteps
      cases hsteps
      simp
    · obtain ⟨output, hannounce⟩ := Job.runIn_announce manner
        (ReportOutcome.text ⟨ledgerPath, outputPath, n⟩) x
      rw [hwrite] at hsteps
      dsimp only [Except.mapError] at hsteps
      rw [hannounce] at hsteps
      cases hsteps
      simp

/-- A ledger with one record, whose report is written beside it; the same ledger with a number in
the place of the list of repairs, which is refused; and a ledger file that nobody may read. -/
theorem execute_report_filed :
    let k : PullId := ⟨"acme", "widget", 42⟩
    let state : PullState := ⟨"u", .epoch, none, none, "open", false, 42⟩
    let holding (payload : Json.Members) : Ledger :=
      ⟨[(k, .begin k.slug state ⟨payload⟩ "d" .epoch)]⟩
    let good := holding [("repairs", .array [])]
    let bad := holding [("repairs", .ofUInt64 3)]
    let manner : Manner := ⟨false, .human, true, none⟩
    let report := (run manner (.report ⟨"prs.json"⟩ ⟨"page.md"⟩)).execute
    let closed : (op : Op) → op.Reply
      | .kind _ => some .file
      | .read _ => .error (.other "Permission denied (os error 13)")
      | op => (filed good).replies op
    (∃ v text, report.run (filed good) = (.success, v) ∧ good.report = .ok text ∧
      v.files.read (filed good).base ⟨"page.md"⟩ = .ok (Text.encode text) ∧
      v.files.get? ["prs.json"] = some (.file (Text.encode good.text))) ∧
    (∃ v refusal before, report.run (filed bad) = (.failure, v) ∧
      v.files = (filed bad).files ∧ v.complaints = before ++ Refusal.text refusal .human ∧
      refusal.diagnostic.code.text = "E2004") ∧
    ∃ refusal, Reaches closed Program.Looks
        (Job.report ⟨manner, ⟨"/"⟩⟩ ⟨"prs.json"⟩ ⟨"page.md"⟩) (.error refusal) ∧
      refusal.diagnostic.code.text = "E3001" := by
  intro k state holding good bad manner report closed
  have hloads : ∀ v : Json.Value, v.IsSorted → v.IsExact → v.depth ≤ 1 →
      Ledger.ofBytes (Text.encode (holding [("repairs", v)]).text) =
        .ok (holding [("repairs", v)]) := by
    intro v hsorted hexact hdepth
    have hreadable : (holding [("repairs", v)]).Readable :=
      Ledger.readable_empty.append rfl (by decide +kernel)
        ⟨⟨List.pairwise_singleton _ _, hsorted, trivial⟩, by
          simp only [Record.begin, Statistics.json, Json.Value.depth, Json.Value.depthMembers,
            Ledger.statisticsDepth, Json.maxDepth]
          omega⟩
        (show ∀ t ∈ [Instant.epoch, .epoch, .epoch], t.IsRegular by decide)
    have hintegers : (holding [("repairs", v)]).IsExact :=
      List.forall_mem_singleton.2 ⟨hexact, trivial⟩
    rw [Ledger.ofBytes_text, hreadable.reread hintegers]
  have hgood : Ledger.ofBytes (Text.encode good.text) = .ok good :=
    hloads (.array []) trivial trivial (by decide)
  have hbad : Ledger.ofBytes (Text.encode bad.text) = .ok bad :=
    hloads (.ofUInt64 3) trivial trivial (by decide)
  obtain ⟨hiff, hwritten, hreplies, hrefused, hruns⟩ := execute_report ⟨"prs.json"⟩ ⟨"page.md"⟩
  refine ⟨?_, ?_, ?_⟩
  · have hformed : ∀ e ∈ good.entries, e.2.statistics.IsWellFormed := by
      refine List.forall_mem_singleton.2 fun w hw => ⟨[], [], ?_, .nil⟩
      cases hw
      rfl
    obtain ⟨n, hn⟩ := (hiff (filed good)).2
      ⟨rfl, ⟨_, good, rfl, hgood, hformed⟩, ["page.md"], rfl⟩
    rcases hrun : report.run (filed good) with ⟨exit, v⟩
    rcases hwrite : runIn (Report.writeFile ⟨"prs.json"⟩ ⟨"page.md"⟩) (filed good) with ⟨r, x⟩
    obtain ⟨hexit, hfiles⟩ := hruns _ _ _ _ hrun
    rw [hwrite] at hn hfiles hexit
    obtain rfl : r = .ok n := hn
    obtain ⟨bytes, l, text, hread, hl, htext, -, hpage, hothers, hsame⟩ := hwritten _ _ _ hwrite
    obtain rfl : Text.encode good.text = bytes := Except.ok.inj hread
    obtain rfl : good = l := Except.ok.inj (hgood.symm.trans hl)
    have hbase : x.base = (filed good).base := by rw [hsame]
    refine ⟨v, text, Prod.ext (hexit.2 ⟨n, rfl⟩) rfl, htext, ?_, ?_⟩
    · rw [hfiles, ← hbase]
      exact hpage
    · rw [hfiles, hothers ["prs.json"] (by decide +kernel)]
      rfl
  · have hnot : ¬ (Statistics.mk [("repairs", .ofUInt64 3)]).IsWellFormed := by
      intro h
      obtain ⟨items, _, hitems, -⟩ := h (.ofUInt64 3) rfl
      cases hitems
    have hunfit : Report.Unfit (filed bad).replies ⟨"prs.json"⟩ .malformedStatistics :=
      .malformed rfl rfl hbad List.mem_cons_self hnot
    rcases hrun : report.run (filed bad) with ⟨exit, v⟩
    obtain ⟨rfl, hfiles, refusal, before, hcomplaints, hcode⟩ := hrefused _ _ hunfit _ _ _ hrun
    exact ⟨v, refusal, before, rfl, hfiles, hcomplaints, by rw [hcode]; rfl⟩
  · obtain ⟨refusal, hreaches, hcode, -⟩ := hreplies closed .readFailed ⟨manner, ⟨"/"⟩⟩
      (.unreadable rfl rfl (by decide))
    exact ⟨refusal, hreaches, by rw [hcode]; rfl⟩

end Invocation

end RepairLedger
