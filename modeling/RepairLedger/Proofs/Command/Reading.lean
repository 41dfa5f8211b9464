import RepairLedger.Proofs.Command.Atomicity
import RepairLedger.Proofs.Host.Goals
import RepairLedger.Proofs.Text.Utf8

/-!
# Commands that read the ledger

To show a record changes no file at all.  To write a report changes one file, that at the output
path; a report that fails changes none (`Report.runIn_writeFile`).

Nothing keeps the output path from leading to the ledger itself.  Then the page takes the place of
the ledger, and a page is never a ledger (`Ledger.ofBytes_page`).  So a command that reads the
ledger leaves it untouched (`Ledger.Untouched`) in all cases but this one, and in this one it is
lost: `Invocation.execute_reading`.  Which case it is depends on the texts of the two paths alone
(`FileTree.goal`).
-/

namespace RepairLedger

open Host Attempt

/-- The ledger file at the path is as it was, so that it can be loaded if and only if it could. -/
structure Ledger.Untouched (path : Path) (w v : World) : Prop where
  bytes : v.files.read v.base path = w.files.read w.base path
  load : (runIn (load path) v).1 = (runIn (load path) w).1

namespace Ledger.Untouched

variable {path : Path} {w v : World}

theorem of_read (h : v.files.read v.base path = w.files.read w.base path) : Untouched path w v :=
  ⟨h, by rw [runIn_load, runIn_load, h]⟩

theorem of_files_eq (hf : v.files = w.files) (hb : v.base = w.base) : Untouched path w v :=
  of_read (by rw [hf, hb])

end Ledger.Untouched

/-! ### Pages -/

/-- What begins with a heading is not JSON. -/
theorem Json.Document.ofSymbols_heading (text : List Text.Symbol) :
    ofSymbols (.char '#' :: text) = ⟨.leaf .other, false⟩ := by
  have htoken : token '#' text = (.other, []) := rfl
  have hread : (State.value []).read (.char '#' :: text) = .done (.leaf .other) := by
    rw [State.read, if_neg (by decide), htoken, State.read]
    rfl
  rw [ofSymbols, hread]
  rfl

/-- A page is no ledger. -/
theorem Ledger.ofBytes_page (summaries : List Summary) :
    ofBytes (Text.encode (Report.page summaries)) = .error .valueExpected := by
  obtain ⟨text, htext⟩ : ∃ text, (Report.page summaries).toList = '#' :: text :=
    ⟨_, by rw [Report.page, Report.preamble, Report.line, String.append_assoc, String.append_assoc,
      String.toList_append]; rfl⟩
  rw [ofBytes, ofSymbols, Json.Decoder.run, Text.symbols_encode, Text.symbolsOf, htext,
    List.map_cons, Json.Document.ofSymbols_heading]
  rfl

/-! ### The report of a file -/

namespace Report

variable {ledgerPath outputPath : Path} {w v : World}

/-- The writing of a report step by step: it stops at the first thing that goes wrong, and only the
last step changes anything. -/
theorem runIn_writeFile (ledgerPath outputPath : Path) (w : World) :
    runIn (writeFile ledgerPath outputPath) w =
      if w.files.kind? w.base ledgerPath ≠ some .file then (.error (.noLedger ledgerPath), w)
      else match Ledger.ofRead ledgerPath (w.files.read w.base ledgerPath) with
        | .error e => (.error (.ledger e), w)
        | .ok l => match l.report with
          | .error e => (.error (.rendering ledgerPath e), w)
          | .ok text => match w.files.write w.base outputPath (Text.encode text) with
            | .error cause => (.error (.output outputPath cause), w)
            | .ok files => (.ok l.size, { w with files }) := by
  unfold writeFile
  rw [runIn_bind, runIn_ask]
  dsimp only [World.perform]
  split
  · rfl
  rw [runIn_bind, runIn_adapt, Ledger.runIn_load]
  cases Ledger.ofRead ledgerPath (w.files.read w.base ledgerPath) with
  | error e => rfl
  | ok l =>
  dsimp only [Except.mapError]
  cases l.report with
  | error e => rfl
  | ok text =>
  dsimp only
  rw [runIn_bind, runIn_attempt]
  dsimp only [Program.request, Program.run, World.perform, World.change]
  cases w.files.write w.base outputPath (Text.encode text) <;> rfl

/-- Everything that the writing of a report can do: it fails and leaves the world as it is, or it
writes the page of the ledger at the one path to the other. -/
theorem writeFile_cases {r : Except ReportFailure Nat}
    (h : runIn (writeFile ledgerPath outputPath) w = (r, v)) :
    (∃ e, r = .error e ∧ v = w) ∨
    ∃ l summaries files, r = .ok l.size ∧ w.files.kind? w.base ledgerPath = some .file ∧
      runIn (Ledger.load ledgerPath) w = (.ok l, w) ∧ l.report = .ok (page summaries) ∧
      w.files.write w.base outputPath (Text.encode (page summaries)) = .ok files ∧
      v = { w with files } := by
  rw [runIn_writeFile] at h
  split at h
  · cases h
    exact .inl ⟨_, rfl, rfl⟩
  rename_i hkind
  split at h
  · cases h
    exact .inl ⟨_, rfl, rfl⟩
  rename_i l hload
  split at h
  · cases h
    exact .inl ⟨_, rfl, rfl⟩
  rename_i text hreport
  obtain ⟨summaries, -, rfl⟩ := map_eq_ok.1 hreport
  split at h
  · cases h
    exact .inl ⟨_, rfl, rfl⟩
  rename_i files hfiles
  cases h
  exact .inr ⟨l, summaries, files, rfl, not_not.1 hkind, by rw [Ledger.runIn_load, hload], hreport,
    hfiles, rfl⟩

end Report

/-! ### Whole runs -/

namespace Job

/-- What a report does to the files: nothing if it is refused, and else it writes one. -/
theorem report_cases {setting : Setting} {ledgerPath outputPath : Path} {w v : World}
    {r : Except Refusal Unit} (h : runIn (report setting ledgerPath outputPath) w = (r, v)) :
    v.base = w.base ∧
      ((∃ e, r = .error e ∧ v.files = w.files) ∨
      ∃ l summaries, r = .ok () ∧ w.files.kind? w.base ledgerPath = some .file ∧
        runIn (Ledger.load ledgerPath) w = (.ok l, w) ∧
        l.report = .ok (Report.page summaries) ∧
        w.files.write w.base outputPath (Text.encode (Report.page summaries)) = .ok v.files) := by
  unfold report at h
  rw [runIn_bind, runIn_adapt] at h
  rcases hwrite : runIn (Report.writeFile ledgerPath outputPath) w with ⟨written, u⟩
  rw [hwrite] at h
  rcases Report.writeFile_cases hwrite with
    ⟨e, rfl, rfl⟩ | ⟨l, summaries, files, rfl, hkind, hload, hreport, hfiles, rfl⟩
  · cases h
    exact ⟨rfl, .inl ⟨_, rfl, rfl⟩⟩
  · dsimp only [Except.mapError] at h
    obtain ⟨output, hannounce⟩ := runIn_announce setting.manner
      (ReportOutcome.text ⟨ledgerPath, outputPath, l.size⟩) { w with files }
    rw [hannounce] at h
    cases h
    exact ⟨rfl, .inr ⟨l, summaries, rfl, hkind, hload, hreport, hfiles⟩⟩

end Job

namespace Invocation

variable {manner : Manner} {command : Command} {w v : World} {code : ExitCode}

/-- A run leaves the files as its job does. -/
theorem execute_files (h : (run manner command).execute.run w = (code, v)) :
    ∃ r u, runIn (command.job ⟨manner, World.pathOf w.base⟩) w = (r, u) ∧
      (code = .success ↔ r = .ok ()) ∧ v.files = u.files ∧ v.base = u.base := by
  obtain ⟨text, hrun⟩ := execute_run manner command w
  rw [h] at hrun
  rcases hjob : runIn (command.job ⟨manner, World.pathOf w.base⟩) w with ⟨refusal | ⟨⟩, u⟩
  · rw [runCommand_error hjob] at hrun
    cases hrun
    exact ⟨_, u, rfl, by simp [ExitCode.failure_ne_success], rfl, rfl⟩
  · rw [runCommand_ok hjob] at hrun
    cases hrun
    exact ⟨_, u, rfl, by simp, rfl, rfl⟩

/-- **Commands that read the ledger leave it untouched, unless the report is written over it.**  To
show a record changes no file.  A report that fails changes none either, and one that succeeds
leaves the ledger untouched if its output path leads elsewhere.  But where the two paths lead to one
place, the page has replaced the ledger, which can no longer be loaded. -/
theorem execute_reading (h : (run manner command).execute.run w = (code, v)) :
    (∀ subject, command = .describe subject →
      v.files = w.files ∧ ∀ path, Ledger.Untouched path w v) ∧
    ∀ ledgerPath outputPath, command = .report ledgerPath outputPath →
      (code ≠ .success → v.files = w.files) ∧
      (code ≠ .success ∨
        FileTree.goal w.base outputPath ≠ FileTree.goal w.base ledgerPath →
        Ledger.Untouched ledgerPath w v) ∧
      (code = .success → FileTree.goal w.base outputPath = FileTree.goal w.base ledgerPath →
        ∃ l summaries, runIn (Ledger.load ledgerPath) w = (.ok l, w) ∧
          l.report = .ok (Report.page summaries) ∧
          v.files.read v.base ledgerPath = .ok (Text.encode (Report.page summaries)) ∧
          runIn (Ledger.load ledgerPath) v =
            (.error (.corrupt ledgerPath .valueExpected), v)) := by
  obtain ⟨r, u, hjob, hcode, hfiles, hbase⟩ := execute_files h
  refine ⟨?_, ?_⟩
  · rintro subject rfl
    have hasks : Asks (Permits [] []) (Job.describe ⟨manner, World.pathOf w.base⟩ subject) :=
      Job.asks_describe (fun _ => Program.Looks.permits) fun _ => trivial
    obtain ⟨hf, hb⟩ := hasks.files_eq hjob
    have hsame : v.files = w.files := hfiles.trans hf
    exact ⟨hsame, fun path => .of_files_eq hsame (hbase.trans hb)⟩
  · rintro ledgerPath outputPath rfl
    obtain ⟨hb, hcases⟩ := Job.report_cases hjob
    rw [hb] at hbase
    rw [← hfiles] at hcases
    obtain ⟨e, rfl, hsame⟩ | ⟨l, summaries, rfl, hkind, hload, hreport, hwrite⟩ := hcases
    · have hfail : code ≠ .success := by simp [hcode]
      exact ⟨fun _ => hsame, fun _ => .of_files_eq hsame hbase, fun hs => absurd hs hfail⟩
    · have hread := FileTree.read_write hkind hwrite
      rw [← hbase] at hread
      refine ⟨fun hn => absurd (hcode.2 rfl) hn, fun hor => ?_, fun _ hgoal => ?_⟩
      · have hgoal := hor.resolve_left fun hn => hn (hcode.2 rfl)
        rw [hbase, if_neg hgoal] at hread
        exact .of_read (by rw [hbase, hread])
      · rw [if_pos (by rw [hbase, hgoal])] at hread
        refine ⟨l, summaries, hload, hreport, hread, ?_⟩
        rw [Ledger.runIn_load, hread, Ledger.ofRead, Ledger.ofBytes_page]
        rfl

/-- A world with an empty ledger, which is shown in a report beside it and then in its own place,
spelled in another way. -/
theorem execute_reading_onto_ledger :
    let w : World := { World.empty .epoch [] with
      files := ⟨[(["prs.json"], .file (Text.encode "\x7b\x7d\n"))]⟩ }
    let report (output : String) := run ⟨false, .human, true, none⟩ (.report ⟨"prs.json"⟩ ⟨output⟩)
    (∃ v, (report "page.md").execute.run w = (.success, v) ∧
      Ledger.Untouched ⟨"prs.json"⟩ w v) ∧
    ∃ v, (report "./prs.json").execute.run w = (.success, v) ∧
      (runIn (Ledger.load ⟨"prs.json"⟩) w).1 = .ok .empty ∧
      runIn (Ledger.load ⟨"prs.json"⟩) v =
        (.error (.corrupt ⟨"prs.json"⟩ .valueExpected), v) := by
  intro w report
  have hbeside : (runIn (Command.job ⟨⟨false, .human, true, none⟩, World.pathOf w.base⟩
      (.report ⟨"prs.json"⟩ ⟨"page.md"⟩)) w).1 = .ok () :=
    eq_ok_of_toOption (by decide +kernel)
  have honto : (runIn (Command.job ⟨⟨false, .human, true, none⟩, World.pathOf w.base⟩
      (.report ⟨"prs.json"⟩ ⟨"./prs.json"⟩)) w).1 = .ok () :=
    eq_ok_of_toOption (by decide +kernel)
  have hempty : (runIn (Ledger.load ⟨"prs.json"⟩) w).1 = .ok .empty :=
    eq_ok_of_toOption (by decide +kernel)
  obtain ⟨v, hv⟩ := execute_of_job hbeside
  obtain ⟨v', hv'⟩ := execute_of_job honto
  obtain ⟨-, huntouched, -⟩ := (execute_reading hv).2 _ _ rfl
  obtain ⟨-, -, hlost⟩ := (execute_reading hv').2 _ _ rfl
  obtain ⟨l, summaries, -, -, -, hload⟩ := hlost rfl (by decide +kernel)
  exact ⟨⟨v, hv, huntouched (.inr (by decide +kernel))⟩, v', hv', hempty, hload⟩

end Invocation

end RepairLedger
