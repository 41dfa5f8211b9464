import RepairLedger.Proofs.Command.Reloading
import RepairLedger.Proofs.Command.Traffic
import RepairLedger.Proofs.Ledger.Reread
import RepairLedger.Proofs.Text.Lossy

/-!
# The diffs that are captured

What becomes of the bytes of a diff, from the answer of a server to the ledger that is loaded
afterwards (`Invocation.execute_captured`).  The text that is loaded has the same bytes if and only
if they are the bytes of a text at all.  Others are not refused: each stray run of them is replaced,
and the command succeeds.
-/

namespace RepairLedger

open Host Attempt GitHub

namespace Invocation

variable {manner : Manner} {command : Command} {operation : Operation} {subject : Subject}
  {w v : World}

/-- A run that succeeds and captures something has asked for the pull request and for its diff, and
has entered a record with this diff into the ledger that was there. -/
theorem exists_captured (hc : command.captures? = some (operation, subject))
    (h : (run manner command).execute.run w = (.success, v)) :
    ∃ (found : Settings) (id : PullId) (capture : FinalCapture) (fetches writes : List Deed)
      (l : Ledger) (record : Record),
      settings manner subject w = .ok found ∧
      PullId.ofParts subject.owner subject.repo subject.number = .ok id ∧
      (run manner command).execute.deeds w = fetches ++ writes ∧
      Course found id (.ok capture) fetches ∧ (∀ d ∈ writes, d.Saves found.ledgerPath) ∧
      operation.diff? record = some capture.diff ∧
      Ledger.Replaced found.ledgerPath l (l.upsert id record) w v := by
  obtain ⟨u, hjob, hb, hf⟩ := job_of_success h
  generalize hr : (.ok () : Except Refusal Unit) = r at hjob
  have hcarried := Command.carried hc ⟨hjob, rfl⟩
  rw [deeds_run]
  generalize deedsIn (command.job ⟨manner, World.pathOf w.base⟩) w = ds at hcarried ⊢
  cases hcarried with
  | idle => cases hr
  | changed ho hid hs hm hrun hcourse hbase hfiles =>
    obtain ⟨outcome, rfl, -⟩ := map_eq_ok.1 hr.symm
    obtain ⟨l, _, _, -, -, hreplaced⟩ := Job.change_ok hm hrun
    cases hcourse with
    | fetched _ _ hfetched hwrites hdiff =>
      exact ⟨_, _, _, _, _, l, outcome.record, runIn_settingsFor_ok.1 hs, hid, rfl, hfetched,
        hwrites, hdiff outcome rfl, hreplaced.of_files_eq (hb.trans hbase) (hf.trans hfiles)⟩

/-- **What is captured of a diff.**  A run that succeeds and captures something has been answered
with a diff that is not too long.  If the ledger that it leaves can be loaded, there is a record
under the id with the text that the answer is decoded to; and this text has the bytes of the answer
if and only if they are the bytes of a text. -/
theorem execute_captured (hc : command.captures? = some (operation, subject))
    (h : (run manner command).execute.run w = (.success, v)) :
    ∃ (found : Settings) (id : PullId) (pull : Pull) (answer : Answer) (response : Response)
      (sent sent' : String),
      settings manner subject w = .ok found ∧
      PullId.ofParts subject.owner subject.repo subject.number = .ok id ∧
      Url.sent? (pullUrl found id) = some sent ∧ pull? answer = some pull ∧
      Url.sent? pull.diffUrl = some sent' ∧
      response.status < 400 ∧ response.body.length ≤ diffLimit ∧
      (run manner command).execute.fetches w =
        [(requestFor found sent pullKind, answer),
          (requestFor found sent' diffKind, .ok response)] ∧
      ∀ l, runIn (Ledger.load found.ledgerPath) v = (.ok l, v) →
        ∃ record diff, l.get? id = some record ∧ operation.diff? record = some diff ∧
          diff = Text.decodeLossy response.body ∧
          (Text.encode diff = response.body ↔ (Text.decode? response.body).isSome) := by
  obtain ⟨found, id, capture, fetches, writes, l, record, hfound, hid, hdeeds, hcourse, hwrites,
    hdiff, hreplaced⟩ := exists_captured hc h
  have hsaved : writes.filterMap Deed.fetch? = [] :=
    List.filterMap_eq_nil_iff.2 fun d hd => (hwrites d hd).fetch?_eq_none
  cases hcourse with
  | @fetched sent sent' diff answer answer' pull hs hpull hs' hanswer =>
    obtain ⟨response, rfl, hstatus, hlength, rfl⟩ := diff?_eq_some.1 hanswer
    refine ⟨found, id, pull, answer, response, sent, sent', hfound, hid, hs, hpull, hs', hstatus,
      hlength, ?_, fun loaded hload => ?_⟩
    · rw [Program.fetches, hdeeds, List.filterMap_append, hsaved]
      rfl
    · -- What is loaded is the ledger that was written, apart from statistics.
      rw [hreplaced.load_after, Prod.mk.injEq, mapError_eq_ok] at hload
      have hvalid : ∀ k ∈ (l.upsert id record).ids, k.IsValid :=
        Ledger.valid_ids_upsert hreplaced.readable.valid (PullId.ofParts_eq_ok_iff.1 hid).2
      obtain ⟨statistics, hget⟩ :=
        (Ledger.kept_of_ofBytes_text hvalid hload.1).get? Ledger.get?_upsert_self
      refine ⟨_, _, hget, ?_, rfl, Text.encode_decodeLossy_iff⟩
      cases operation <;> exact hdiff

/-- The first record of a new ledger can be loaded if it has no statistics. -/
theorem exists_load_first {found : Settings} {loc : Location}
    (h : (run manner (.createInitial subject none)).execute.run w = (.success, v))
    (hfound : settings manner subject w = .ok found)
    (hl : w.files.fileLocation w.base found.ledgerPath = .ok loc)
    (hempty : (runIn (Ledger.load found.ledgerPath) w).1 = .ok .empty) :
    ∃ l, runIn (Ledger.load found.ledgerPath) v = (.ok l, v) := by
  obtain ⟨u, hjob, hb, hf⟩ := job_of_success h
  obtain ⟨id, _, found', l, record, hid, hnone, hfound', -, rfl, hregular, hwritten⟩ :=
    Job.createInitial_ok hjob
  cases (runIn_settingsFor_ok.1 hfound').symm.trans hfound
  have hstatistics : record.statistics = .empty := (Except.ok.inj (congrArg Prod.fst hnone)).symm
  have hreplaced := hwritten.of_files_eq hb hf
  rw [hreplaced.load_before hl] at hempty
  obtain rfl : l = .empty := Except.ok.inj hempty
  have hread : Ledger.ofBytes (Text.encode (Ledger.empty.upsert id record).text) =
      .ok (Ledger.empty.upsert id record) := by
    have hnothing : Ledger.empty.IsExact := fun _ he => absurd he List.not_mem_nil
    rw [Ledger.ofBytes_upsert Ledger.readable_empty hnothing (PullId.ofParts_eq_ok_iff.1 hid).2
      (hstatistics ▸ Statistics.isSorted_json_empty) (hstatistics ▸ trivial) hregular,
      if_pos (hstatistics ▸ by decide)]
  refine ⟨Ledger.empty.upsert id record, ?_⟩
  rw [hreplaced.load_after, hread]
  rfl

/-- A diff of a file that is not encoded in UTF-8 is captured, with its stray byte replaced. -/
theorem execute_captured_stray :
    let body : Bytes := [0x2B, 0xFF, 0x0A]
    let pull : Bytes :=
      Text.encode ("\x7b\"number\":42,\"html_url\":\"u\",\"diff_url\":\"http://d/42\"," ++
        "\"state\":\"open\",\"created_at\":\"2021-03-01T09:00:00Z\"\x7d")
    let w : World := { World.empty .epoch [] with
      network := .serving [("https://api.github.com/repos/acme/widget/pulls/42", ⟨200, pull⟩),
        ("http://d/42", ⟨200, body⟩)] }
    ∃ v l record, (run ⟨false, .human, true, none⟩
        (.createInitial ⟨"acme", "widget", 42, none⟩ none)).execute.run w = (.success, v) ∧
      runIn (Ledger.load ⟨"prs.json"⟩) v = (.ok l, v) ∧
      l.get? ⟨"acme", "widget", 42⟩ = some record ∧ record.diffs.initial = "+\uFFFD\n" ∧
      Text.encode record.diffs.initial ≠ body := by
  intro body pull w
  have hsettings : settings ⟨false, .human, true, none⟩ ⟨"acme", "widget", 42, none⟩ w =
      .ok ⟨⟨"prs.json"⟩, "https://api.github.com", none, 2000⟩ :=
    eq_ok_of_toOption (by decide +kernel)
  have hjob : (runIn (Command.job ⟨⟨false, .human, true, none⟩, World.pathOf w.base⟩
      (.createInitial ⟨"acme", "widget", 42, none⟩ none)) w).1 = .ok () :=
    eq_ok_of_toOption (by decide +kernel)
  obtain ⟨v, hv⟩ := execute_of_job hjob
  have hlocation : w.files.fileLocation w.base ⟨"prs.json"⟩ = .ok ["prs.json"] :=
    eq_ok_of_toOption (by decide +kernel)
  have hempty : (runIn (Ledger.load ⟨"prs.json"⟩) w).1 = .ok .empty :=
    eq_ok_of_toOption (by decide +kernel)
  obtain ⟨l, hload⟩ := exists_load_first hv hsettings hlocation hempty
  obtain ⟨found, id, _, _, response, _, _, hfound, hid, -, -, -, -, -, hfetches, hloaded⟩ :=
    execute_captured rfl hv
  cases hfound.symm.trans hsettings
  obtain ⟨rfl, -⟩ := PullId.ofParts_eq_ok_iff.1 hid
  -- The second answer was the diff.
  have hanswers : ((run ⟨false, .human, true, none⟩ (.createInitial ⟨"acme", "widget", 42, none⟩
      none)).execute.fetches w).map (fun fetch => fetch.2.toOption.map Response.body) =
      [some pull, some body] := by decide +kernel
  rw [hfetches] at hanswers
  have hbody : response.body = body :=
    Option.some.inj (List.cons.inj (List.cons.inj hanswers).2).1
  obtain ⟨record, _, hget, hdiff, rfl, hverbatim⟩ := hloaded l hload
  rw [hbody] at hdiff hverbatim
  have hinitial : record.diffs.initial = Text.decodeLossy body := Option.some.inj hdiff
  have hstray : Text.decode? body = none := by decide +kernel
  refine ⟨v, l, record, hv, hload, hget, hinitial.trans (by decide +kernel), fun hsame => ?_⟩
  rw [hinitial, hverbatim, hstray] at hsame
  cases hsame

end Invocation

end RepairLedger
