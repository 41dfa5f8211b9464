import RepairLedger.Proofs.Command.Atomicity
import RepairLedger.Proofs.Ledger.Loaded

/-!
# Loading after a first record

Statistics are accepted on their own, with as many containers as a text may have.  In the ledger two
more containers stand around them, and so the deepest two kinds of statistics are accepted and
written but cannot be read any more (`Invocation.load_created`).
-/

namespace RepairLedger

open Host Attempt

/-! ### States that are fetched -/

theorem GitHub.Pull.yields_decoder :
    Pull.decoder.Yields fun pull => pull.snapshot.state.IsRegular := by
  intro depth tree pull h
  obtain ⟨inner, values, -, hmade, rfl⟩ := Json.Fields.made_of_decoder h
  obtain ⟨_, _, _, _, createdAt, closedAt, mergedAt, _, ⟨⟩⟩ := values
  have hoptional := Instant.yields_decoder.optional
  have hcreated := hmade.2.2.2.2.head (.required Instant.yields_decoder _)
  have hclosed := hmade.2.2.2.2.2.head (.withDefault hoptional _ (by simp))
  have hmerged := hmade.2.2.2.2.2.2.head (.withDefault hoptional _ (by simp))
  exact List.forall_mem_cons.2 ⟨hcreated, List.forall_mem_append.2 ⟨hclosed, hmerged⟩⟩

/-- The instants in a state that is fetched are regular. -/
theorem GitHub.isRegular_of_fetchPull {settings : Settings} {id : PullId} {snapshot : Snapshot}
    {w v : World} (h : runIn (fetchPull settings id) w = (.ok snapshot, v)) :
    snapshot.state.IsRegular := by
  obtain ⟨response, u, -, h⟩ := runIn_bind_ok.1 h
  split at h
  · cases h
  · rename_i pull hpull
    cases h
    obtain ⟨tree, hpull⟩ := Json.Decoder.run_ok hpull
    exact Pull.yields_decoder _ _ _ hpull

/-! ### Statistics that are accepted -/

namespace Job

variable {w v : World} {subject : Subject} {path : Option Path}

/-- Accepted statistics are in canonical form. -/
theorem isSorted_of_readStatistics {s : Statistics}
    (h : runIn (readStatistics path) w = (.ok s, v)) : s.json.IsSorted := by
  cases path with
  | none =>
    cases h
    exact Statistics.isSorted_json_empty
  | some path =>
    obtain ⟨text, _, -, h⟩ := runIn_bind_ok.1 h
    have hs := (runIn_orRefuse_ok.1 h).1
    unfold statisticsOf at hs
    split at hs
    · cases hs
    · rename_i value hvalue
      obtain ⟨tree, hvalue⟩ := Json.Decoder.run_ok hvalue
      rw [Statistics.json_of_ofValue (mapError_eq_ok.1 hs)]
      exact (Json.Decoder.value_ok hvalue).1

/-- Of a text that spells a value, the canonical form of the value is judged. -/
theorem statisticsOf_spelled {v : Json.Value} {text : String} (h : v.IsSpelledBy text)
    (hx : v.IsExact) {file : Path} {s : Statistics} :
    statisticsOf file text = .ok s ↔
      v.depth ≤ Json.maxDepth ∧ Statistics.ofValue v.canonical = .ok s := by
  rw [statisticsOf, Json.Decoder.run_value_spelled h hx]
  by_cases hd : v.depth ≤ Json.maxDepth
  · rw [if_pos hd, and_iff_right hd]
    exact mapError_eq_ok
  · rw [if_neg hd]
    exact iff_of_false (by rintro ⟨⟩) fun h => hd h.1

/-- Statistics that are proper are accepted from their text, as deep as any text may be. -/
theorem readStatistics_text {file : Path} {members : Json.Members} {s : Statistics}
    (layout : Json.Layout) (hx : (Json.Value.object members).IsExact)
    (hs : (Json.Value.object members).IsSorted)
    (hd : (Json.Value.object members).depth ≤ Json.maxDepth)
    (hv : Statistics.ofValue (.object members) = .ok s)
    (hread : w.files.read w.base file =
      .ok (Text.encode ((Json.Value.object members).text layout ++ "\n"))) :
    runIn (readStatistics (some file)) w = (.ok s, w) := by
  have htext : statisticsOf file ((Json.Value.object members).text layout ++ "\n") = .ok s := by
    rw [statisticsOf_spelled (Json.Value.isSpelledBy_text layout _) hx,
      Json.Value.canonical_of_isSorted _ hs]
    exact ⟨hd, hv⟩
  have hdecode := Text.decode?_encode ((Json.Value.object members).text layout ++ "\n")
  exact runIn_bind_ok.2 ⟨_, w, runIn_readText_ok.2 ⟨⟨_, hread, hdecode⟩, rfl⟩,
    runIn_orRefuse_ok.2 ⟨htext, rfl⟩⟩

/-- A first record that is created has the accepted statistics and regular instants, and its id is
new to the ledger. -/
theorem createInitial_ok {setting : Setting}
    (h : runIn (createInitial setting subject path) w = (.ok (), v)) :
    ∃ (id : PullId) (s : Statistics) (settings : Settings) (l : Ledger) (record : Record),
      PullId.ofParts subject.owner subject.repo subject.number = .ok id ∧
      runIn (readStatistics path) w = (.ok s, w) ∧
      runIn (settingsFor setting subject) w = (.ok settings, w) ∧
      l.get? id = none ∧ record.statistics = s ∧ record.IsRegular ∧
      Ledger.Replaced settings.ledgerPath l (l.upsert id record) w v := by
  rcases carryOut_cases (looks_readStatistics path) asks_begin h with
    ⟨_, h, -⟩ |
    ⟨id, s, settings, hid, hs, hsettings, ⟨_, h, -⟩ | ⟨-, l, record, _, _, -, hmake, hr⟩⟩
  · cases h
  · cases h
  · obtain ⟨capture, _, u, hcapture, hrecord⟩ := begin_ok hmake
    obtain ⟨hstatistics, snapshot, _, hpull, hstate⟩ := Source.captureInitial_ok hcapture
    obtain ⟨hnone, rfl⟩ := Ledger.createInitial_eq_ok.1 hrecord
    have hregular : capture.state.IsRegular := hstate ▸ GitHub.isRegular_of_fetchPull hpull
    exact ⟨id, s, settings, l, _, (runIn_idOf_ok.1 hid).1, hs, hsettings, hnone, hstatistics,
      Record.isRegular_iff.2 ⟨hregular, u.clock.property, u.clock.property⟩, hr⟩

end Job

/-- The ledger that was there can be written and read again. -/
theorem Ledger.Replaced.readable {path : Path} {l l' : Ledger} {w v : World}
    (h : Ledger.Replaced path l l' w v) : l.Readable := by
  obtain ⟨loc, hl, -⟩ := h.after.ledger
  have hheld := h.before loc hl
  cases he : w.files.get? loc with
  | none =>
    rw [he] at hheld
    rw [show l = empty from hheld]
    exact readable_empty
  | some entry =>
    rw [he] at hheld
    cases entry with
    | file bytes => exact readable_of_ofBytes hheld
    | directory => exact hheld.elim

namespace Invocation

variable {manner : Manner} {subject : Subject} {path : Option Path} {w v : World}

/-- **A first record leaves a ledger that can be loaded if and only if its statistics have at most
125 containers around any part of them.**  Statistics with one or two more are accepted as well, and
then the whole ledger is refused from now on.  The numbers in the statistics are integers. -/
theorem load_created (h : (run manner (.createInitial subject path)).execute.run w = (.success, v))
    {s : Statistics} (hs : runIn (Job.readStatistics path) w = (.ok s, w)) (hx : s.json.IsExact) :
    ∃ (found : Settings) (l : Ledger) (id : PullId) (record : Record),
      settings manner subject w = .ok found ∧
      PullId.ofParts subject.owner subject.repo subject.number = .ok id ∧
      l.get? id = none ∧ record.statistics = s ∧
      Ledger.Replaced found.ledgerPath l (l.upsert id record) w v ∧
      (l.IsExact → runIn (Ledger.load found.ledgerPath) v =
        (if s.json.depth ≤ 125 then .ok (l.upsert id record)
          else .error (.corrupt found.ledgerPath .tooDeep), v)) := by
  obtain ⟨u, hjob, hb, hf⟩ := job_of_success h
  obtain ⟨id, s', found, l, record, hid, hs', hfound, hnone, hrecord, hregular, hreplaced⟩ :=
    Job.createInitial_ok hjob
  rw [hs] at hs'
  cases hs'
  have hafter := hreplaced.of_files_eq hb hf
  refine ⟨found, l, id, record, runIn_settingsFor_ok.1 hfound, hid, hnone, hrecord, hafter,
    fun hl => ?_⟩
  -- The statistics are in the ledger as they were accepted.
  have hsorted : record.statistics.json.IsSorted :=
    hrecord ▸ Job.isSorted_of_readStatistics hs
  have hload := Ledger.ofBytes_upsert hafter.readable hl (PullId.ofParts_eq_ok_iff.1 hid).2 hsorted
    (hrecord ▸ hx) hregular
  rw [hafter.load_after, hload, hrecord]
  by_cases hd : s.json.depth ≤ 125
  · rw [if_pos hd, if_pos (show s.json.depth ≤ Ledger.statisticsDepth from hd)]
    rfl
  · rw [if_neg hd, if_neg (show ¬ s.json.depth ≤ Ledger.statisticsDepth from hd)]
    rfl

/-- An array in an array and so on, around so many arrays. -/
def nested : Nat → Json.Value
  | 0 => .array []
  | n + 1 => .array [nested n]

theorem depth_nested : ∀ n, (nested n).depth = n + 1
  | 0 => rfl
  | n + 1 => congrArg (max · 0 + 1) (depth_nested n)

theorem isExact_nested : ∀ n, (nested n).IsExact
  | 0 => trivial
  | n + 1 => ⟨isExact_nested n, trivial⟩

theorem isSorted_nested : ∀ n, (nested n).IsSorted
  | 0 => trivial
  | n + 1 => ⟨isSorted_nested n, trivial⟩

/-- Statistics that are nested 126 containers deep. -/
def deepStatistics : Statistics :=
  ⟨[("repairs", .array []), ("x", nested 124)]⟩

theorem depth_deepStatistics : deepStatistics.json.depth = 126 := by
  show max 1 (max (nested 124).depth 0) + 1 = 126
  rw [depth_nested]
  rfl

theorem isExact_deepStatistics : deepStatistics.json.IsExact :=
  ⟨trivial, isExact_nested 124, trivial⟩

/-- A pull request has just been opened, and there is a file with deep statistics. -/
def openedDeep (clock : Instant) (h : clock.IsRegular := by decide) : World :=
  { opened clock h with
    files := ⟨[(["s.json"], .file (Text.encode (deepStatistics.json.text .compact ++ "\n")))]⟩ }

theorem readStatistics_openedDeep (clock : Instant) (h : clock.IsRegular) :
    runIn (Job.readStatistics (some ⟨"s.json"⟩)) (openedDeep clock h) =
      (.ok deepStatistics, openedDeep clock h) := by
  have hsorted : deepStatistics.json.IsSorted :=
    ⟨List.pairwise_cons.2 ⟨by decide, List.pairwise_singleton _ _⟩, trivial, isSorted_nested 124,
      trivial⟩
  have hdepth : deepStatistics.json.depth ≤ Json.maxDepth := by
    rw [depth_deepStatistics]
    decide
  exact Job.readStatistics_text .compact isExact_deepStatistics hsorted hdepth rfl rfl

/-- The record is created, and the ledger is lost. -/
theorem load_created_deep :
    let w := openedDeep ⟨⟨2021, 3, 1, by decide⟩, 0, 0, by decide, by decide⟩
    ∃ v, (run ⟨false, .human, true, none⟩ (.createInitial ⟨"acme", "widget", 42, none⟩
        (some ⟨"s.json"⟩))).execute.run w = (.success, v) ∧
      runIn (Ledger.load ⟨"prs.json"⟩) v = (.error (.corrupt ⟨"prs.json"⟩ .tooDeep), v) := by
  intro w
  have hid : runIn (Job.idOf ⟨"acme", "widget", 42, none⟩) w = (.ok ⟨"acme", "widget", 42⟩, w) :=
    Job.runIn_idOf_ok.2 ⟨PullId.ofParts_eq_ok_iff.2 ⟨rfl, by decide⟩, rfl⟩
  have hs := readStatistics_openedDeep w.clock.val w.clock.property
  have hsettings : settings ⟨false, .human, true, none⟩ ⟨"acme", "widget", 42, none⟩ w =
      .ok ⟨⟨"prs.json"⟩, "https://api.github.com", none, 2000⟩ :=
    eq_ok_of_toOption (by decide +kernel)
  have hfound : runIn (Job.settingsFor ⟨⟨false, .human, true, none⟩, World.pathOf w.base⟩
      ⟨"acme", "widget", 42, none⟩) w =
      (.ok ⟨⟨"prs.json"⟩, "https://api.github.com", none, 2000⟩, w) :=
    runIn_settingsFor_ok.2 hsettings
  have hjob : (runIn (Command.job ⟨⟨false, .human, true, none⟩, World.pathOf w.base⟩
      (.createInitial ⟨"acme", "widget", 42, none⟩ (some ⟨"s.json"⟩))) w).1 = .ok () := by
    rw [Command.job, Job.createInitial, Job.runIn_carryOut hid hs hfound]
    exact eq_ok_of_toOption (by decide +kernel)
  obtain ⟨v, hv⟩ := execute_of_job hjob
  -- The record is created, so the law applies, and its statistics are too deep.
  obtain ⟨found, l, id, record, hfound', -, -, -, hreplaced, hload⟩ :=
    load_created hv hs isExact_deepStatistics
  have hpath : found.ledgerPath = ⟨"prs.json"⟩ :=
    congrArg Settings.ledgerPath (Except.ok.inj (hfound'.symm.trans hsettings))
  rw [hpath] at hreplaced hload
  -- There was no ledger before.
  have hlocation : w.files.fileLocation w.base ⟨"prs.json"⟩ = .ok ["prs.json"] :=
    eq_ok_of_toOption (by decide +kernel)
  have hempty : (runIn (Ledger.load ⟨"prs.json"⟩) w).1 = .ok .empty :=
    eq_ok_of_toOption (by decide +kernel)
  rw [hreplaced.load_before hlocation] at hempty
  obtain rfl : l = .empty := Except.ok.inj hempty
  have hlost := hload fun _ he => absurd he List.not_mem_nil
  rw [depth_deepStatistics, if_neg (by decide)] at hlost
  exact ⟨v, hv, hlost⟩

end Invocation

end RepairLedger
