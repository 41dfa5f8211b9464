import RepairLedger.Proofs.Command.Change

/-!
# Commands change one record or nothing

A whole run of a command that changes a ledger, from the first look at the environment to the exit
code (`Invocation.execute_atomic`).  If its arguments are not in order, or there are no settings, no
file is touched.  If it fails later, the ledger file is spared; and if it succeeds, one record of
the ledger is new, and nothing else in it.
-/

namespace RepairLedger

open Host Attempt

/-- The operation that a command carries out, and the pull request that it is about.  A command that
changes no ledger has none. -/
def Command.change? : Command → Option (Operation × Subject)
  | createInitial subject _ => some (.createInitial, subject)
  | finalize subject => some (.finalize, subject)
  | addManualEdit subject _ _ _ => some (.addManualEdit, subject)
  | _ => none

/-! ### Arguments -/

/-- Do the options make an id? -/
def Subject.IsInOrder (subject : Subject) : Prop :=
  ∃ id, PullId.ofParts subject.owner subject.repo subject.number = .ok id

/-- Is there a file at the path, and are there proper statistics in it? -/
def Host.World.HoldsStatistics (w : World) (path : Path) : Prop :=
  ∃ bytes text statistics, w.files.read w.base path = .ok bytes ∧ Text.decode? bytes = some text ∧
    Job.statisticsOf path text = .ok statistics

/-- Are the arguments of the command in order, with the files as they are? -/
def Command.IsInOrder (w : World) : Command → Prop
  | createInitial subject statistics =>
    subject.IsInOrder ∧ ∀ path ∈ statistics, w.HoldsStatistics path
  | finalize subject => subject.IsInOrder
  | addManualEdit subject _ _ moment => subject.IsInOrder ∧ (EditMoment.ofText? moment).isSome
  | report .. | describe _ | completions _ => True

namespace Job

variable {w v : World}

theorem runIn_idOf_ok {subject : Subject} {id : PullId} :
    runIn (idOf subject) w = (.ok id, v) ↔
      PullId.ofParts subject.owner subject.repo subject.number = .ok id ∧ v = w := by
  unfold idOf
  rw [runIn_orRefuse_ok, mapError_eq_ok]

theorem isInOrder_iff {subject : Subject} :
    subject.IsInOrder ↔ ∃ id, runIn (idOf subject) w = (.ok id, w) :=
  exists_congr fun _ => runIn_idOf_ok.trans (and_iff_left rfl) |>.symm

theorem runIn_readText_ok {what : String} {path : Path} {text : String} :
    runIn (readText what path) w = (.ok text, v) ↔
      (∃ bytes, w.files.read w.base path = .ok bytes ∧ Text.decode? bytes = some text) ∧ v = w := by
  unfold readText
  rw [runIn_bind, runIn_ask]
  simp only [World.perform]
  cases w.files.read w.base path with
  | error cause => simp
  | ok bytes =>
    cases hd : Text.decode? bytes with
    | none => simp [hd]
    | some text' => simp [hd, eq_comm (a := w)]

theorem holdsStatistics_iff {path : Path} :
    w.HoldsStatistics path ↔ ∃ s, runIn (readStatistics (some path)) w = (.ok s, w) := by
  constructor
  · rintro ⟨bytes, text, s, hread, hdecode, hs⟩
    exact ⟨s, runIn_bind_ok.2 ⟨text, w, runIn_readText_ok.2 ⟨⟨bytes, hread, hdecode⟩, rfl⟩,
      runIn_orRefuse_ok.2 ⟨hs, rfl⟩⟩⟩
  · rintro ⟨s, h⟩
    obtain ⟨text, u, htext, h⟩ := runIn_bind_ok.1 h
    obtain ⟨⟨bytes, hread, hdecode⟩, -⟩ := runIn_readText_ok.1 htext
    exact ⟨bytes, text, s, hread, hdecode, (runIn_orRefuse_ok.1 h).1⟩

/-- No file is needed if no path is given. -/
theorem holdsAll_iff {path : Option Path} :
    (∀ p ∈ path, w.HoldsStatistics p) ↔ ∃ s, runIn (readStatistics path) w = (.ok s, w) := by
  cases path with
  | none => exact ⟨fun _ => ⟨_, rfl⟩, fun _ p hp => by cases hp⟩
  | some path =>
    rw [← holdsStatistics_iff]
    exact ⟨fun hall => hall path rfl, fun hs p hp => by cases hp; exact hs⟩

theorem runIn_momentOf_ok {text : String} {moment : EditMoment} :
    runIn (orRefuse (momentOf text)) w = (.ok moment, w) ↔
      EditMoment.ofText? text = some moment := by
  rw [runIn_orRefuse_ok, momentOf]
  cases EditMoment.ofText? text <;> simp

/-! ### Jobs -/

/-- What an operation has done if it went well: on the ledger that was there, it made the record
that is there now. -/
def Succeeded (operation : Operation) (subject : Subject) (path : Path) (w v : World) : Prop :=
  ∃ (l : Ledger) (call : Call) (record : Record),
    PullId.ofParts subject.owner subject.repo subject.number = .ok call.id ∧
      call.action.operation = operation ∧ l.perform call = .ok record ∧
      Ledger.Replaced path l (l.upsert call.id record) w v

theorem Succeeded.of_files_eq {operation : Operation} {subject : Subject} {path : Path}
    {v' : World} (h : Succeeded operation subject path w v) (hb : v'.base = v.base)
    (hf : v'.files = v.files) : Succeeded operation subject path w v' := by
  obtain ⟨l, call, record, hid, hoperation, hperform, hreplaced⟩ := h
  exact ⟨l, call, record, hid, hoperation, hperform, hreplaced.of_files_eq hb hf⟩

/-- How a job ends that changes a ledger. -/
inductive Ends (setting : Setting) (operation : Operation) (subject : Subject) (inOrder : Prop)
    (w : World) : Except Refusal Unit → World → Prop
  /-- The arguments are refused, or there are no settings. -/
  | idle {refusal : Refusal} (h : ¬ inOrder ∨
      ∃ e, runIn (settingsFor setting subject) w = (.error e, w)) :
    Ends setting operation subject inOrder w (.error refusal) w
  | failed {refusal : Refusal} {settings : Settings} {v : World} (ho : inOrder)
      (hs : runIn (settingsFor setting subject) w = (.ok settings, w))
      (h : Ledger.Spared settings.ledgerPath w v) :
    Ends setting operation subject inOrder w (.error refusal) v
  | succeeded {settings : Settings} {v : World} (ho : inOrder)
      (hs : runIn (settingsFor setting subject) w = (.ok settings, w))
      (h : Succeeded operation subject settings.ledgerPath w v) :
    Ends setting operation subject inOrder w (.ok ()) v

variable {α : Type} {setting : Setting} {operation : Operation} {subject : Subject} {judge : Job α}
  {make : Settings → PullId → α → Ledger → Job Record}

/-- An id or other arguments that are refused are not in order. -/
theorem not_inOrder_of_refused {fit : Prop} {e : Refusal}
    (hfit : fit ↔ ∃ a, runIn judge w = (.ok a, w))
    (h : runIn (idOf subject) w = (.error e, w) ∨ runIn judge w = (.error e, w)) :
    ¬ (subject.IsInOrder ∧ fit) := by
  rintro ⟨hid, ha⟩
  obtain ⟨id, hid⟩ := isInOrder_iff.1 hid
  obtain ⟨a, ha⟩ := hfit.1 ha
  rcases h with hrefused | hrefused
  · cases hrefused.symm.trans hid
  · cases hrefused.symm.trans ha

theorem carryOut_ends {fit : Prop} (hj : Asks Program.Looks judge)
    (hm : ∀ settings id a l, Asks (Permits [] []) (make settings id a l))
    (hfit : fit ↔ ∃ a, runIn judge w = (.ok a, w))
    (hcall : ∀ {settings id a l u record u'}, runIn (make settings id a l) u = (.ok record, u') →
      ∃ call : Call, call.id = id ∧ call.action.operation = operation ∧ l.perform call = .ok record)
    {r : Except Refusal Unit}
    (h : runIn (carryOut setting operation subject judge make) w = (r, v)) :
    Ends setting operation subject (subject.IsInOrder ∧ fit) w r v := by
  rcases carryOut_cases hj hm h with
    ⟨e, rfl, rfl, hid | ha | hs⟩ | ⟨id, a, settings, hid, ha, hs, h⟩
  · exact .idle (.inl (not_inOrder_of_refused hfit (.inl hid)))
  · exact .idle (.inl (not_inOrder_of_refused hfit (.inr ha)))
  · exact .idle (.inr ⟨e, hs⟩)
  · have ho : subject.IsInOrder ∧ fit := ⟨isInOrder_iff.2 ⟨id, hid⟩, hfit.2 ⟨a, ha⟩⟩
    rcases h with ⟨e, rfl, hspared⟩ | ⟨rfl, l, record, u, u', -, hmake, hreplaced⟩
    · exact .failed ho hs hspared
    · obtain ⟨call, rfl, hoperation, hperform⟩ := hcall hmake
      exact .succeeded ho hs
        ⟨l, call, record, (runIn_idOf_ok.1 hid).1, hoperation, hperform, hreplaced⟩

end Job

variable {command : Command} {operation : Operation} {subject : Subject} {setting : Setting}
  {w v : World}

theorem Command.job_ends (hc : command.change? = some (operation, subject))
    {r : Except Refusal Unit} (h : runIn (command.job setting) w = (r, v)) :
    Job.Ends setting operation subject (command.IsInOrder w) w r v := by
  cases command with
  | createInitial subject statistics =>
    cases hc
    refine Job.carryOut_ends (Job.looks_readStatistics _) Job.asks_begin Job.holdsAll_iff
      (fun hmake => ?_) h
    obtain ⟨capture, _, u, -, hrecord⟩ := Job.begin_ok hmake
    exact ⟨⟨_, .create capture, u.clock⟩, rfl, rfl, hrecord⟩
  | finalize subject =>
    cases hc
    -- There is nothing to judge but the id.
    have hends : Job.Ends setting .finalize subject (subject.IsInOrder ∧ True) w r v := by
      refine Job.carryOut_ends (.pure ()) (fun settings id _ => Job.asks_finish settings id)
        ⟨fun _ => ⟨(), rfl⟩, fun _ => trivial⟩ (fun hmake => ?_) h
      obtain ⟨capture, now, hrecord⟩ := Job.finish_ok hmake
      exact ⟨⟨_, .finalize capture, now⟩, rfl, rfl, hrecord⟩
    rwa [and_true] at hends
  | addManualEdit subject diff reason moment =>
    cases hc
    refine Job.carryOut_ends (Job.asks_orRefuse _) (fun _ => Job.asks_annotate diff reason) ?_
      (fun hmake => ?_) h
    · rw [Option.isSome_iff_exists]
      exact exists_congr fun _ => Job.runIn_momentOf_ok.symm
    · obtain ⟨diff, now, hrecord⟩ := Job.annotate_ok hmake
      exact ⟨⟨_, .annotate _, now⟩, rfl, rfl, hrecord⟩
  | report | describe | completions => cases hc

/-! ### Whole runs -/

theorem ExitCode.failure_ne_success : failure ≠ success := by decide

namespace Invocation

variable {manner : Manner} {code : ExitCode}

theorem runCommand_ok (h : runIn (command.job ⟨manner, World.pathOf w.base⟩) w = (.ok (), v)) :
    (runCommand manner command).run w = (.success, v) := by
  unfold runCommand
  simp only [Program.run_bind, Program.request, Program.run, World.perform]
  rw [show (Program.run (ExceptT.run (command.job ⟨manner, World.pathOf w.base⟩)) w) = _ from h]
  rfl

theorem runCommand_error {refusal : Refusal}
    (h : runIn (command.job ⟨manner, World.pathOf w.base⟩) w = (.error refusal, v)) :
    (runCommand manner command).run w =
      (.failure, { v with complaints := v.complaints ++ refusal.text manner.style }) := by
  unfold runCommand
  simp only [Program.run_bind, Program.request, Program.run, World.perform]
  rw [show (Program.run (ExceptT.run (command.job ⟨manner, World.pathOf w.base⟩)) w) = _ from h]
  rfl

theorem looks_ofEnvironment (verbose : Bool) : (Log.ofEnvironment verbose).Asks Program.Looks :=
  .bind (.request trivial) fun _ => .bind (.request trivial) fun _ =>
    .bind (.request trivial) fun _ => .pure _

/-- The log of a run is written, and apart from that the command is run. -/
theorem execute_run (manner : Manner) (command : Command) (w : World) :
    ∃ text, (run manner command).execute.run w =
      (((runCommand manner command).run w).1,
        { ((runCommand manner command).run w).2 with complaints := text }) := by
  unfold execute
  rw [Program.run_bind, (looks_ofEnvironment manner.verbose).world_eq w]
  exact Program.run_logging _ _ w

theorem execute_of_job (h : (runIn (command.job ⟨manner, World.pathOf w.base⟩) w).1 = .ok ()) :
    ∃ v, (run manner command).execute.run w = (.success, v) := by
  obtain ⟨text, hrun⟩ := execute_run manner command w
  rw [runCommand_ok (Prod.ext h rfl)] at hrun
  exact ⟨_, hrun⟩

/-- A run that succeeds has done its job, and has otherwise only written a log. -/
theorem job_of_success (h : (run manner command).execute.run w = (.success, v)) :
    ∃ u, runIn (command.job ⟨manner, World.pathOf w.base⟩) w = (.ok (), u) ∧
      v.base = u.base ∧ v.files = u.files := by
  obtain ⟨text, hrun⟩ := execute_run manner command w
  rw [h] at hrun
  rcases hjob : runIn (command.job ⟨manner, World.pathOf w.base⟩) w with ⟨refusal | ⟨⟩, u⟩
  · rw [runCommand_error hjob] at hrun
    exact absurd (congrArg Prod.fst hrun).symm ExitCode.failure_ne_success
  · rw [runCommand_ok hjob] at hrun
    cases hrun
    exact ⟨u, rfl, rfl, rfl⟩

/-- The settings for a command that is run in a world. -/
def settings (manner : Manner) (subject : Subject) (w : World) : Except SettingsError Settings :=
  (runIn (Settings.resolve (World.pathOf w.base) ⟨subject.ledgerPath, manner.token⟩) w).1

theorem runIn_settingsFor (manner : Manner) (subject : Subject) (w : World) :
    runIn (Job.settingsFor ⟨manner, World.pathOf w.base⟩ subject) w =
      ((settings manner subject w).mapError .ofSettingsError, w) := by
  obtain ⟨r, hr⟩ := (Settings.looks_resolve (World.pathOf w.base)
    ⟨subject.ledgerPath, manner.token⟩).exists_runIn w
  unfold settings Job.settingsFor
  rw [runIn_adapt, hr]

theorem runIn_settingsFor_ok {found : Settings} :
    runIn (Job.settingsFor ⟨manner, World.pathOf w.base⟩ subject) w = (.ok found, w) ↔
      settings manner subject w = .ok found := by
  rw [runIn_settingsFor, Prod.mk.injEq, mapError_eq_ok, and_iff_left rfl]

/-- A world in which a server describes a pull request that has just been opened. -/
def opened (clock : Instant) (h : clock.IsRegular := by decide) : World :=
  .empty clock
    [.inr ⟨200, Text.encode ("\x7b\"number\":42,\"html_url\":\"u\",\"diff_url\":\"http://d\"," ++
      "\"state\":\"open\",\"created_at\":\"2021-03-01T09:00:00Z\"\x7d")⟩,
    .inr ⟨200, Text.encode "+a line"⟩] h

end Invocation

end RepairLedger
