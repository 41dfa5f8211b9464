import RepairLedger.Proofs.Command.Atomicity
import RepairLedger.Proofs.Hosting.Fetching
import RepairLedger.Proofs.Pull.Text

/-!
# The traffic of commands

When a command asks servers for something, for what, and in which order with its writing.  A change
of the ledger goes through one of four courses (`Job.ChangeCourse`): it stops before anything is
fetched, or while something is fetched, or it fetches both things and then saves the ledger.  A
command that captures something does nothing or makes such a change (`Command.carried`), and the
other commands ask nothing of servers (`Command.isLocal_job`).  Of whole runs this is said by
`Invocation.execute_traffic`.
-/

namespace RepairLedger

open Host Attempt GitHub

/-! ### Records that are made of captures -/

/-- The diff that the operation captures, as it stands in a record. -/
def Operation.diff? : Operation → Record → Option String
  | createInitial, record => some record.diffs.initial
  | finalize, record => record.diffs.final
  | addManualEdit, _ => none

namespace Job

variable {settings : Settings} {id : PullId} {l : Ledger} {w v : World} {ds : List Deed}

theorem goes_orRefuse {α : Type} {result : Except LedgerError α} {r : Except Refusal α} :
    Goes (orRefuse result) w r v ds ↔ r = result.mapError .ofError ∧ v = w ∧ ds = [] := by
  cases result with
  | ok a => exact goes_pure
  | error e => exact goes_throw

theorem runIn_orRefuse {α : Type} (result : Except LedgerError α) :
    runIn (orRefuse result) w = (result.mapError .ofError, w) :=
  rfl

theorem runIn_logRecord (level : Level) (message : String) (fields : Json.Members) :
    runIn (logRecord level message id fields) w = (.ok (), w) :=
  rfl

theorem runIn_logFetched (diff : String) : runIn (logFetched id diff) w = (.ok (), w) :=
  rfl

theorem runIn_now : runIn (ask .now : Job Instant) w = (.ok w.clock, w) :=
  rfl

/-- How the record of an operation is made: by one of the courses of a capture. -/
inductive Made (settings : Settings) (operation : Operation) (id : PullId) :
    Except Refusal Record → List Deed → Prop
  | refused {e : LedgerError} {ds : List Deed} (h : Course settings id (.error e) ds) :
    Made settings operation id (.error (.ofError e)) ds
  | made {capture : FinalCapture} {record : Record} {ds : List Deed}
      (h : Course settings id (.ok capture) ds) (hr : operation.diff? record = some capture.diff) :
    Made settings operation id (.ok record) ds

theorem goes_begin {statistics : Statistics} (hl : Operation.createInitial.check l id = .ok ())
    {r : Except Refusal Record} (h : Goes (begin settings id statistics l) w r v ds) :
    Made settings .createInitial id r ds := by
  obtain ⟨e, rfl, hcapture⟩ | ⟨capture, u, _, _, hcapture, hlast, rfl⟩ := goes_bind.1 h
  · obtain ⟨result, hcapture, hr⟩ := goes_adapt.1 hcapture
    obtain ⟨result', hcourse, rfl⟩ := goes_captureInitial hcapture
    cases result' with
    | error e =>
      cases hr
      exact .refused hcourse
    | ok capture => cases hr
  · obtain ⟨result, hcapture, hr⟩ := goes_adapt.1 hcapture
    obtain ⟨result', hcourse, rfl⟩ := goes_captureInitial hcapture
    cases result' with
    | error e => cases hr
    | ok captured =>
    cases hr
    have hrecord : l.createInitial id ⟨captured.state, captured.diff, statistics⟩ u.clock =
        .ok (.begin id.slug captured.state statistics captured.diff u.clock) := by
      rw [Ledger.createInitial, hl]
      rfl
    -- What is left are two lines for the log, with the making of the record between them.
    obtain ⟨-, rfl⟩ := hlast.looks (.bind (.ask trivial) fun _ => .bind (.ask trivial) fun _ =>
      .bind (asks_orRefuse _) fun _ => .bind (.ask trivial) fun _ => .pure _)
    have hrun := hlast.1
    simp only [runIn_bind, runIn_logFetched, runIn_orRefuse, runIn_logRecord, runIn_pure] at hrun
    rw [runIn_now] at hrun
    dsimp only at hrun
    rw [hrecord] at hrun
    cases hrun
    rw [List.append_nil]
    exact .made hcourse rfl

theorem goes_finish (hl : Operation.finalize.check l id = .ok ())
    {r : Except Refusal Record} (h : Goes (finish settings id l) w r v ds) :
    Made settings .finalize id r ds := by
  obtain ⟨e, rfl, hcapture⟩ | ⟨capture, u, _, _, hcapture, hlast, rfl⟩ := goes_bind.1 h
  · obtain ⟨result, hresult, hr⟩ := goes_adapt.1 hcapture
    cases result with
    | error e =>
      cases hr
      exact .refused (goes_capture hresult)
    | ok capture => cases hr
  · obtain ⟨result, hresult, hr⟩ := goes_adapt.1 hcapture
    cases result with
    | error e => cases hr
    | ok captured =>
    cases hr
    have hcourse := goes_capture hresult
    obtain ⟨q, hq⟩ : ∃ q, l.get? id = some q := by
      cases hget : l.get? id with
      | some q => exact ⟨q, rfl⟩
      | none => simp [Operation.check, Ledger.contains_eq_false_iff.2 hget] at hl
    have hrecord : l.finalize id capture u.clock =
        .ok (q.finish capture.state capture.diff u.clock) :=
      Ledger.finalize_eq_ok.2 ⟨q, hq, rfl⟩
    have hidle := hlast.idle (.bind (.ask trivial) fun _ => .bind (.ask trivial) fun _ =>
      .bind (asks_orRefuse _) fun record => (by
        have hend : Asks Program.IsIdle (do
            logRecord .info "finalized record" id []
            return record : Job Record) :=
          .bind (.ask trivial) fun _ => .pure _
        split
        · exact .bind (.ask trivial) fun _ => hend
        · exact hend))
    have hrun := hlast.1
    simp only [runIn_bind, runIn_logFetched, runIn_orRefuse] at hrun
    rw [runIn_now] at hrun
    dsimp only at hrun
    rw [hrecord] at hrun
    dsimp only [Except.mapError] at hrun
    -- With a warning or without one, the record that was made is the result.
    split at hrun
    all_goals
      simp only [runIn_bind, runIn_logRecord, runIn_pure] at hrun
      cases hrun
      rw [hidle, List.append_nil]
      exact .made hcourse rfl

end Job

/-! ### Saving -/

/-- The deed is one of those by which a ledger is saved. -/
def Host.Deed.Saves (path : Path) : Deed → Prop
  | .write p => p = Ledger.temporaryPath path
  | .rename source target => source = Ledger.temporaryPath path ∧ target = path
  | .fetch _ _ => False

theorem Host.Deed.Saves.fetch?_eq_none {path : Path} {d : Deed} (h : d.Saves path) :
    d.fetch? = none := by
  cases d with
  | fetch => exact h.elim
  | write | rename => rfl

/-- The operations that are no deeds, and those by which a ledger is saved. -/
def SavesOnly (path : Path) : Op → Prop
  | .write p _ => p = Ledger.temporaryPath path
  | .rename source target => source = Ledger.temporaryPath path ∧ target = path
  | .fetch _ => False
  | _ => True

theorem Host.Program.Looks.savesOnly {path : Path} {op : Op} (h : Program.Looks op) :
    SavesOnly path op := by
  cases op with
  | fetch | write | rename => exact h.elim
  | _ => trivial

theorem SavesOnly.saves {path : Path} {op : Op} (h : SavesOnly path op) (reply : op.Reply) :
    ∀ d ∈ op.deed? reply, d.Saves path := by
  intro d hd
  cases op with
  | fetch => exact h.elim
  | write | rename =>
    cases hd
    exact h
  | _ => cases hd

namespace Job

variable {settings : Settings} {id : PullId} {w v : World} {ds : List Deed}

/-! ### Under the lock -/

/-- How a change of the ledger goes on, and what it does.  Whether anything is fetched is decided by
what can be known before: whether the lock is obtained, whether the ledger can be loaded, and
whether the operation may run.  Nothing is written unless all has been fetched. -/
inductive ChangeCourse (settings : Settings) (operation : Operation) (id : PullId) (w : World) :
    Except Refusal Outcome → List Deed → Prop
  | notOpened {e : LedgerError} {u : World}
      (h : runIn (LedgerFile.acquire settings.ledgerPath
        (Span.ofMillis settings.lockTimeoutMs.toNat)) w = (.error e, u)) :
    ChangeCourse settings operation id w (.error (.ofError e)) []
  | notAllowed {f : LedgerFile} {u : World} {e : LedgerError}
      (h : runIn (LedgerFile.acquire settings.ledgerPath
        (Span.ofMillis settings.lockTimeoutMs.toNat)) w = (.ok f, u))
      (hc : operation.check f.ledger id = .error e) :
    ChangeCourse settings operation id w (.error (.ofError e)) []
  | notFetched {f : LedgerFile} {u : World} {e : LedgerError} {fetches : List Deed}
      (h : runIn (LedgerFile.acquire settings.ledgerPath
        (Span.ofMillis settings.lockTimeoutMs.toNat)) w = (.ok f, u))
      (hc : operation.check f.ledger id = .ok ()) (hf : Course settings id (.error e) fetches) :
    ChangeCourse settings operation id w (.error (.ofError e)) fetches
  | fetched {f : LedgerFile} {u : World} {capture : FinalCapture} {fetches writes : List Deed}
      {r : Except Refusal Outcome}
      (h : runIn (LedgerFile.acquire settings.ledgerPath
        (Span.ofMillis settings.lockTimeoutMs.toNat)) w = (.ok f, u))
      (hc : operation.check f.ledger id = .ok ()) (hf : Course settings id (.ok capture) fetches)
      (hw : ∀ d ∈ writes, d.Saves settings.ledgerPath)
      (hr : ∀ outcome, r = .ok outcome → operation.diff? outcome.record = some capture.diff) :
    ChangeCourse settings operation id w r (fetches ++ writes)

theorem idle_acquire (path : Path) (timeout : Span) :
    Asks Program.IsIdle (LedgerFile.acquire path timeout) :=
  LedgerFile.asks_acquire (fun _ => Program.Looks.isIdle) (fun _ _ => trivial) trivial
    fun _ => trivial

/-- All that a commit does is to save the ledger. -/
theorem saves_commit {f : LedgerFile} {record : Record} {r : Except Refusal Ledger}
    (h : Goes (refusing (f.commit id record)) w r v ds) : ∀ d ∈ ds, d.Saves f.path := by
  have hasks : Asks (SavesOnly f.path) (f.commit id record) :=
    LedgerFile.asks_commit (fun _ => Program.Looks.savesOnly) (fun _ _ => trivial) (fun _ => rfl)
      ⟨rfl, rfl⟩ trivial _ _
  rw [← h.2]
  exact Program.Asks.deeds (asks_refusing hasks) (fun _ => SavesOnly.saves) w

theorem goes_change {operation : Operation} {make : Ledger → Job Record}
    (hmake : ∀ l, operation.check l id = .ok () → ∀ {w v r ds}, Goes (make l) w r v ds →
      Made settings operation id r ds)
    {r : Except Refusal Outcome} (h : Goes (change settings operation id make) w r v ds) :
    ChangeCourse settings operation id w r ds := by
  obtain ⟨e, rfl, hacquire⟩ | ⟨f, u, ds₁, _, hacquire, hrest, rfl⟩ := goes_bind.1 h
  · obtain ⟨e, hrun, rfl⟩ := runIn_refusing_error.1 hacquire.1
    obtain rfl := hacquire.idle (asks_refusing (idle_acquire _ _))
    exact .notOpened hrun
  have hopened := runIn_refusing_ok.1 hacquire.1
  obtain rfl := hacquire.idle (asks_refusing (idle_acquire _ _))
  rw [List.nil_append]
  have hpath : f.path = settings.ledgerPath := (LedgerFile.acquire_ok hopened).1
  obtain ⟨e, rfl, hmade⟩ | ⟨record, u', fetches, _, hmade, hrest', rfl⟩ := goes_bind.1 hrest
  · -- No record has been made.
    obtain ⟨x, hmade⟩ := goes_releasing hmade
    obtain ⟨e', he', hcheck⟩ | ⟨⟨⟩, _, _, _, hcheck, hmake', rfl⟩ := goes_bind.1 hmade
    · cases he'
      obtain ⟨hrefused, -, rfl⟩ := goes_orRefuse.1 hcheck
      obtain ⟨e', hnot, rfl⟩ := mapError_eq_error.1 hrefused.symm
      exact .notAllowed hopened hnot
    · obtain ⟨hpassed, -, rfl⟩ := goes_orRefuse.1 hcheck
      have hallowed := mapError_eq_ok.1 hpassed.symm
      cases hmake _ hallowed hmake' with
      | refused hcourse => exact .notFetched hopened hallowed hcourse
  · obtain ⟨x, hmade⟩ := goes_releasing hmade
    obtain ⟨e', he', -⟩ | ⟨⟨⟩, _, _, _, hcheck, hmake', rfl⟩ := goes_bind.1 hmade
    · cases he'
    obtain ⟨hpassed, -, rfl⟩ := goes_orRefuse.1 hcheck
    have hallowed := mapError_eq_ok.1 hpassed.symm
    rw [List.nil_append]
    cases hmake _ hallowed hmake' with
    | made hcourse hdiff =>
      obtain ⟨e, rfl, hcommit⟩ | ⟨_, _, writes, _, hcommit, hlast, rfl⟩ := goes_bind.1 hrest'
      · exact .fetched hopened hallowed hcourse (hpath ▸ saves_commit hcommit) (by rintro _ ⟨⟩)
      · obtain ⟨rfl, -, rfl⟩ := goes_pure.1 hlast
        rw [List.append_nil]
        refine .fetched hopened hallowed hcourse (hpath ▸ saves_commit hcommit) ?_
        rintro _ ⟨⟩
        exact hdiff

/-! ### Whole operations -/

theorem goes_carryOut {α : Type} {setting : Setting} {operation : Operation} {subject : Subject}
    {judge : Job α} {make : Settings → PullId → α → Ledger → Job Record}
    (hj : Asks Program.Looks judge) {r : Except Refusal Unit}
    (h : Goes (carryOut setting operation subject judge make) w r v ds) :
    (∃ e, r = .error e ∧ v = w ∧ ds = [] ∧ (runIn (idOf subject) w = (.error e, w) ∨
      runIn judge w = (.error e, w) ∨ runIn (settingsFor setting subject) w = (.error e, w))) ∨
    ∃ id a settings result u, runIn (idOf subject) w = (.ok id, w) ∧
      runIn judge w = (.ok a, w) ∧ runIn (settingsFor setting subject) w = (.ok settings, w) ∧
      Goes (change settings operation id (make settings id a)) w result u ds ∧
      r = result.map (fun _ => ()) ∧ v.base = u.base ∧ v.files = u.files := by
  obtain ⟨e, rfl, rfl, rfl, he⟩ | ⟨id, hid, h⟩ := goes_bind_looks (looks_idOf subject) h
  · exact .inl ⟨e, rfl, rfl, rfl, .inl he⟩
  obtain ⟨e, rfl, rfl, rfl, he⟩ | ⟨a, ha, h⟩ := goes_bind_looks hj h
  · exact .inl ⟨e, rfl, rfl, rfl, .inr (.inl he)⟩
  obtain ⟨e, rfl, rfl, rfl, he⟩ | ⟨settings, hs, h⟩ :=
    goes_bind_looks (looks_settingsFor setting subject) h
  · exact .inl ⟨e, rfl, rfl, rfl, .inr (.inr he)⟩
  refine .inr ⟨id, a, settings, ?_⟩
  obtain ⟨e, rfl, hchange⟩ | ⟨outcome, u, _, _, hchange, hlast, rfl⟩ := goes_bind.1 h
  · exact ⟨.error e, v, hid, ha, hs, hchange, rfl, rfl, rfl⟩
  · -- What is left is to say what has been done.
    obtain ⟨output, hannounce⟩ := runIn_announce setting.manner outcome.text u
    obtain rfl := hlast.idle (asks_announce (fun _ => trivial) setting.manner outcome.text)
    rw [List.append_nil]
    have hrun := hlast.1
    rw [hannounce] at hrun
    cases hrun
    exact ⟨.ok outcome, u, hid, ha, hs, hchange, rfl, rfl, rfl⟩

end Job

/-! ### Commands -/

/-- The operation for which a command captures something from servers, and the pull request that it
is about. -/
def Command.captures? : Command → Option (Operation × Subject)
  | createInitial subject _ => some (.createInitial, subject)
  | finalize subject => some (.finalize, subject)
  | _ => none

/-- What has to be in order before a command fetches anything: its arguments, the settings, the
lock, the ledger, and that its operation may run. -/
structure Command.Cleared (command : Command) (setting : Setting) (operation : Operation)
    (subject : Subject) (w : World) (settings : Settings) (id : PullId) : Prop where
  inOrder : command.IsInOrder w
  id_eq : PullId.ofParts subject.owner subject.repo subject.number = .ok id
  settings_eq : runIn (Job.settingsFor setting subject) w = (.ok settings, w)
  opened : ∃ f u, runIn (LedgerFile.acquire settings.ledgerPath
    (Span.ofMillis settings.lockTimeoutMs.toNat)) w = (.ok f, u) ∧
      operation.check f.ledger id = .ok ()

section Commands

variable {command : Command} {setting : Setting} {operation : Operation} {subject : Subject}
  {w v : World} {ds : List Deed} {r : Except Refusal Unit}

/-- How a command goes on that captures something: nothing is done, because it is not in order or
there are no settings, or the ledger is changed. -/
inductive Command.Carried (command : Command) (setting : Setting) (operation : Operation)
    (subject : Subject) (w : World) : Except Refusal Unit → World → List Deed → Prop
  | idle {refusal : Refusal} (h : ¬ command.IsInOrder w ∨
      ∃ e, runIn (Job.settingsFor setting subject) w = (.error e, w)) :
    Carried command setting operation subject w (.error refusal) w []
  | changed {id : PullId} {settings : Settings} {make : Ledger → Job Record}
      {result : Except Refusal Outcome} {u v : World} {ds : List Deed} (ho : command.IsInOrder w)
      (hid : PullId.ofParts subject.owner subject.repo subject.number = .ok id)
      (hs : runIn (Job.settingsFor setting subject) w = (.ok settings, w))
      (hm : ∀ l, Asks (Permits [] []) (make l))
      (hrun : runIn (Job.change settings operation id make) w = (result, u))
      (hcourse : Job.ChangeCourse settings operation id w result ds)
      (hb : v.base = u.base) (hf : v.files = u.files) :
    Carried command setting operation subject w (result.map fun _ => ()) v ds

theorem Job.carried_carryOut {α : Type} {judge : Job α}
    {make : Settings → PullId → α → Ledger → Job Record} (hj : Asks Program.Looks judge)
    (hm : ∀ settings id a l, Asks (Permits [] []) (make settings id a l))
    (hmade : ∀ settings id a l, operation.check l id = .ok () → ∀ {w v r ds},
      Goes (make settings id a l) w r v ds → Made settings operation id r ds)
    (ho : command.IsInOrder w ↔ subject.IsInOrder ∧ ∃ a, runIn judge w = (.ok a, w))
    (h : Goes (carryOut setting operation subject judge make) w r v ds) :
    command.Carried setting operation subject w r v ds := by
  obtain ⟨e, rfl, rfl, rfl, hid | ha | hs⟩ | ⟨id, a, settings, result, u, hid, ha, hs, hchange, rfl,
    hb, hf⟩ := goes_carryOut hj h
  · exact .idle (.inl fun h => not_inOrder_of_refused .rfl (.inl hid) (ho.1 h))
  · exact .idle (.inl fun h => not_inOrder_of_refused .rfl (.inr ha) (ho.1 h))
  · exact .idle (.inr ⟨e, hs⟩)
  · exact .changed (ho.2 ⟨isInOrder_iff.2 ⟨id, hid⟩, a, ha⟩) (runIn_idOf_ok.1 hid).1 hs
      (hm settings id a) hchange.1 (goes_change (hmade settings id a) hchange) hb hf

theorem Command.carried (hc : command.captures? = some (operation, subject))
    (h : Goes (command.job setting) w r v ds) :
    command.Carried setting operation subject w r v ds := by
  cases command with
  | createInitial subject path =>
    cases hc
    exact Job.carried_carryOut (Job.looks_readStatistics path) Job.asks_begin
      (fun _ _ _ _ hl => Job.goes_begin hl) (and_congr_right fun _ => Job.holdsAll_iff) h
  | finalize subject =>
    cases hc
    exact Job.carried_carryOut (.pure ()) (fun settings id _ => Job.asks_finish settings id)
      (fun _ _ _ _ hl => Job.goes_finish hl)
      ⟨fun ho => ⟨ho, (), rfl⟩, And.left⟩ h
  | addManualEdit | report | describe | completions => cases hc

/-- A command fetches nothing unless all is cleared. -/
theorem Command.deeds_eq_nil (hc : command.captures? = some (operation, subject))
    (hn : ¬ ∃ settings id, command.Cleared setting operation subject w settings id) :
    deedsIn (command.job setting) w = [] := by
  generalize hds : deedsIn (command.job setting) w = ds
  rcases hjob : runIn (command.job setting) w with ⟨r, v⟩
  have hcarried := carried hc ⟨hjob, hds⟩
  cases hcarried with
  | idle => rfl
  | changed ho hid hs hm hrun hcourse hb hf =>
    cases hcourse with
    | notOpened => rfl
    | notAllowed => rfl
    | notFetched h hallowed => exact absurd ⟨_, _, ho, hid, hs, _, _, h, hallowed⟩ hn
    | fetched h hallowed => exact absurd ⟨_, _, ho, hid, hs, _, _, h, hallowed⟩ hn

/-- Once all is cleared, a command goes through one of the courses of a capture.  If that fails, the
command does nothing more and fails for the same reason; and else it saves the ledger. -/
theorem Command.exists_course {settings : Settings} {id : PullId}
    (hc : command.captures? = some (operation, subject))
    (hcleared : command.Cleared setting operation subject w settings id)
    (hjob : runIn (command.job setting) w = (r, v)) :
    ∃ result fetches writes, deedsIn (command.job setting) w = fetches ++ writes ∧
      Course settings id result fetches ∧ (∀ d ∈ writes, d.Saves settings.ledgerPath) ∧
      ∀ e, result = .error e → writes = [] ∧ r = .error (.ofError e) := by
  generalize hds : deedsIn (command.job setting) w = ds
  obtain ⟨ho, hid, hs, f, u, hopened, hallowed⟩ := hcleared
  have hcarried := carried hc ⟨hjob, hds⟩
  cases hcarried with
  | idle hidle =>
    -- It is in order, and there are settings.
    obtain hidle | ⟨e, he⟩ := hidle
    · exact absurd ho hidle
    · rw [hs] at he
      cases he
  | changed _ hid' hs' _ _ hcourse _ _ =>
    rw [hid] at hid'
    cases hid'
    rw [hs] at hs'
    cases hs'
    cases hcourse with
    | notOpened h =>
      rw [hopened] at h
      cases h
    | notAllowed h hnot =>
      rw [hopened] at h
      cases h
      rw [hallowed] at hnot
      cases hnot
    | notFetched _ _ hf =>
      refine ⟨_, _, [], (List.append_nil _).symm, hf, fun d hd => absurd hd List.not_mem_nil, ?_⟩
      rintro e ⟨⟩
      exact ⟨rfl, rfl⟩
    | fetched _ _ hf hw =>
      refine ⟨_, _, _, rfl, hf, hw, ?_⟩
      rintro e ⟨⟩

/-- The other commands ask nothing of servers. -/
theorem Command.isLocal_job (hc : command.captures? = none) :
    Asks Program.IsLocal (command.job setting) := by
  have hlooks : ∀ op, Program.Looks op → Program.IsLocal op := fun _ => Program.Looks.isLocal
  have hannounce := Job.asks_announce (P := Program.IsLocal) fun _ => trivial
  cases command with
  | createInitial | finalize => cases hc
  | addManualEdit subject diff reason moment =>
    refine .bind ((Job.looks_idOf subject).mono hlooks) fun id => ?_
    refine .bind (Job.asks_orRefuse _) fun moment => ?_
    refine .bind ((Job.looks_settingsFor setting subject).mono hlooks) fun settings => ?_
    refine .bind ?_ fun outcome => hannounce _ _
    refine Job.asks_change hlooks (fun _ => trivial) (fun _ _ => trivial) (fun _ => trivial)
      (fun _ _ => trivial) (fun _ _ => trivial) fun l => ?_
    -- The record is made of a file that has been read and of the time.
    exact .bind ((Job.looks_readText _ _).mono hlooks) fun _ => .bind (.ask trivial) fun _ =>
      .bind (Job.asks_orRefuse _) fun _ => .bind (.ask trivial) fun _ => .pure _
  | report ledgerPath outputPath =>
    exact .bind (.adapt (Report.asks_writeFile hlooks fun _ => trivial) _) fun _ => hannounce _ _
  | describe subject => exact Job.asks_describe hlooks fun _ => trivial
  | completions shell => exact .ask trivial

end Commands

/-! ### Whole runs -/

namespace Invocation

variable {manner : Manner} {command : Command} {w u v : World} {code : ExitCode}

/-- A run does what its job does. -/
theorem deeds_run (manner : Manner) (command : Command) (w : World) :
    (run manner command).execute.deeds w =
      deedsIn (command.job ⟨manner, World.pathOf w.base⟩) w := by
  have hlog : (Log.ofEnvironment manner.verbose).deeds w = [] :=
    ((looks_ofEnvironment manner.verbose).mono fun _ => Program.Looks.isIdle).deeds_eq_nil w
  unfold execute
  rw [Program.deeds_bind, hlog, (looks_ofEnvironment manner.verbose).world_eq w,
    Program.deeds_logging, List.nil_append]
  unfold runCommand
  simp only [Program.deeds_bind, Program.request, Program.deeds, Program.run, World.perform]
  rcases hjob : Program.run (ExceptT.run (command.job ⟨manner, World.pathOf w.base⟩)) w with
    ⟨_ | _, _⟩
  all_goals exact List.append_nil _

/-- The job of a command, behind the line of the log with which a run begins. -/
def started (manner : Manner) (command : Command) : Program (Except Refusal Unit) := do
  let directory ← Program.request .workingDirectory
  Program.request (.log ⟨.debug, "prledger", "starting prledger",
    [("root", .string directory.text)]⟩)
  (command.job ⟨manner, directory⟩).run

/-- What is left behind the job is to say why it was refused. -/
theorem runCommand_eq_bind (manner : Manner) (command : Command) :
    runCommand manner command = started manner command >>= fun result =>
      match result with
      | .ok () => return .success
      | .error refusal => do
        Program.request (.complain (refusal.text manner.style))
        return .failure :=
  rfl

/-- The last thing that a run prints which is refused is why. -/
theorem execute_refused {refusal : Refusal}
    (h : runIn (command.job ⟨manner, World.pathOf w.base⟩) w = (.error refusal, u)) :
    ∃ before, (run manner command).execute.run w =
      (.failure, { u with complaints := before ++ refusal.text manner.style }) := by
  have hstarted : (started manner command).run w = (.error refusal, u) := h
  unfold execute
  rw [Program.run_bind, (looks_ofEnvironment manner.verbose).world_eq w, runCommand_eq_bind,
    Program.logging_bind, Program.run_bind]
  obtain ⟨before, hrun⟩ := Program.run_logging ((Log.ofEnvironment manner.verbose).run w).1
    (started manner command) w
  rw [hrun, hstarted]
  exact ⟨before, rfl⟩

/-- **The traffic of a run.**  The requests that come to a server are those that the run has made,
in their order.  A run of any command but those that capture something makes none, and neither does
a run with other arguments.  A command that captures something does nothing at all unless everything
else is cleared: its arguments, the settings, the lock, the ledger, and that its operation may run.
If it is, the run goes through one of the courses of a capture, in which the pull request is asked
for first, and the diff only where an answer describes a pull request, from the URL that it names.
If the capture fails nothing is written, and the last thing that the run prints is the refusal,
which names the pull request and what could not be fetched; and if it does not fail, all that is
done afterwards is to save the ledger. -/
theorem execute_traffic (i : Invocation) (h : i.execute.run w = (code, v)) :
    (v.requests = w.requests ++
      if w.network.reaches then (i.execute.fetches w).map Prod.fst else []) ∧
    ((∀ manner command, i = run manner command → command.captures? = none) →
      i.execute.fetches w = []) ∧
    ∀ manner command operation subject, i = run manner command →
      command.captures? = some (operation, subject) →
      ((¬ ∃ settings id, command.Cleared ⟨manner, World.pathOf w.base⟩ operation subject w
        settings id) → i.execute.deeds w = []) ∧
      ∀ settings id,
        command.Cleared ⟨manner, World.pathOf w.base⟩ operation subject w settings id →
        ∃ result fetches writes, i.execute.deeds w = fetches ++ writes ∧
          Course settings id result fetches ∧ (∀ d ∈ writes, d.Saves settings.ledgerPath) ∧
          ∀ e, result = .error e → writes = [] ∧ code = .failure ∧
            (∃ (what : Fetched) (message : String), e = Source.failure id what message ∧
              e.code.text = "E6001" ∧
              e.message = s!"failed to fetch {what.name} for {id.text}: {message}") ∧
            ∃ before, v.complaints = before ++ (Refusal.ofError e).text manner.style := by
  refine ⟨?_, fun hother => ?_, ?_⟩
  · have hrequests := (Program.requests_run i.execute w).2
    rwa [h] at hrequests
  · have hlocal : ∀ d ∈ i.execute.deeds w, d.fetch? = none := by
      cases i with
      | misuse | help | version =>
        intro d hd
        cases hd
      | run manner command =>
        rw [deeds_run]
        exact Program.Asks.fetch?_eq_none (Command.isLocal_job (hother manner command rfl)) w
    exact List.filterMap_eq_nil_iff.2 hlocal
  · rintro manner command operation subject rfl hc
    rw [deeds_run]
    refine ⟨Command.deeds_eq_nil hc, fun settings id hcleared => ?_⟩
    rcases hjob : runIn (command.job ⟨manner, World.pathOf w.base⟩) w with ⟨r, u⟩
    obtain ⟨result, fetches, writes, hdeeds, hcourse, hwrites, hfail⟩ :=
      Command.exists_course hc hcleared hjob
    refine ⟨result, fetches, writes, hdeeds, hcourse, hwrites, ?_⟩
    rintro e rfl
    obtain ⟨hnothing, rfl⟩ := hfail e rfl
    obtain ⟨before, hrun⟩ := execute_refused hjob
    rw [h] at hrun
    cases hrun
    exact ⟨hnothing, rfl, hcourse.failed, before, rfl⟩

/-- A server that knows a pull request and not its diff: both are asked for, nothing is written, and
a record for which no statistics can be read is not even asked for. -/
theorem execute_traffic_no_diff :
    let answer : Response := ⟨200,
      Text.encode ("\x7b\"number\":42,\"html_url\":\"u\",\"diff_url\":\"http://d/42\"," ++
        "\"state\":\"open\",\"created_at\":\"2021-03-01T09:00:00Z\"\x7d")⟩
    let w : World := { World.empty .epoch [] with
      network := .serving [("https://api.github.com/repos/acme/widget/pulls/42", answer)] }
    let manner : Manner := ⟨false, .human, true, none⟩
    let subject : Subject := ⟨"acme", "widget", 42, none⟩
    let fetched := run manner (.createInitial subject none)
    let idle := run manner (.createInitial subject (some ⟨"s.json"⟩))
    (∃ v, fetched.execute.run w = (.failure, v) ∧
      v.requests.map Request.url =
        ["https://api.github.com/repos/acme/widget/pulls/42", "http://d/42"] ∧
      ∃ e fetches, fetched.execute.deeds w = fetches ∧
        Course ⟨⟨"prs.json"⟩, "https://api.github.com", none, 2000⟩ ⟨"acme", "widget", 42⟩
          (.error e) fetches ∧ e.code.text = "E6001") ∧
    idle.execute.deeds w = [] := by
  intro answer w manner subject fetched idle
  have hcleared : Command.Cleared (.createInitial subject none) ⟨manner, World.pathOf w.base⟩
      .createInitial subject w ⟨⟨"prs.json"⟩, "https://api.github.com", none, 2000⟩
      ⟨"acme", "widget", 42⟩ := by
    have hid : PullId.ofParts subject.owner subject.repo subject.number =
        .ok ⟨"acme", "widget", 42⟩ := PullId.ofParts_eq_ok_iff.2 ⟨rfl, by decide⟩
    have hopened : (runIn (LedgerFile.acquire ⟨"prs.json"⟩ (Span.ofMillis 2000)) w).1.map
        LedgerFile.ledger = .ok .empty := eq_ok_of_toOption (by decide +kernel)
    obtain ⟨f, hf, hledger⟩ := map_eq_ok.1 hopened
    refine ⟨⟨⟨_, hid⟩, fun _ hp => by cases hp⟩, hid, runIn_settingsFor_ok.2
      (eq_ok_of_toOption (by decide +kernel)), f, _, Prod.ext hf rfl, ?_⟩
    rw [hledger]
    rfl
  -- The second answer says that there is no diff.
  have hfetches : (fetched.execute.fetches w).map (fun f => (f.1.url, f.2.toOption)) =
      [("https://api.github.com/repos/acme/widget/pulls/42", some answer),
        ("http://d/42", some ⟨404, []⟩)] := by decide +kernel
  have hunread : ¬ Command.IsInOrder w (.createInitial subject (some ⟨"s.json"⟩)) := by
    rintro ⟨-, hstatistics⟩
    obtain ⟨bytes, -, -, hread, -⟩ := hstatistics ⟨"s.json"⟩ rfl
    cases hread
  rcases hrun : fetched.execute.run w with ⟨code, v⟩
  obtain ⟨hrequests, -, hcapturing⟩ := execute_traffic fetched hrun
  obtain ⟨result, fetches, writes, hdeeds, hcourse, -, hfail⟩ :=
    (hcapturing _ _ _ _ rfl rfl).2 _ _ hcleared
  have hurls : v.requests.map Request.url =
      ["https://api.github.com/repos/acme/widget/pulls/42", "http://d/42"] := by
    have hall : v.requests = (fetched.execute.fetches w).map Prod.fst := hrequests
    rw [hall, List.map_map]
    have hfirst := congrArg (List.map Prod.fst) hfetches
    rwa [List.map_map] at hfirst
  refine ⟨?_, ?_⟩
  · cases result with
    | error e =>
      obtain ⟨rfl, rfl, ⟨_, _, -, htext, -⟩, -⟩ := hfail e rfl
      exact ⟨v, rfl, hurls, e, fetches, hdeeds.trans (List.append_nil _), hcourse, htext⟩
    | ok capture =>
      cases hcourse with
      | @fetched _ _ _ _ reply _ _ _ _ hdiff =>
        rw [Program.fetches, hdeeds] at hfetches
        have hreply : reply.toOption = some ⟨404, []⟩ :=
          (Prod.mk.inj (List.cons.inj (List.cons.inj hfetches).2).1).2
        rw [eq_ok_of_toOption hreply] at hdiff
        cases hdiff
  · refine ((execute_traffic idle rfl).2.2 _ _ _ _ rfl rfl).1 ?_
    rintro ⟨_, _, hcleared'⟩
    exact hunread hcleared'.inOrder

end Invocation

end RepairLedger
