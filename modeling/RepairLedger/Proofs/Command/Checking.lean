import RepairLedger.Proofs.Command.Traffic

/-!
# What is checked beforehand

Whether an operation may run is found out before anything is fetched (`Operation.check`), and the
operation judges once more for itself when it makes the record.  The two judgements are written
apart from each other.  That they agree makes it sound to fail early: what is refused early would
have been refused anyway, and what passes can only be refused later for a blank reason.

Of commands this says that nothing but the saving is left when the check has passed and the capture
has been made (`Job.runIn_carryOut_of_made`), and that a missing record is noticed before the reason
of an edit is looked at (`Job.runIn_carryOut_of_refused`).  Both sides are put together in
`Operation.check_agrees`.
-/

namespace RepairLedger

open Host Attempt

/-! ### The check and the operations -/

section Ledgers

variable {l : Ledger} {id : PullId} {e : LedgerError}

/-- The check, by whether the ledger has a record. -/
theorem Operation.check_eq (operation : Operation) (l : Ledger) (id : PullId) :
    operation.check l id =
      match operation, l.get? id with
      | createInitial, some _ => .error (.duplicateRecord id)
      | finalize, none => .error (.noInitialRecord id)
      | addManualEdit, none => .error (.recordNotFound id)
      | _, _ => .ok () := by
  unfold check Ledger.contains
  cases operation <;> cases l.get? id <;> rfl

namespace Ledger

theorem createInitial_eq_error {capture : InitialCapture} {now : Instant} :
    l.createInitial id capture now = .error e ↔ Operation.createInitial.check l id = .error e := by
  unfold createInitial
  cases Operation.createInitial.check l id with
  | error e' => simp [bind, Except.bind]
  | ok => simp [bind, Except.bind]

theorem finalize_eq_error {capture : FinalCapture} {now : Instant} :
    l.finalize id capture now = .error e ↔ Operation.finalize.check l id = .error e := by
  rw [Operation.check_eq, finalize]
  cases l.get? id with
  | none => simp
  | some q => simp

/-- An edit is refused by the check, or for its reason. -/
theorem appendEdit_eq_error {edit : ManualEdit} {now : Instant} :
    l.appendEdit id edit now = .error e ↔
      Operation.addManualEdit.check l id = .error e ∨
        Operation.addManualEdit.check l id = .ok () ∧ Text.isBlankText edit.reason = true ∧
          e = .invalidEdit id "edit reason must not be empty" := by
  rw [Operation.check_eq, appendEdit]
  cases l.get? id with
  | none => simp
  | some q => cases Text.isBlankText edit.reason <;> simp [eq_comm]

end Ledger

theorem Text.isBlankText_eq_false_iff {s : String} :
    isBlankText s = false ↔ ∃ c ∈ s.toList, isBlank c = false := by
  rw [isBlankText, List.all_eq_false]
  simp only [Bool.not_eq_true]

end Ledgers

/-! ### Under the lock -/

namespace Job

/-- What a command has when its operation is checked: the id, the settings, and the ledger that has
been read under the lock. -/
structure Holds (setting : Setting) (subject : Subject) (w : World) (id : PullId)
    (settings : Settings) (f : LedgerFile) (u : World) : Prop where
  id_eq : PullId.ofParts subject.owner subject.repo subject.number = .ok id
  settings_eq : runIn (settingsFor setting subject) w = (.ok settings, w)
  acquired : runIn (LedgerFile.acquire settings.ledgerPath
    (Span.ofMillis settings.lockTimeoutMs.toNat)) w = (.ok f, u)

/-- What is left of a command when the record has been made. -/
def saving (setting : Setting) (operation : Operation) (id : PullId) (settings : Settings)
    (f : LedgerFile) (record : Record) : Job Unit := do
  let _ ← refusing (f.commit id record)
  announce setting.manner (Outcome.text ⟨operation, id, settings.ledgerPath, record⟩)

variable {α : Type} {setting : Setting} {operation : Operation} {subject : Subject} {judge : Job α}
  {make : Settings → PullId → α → Ledger → Job Record} {id : PullId} {a : α} {settings : Settings}
  {f : LedgerFile} {u v w : World}

/-- What is done under the lock when the check has passed is to make the record. -/
theorem runIn_change_of_made {make : Ledger → Job Record} {record : Record}
    (h : Holds setting subject w id settings f u)
    (hcheck : operation.check f.ledger id = .ok ())
    (hmade : runIn (make f.ledger) u = (.ok record, v)) :
    runIn (change settings operation id make) w =
      runIn (do
        let _ ← refusing (f.commit id record)
        return ⟨operation, id, settings.ledgerPath, record⟩ : Job Outcome) v := by
  have hunder : runIn (LedgerFile.releasing f.lock do
      orRefuse (operation.check f.ledger id)
      make f.ledger) u = (.ok record, v) := by
    rw [runIn_releasing_ok, runIn_bind, runIn_orRefuse, hcheck]
    exact hmade
  unfold change
  rw [runIn_bind, runIn_refusing_ok.2 h.acquired]
  dsimp only
  rw [runIn_bind, hunder]

theorem runIn_carryOut_of_made {record : Record} (h : Holds setting subject w id settings f u)
    (ha : runIn judge w = (.ok a, w)) (hcheck : operation.check f.ledger id = .ok ())
    (hmade : runIn (make settings id a f.ledger) u = (.ok record, v)) :
    runIn (carryOut setting operation subject judge make) w =
      runIn (saving setting operation id settings f record) v := by
  rw [runIn_carryOut (runIn_idOf_ok.2 ⟨h.id_eq, rfl⟩) ha h.settings_eq, runIn_bind,
    runIn_change_of_made h hcheck hmade, saving, runIn_bind, runIn_bind]
  rcases runIn (refusing (f.commit id record)) v with ⟨_ | _, _⟩ <;> rfl

/-- If the check fails the lock is given back, and nothing is made. -/
theorem runIn_carryOut_of_refused {e : LedgerError} (h : Holds setting subject w id settings f u)
    (ha : runIn judge w = (.ok a, w)) (hcheck : operation.check f.ledger id = .error e) :
    runIn (carryOut setting operation subject judge make) w =
      (.error (.ofError e), (u.perform (.unlock f.lock)).2) := by
  have hunder : runIn (LedgerFile.releasing f.lock do
      orRefuse (operation.check f.ledger id)
      make settings id a f.ledger) u =
        (.error (.ofError e), (u.perform (.unlock f.lock)).2) := by
    rw [runIn_releasing, runIn_bind, runIn_orRefuse, hcheck]
    rfl
  rw [runIn_carryOut (runIn_idOf_ok.2 ⟨h.id_eq, rfl⟩) ha h.settings_eq, runIn_bind]
  unfold change
  rw [runIn_bind, runIn_refusing_ok.2 h.acquired]
  dsimp only
  rw [runIn_bind, hunder]

/-! ### The records that are made -/

section Make

variable {l : Ledger} {record : Record}

/-- When the capture has been made, only the operation itself could still refuse. -/
theorem runIn_begin_of_captured {statistics : Statistics} {capture : InitialCapture}
    (hcapture : ((GitHub.source settings).captureInitial id statistics).run u = (.ok capture, v))
    (hrecord : l.createInitial id capture v.clock = .ok record) :
    runIn (begin settings id statistics l) u = (.ok record, v) := by
  have hcaptured : runIn (refusing ((GitHub.source settings).captureInitial id statistics)) u =
      (.ok capture, v) := runIn_refusing_ok.2 hcapture
  unfold begin
  rw [runIn_bind, hcaptured]
  simp only [runIn_bind, runIn_logFetched, runIn_orRefuse]
  rw [runIn_now]
  dsimp only
  rw [hrecord]
  rfl

theorem runIn_finish_of_captured {capture : FinalCapture}
    (hcapture : ((GitHub.source settings).capture id).run u = (.ok capture, v))
    (hrecord : l.finalize id capture v.clock = .ok record) :
    runIn (finish settings id l) u = (.ok record, v) := by
  have hcaptured : runIn (refusing ((GitHub.source settings).capture id)) u = (.ok capture, v) :=
    runIn_refusing_ok.2 hcapture
  unfold finish
  rw [runIn_bind, hcaptured]
  simp only [runIn_bind, runIn_logFetched, runIn_orRefuse]
  rw [runIn_now]
  dsimp only
  rw [hrecord]
  dsimp only [Except.mapError]
  -- A warning, if there is one, is only a line in the log.
  split <;> rfl

end Make

end Job

/-! ### The agreement -/

namespace Operation

theorem exists_createInitial {l : Ledger} {id : PullId} (h : createInitial.check l id = .ok ())
    (capture : InitialCapture) (now : Instant) :
    ∃ record, l.createInitial id capture now = .ok record := by
  cases hrecord : l.createInitial id capture now with
  | ok record => exact ⟨record, rfl⟩
  | error e =>
    rw [Ledger.createInitial_eq_error, h] at hrecord
    cases hrecord

theorem exists_finalize {l : Ledger} {id : PullId} (h : finalize.check l id = .ok ())
    (capture : FinalCapture) (now : Instant) :
    ∃ record, l.finalize id capture now = .ok record := by
  cases hrecord : l.finalize id capture now with
  | ok record => exact ⟨record, rfl⟩
  | error e =>
    rw [Ledger.finalize_eq_error, h] at hrecord
    cases hrecord

/-- **The check agrees with the operations.**  A first record or a final state is refused exactly if
the check fails, and with the same error; an edit is refused with the error of the check if that
fails, and otherwise just if its reason is blank.  So under the lock, once the check has passed and
the capture has been made, the record is made for certain, and the rest of the command is the
saving; and a command that adds an edit to a missing record says so, whatever the reason, the diff
file and the moment of the edit. -/
theorem check_agrees (l : Ledger) (id : PullId) :
    (∀ capture now e,
      createInitial.check l id = .error e ↔ l.createInitial id capture now = .error e) ∧
    (∀ capture now e, finalize.check l id = .error e ↔ l.finalize id capture now = .error e) ∧
    (∀ e, addManualEdit.check l id = .error e →
      ∀ edit now, l.appendEdit id edit now = .error e) ∧
    (addManualEdit.check l id = .ok () → ∀ edit now,
      ((∃ record, l.appendEdit id edit now = .ok record) ↔
        ∃ c ∈ edit.reason.toList, Text.isBlank c = false) ∧
      ((¬ ∃ c ∈ edit.reason.toList, Text.isBlank c = false) →
        l.appendEdit id edit now =
          .error (.invalidEdit id "edit reason must not be empty"))) ∧
    ∀ setting subject w settings f u, Job.Holds setting subject w id settings f u →
      (createInitial.check f.ledger id = .ok () → ∀ path statistics capture v,
        runIn (Job.readStatistics path) w = (.ok statistics, w) →
        ((GitHub.source settings).captureInitial id statistics).run u = (.ok capture, v) →
        ∃ record, f.ledger.createInitial id capture v.clock = .ok record ∧
          runIn (Job.createInitial setting subject path) w =
            runIn (Job.saving setting createInitial id settings f record) v) ∧
      (finalize.check f.ledger id = .ok () → ∀ capture v,
        ((GitHub.source settings).capture id).run u = (.ok capture, v) →
        ∃ record, f.ledger.finalize id capture v.clock = .ok record ∧
          runIn (Job.finalize setting subject) w =
            runIn (Job.saving setting finalize id settings f record) v) ∧
      (f.ledger.get? id = none → ∀ diffPath reason text moment,
        EditMoment.ofText? text = some moment →
        (runIn (Job.addManualEdit setting subject diffPath reason text) w).1 =
          .error (.ofError (.recordNotFound id))) := by
  refine ⟨fun _ _ _ => Ledger.createInitial_eq_error.symm,
    fun _ _ _ => Ledger.finalize_eq_error.symm,
    fun e he _ _ => Ledger.appendEdit_eq_error.2 (.inl he), fun hcheck edit now => ⟨?_, ?_⟩,
    fun setting subject w settings f u hholds => ⟨?_, ?_, ?_⟩⟩
  · rw [← Text.isBlankText_eq_false_iff]
    constructor
    · rintro ⟨record, hrecord⟩
      obtain ⟨_, _, hreason, _⟩ := Ledger.appendEdit_eq_ok.1 hrecord
      exact hreason
    · intro hreason
      cases hrecord : l.appendEdit id edit now with
      | ok record => exact ⟨record, rfl⟩
      | error e =>
        rcases Ledger.appendEdit_eq_error.1 hrecord with he | ⟨-, hblank, -⟩
        · cases hcheck.symm.trans he
        · cases hreason.symm.trans hblank
  · rw [← Text.isBlankText_eq_false_iff, Bool.not_eq_false]
    exact fun hblank => Ledger.appendEdit_eq_error.2 (.inr ⟨hcheck, hblank, rfl⟩)
  · intro hcheck path statistics capture v hstatistics hcapture
    obtain ⟨record, hrecord⟩ := exists_createInitial hcheck capture v.clock
    exact ⟨record, hrecord, Job.runIn_carryOut_of_made hholds hstatistics hcheck
      (Job.runIn_begin_of_captured hcapture hrecord)⟩
  · intro hcheck capture v hcapture
    obtain ⟨record, hrecord⟩ := exists_finalize hcheck capture v.clock
    exact ⟨record, hrecord, Job.runIn_carryOut_of_made hholds rfl hcheck
      (Job.runIn_finish_of_captured hcapture hrecord)⟩
  · intro hmissing diffPath reason text moment hmoment
    have hcheck : addManualEdit.check f.ledger id = .error (.recordNotFound id) := by
      rw [check_eq, hmissing]
    exact congrArg Prod.fst (Job.runIn_carryOut_of_refused hholds
      (Job.runIn_momentOf_ok.2 hmoment) hcheck)

/-- In a world with no ledger, where a server describes a pull request: its first record is certain
once the capture has been made, and an edit without a reason is refused because there is no
record.  In a ledger with the record, the same edit is refused for the reason. -/
theorem check_agrees_opened :
    let w := Invocation.opened ⟨⟨2021, 3, 1, by decide⟩, 0, 0, by decide, by decide⟩
    let setting : Setting := ⟨⟨false, .human, true, none⟩, World.pathOf w.base⟩
    let subject : Subject := ⟨"acme", "widget", 42, none⟩
    let id : PullId := ⟨"acme", "widget", 42⟩
    let state : PullState := ⟨"u", .epoch, none, none, "open", false, 42⟩
    let l : Ledger := ⟨[(id, .begin id.slug state .empty "d" .epoch)]⟩
    (addManualEdit.check l id = .ok () ∧ l.appendEdit id ⟨.afterOpening, " ", "d"⟩ .epoch =
        .error (.invalidEdit id "edit reason must not be empty")) ∧
      (addManualEdit.check .empty id = .error (.recordNotFound id) ∧
        Ledger.empty.appendEdit id ⟨.afterOpening, " ", "d"⟩ .epoch =
          .error (.recordNotFound id)) ∧
      ∃ settings f u, Job.Holds setting subject w id settings f u ∧ f.ledger = .empty ∧
      (∃ capture v record,
        ((GitHub.source settings).captureInitial id .empty).run u = (.ok capture, v) ∧
        f.ledger.createInitial id capture v.clock = .ok record ∧
        runIn (Job.createInitial setting subject none) w =
          runIn (Job.saving setting createInitial id settings f record) v) ∧
      (runIn (Job.addManualEdit setting subject ⟨"no.diff"⟩ " " "after_open_pr") w).1 =
        .error (.ofError (.recordNotFound id)) := by
  intro w setting subject id state l
  have hblank : ¬ ∃ c ∈ " ".toList, Text.isBlank c = false := by
    rintro ⟨c, hc, hb⟩
    obtain rfl : c = ' ' := List.mem_singleton.1 hc
    revert hb
    decide
  refine ⟨⟨rfl, ((check_agrees l id).2.2.2.1 rfl ⟨_, " ", _⟩ _).2 hblank⟩,
    ⟨rfl, (check_agrees .empty id).2.2.1 _ rfl _ _⟩, ?_⟩
  let settings : Settings := ⟨⟨"prs.json"⟩, "https://api.github.com", none, 2000⟩
  have hopened : (runIn (LedgerFile.acquire settings.ledgerPath
      (Span.ofMillis settings.lockTimeoutMs.toNat)) w).1.map LedgerFile.ledger = .ok .empty :=
    eq_ok_of_toOption (by decide +kernel)
  have hcaptured : (((GitHub.source settings).captureInitial id .empty).run
      (runIn (LedgerFile.acquire settings.ledgerPath
        (Span.ofMillis settings.lockTimeoutMs.toNat)) w).2).1.toOption.isSome = true := by
    decide +kernel
  rcases hacquired : runIn (LedgerFile.acquire settings.ledgerPath
    (Span.ofMillis settings.lockTimeoutMs.toNat)) w with ⟨r, u⟩
  rw [hacquired] at hopened hcaptured
  obtain ⟨f, rfl, hledger⟩ := map_eq_ok.1 hopened
  have hnone : f.ledger.get? id = none := by
    rw [hledger]
    rfl
  have hholds : Job.Holds setting subject w id settings f u :=
    ⟨PullId.ofParts_eq_ok_iff.2 ⟨rfl, by decide⟩,
      Invocation.runIn_settingsFor_ok.2 (eq_ok_of_toOption (by decide +kernel)), hacquired⟩
  obtain ⟨hbegin, -, hedit⟩ := (check_agrees .empty id).2.2.2.2 _ _ _ _ _ _ hholds
  refine ⟨settings, f, u, hholds, hledger, ?_, ?_⟩
  · rcases hrun : ((GitHub.source settings).captureInitial id .empty).run u with ⟨result, v⟩
    rw [hrun] at hcaptured
    obtain ⟨capture, hcapture⟩ := Option.isSome_iff_exists.1 hcaptured
    obtain rfl : result = .ok capture := eq_ok_of_toOption hcapture
    have hcheck : createInitial.check f.ledger id = .ok () := by rw [check_eq, hnone]
    obtain ⟨record, hrecord, hsaving⟩ := hbegin hcheck none .empty capture v rfl hrun
    exact ⟨capture, v, record, rfl, hrecord, hsaving⟩
  · have hmoment : EditMoment.ofText? "after_open_pr" = some .afterOpening := by decide +kernel
    exact hedit hnone _ _ _ _ hmoment

end Operation

end RepairLedger
