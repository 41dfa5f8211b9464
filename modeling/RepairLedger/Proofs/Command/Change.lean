import RepairLedger.Proofs.Command.Asking
import RepairLedger.Proofs.Ledger.Outcome
import RepairLedger.Proofs.Ledger.Runs

/-!
# Changes by commands

A command that changes a ledger spares the ledger file if it is refused (`Job.change_error`), and
replaces the ledger by one with the new record if it is not (`Job.change_ok`).  The record is the
one that the operation makes of the ledger that was there (`Job.begin_ok`, `Job.finish_ok`,
`Job.annotate_ok`).

The judgement of the arguments comes first and only looks at the world, so with wrong arguments
nothing happens at all (`Job.carryOut_cases`).
-/

namespace RepairLedger

open Host Attempt

/-- What is captured of a pull request that has been opened: its state as the source describes it,
and the statistics. -/
theorem Source.captureInitial_ok {source : Source Program} {id : PullId}
    {statistics : Statistics} {capture : InitialCapture} {w v : World}
    (h : (source.captureInitial id statistics).run w = (.ok capture, v)) :
    capture.statistics = statistics ∧ ∃ snapshot u,
      (source.pull id).run w = (.ok snapshot, u) ∧ capture.state = snapshot.state := by
  unfold captureInitial Source.capture at h
  rw [Program.run_bind, Program.run_bind] at h
  rcases hpull : (source.pull id).run w with ⟨_ | snapshot, u⟩
  · rw [hpull] at h
    cases h
  · rw [hpull] at h
    dsimp only at h
    rw [Program.run_bind] at h
    split at h
    · cases h
    · rename_i captured hcaptured
      cases h
      refine ⟨rfl, snapshot, u, rfl, ?_⟩
      split at hcaptured
      · cases hcaptured
      · cases hcaptured
        rfl

namespace Job

variable {α : Type} {w v : World}

theorem runIn_orRefuse_ok {result : Except LedgerError α} {a : α} :
    runIn (orRefuse result) w = (.ok a, v) ↔ result = .ok a ∧ v = w := by
  have hrun : runIn (orRefuse result) w = (result.mapError Refusal.ofError, w) := rfl
  rw [hrun, Prod.mk.injEq, mapError_eq_ok, eq_comm (a := w)]

theorem runIn_refusing_ok {tried : Attempt LedgerError α} {a : α} :
    runIn (refusing tried) w = (.ok a, v) ↔ runIn tried w = (.ok a, v) :=
  runIn_adapt_ok

theorem runIn_refusing_error {tried : Attempt LedgerError α} {refusal : Refusal} :
    runIn (refusing tried) w = (.error refusal, v) ↔
      ∃ e, runIn tried w = (.error e, v) ∧ Refusal.ofError e = refusal :=
  runIn_adapt_error

theorem runIn_announce (manner : Manner) (text : Style → String) (w : World) :
    ∃ output, runIn (announce manner text) w = (.ok (), { w with output }) := by
  unfold announce
  split
  · exact ⟨w.output ++ text manner.style, rfl⟩
  · exact ⟨w.output, rfl⟩

/-! ### Under the lock -/

section Change

variable {settings : Settings} {operation : Operation} {id : PullId} {make : Ledger → Job Record}

/-- What the world is like when the ledger has been locked and read. -/
theorem within_of_acquire {timeout : Span} {path : Path} {r : Except Refusal LedgerFile}
    (h : runIn (refusing (LedgerFile.acquire path timeout)) w = (r, v)) :
    w.Within [LedgerLock.pathFor path] (Ledger.surroundings path) v := by
  have hasks : Asks (Permits [LedgerLock.pathFor path] (LedgerLock.pathFor path).directories)
      (LedgerFile.acquire path timeout) :=
    LedgerFile.asks_acquire (fun _ => Program.Looks.permits) (fun _ hp => hp) (by simp [Permits])
      fun _ => trivial
  exact (Asks.within (asks_refusing hasks) h).mono (fun _ hp => hp)
    fun _ hp => List.mem_append.2 (.inl hp)

/-- A change that is refused spares the ledger file. -/
theorem change_error (hm : ∀ l, Asks (Permits [] []) (make l)) {refusal : Refusal}
    (h : runIn (change settings operation id make) w = (.error refusal, v)) :
    Ledger.Spared settings.ledgerPath w v := by
  refine Ledger.spared_of_within ?_
  have hlock : ∀ p ∈ [LedgerLock.pathFor settings.ledgerPath],
      p ∈ Ledger.companions settings.ledgerPath := fun p hp =>
    List.mem_cons.2 (.inl (List.mem_singleton.1 hp))
  rcases runIn_bind_error.1 h with h | ⟨f, u, hacquire, h⟩
  · exact (within_of_acquire h).mono hlock fun _ hp => hp
  obtain ⟨hpath, -, -⟩ := LedgerFile.acquire_ok (runIn_refusing_ok.1 hacquire)
  refine ((within_of_acquire hacquire).mono hlock fun _ hp => hp).trans ?_
  -- The record is made without touching any file.
  have hmake : Asks (Permits [] []) (LedgerFile.releasing f.lock do
      orRefuse (operation.check f.ledger id)
      make f.ledger) :=
    .releasing (.bind (asks_orRefuse _) fun _ => hm f.ledger) trivial
  rcases runIn_bind_error.1 h with h | ⟨record, u', hrecord, h⟩
  · exact .of_nothing (hmake.within h)
  refine (World.Within.of_nothing (hmake.within hrecord)).trans ?_
  -- A commit that fails has written no more than the temporary file.
  rcases runIn_bind_error.1 h with h | ⟨_, _, _, h⟩
  · obtain ⟨e, hcommit, -⟩ := runIn_refusing_error.1 h
    have hwithin := LedgerFile.commit_error hcommit
    rw [hpath] at hwithin
    exact hwithin.mono (fun _ hp => List.mem_cons.2 (.inr hp))
      fun _ hp => List.mem_append.2 (.inr hp)
  · cases h

/-- A change that is not refused replaces the ledger that was there by one with the new record. -/
theorem change_ok (hm : ∀ l, Asks (Permits [] []) (make l)) {outcome : Outcome}
    (h : runIn (change settings operation id make) w = (.ok outcome, v)) :
    ∃ l u u', operation.check l id = .ok () ∧
      runIn (make l) u = (.ok outcome.record, u') ∧
      Ledger.Replaced settings.ledgerPath l (l.upsert id outcome.record) w v := by
  obtain ⟨f, u, hacquire, h⟩ := runIn_bind_ok.1 h
  obtain ⟨record, u', hrecord, h⟩ := runIn_bind_ok.1 h
  obtain ⟨_, _, hcommit, h⟩ := runIn_bind_ok.1 h
  cases h
  obtain ⟨hpath, hlock, hread⟩ := LedgerFile.acquire_ok (runIn_refusing_ok.1 hacquire)
  obtain ⟨⟨⟩, u'', hjudged, hmake⟩ := runIn_bind_ok.1 (runIn_releasing_ok.1 hrecord)
  obtain ⟨hcheck, rfl⟩ := runIn_orRefuse_ok.1 hjudged
  obtain ⟨hwritten, hafter⟩ := LedgerFile.commit_ok (runIn_refusing_ok.1 hcommit)
  rw [hpath] at hwritten hafter
  refine ⟨f.ledger, u'', u', hcheck, hmake, ?_⟩
  have hacquired := within_of_acquire hacquire
  -- From the lock on, only the ledger and the file for the new one are written.
  have hrest : World.Within [Ledger.temporaryPath settings.ledgerPath, settings.ledgerPath]
      (Ledger.surroundings settings.ledgerPath) _ v :=
    (World.Within.of_nothing ((hm f.ledger).within hmake)).trans
      (hwritten.mono (fun _ hp => hp) fun _ hp => List.mem_append.2 (.inr hp))
  refine ⟨(hacquired.mono ?_ fun _ hp => hp).trans (hrest.mono ?_ fun _ hp => hp), fun loc hl => ?_,
    hafter⟩
  · intro p hp
    obtain rfl := List.mem_singleton.1 hp
    simp [Ledger.companions]
  · intro p hp
    rcases List.mem_cons.1 hp with rfl | hp
    · simp [Ledger.companions]
    · obtain rfl := List.mem_singleton.1 hp
      exact List.mem_cons_self
  · exact Ledger.isHeldBy_of_locked hacquired hrest hlock hread hl

end Change

/-! ### The records that are made -/

section Make

variable {settings : Settings} {id : PullId} {l : Ledger} {record : Record}

theorem begin_ok {statistics : Statistics}
    (h : runIn (begin settings id statistics l) w = (.ok record, v)) :
    ∃ (capture : InitialCapture) (u u' : World),
      runIn ((GitHub.source settings).captureInitial id statistics) w = (.ok capture, u) ∧
      l.createInitial id capture u'.clock = .ok record := by
  obtain ⟨capture, _, hcapture, h⟩ := runIn_bind_ok.1 h
  obtain ⟨_, u', -, h⟩ := runIn_bind_ok.1 h
  obtain ⟨_, _, hnow, h⟩ := runIn_bind_ok.1 h
  cases hnow
  obtain ⟨_, _, hrecord, h⟩ := runIn_bind_ok.1 h
  obtain ⟨_, _, -, h⟩ := runIn_bind_ok.1 h
  cases h
  exact ⟨capture, _, u', runIn_refusing_ok.1 hcapture, (runIn_orRefuse_ok.1 hrecord).1⟩

theorem finish_ok (h : runIn (finish settings id l) w = (.ok record, v)) :
    ∃ capture now, l.finalize id capture now = .ok record := by
  obtain ⟨capture, _, -, h⟩ := runIn_bind_ok.1 h
  obtain ⟨_, _, -, h⟩ := runIn_bind_ok.1 h
  obtain ⟨now, _, -, h⟩ := runIn_bind_ok.1 h
  obtain ⟨made, _, hrecord, h⟩ := runIn_bind_ok.1 h
  have hlast : ∀ {w}, runIn (do
      logRecord .info "finalized record" id []
      return made : Job Record) w = (.ok record, v) → made = record := by
    rintro w ⟨⟩
    rfl
  -- Whether there is a warning or not, the record that was made is the result.
  refine ⟨capture, now, (runIn_orRefuse_ok.1 hrecord).1.trans (congrArg _ ?_)⟩
  split at h
  · obtain ⟨_, _, -, h⟩ := runIn_bind_ok.1 h
    exact hlast h
  · exact hlast h

theorem annotate_ok {diffPath : Path} {reason : String} {moment : EditMoment}
    (h : runIn (annotate diffPath reason id moment l) w = (.ok record, v)) :
    ∃ diff now, l.appendEdit id ⟨moment, reason, diff⟩ now = .ok record := by
  obtain ⟨diff, _, -, h⟩ := runIn_bind_ok.1 h
  obtain ⟨now, _, -, h⟩ := runIn_bind_ok.1 h
  obtain ⟨_, _, hrecord, h⟩ := runIn_bind_ok.1 h
  obtain ⟨_, _, -, h⟩ := runIn_bind_ok.1 h
  cases h
  exact ⟨diff, now, (runIn_orRefuse_ok.1 hrecord).1⟩

end Make

/-! ### Whole operations -/

variable {setting : Setting} {operation : Operation} {subject : Subject} {judge : Job α}
  {make : Settings → PullId → α → Ledger → Job Record}

/-- An operation with proper arguments is a change of the ledger. -/
theorem runIn_carryOut {id : PullId} {a : α} {settings : Settings}
    (hid : runIn (idOf subject) w = (.ok id, w)) (ha : runIn judge w = (.ok a, w))
    (hs : runIn (settingsFor setting subject) w = (.ok settings, w)) :
    runIn (carryOut setting operation subject judge make) w =
      runIn (do
        let outcome ← change settings operation id (make settings id a)
        announce setting.manner outcome.text) w := by
  unfold carryOut
  rw [runIn_bind, hid]
  dsimp only
  rw [runIn_bind, ha]
  dsimp only
  rw [runIn_bind, hs]

/-- Everything that an operation can do: if the arguments are refused or there are no settings,
nothing at all, and else the ledger is spared or replaced. -/
theorem carryOut_cases (hj : Asks Program.Looks judge)
    (hm : ∀ settings id a l, Asks (Permits [] []) (make settings id a l)) {r : Except Refusal Unit}
    (h : runIn (carryOut setting operation subject judge make) w = (r, v)) :
    (∃ e, r = .error e ∧ v = w ∧
      (runIn (idOf subject) w = (.error e, w) ∨ runIn judge w = (.error e, w) ∨
        runIn (settingsFor setting subject) w = (.error e, w))) ∨
    ∃ id a settings, runIn (idOf subject) w = (.ok id, w) ∧ runIn judge w = (.ok a, w) ∧
      runIn (settingsFor setting subject) w = (.ok settings, w) ∧
      ((∃ e, r = .error e ∧ Ledger.Spared settings.ledgerPath w v) ∨
        r = .ok () ∧ ∃ l record u u', operation.check l id = .ok () ∧
          runIn (make settings id a l) u = (.ok record, u') ∧
          Ledger.Replaced settings.ledgerPath l (l.upsert id record) w v) := by
  obtain ⟨id, hid⟩ := (looks_idOf subject).exists_runIn w
  obtain ⟨a, ha⟩ := hj.exists_runIn w
  obtain ⟨settings, hs⟩ := (looks_settingsFor setting subject).exists_runIn w
  cases id with
  | error e =>
    rw [carryOut, runIn_bind, hid] at h
    cases h
    exact .inl ⟨e, rfl, rfl, .inl hid⟩
  | ok id =>
  cases a with
  | error e =>
    rw [carryOut, runIn_bind, hid] at h
    dsimp only at h
    rw [runIn_bind, ha] at h
    cases h
    exact .inl ⟨e, rfl, rfl, .inr (.inl ha)⟩
  | ok a =>
  cases settings with
  | error e =>
    rw [carryOut, runIn_bind, hid] at h
    dsimp only at h
    rw [runIn_bind, ha] at h
    dsimp only at h
    rw [runIn_bind, hs] at h
    cases h
    exact .inl ⟨e, rfl, rfl, .inr (.inr hs)⟩
  | ok settings =>
  -- The arguments are proper: what is left is the change of the ledger.
  refine .inr ⟨id, a, settings, hid, ha, hs, ?_⟩
  rw [runIn_carryOut hid ha hs, runIn_bind] at h
  rcases hc : runIn (change settings operation id (make settings id a)) w with ⟨e | outcome, u⟩
  · rw [hc] at h
    cases h
    exact .inl ⟨e, rfl, change_error (hm settings id a) hc⟩
  · obtain ⟨l, x, x', hcheck, hmake, hreplaced⟩ := change_ok (hm settings id a) hc
    obtain ⟨output, hannounce⟩ := runIn_announce setting.manner outcome.text u
    rw [hc] at h
    dsimp only at h
    rw [hannounce] at h
    cases h
    exact .inr ⟨rfl, l, outcome.record, x, x', hcheck, hmake, hreplaced.of_files_eq rfl rfl⟩

end Job

end RepairLedger
