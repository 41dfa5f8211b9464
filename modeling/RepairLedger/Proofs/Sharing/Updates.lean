import RepairLedger.Proofs.Command.Atomicity
import RepairLedger.Proofs.Sharing.Commits
import RepairLedger.Proofs.Sharing.Following

/-!
# No update is lost

Any number of processes work on one ledger file (`Crowd`): some change a record of it, others read
it without the lock (`Task`).  They are the programs that the commands are made of, and take their
steps in any order, with any answers that a shared world may give (`Crowd.Runs`).

All of them keep to the protocol (`Task.follows`), so each run of them is a run of the protocol
(`Crowd.Runs.follows`), and what holds of those holds here: each commit is made on what the commit
before it has left, everybody who reads sees what some commit has left, and whoever is refused the
lock leaves the ledger alone (`Crowd.no_lost_update`).
-/

namespace RepairLedger.Sharing

open Host

/-! ### Tasks -/

/-- What a process does with a ledger file. -/
inductive Task where
  | create (settings : Settings) (id : PullId) (statistics : Statistics)
  | finalize (settings : Settings) (id : PullId)
  | annotate (settings : Settings) (id : PullId) (diffPath : Path) (reason : String)
    (moment : EditMoment)
  /-- It reads the ledger without the lock. -/
  | load

namespace Task

/-- What comes of it. -/
inductive Result where
  | changed (result : Except Refusal Outcome)
  | loaded (result : Except LedgerError Ledger)

/-- A change of a ledger file. -/
def change (path : Path) (settings : Settings) (operation : Operation) (id : PullId)
    (make : Ledger → Job Record) : Program Result := do
  return .changed (← (Job.change { settings with ledgerPath := path } operation id make).run)

/-- What the process asks for. -/
def program (path : Path) : Task → Program Result
  | create settings id statistics =>
    change path settings .createInitial id (Job.begin settings id statistics)
  | finalize settings id => change path settings .finalize id (Job.finish settings id)
  | annotate settings id diffPath reason moment =>
    change path settings .addManualEdit id (Job.annotate diffPath reason id moment)
  | load => do return .loaded (← (Ledger.load path).run)

/-- The call is one that the process is to make; what it fetches or reads for that is up to others.
-/
def Makes (c : Call) : Task → Prop
  | create _ id statistics =>
    c.id = id ∧ ∃ capture, c.action = .create capture ∧ capture.statistics = statistics
  | finalize _ id => c.id = id ∧ ∃ capture, c.action = .finalize capture
  | annotate _ id _ reason moment =>
    c.id = id ∧ ∃ diff, c.action = .annotate ⟨moment, reason, diff⟩
  | load => False

/-- How the process ends: with a commit and the record that was committed, without either, or with
what it has read. -/
def Ends (path : Path) (task : Task) (φ : Phase) : Result → Prop
  | .changed (.ok outcome) =>
    ∃ c, φ = .gone (some (c, outcome.record)) ∧ task.Makes c ∧ c.id = outcome.id
  | .changed (.error _) => φ.IsIdle
  | .loaded result => ∃ reply, φ = .seen reply ∧ result = Ledger.ofRead path reply

/-- **Every task keeps to the protocol.** -/
theorem follows (path : Path) (task : Task) :
    Follows path (fun c => task.Makes c) (Ends path task) .outside (task.program path) := by
  have hchange : ∀ {settings operation id make},
      (∀ key l, Pursues path (fun c => task.Makes c)
        (fun ψ record => ψ = .loaded key l ∧ Gives (fun c => task.Makes c) l id record)
        (· = .loaded key l) (.loaded key l) (make l)) →
      Follows path (fun c => task.Makes c) (Ends path task) .outside
        (change path settings operation id make) := by
    intro settings operation id make hmake
    have hjob := @pursues_change _ { settings with ledgerPath := path } id operation make hmake
    refine Follows.bind hjob fun ψ result hresult => .done ?_
    cases result with
    | ok outcome => exact hresult
    | error refusal => exact hresult
  cases task with
  | create settings id statistics =>
    exact hchange fun key l => pursues_begin fun capture now h => ⟨rfl, capture, rfl, h⟩
  | finalize settings id =>
    exact hchange fun key l => pursues_finish fun capture now => ⟨rfl, capture, rfl⟩
  | annotate settings id diffPath reason moment =>
    exact hchange fun key l => pursues_annotate fun diff now => ⟨rfl, diff, rfl⟩
  | load => exact Follows.bind (follows_load .look) fun ψ result h => .done h

end Task

/-! ### Crowds -/

/-- Processes that share a world, each with what it has still to do. -/
structure Crowd (ι : Type) where
  world : World
  rest : ι → Program Task.Result

namespace Crowd

/-- The processes before they have taken any step. -/
def initial {ι : Type} (path : Path) (tasks : ι → Task) (start : World) : Crowd ι :=
  ⟨start, fun p => (tasks p).program path⟩

variable {ι : Type} [DecidableEq ι]

/-- What has happened when processes have taken steps in any order, and where they are then. -/
inductive Runs (start : Crowd ι) : List (Event ι) → Crowd ι → Prop
  | start : Runs start [] start
  | step {trace : List (Event ι)} {c : Crowd ι} {p : ι} {op : Op}
    {next : op.Reply → Program Task.Result} {reply : op.Reply} {v : World}
    (h : Runs start trace c) (hp : c.rest p = .ask op next) (ha : c.world.Answers op reply v) :
    Runs start (trace ++ [⟨p, op, reply⟩]) ⟨v, Function.update c.rest p (next reply)⟩

/-- A run of processes that keep to the protocol is a run of the protocol. -/
theorem Runs.follows {path : Path} {may : ι → Call → Prop}
    {post : ι → Phase → Task.Result → Prop} {start c : Crowd ι} {trace : List (Event ι)}
    (h : Runs start trace c)
    (hstart : ∀ p, Follows path (may p) (post p) .outside (start.rest p)) :
    ∃ φ, Run path may start.world trace c.world φ ∧
      ∀ p, Follows path (may p) (post p) (φ p) (c.rest p) := by
  induction h with
  | start => exact ⟨fun _ => .outside, .start, hstart⟩
  | @step trace c p op next reply v _ hp ha ih =>
    obtain ⟨φ, hrun, hrest⟩ := ih
    have hfollows := hrest p
    rw [hp] at hfollows
    cases hfollows with
    | ask ψ hm hn =>
      refine ⟨Function.update φ p (ψ reply), hrun.step ha (hm reply), fun q => ?_⟩
      dsimp only
      by_cases hq : q = p
      · subst hq
        rw [Function.update_self, Function.update_self]
        exact hn reply
      · rw [Function.update_of_ne hq, Function.update_of_ne hq]
        exact hrest q

/-- What happens when the processes take their steps as a list says, with the answers that the world
alone gives. -/
def play (c : Crowd ι) : List ι → List (Event ι) × Crowd ι
  | [] => ([], c)
  | p :: schedule =>
    match c.rest p with
    | .done _ => c.play schedule
    | .ask op next =>
      let (reply, v) := c.world.perform op
      let (trace, d) := play ⟨v, Function.update c.rest p (next reply)⟩ schedule
      (⟨p, op, reply⟩ :: trace, d)

theorem Runs.play {start c : Crowd ι} {trace : List (Event ι)} (h : Runs start trace c)
    (schedule : List ι) : Runs start (trace ++ (c.play schedule).1) (c.play schedule).2 := by
  induction schedule generalizing trace c with
  | nil => simpa [Crowd.play] using h
  | cons p schedule ih =>
    unfold Crowd.play
    split
    · exact ih h
    · rename_i op next hp
      have hrest := ih (h.step hp (.inl rfl))
      rwa [List.append_assoc] at hrest

theorem runs_play (c : Crowd ι) (schedule : List ι) :
    Runs c (c.play schedule).1 (c.play schedule).2 :=
  Runs.start.play schedule

/-! ### What becomes of the ledger -/

/-- What has become of the ledger at a location. -/
structure History (path : Path) (tasks : ι → Task) (start : World) (trace : List (Event ι))
    (c : Crowd ι) (loc : Location) (commits : List (Commit ι)) : Prop where
  /-- What is there is what the last commit has left, and each commit is a call that was allowed on
  what the one before it has left. -/
  lineage : Lineage (start.files.get? loc) commits (c.world.files.get? loc)
  /-- The commits are the moves into the place of the ledger, in their order. -/
  movers : commits.map Commit.who = trace.filterMap Event.mover?
  makes : ∀ commit ∈ commits, (tasks commit.who).Makes commit.call
  changed : ∀ p outcome, c.rest p = .done (.changed (.ok outcome)) → ∃ commit ∈ commits,
    commit.who = p ∧ commit.call.id = outcome.id ∧ commit.record = outcome.record
  /-- Everything that is read has been there at first or was left by a commit. -/
  reads : ∀ p bytes, ⟨p, .read path, .ok bytes⟩ ∈ trace → ∃ earlier, earlier <+: commits ∧
    Lineage (start.files.get? loc) earlier (some (.file bytes))
  missing : ∀ p, ⟨p, .read path, .error .notFound⟩ ∈ trace →
    start.files.fileLocation start.base path = .ok loc → start.files.get? loc = none
  loaded : ∀ p result, c.rest p = .done (.loaded result) →
    ∃ reply, ⟨p, .read path, reply⟩ ∈ trace ∧ result = Ledger.ofRead path reply

/-- **No update is lost.**  However many processes there are, and in whatever order they take their
steps: whoever is refused the lock leaves the ledger alone; and if there can be a file at the path,
it is what the last commit has left there, each commit was made on what the one before it has left,
and all that has been read was left by one of them.  If there can be none, nothing has been
committed. -/
theorem no_lost_update {path : Path} {tasks : ι → Task} {start : World} {trace : List (Event ι)}
    {c : Crowd ι} (h : Runs (initial path tasks start) trace c) :
    (∀ p timeout failure, ⟨p, .lock (LedgerLock.pathFor path) timeout, .error failure⟩ ∈ trace →
      ∀ e ∈ trace, e.who = p → ¬ Touches path e.op) ∧
    (∀ loc, c.world.files.fileLocation c.world.base path = .ok loc →
      ∃ commits, History path tasks start trace c loc commits) ∧
    ((∀ loc, c.world.files.fileLocation c.world.base path ≠ .ok loc) →
      ∀ e ∈ trace, e.mover? = none) := by
  have hstart : ∀ p, Follows path (fun call => (tasks p).Makes call) (Task.Ends path (tasks p))
      .outside ((initial path tasks start).rest p) :=
    fun p => Task.follows path (tasks p)
  obtain ⟨φ, hrun, hrest⟩ := h.follows hstart
  have horderly := hrun.orderly
  refine ⟨fun p timeout failure hmem => (horderly.refused p timeout failure hmem).2,
    fun loc hloc => ?_, fun hnone e he => ?_⟩
  · rw [hrun.base_eq] at hloc
    obtain ⟨d, name, hplace, -⟩ := FileTree.fileLocation_eq_ok.1 hloc
    obtain rfl := (FileTree.names_of_fileLocation hloc).eq_goal
    obtain ⟨commits, hkept⟩ := hrun.kept hplace
    refine ⟨commits, hkept.lineage (FileTree.not_directory_of_fileLocation hloc), hkept.movers,
      hkept.entitled, fun p outcome hp => ?_, hkept.reads, fun p hmem hstart => ?_,
      fun p result hp => ?_⟩
    · have hend := hrest p
      rw [hp] at hend
      cases hend with
      | done hend =>
        obtain ⟨call, hφ, -, hid⟩ := hend
        obtain ⟨commit, hcommit, hwho, rfl, hrecord⟩ :=
          hkept.done p call outcome.record (by rw [hφ]; rfl)
        exact ⟨commit, hcommit, hwho, hid, hrecord⟩
    · obtain ⟨d, name, hplace, -⟩ := FileTree.fileLocation_eq_ok.1 hstart
      exact hkept.missing p hmem ⟨d, name, hplace⟩
    · have hend := hrest p
      rw [hp] at hend
      cases hend with
      | done hend =>
        obtain ⟨reply, hφ, hresult⟩ := hend
        exact ⟨reply, horderly.seen p reply hφ, hresult⟩
  · by_contra hmover
    obtain ⟨loc, _, hloc, -⟩ := hrun.exists_file he hmover
    exact hnone loc hloc

/-- A process creates a record while another one is refused the lock; somebody reads before that,
and somebody afterwards. -/
theorem no_lost_update_created :
    let start := Invocation.opened ⟨⟨2021, 3, 1, by decide⟩, 0, 0, by decide, by decide⟩
    let settings : Settings := ⟨⟨"prs.json"⟩, "https://api.github.com", none, 2000⟩
    let tasks : Fin 4 → Task := fun p =>
      if p ≤ 1 then .create settings ⟨"acme", "widget", 42⟩ .empty else .load
    ∃ trace c, Runs (initial ⟨"prs.json"⟩ tasks start) trace c ∧
      ∃ commits, History ⟨"prs.json"⟩ tasks start trace c ["prs.json"] commits ∧
        commits.map Commit.who = [0] := by
  intro start settings tasks
  obtain ⟨played, hplay⟩ : ∃ played, played = (initial ⟨"prs.json"⟩ tasks start).play
    ([0, 1, 2, 0, 0, 1, 2] ++ List.replicate 13 0 ++ [3]) := ⟨_, rfl⟩
  have hplayed : (played.2.world.files.fileLocation played.2.world.base ⟨"prs.json"⟩).toOption =
      some ["prs.json"] ∧ played.1.filterMap Event.mover? = [0] := by
    rw [hplay]
    decide +kernel
  have hruns : Runs (initial ⟨"prs.json"⟩ tasks start) played.1 played.2 := by
    rw [hplay]
    exact runs_play _ _
  obtain ⟨commits, hhistory⟩ := (no_lost_update hruns).2.1 _ (eq_ok_of_toOption hplayed.1)
  exact ⟨played.1, played.2, hruns, commits, hhistory, hhistory.movers.trans hplayed.2⟩

end Crowd

end RepairLedger.Sharing
