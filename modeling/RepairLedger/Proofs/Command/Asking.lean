import RepairLedger.Command.Run
import RepairLedger.Proofs.Ledger.Saving

/-!
# What commands ask for

The steps of a command that judge its arguments and load its settings only look at the world
(`Job.looks_readStatistics`, `Job.looks_settingsFor`).  The steps that make a record may ask servers
as well (`Job.inquires_begin`, `Job.inquires_finish`, `Job.inquires_annotate`), so they change no
file (`Job.asks_begin`, `Job.asks_finish`, `Job.asks_annotate`).
-/

namespace RepairLedger

open Host Attempt

/-- The operations that look at a world or ask a server in it. -/
def Host.Program.Inquires : Op → Prop
  | .fetch _ => True
  | op => Program.Looks op

theorem Host.Program.Looks.inquires {op : Op} (h : Program.Looks op) : Program.Inquires op := by
  cases op with
  | fetch => trivial
  | _ => exact h

theorem Host.Program.Inquires.permits {files dirs : List Path} {op : Op} (h : Program.Inquires op) :
    Permits files dirs op := by
  cases op with
  | read | kind | now | environment | workingDirectory | log | fetch => trivial
  | _ => exact h.elim

theorem Host.Program.Inquires.isMute {op : Op} (h : Program.Inquires op) : Program.IsMute op := by
  cases op with
  | print | complain => exact h
  | _ => trivial

/-! ### Settings -/

namespace Settings

theorem looks_loadFile (path : Path) : Asks Program.Looks (loadFile path) := by
  unfold loadFile
  refine .bind (.ask trivial) fun kind => ?_
  split
  · exact .pure _
  · refine .bind (.ask trivial) fun reply => ?_
    split
    · exact .throw _
    · split
      · exact .throw _
      · split
        · exact .throw _
        · exact .pure _

theorem looks_directory? : directory?.Asks Program.Looks := by
  have hhome : directory?.ofHome.Asks Program.Looks := by
    refine .bind (.request trivial) fun reply => ?_
    split
    · exact .pure _
    · exact .pure _
  refine .bind (.request trivial) fun reply => ?_
  split
  · split
    · exact .pure _
    · exact hhome
  · exact hhome

theorem looks_loadUser : Asks Program.Looks loadUser := by
  refine .bind (.lift looks_directory?) fun directory => ?_
  split
  · exact .pure _
  · exact looks_loadFile _

theorem looks_loadEnvironment : loadEnvironment.Asks Program.Looks := by
  have hvalue : ∀ name, (value? name).Asks Program.Looks := fun name =>
    .bind (.request trivial) fun _ => .pure _
  exact .bind (hvalue _) fun _ => .bind (hvalue _) fun _ => .pure _

theorem looks_resolve (directory : Path) (command : CommandSettings) :
    Asks Program.Looks (resolve directory command) :=
  .bind (looks_loadFile _) fun _ =>
    .bind looks_loadUser fun _ => .bind (.lift looks_loadEnvironment) fun _ => .pure _

end Settings

/-! ### GitHub -/

namespace GitHub

theorem inquires_get (settings : Settings) (url accept : String) :
    Asks Program.Inquires (get settings url accept) := by
  unfold get
  refine .bind (.ask trivial) fun _ => ?_
  dsimp only
  split
  · exact .throw _
  · exact .throw _
  · split
    · exact .throw _
    · refine .bind (.ask trivial) fun reply => ?_
      split
      · exact .throw _
      · split
        · exact .throw _
        · exact .pure _

theorem inquires_fetchPull (settings : Settings) (id : PullId) :
    Asks Program.Inquires (fetchPull settings id) := by
  refine .bind (inquires_get _ _ _) fun response => ?_
  split
  · exact .throw _
  · exact .pure _

theorem inquires_fetchDiff (settings : Settings) (url : String) :
    Asks Program.Inquires (fetchDiff settings url) := by
  refine .bind (inquires_get _ _ _) fun response => ?_
  split
  · exact .throw _
  · exact .pure _

theorem inquires_capture (settings : Settings) (id : PullId) :
    ((source settings).capture id).Asks Program.Inquires := by
  refine .bind (inquires_fetchPull _ _) fun reply => ?_
  split
  · exact .pure _
  · refine .bind (inquires_fetchDiff _ _) fun reply => ?_
    split
    · exact .pure _
    · exact .pure _

theorem inquires_captureInitial (settings : Settings) (id : PullId) (statistics : Statistics) :
    ((source settings).captureInitial id statistics).Asks Program.Inquires := by
  refine .bind (inquires_capture _ _) fun reply => ?_
  split
  · exact .pure _
  · exact .pure _

end GitHub

/-! ### Steps of commands -/

namespace Job

variable {α : Type} {P : Op → Prop} {files dirs : List Path}

theorem asks_orRefuse (result : Except LedgerError α) : Asks P (orRefuse result) :=
  Program.Asks.pure _

theorem asks_refusing {tried : Attempt LedgerError α} (h : Asks P tried) :
    Asks P (refusing tried) :=
  .adapt h _

theorem looks_idOf (subject : Subject) : Asks Program.Looks (idOf subject) :=
  asks_orRefuse _

theorem looks_settingsFor (setting : Setting) (subject : Subject) :
    Asks Program.Looks (settingsFor setting subject) :=
  .adapt (Settings.looks_resolve _ _) _

theorem looks_readText (what : String) (path : Path) : Asks Program.Looks (readText what path) := by
  refine .bind (.ask trivial) fun reply => ?_
  split
  · exact .throw _
  · split
    · exact .throw _
    · exact .pure _

theorem looks_readStatistics (path : Option Path) : Asks Program.Looks (readStatistics path) := by
  cases path with
  | none => exact .pure _
  | some path => exact .bind (looks_readText _ path) fun text => asks_orRefuse _

theorem inquires_logRecord (level : Level) (message : String) (id : PullId)
    (fields : Json.Members) : Asks Program.Inquires (logRecord level message id fields) :=
  .ask trivial

theorem inquires_begin (settings : Settings) (id : PullId) (statistics : Statistics) (l : Ledger) :
    Asks Program.Inquires (begin settings id statistics l) :=
  .bind (asks_refusing (GitHub.inquires_captureInitial _ _ _)) fun _ =>
    .bind (inquires_logRecord _ _ _ _) fun _ => .bind (.ask trivial) fun _ =>
      .bind (asks_orRefuse _) fun _ => .bind (inquires_logRecord _ _ _ _) fun _ => .pure _

theorem inquires_finish (settings : Settings) (id : PullId) (l : Ledger) :
    Asks Program.Inquires (finish settings id l) := by
  refine .bind (asks_refusing (GitHub.inquires_capture _ _)) fun capture => ?_
  refine .bind (inquires_logRecord _ _ _ _) fun _ => .bind (.ask trivial) fun now => ?_
  refine .bind (asks_orRefuse _) fun record => ?_
  -- Both branches go on with the same last steps.
  have hlast : Asks Program.Inquires (do
      logRecord .info "finalized record" id []
      return record : Job Record) :=
    .bind (inquires_logRecord _ _ _ _) fun _ => .pure _
  split
  · exact .bind (inquires_logRecord _ _ _ _) fun _ => hlast
  · exact hlast

theorem inquires_annotate (diffPath : Path) (reason : String) (id : PullId) (moment : EditMoment)
    (l : Ledger) : Asks Program.Inquires (annotate diffPath reason id moment l) :=
  .bind ((looks_readText _ _).mono fun _ => Program.Looks.inquires) fun _ =>
    .bind (.ask trivial) fun _ => .bind (asks_orRefuse _) fun _ =>
      .bind (inquires_logRecord _ _ _ _) fun _ => .pure _

theorem asks_begin (settings : Settings) (id : PullId) (statistics : Statistics) (l : Ledger) :
    Asks (Permits files dirs) (begin settings id statistics l) :=
  (inquires_begin settings id statistics l).mono fun _ => Program.Inquires.permits

theorem asks_finish (settings : Settings) (id : PullId) (l : Ledger) :
    Asks (Permits files dirs) (finish settings id l) :=
  (inquires_finish settings id l).mono fun _ => Program.Inquires.permits

theorem asks_annotate (diffPath : Path) (reason : String) (id : PullId) (moment : EditMoment)
    (l : Ledger) : Asks (Permits files dirs) (annotate diffPath reason id moment l) :=
  (inquires_annotate diffPath reason id moment l).mono fun _ => Program.Inquires.permits

end Job

/-! ### Whole commands -/

section Whole

variable {P : Op → Prop} (hlooks : ∀ op, Program.Looks op → P op)
include hlooks

theorem Report.asks_writeFile {ledgerPath outputPath : Path}
    (hwrite : ∀ bytes, P (.write outputPath bytes)) :
    Asks P (writeFile ledgerPath outputPath) := by
  unfold writeFile
  refine .bind (.ask (hlooks _ trivial)) fun kind => ?_
  extract_lets rest
  have hrest : ∀ u, Asks P (rest u) := by
    intro u
    refine .bind (.adapt ((Ledger.looks_load _).mono hlooks) _) fun ledger => ?_
    split
    · exact .throw _
    · exact .bind (.attempt (.request (hwrite _)) _) fun _ =>
        .bind (.ask (hlooks _ trivial)) fun _ => .pure _
  split
  · exact .bind (.throw _) hrest
  · exact hrest ()

namespace Job

variable {setting : Setting} {operation : Operation} {subject : Subject}

omit hlooks in
theorem asks_announce (hprint : ∀ text, P (.print text)) (manner : Manner)
    (text : Style → String) : Asks P (announce manner text) := by
  unfold announce
  split
  · exact .ask (hprint _)
  · exact .pure _

theorem asks_change {settings : Settings} {id : PullId} {make : Ledger → Job Record}
    (hdirs : ∀ path, P (.makeDirectory path))
    (hlock : ∀ path timeout, P (.lock path timeout)) (hunlock : ∀ lock, P (.unlock lock))
    (hwrite : ∀ path bytes, P (.write path bytes))
    (hmove : ∀ source target, P (.rename source target)) (hm : ∀ l, Asks P (make l)) :
    Asks P (change settings operation id make) := by
  refine .bind (asks_refusing (LedgerFile.asks_acquire hlooks (fun _ _ => hdirs _) (hlock _ _)
    hunlock)) fun f => ?_
  refine .bind (.releasing (.bind (asks_orRefuse _) fun _ => hm f.ledger) (hunlock _))
    fun record => ?_
  exact .bind (asks_refusing (LedgerFile.asks_commit hlooks (fun _ _ => hdirs _)
    (fun _ => hwrite _ _) (hmove _ _) (hunlock _) _ _)) fun _ => .pure _

theorem asks_describe (hprint : ∀ text, P (.print text)) :
    Asks P (describe setting subject) :=
  .bind ((looks_idOf subject).mono hlooks) fun _ =>
    .bind ((looks_settingsFor setting subject).mono hlooks) fun _ =>
      .bind (asks_refusing ((Ledger.looks_load _).mono hlooks)) fun _ =>
        .bind (asks_orRefuse _) fun _ => .ask (hprint _)

end Job

end Whole

end RepairLedger
