import RepairLedger.Proofs.Command.Asking
import RepairLedger.Proofs.Sharing.Protocol

/-!
# Programs that keep to the protocol

A program follows the protocol from a phase on if, whatever is answered, each thing it asks for is a
move that it may make, and the next phase is one from which the rest follows the protocol
(`Follows`).  One lemma for each part of the cycle says where the part begins and where it ends:
taking the lock (`pursues_acquire`), reading (`pursues_load`), making the record (`pursues_begin`
and its like), writing and moving (`pursues_save`), and the whole change (`pursues_change`).

Only what is written under the lock needs a thought; everything else that is asked for is free.
-/

namespace RepairLedger.Sharing

open Host Attempt

variable {α β ε κ : Type} {path : Path} {may : Call → Prop} {φ : Phase}

/-- The program keeps to the protocol from the phase on, and its results fit the phases in which it
ends. -/
inductive Follows (path : Path) (may : Call → Prop) (post : Phase → α → Prop) :
    Phase → Program α → Prop
  | done {φ : Phase} {a : α} (h : post φ a) : Follows path may post φ (.done a)
  | ask {φ : Phase} {op : Op} {next : op.Reply → Program α} (ψ : op.Reply → Phase)
    (hm : ∀ reply, Moves path may φ op reply (ψ reply))
    (hn : ∀ reply, Follows path may post (ψ reply) (next reply)) :
    Follows path may post φ (.ask op next)

theorem Follows.bind {post : Phase → α → Prop} {post' : Phase → β → Prop} {p : Program α}
    {f : α → Program β} (hp : Follows path may post φ p)
    (hf : ∀ ψ a, post ψ a → Follows path may post' ψ (f a)) :
    Follows path may post' φ (p >>= f) := by
  induction hp with
  | done h => exact hf _ _ h
  | ask ψ hm _ ih => exact .ask ψ hm ih

theorem Follows.mono {post post' : Phase → α → Prop} {p : Program α}
    (hp : Follows path may post φ p) (h : ∀ ψ a, post ψ a → post' ψ a) :
    Follows path may post' φ p := by
  induction hp with
  | done hpost => exact .done (h _ _ hpost)
  | ask ψ hm _ ih => exact .ask ψ hm ih

theorem Follows.request (op : Op) {post : Phase → op.Reply → Prop}
    (h : ∀ reply, ∃ ψ, Moves path may φ op reply ψ ∧ post ψ reply) :
    Follows path may post φ (.request op) := by
  choose ψ hm hpost using h
  exact .ask ψ hm fun reply => .done (hpost reply)

/-- A program that asks for nothing that matters stays where it is. -/
theorem Follows.of_asks {P : Op → Prop} {p : Program α} (h : p.Asks P)
    (hP : ∀ op, P op → ∀ reply, Moves path may φ op reply φ) :
    Follows path may (fun ψ _ => ψ = φ) φ p := by
  induction h with
  | done a => exact .done rfl
  | ask hop _ ih => exact .ask (fun _ => φ) (hP _ hop) ih

/-! ### Attempts -/

/-- How an attempt ends: with a result, or with an error. -/
def Ends (Q : Phase → α → Prop) (E : Phase → Prop) (ψ : Phase) : Except ε α → Prop
  | .ok a => Q ψ a
  | .error _ => E ψ

/-- The attempt keeps to the protocol, and ends as it should. -/
def Pursues (path : Path) (may : Call → Prop) (Q : Phase → α → Prop) (E : Phase → Prop) (φ : Phase)
    (p : Attempt ε α) : Prop :=
  Follows path may (Ends Q E) φ (ExceptT.run p)

namespace Pursues

variable {Q : Phase → α → Prop} {R : Phase → β → Prop} {E E' : Phase → Prop}

theorem pure {a : α} (h : Q φ a) : Pursues path may Q E φ (pure a : Attempt ε α) :=
  show Follows path may (Ends Q E) φ (Program.done (Except.ok a)) from .done h

theorem throw {e : ε} (h : E φ) : Pursues path may Q E φ (throw e : Attempt ε α) :=
  show Follows path may (Ends Q E) φ (Program.done (Except.error e : Except ε α)) from .done h

theorem ask (op : Op) {Q : Phase → op.Reply → Prop}
    (h : ∀ reply, ∃ ψ, Moves path may φ op reply ψ ∧ Q ψ reply) :
    Pursues path may Q E φ (RepairLedger.ask op : Attempt ε op.Reply) :=
  (Follows.request op h).bind fun _ _ hq => .done hq

theorem bind {p : Attempt ε α} {f : α → Attempt ε β} (hp : Pursues path may Q E φ p)
    (hf : ∀ ψ a, Q ψ a → Pursues path may R E ψ (f a)) : Pursues path may R E φ (p >>= f) := by
  refine Follows.bind hp fun ψ result hresult => ?_
  cases result with
  | ok a => exact hf ψ a hresult
  | error e => exact throw hresult

/-- A failure may be said to end in more phases than it does. -/
theorem failing {p : Attempt ε α} (hp : Pursues path may Q E φ p) (hE : ∀ ψ, E ψ → E' ψ) :
    Pursues path may Q E' φ p := by
  refine Follows.mono hp fun ψ result hresult => ?_
  cases result with
  | ok a => exact hresult
  | error e => exact hE ψ hresult

theorem attempt {p : Program (Except κ α)} (hp : Follows path may (Ends Q E) φ p)
    (failed : κ → ε) : Pursues path may Q E φ (RepairLedger.attempt p failed) := by
  refine Follows.bind hp fun ψ result hresult => .done ?_
  cases result with
  | ok a => exact hresult
  | error e => exact hresult

theorem adapt {p : Attempt κ α} (hp : Pursues path may Q E φ p) (f : κ → ε) :
    Pursues path may Q E φ (ExceptT.adapt f p) := by
  refine Follows.bind hp fun ψ result hresult => .done ?_
  cases result with
  | ok a => exact hresult
  | error e => exact hresult

/-- An attempt that asks for nothing that matters. -/
theorem of_asks {P : Op → Prop} {p : Attempt ε α} (h : Attempt.Asks P p)
    (hP : ∀ op, P op → ∀ reply, Moves path may φ op reply φ) :
    Pursues path may (fun ψ _ => ψ = φ) (· = φ) φ p := by
  refine (Follows.of_asks h hP).mono fun ψ result hψ => ?_
  cases result with
  | ok a => exact hψ
  | error e => exact hψ

end Pursues

/-- The process does not have the lock, and has committed nothing. -/
def Phase.IsIdle (φ : Phase) : Prop :=
  φ.key? = none ∧ φ.done? = none

/-- The process has the lock, and has committed nothing. -/
def Phase.IsPending (key : Lock) (φ : Phase) : Prop :=
  φ.key? = some key ∧ φ.done? = none

/-- A lock that is given back on failure. -/
theorem Pursues.releasing {Q : Phase → α → Prop} {key : Lock} {use : Attempt ε α}
    (h : Pursues path may Q (Phase.IsPending key) φ use) :
    Pursues path may Q Phase.IsIdle φ (LedgerFile.releasing key use) := by
  refine Follows.bind h fun ψ result hresult => ?_
  cases result with
  | ok a => exact Pursues.pure hresult
  | error e =>
    have hunlock : Pursues path may (fun χ (_ : Unit) => χ = .gone none) Phase.IsIdle ψ
        (RepairLedger.ask (.unlock key) : Attempt ε Unit) :=
      .ask _ fun _ => ⟨.gone ψ.done?, .release hresult.1, congrArg Phase.gone hresult.2⟩
    exact Pursues.bind hunlock fun χ _ hχ => Pursues.throw (hχ ▸ ⟨rfl, rfl⟩)

/-! ### What is asked for in passing -/

/-- Whoever has the lock may look at the world and ask servers. -/
theorem Moves.inquire {key : Lock} (h : φ.key? = some key) {op : Op} (hop : Program.Inquires op)
    (reply : op.Reply) : Moves path may φ op reply φ := by
  cases op with
  | read => exact .reread h _ reply
  | kind | now | environment | workingDirectory | log | fetch => exact .free φ (by exact id) reply
  | _ => exact hop.elim

theorem isFree_log (event : Host.Event) : IsFree path (.log event) :=
  id

theorem pursues_log {E : Phase → Prop} (event : Host.Event) :
    Pursues path may (fun ψ _ => ψ = φ) E φ (ask (.log event) : Attempt ε Unit) :=
  .ask _ fun reply => ⟨φ, .free φ (isFree_log event) reply, rfl⟩

theorem pursues_createParent (p : Path) (failed : Failure → ε) :
    Pursues path may (fun ψ _ => ψ = φ) (· = φ) φ (attempt (createParent p) failed) :=
  have hfree : (createParent p).Asks (IsFree path) := asks_createParent (fun _ => id) fun _ _ => id
  .of_asks (.attempt hfree failed) fun _ hop reply => .free φ hop reply

/-! ### Reading -/

/-- Reading leads where the answer leads, and its result is what the answer says. -/
theorem follows_load {ψ : Except Failure Bytes → Phase}
    (h : ∀ reply, Moves path may φ (.read path) reply (ψ reply)) :
    Follows path may (fun χ result => ∃ reply, χ = ψ reply ∧ result = Ledger.ofRead path reply) φ
      (ExceptT.run (Ledger.load path)) := by
  have hlog : ∀ {reply} (event : Host.Event) (l : Ledger), Ledger.ofRead path reply = .ok l →
      Follows path may (fun χ result => ∃ reply, χ = ψ reply ∧ result = Ledger.ofRead path reply)
        (ψ reply) (ExceptT.run (do ask (.log event); return l : Attempt LedgerError Ledger)) :=
    fun event l hl =>
      .ask _ (fun _ => .free _ (isFree_log event) _) fun _ => .done ⟨_, rfl, hl.symm⟩
  unfold Ledger.load
  rw [ExceptT.run_bind]
  refine .ask ψ h fun reply => ?_
  change Follows path may _ _ (ExceptT.run _)
  dsimp only
  split
  · exact hlog _ _ rfl
  · rename_i cause hcause
    refine .done ⟨_, rfl, ?_⟩
    cases cause with
    | notFound => exact absurd rfl hcause
    | _ => rfl
  · split
    · rename_i hbytes
      exact .done ⟨_, rfl, (mapError_eq_error.2 ⟨_, hbytes, rfl⟩).symm⟩
    · rename_i hbytes
      exact hlog _ _ (mapError_eq_ok.2 hbytes)

/-- Reading under the lock. -/
theorem pursues_load (key : Lock) :
    Pursues path may (fun ψ l => ψ = .loaded key l) (· = .locked key) (.locked key)
      (Ledger.load path) := by
  have hmoves : ∀ reply, ∃ ψ, Moves path may (.locked key) (.read path) reply ψ ∧
      Ends (fun ψ l => ψ = .loaded key l) (· = .locked key) ψ (Ledger.ofRead path reply) := by
    intro reply
    cases hl : Ledger.ofRead path reply with
    | ok l => exact ⟨.loaded key l, .load hl, rfl⟩
    | error e => exact ⟨.locked key, .reread rfl path reply, rfl⟩
  choose ψ hm hends using hmoves
  refine (follows_load hm).mono ?_
  rintro χ result ⟨reply, rfl, rfl⟩
  exact hends reply

/-! ### The lock -/

/-- Taking the lock. -/
theorem pursues_lock (timeout : Span) :
    Pursues path may (fun ψ key => ψ = .locked key) Phase.IsIdle .outside
      (LedgerLock.acquire (LedgerLock.pathFor path) timeout) := by
  have hidle : Phase.IsIdle .outside := ⟨rfl, rfl⟩
  refine .bind ((pursues_createParent _ _).failing fun _ h => h ▸ hidle) ?_
  rintro ψ _ rfl
  -- The answer decides whether the process has the lock or is done.
  have hlock : Pursues path may
      (fun ψ (reply : Except LockFailure Lock) => match reply with
        | .ok key => ψ = .locked key
        | .error _ => ψ = .gone none) Phase.IsIdle .outside
      (ask (.lock (LedgerLock.pathFor path) timeout) : Attempt LedgerError _) := by
    refine .ask (.lock _ _) fun reply => ?_
    cases reply with
    | ok key => exact ⟨_, .take timeout key, rfl⟩
    | error failure => exact ⟨_, .refuse timeout failure, rfl⟩
  have hgone : Phase.IsIdle (.gone none) := ⟨rfl, rfl⟩
  refine .bind hlock fun ψ reply hreply => ?_
  split
  · refine .bind (pursues_log _) ?_
    rintro χ _ rfl
    exact .pure hreply
  · exact .throw (hreply ▸ hgone)
  · refine .bind (pursues_log _) ?_
    rintro χ _ rfl
    exact .throw (hreply ▸ hgone)

/-- Taking the lock and reading. -/
theorem pursues_acquire (timeout : Span) :
    Pursues path may (fun ψ f => ψ = .loaded f.lock f.ledger ∧ f.path = path) Phase.IsIdle .outside
      (LedgerFile.acquire path timeout) := by
  refine .bind (pursues_lock timeout) ?_
  rintro ψ key rfl
  refine .bind (.releasing ((pursues_load key).failing ?_)) ?_
  · rintro ψ rfl
    exact ⟨rfl, rfl⟩
  · rintro ψ l rfl
    exact .pure ⟨rfl, rfl⟩

/-! ### Writing -/

section Writing

variable {key : Lock} {l : Ledger} {c : Call} {record : Record}

/-- Writing the new ledger and moving it into the place of the old one. -/
theorem pursues_save (hc : may c) (h : l.perform c = .ok record) :
    Pursues path may (fun ψ _ => ψ = .moved key c record) (Phase.IsPending key) (.loaded key l)
      ((l.upsert c.id record).save path) := by
  refine .bind ((pursues_createParent _ _).failing ?_) ?_
  · rintro ψ rfl
    exact ⟨rfl, rfl⟩
  rintro ψ _ rfl
  refine .bind (Q := fun ψ _ => ψ = .written key l c record)
    (.attempt (.request (.write _ _) fun reply => ?_) _) ?_
  · cases reply with
    | ok => exact ⟨_, .write hc h, rfl⟩
    | error cause => exact ⟨_, .failToWrite key l _ cause, rfl, rfl⟩
  rintro ψ _ rfl
  refine .bind (Q := fun ψ _ => ψ = .moved key c record)
    (.attempt (.request (.rename _ _) fun reply => ?_) _) ?_
  · cases reply with
    | ok => exact ⟨_, .move key l c record, rfl⟩
    | error cause => exact ⟨_, .failToMove key l c record cause, rfl, rfl⟩
  rintro ψ _ rfl
  exact pursues_log _

/-- Writing the ledger and giving the lock back. -/
theorem pursues_commit {f : LedgerFile} (hf : f.path = path) (hc : may c)
    (h : f.ledger.perform c = .ok record) :
    Pursues path may (fun ψ _ => ψ = .gone (some (c, record))) Phase.IsIdle
      (.loaded f.lock f.ledger) (f.commit c.id record) := by
  subst hf
  refine .bind (.releasing (pursues_save hc h)) ?_
  rintro ψ _ rfl
  refine .bind (Q := fun ψ _ => ψ = .gone (some (c, record))) (.ask (.unlock _) fun _ => ?_) ?_
  · exact ⟨_, .release rfl, rfl⟩
  rintro ψ _ rfl
  exact .pure rfl

end Writing

/-! ### Changes -/

/-- The record is what the ledger makes of a call on the pull request that may be made. -/
def Gives (may : Call → Prop) (l : Ledger) (id : PullId) (record : Record) : Prop :=
  ∃ c, may c ∧ c.id = id ∧ l.perform c = .ok record

section Changes

variable {key : Lock} {settings : Settings} {id : PullId} {l : Ledger}

/-- What is asked of servers and files before the ledger is written is asked under the lock, and
leads nowhere else. -/
theorem Pursues.inquiring {Q : Phase → β → Prop} {p : Attempt ε α} {f : α → Attempt ε β}
    (hp : Asks Program.Inquires p)
    (hf : ∀ a, Pursues path may Q (· = .loaded key l) (.loaded key l) (f a)) :
    Pursues path may Q (· = .loaded key l) (.loaded key l) (p >>= f) := by
  refine .bind (.of_asks hp fun _ hop reply => .inquire rfl hop reply) ?_
  rintro ψ a rfl
  exact hf a

theorem pursues_orRefuse {result : Except LedgerError α} :
    Pursues path may (fun ψ a => ψ = φ ∧ result = .ok a) (· = φ) φ (Job.orRefuse result) := by
  cases result with
  | ok a => exact .pure ⟨rfl, rfl⟩
  | error e => exact .throw rfl

theorem pursues_begin {statistics : Statistics}
    (hmay : ∀ capture now, capture.statistics = statistics → may ⟨id, .create capture, now⟩) :
    Pursues path may (fun ψ record => ψ = .loaded key l ∧ Gives may l id record)
      (· = .loaded key l) (.loaded key l) (Job.begin settings id statistics l) := by
  have hcapture : Pursues path may
      (fun ψ capture => ψ = .loaded key l ∧ capture.statistics = statistics) (· = .loaded key l)
      (.loaded key l) (Job.refusing ((GitHub.source settings).captureInitial id statistics)) := by
    refine .adapt (Follows.bind (.of_asks (GitHub.inquires_capture settings id)
      fun _ hop reply => .inquire rfl hop reply) ?_) _
    rintro ψ result rfl
    cases result with
    | ok capture => exact .done ⟨rfl, rfl⟩
    | error e => exact .done rfl
  refine .bind hcapture ?_
  rintro ψ capture ⟨rfl, hstatistics⟩
  refine .inquiring (Job.inquires_logRecord _ _ _ _) fun _ => ?_
  refine .inquiring (.ask trivial) fun now => ?_
  refine .bind pursues_orRefuse ?_
  rintro ψ record ⟨rfl, hrecord⟩
  refine .inquiring (Job.inquires_logRecord _ _ _ _) fun _ => ?_
  exact .pure ⟨rfl, _, hmay capture now hstatistics, rfl, hrecord⟩

theorem pursues_finish (hmay : ∀ capture now, may ⟨id, .finalize capture, now⟩) :
    Pursues path may (fun ψ record => ψ = .loaded key l ∧ Gives may l id record)
      (· = .loaded key l) (.loaded key l) (Job.finish settings id l) := by
  refine .inquiring (Job.asks_refusing (GitHub.inquires_capture _ _)) fun capture => ?_
  refine .inquiring (Job.inquires_logRecord _ _ _ _) fun _ => ?_
  refine .inquiring (.ask trivial) fun now => ?_
  refine .bind pursues_orRefuse ?_
  rintro ψ record ⟨rfl, hrecord⟩
  -- Whether there is a warning or not, the record that was made is the result.
  have hlast : Pursues path may (fun ψ record => ψ = .loaded key l ∧ Gives may l id record)
      (· = .loaded key l) (.loaded key l) (do
        Job.logRecord .info "finalized record" id []
        return record : Job Record) := by
    refine .inquiring (Job.inquires_logRecord _ _ _ _) fun _ => ?_
    exact .pure ⟨rfl, _, hmay capture now, rfl, hrecord⟩
  split
  · exact .inquiring (Job.inquires_logRecord _ _ _ _) fun _ => hlast
  · exact hlast

theorem pursues_annotate {diffPath : Path} {reason : String} {moment : EditMoment}
    (hmay : ∀ diff now, may ⟨id, .annotate ⟨moment, reason, diff⟩, now⟩) :
    Pursues path may (fun ψ record => ψ = .loaded key l ∧ Gives may l id record)
      (· = .loaded key l) (.loaded key l) (Job.annotate diffPath reason id moment l) := by
  refine .inquiring ((Job.looks_readText _ _).mono fun _ => Program.Looks.inquires) fun diff => ?_
  refine .inquiring (.ask trivial) fun now => ?_
  refine .bind pursues_orRefuse ?_
  rintro ψ record ⟨rfl, hrecord⟩
  refine .inquiring (Job.inquires_logRecord _ _ _ _) fun _ => ?_
  exact .pure ⟨rfl, _, hmay diff now, rfl, hrecord⟩

/-- **A change keeps to the protocol.**  It ends with a commit, or with an error and without one. -/
theorem pursues_change {operation : Operation} {make : Ledger → Job Record}
    (hmake : ∀ key l, Pursues settings.ledgerPath may
      (fun ψ record => ψ = .loaded key l ∧ Gives may l id record) (· = .loaded key l)
      (.loaded key l) (make l)) :
    Pursues settings.ledgerPath may
      (fun ψ outcome => ∃ c, ψ = .gone (some (c, outcome.record)) ∧ may c ∧ c.id = outcome.id)
      Phase.IsIdle .outside (Job.change settings operation id make) := by
  refine .bind (.adapt (pursues_acquire _) _) ?_
  rintro ψ f ⟨rfl, hpath⟩
  have hrecord : Pursues settings.ledgerPath may
      (fun ψ record => ψ = .loaded f.lock f.ledger ∧ Gives may f.ledger id record) Phase.IsIdle
      (.loaded f.lock f.ledger) (LedgerFile.releasing f.lock do
        Job.orRefuse (operation.check f.ledger id)
        make f.ledger) := by
    refine .releasing ((Pursues.bind pursues_orRefuse ?_).failing ?_)
    · rintro ψ _ ⟨rfl, -⟩
      exact hmake f.lock f.ledger
    · rintro ψ rfl
      exact ⟨rfl, rfl⟩
  refine .bind hrecord ?_
  rintro ψ record ⟨rfl, c, hc, rfl, hperform⟩
  refine .bind (.adapt (pursues_commit hpath hc hperform) _) ?_
  rintro ψ _ rfl
  exact .pure ⟨c, rfl, hc, rfl⟩

end Changes

end RepairLedger.Sharing
