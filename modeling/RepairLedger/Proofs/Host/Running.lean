import RepairLedger.Command.Log
import RepairLedger.Host.World
import RepairLedger.Ledger.File
import RepairLedger.Proofs.Result

/-!
# Running programs

Two ways to say what a program does to a world.  By what it asks for: what every permitted
operation keeps is kept by a program that asks for nothing else (`Program.Asks.run`).  And by its
result: an attempt that is made of two gives the result of the second, or the error of the first
(`Attempt.runIn_bind_ok`, `Attempt.runIn_bind_error`).

Writing a log only adds to what is printed on the channel for errors (`Program.run_logging`).
-/

namespace RepairLedger

open Host

/-- A world without files, in which a server gives some answers one after the other. -/
def Host.World.empty (clock : Instant) (answers : List (ConnectionFailure ⊕ Response))
    (h : clock.IsRegular := by decide) : World where
  files := ⟨[]⟩
  base := []
  locks := []
  environment := []
  clock := ⟨clock, h⟩
  network := .scripted answers
  requests := []
  output := ""
  complaints := ""

namespace Host.Program

variable {α β : Type} {P : Op → Prop}

/-- The program asks only for what is permitted, whatever the replies are. -/
inductive Asks (P : Op → Prop) : Program α → Prop
  | done (a : α) : Asks P (done a)
  | ask {op : Op} {next : op.Reply → Program α} (h : P op) (rest : ∀ reply, Asks P (next reply)) :
    Asks P (ask op next)

theorem Asks.pure (a : α) : (pure a : Program α).Asks P :=
  .done a

theorem Asks.request {op : Op} (h : P op) : (request op).Asks P :=
  .ask h fun reply => .done reply

theorem Asks.bind {p : Program α} {f : α → Program β} (hp : p.Asks P)
    (hf : ∀ a, (f a).Asks P) : (p >>= f).Asks P := by
  induction hp with
  | done a => exact hf a
  | ask h _ ih => exact .ask h ih

theorem Asks.mono {Q : Op → Prop} {p : Program α} (h : p.Asks P) (hPQ : ∀ op, P op → Q op) :
    p.Asks Q := by
  induction h with
  | done a => exact .done a
  | ask h _ ih => exact .ask (hPQ _ h) ih

/-- What each permitted operation keeps, the whole program keeps. -/
theorem Asks.run {R : World → World → Prop} (hrefl : ∀ w, R w w)
    (htrans : ∀ {u v w}, R u v → R v w → R u w)
    (hstep : ∀ op, P op → ∀ w, R w (w.perform op).2) {p : Program α} (h : p.Asks P)
    (w : World) : R w (p.run w).2 := by
  induction h generalizing w with
  | done a => exact hrefl w
  | ask h _ ih => exact htrans (hstep _ h w) (ih _ _)

/-- The operations that only look at a world. -/
def Looks : Op → Prop
  | .read _ | .kind _ | .now | .environment _ | .workingDirectory | .log _ => True
  | _ => False

/-- A program that only looks at a world leaves it as it is. -/
theorem Asks.world_eq {p : Program α} (h : p.Asks Looks) (w : World) : (p.run w).2 = w := by
  refine h.run (R := fun w v => v = w) (fun _ => rfl) (fun h h' => h'.trans h) ?_ w
  intro op hop w
  cases op with
  | read | kind | now | environment | workingDirectory | log => rfl
  | _ => exact hop.elim

/-- The operations that print nothing. -/
def IsMute : Op → Prop
  | .print _ | .complain _ => False
  | _ => True

theorem Looks.isMute {op : Op} (h : Looks op) : IsMute op := by
  cases op with
  | print | complain => exact h
  | _ => trivial

/-- A program that asks for nothing to be printed prints nothing. -/
theorem Asks.output_eq {p : Program α} (h : p.Asks IsMute) (w : World) :
    (p.run w).2.output = w.output ∧ (p.run w).2.complaints = w.complaints := by
  refine h.run (R := fun w v => v.output = w.output ∧ v.complaints = w.complaints)
    (fun _ => ⟨rfl, rfl⟩) (fun h h' => ⟨h'.1.trans h.1, h'.2.trans h.2⟩) ?_ w
  intro op hop w
  cases op with
  | print | complain => exact hop.elim
  | write | makeDirectory =>
    simp only [World.perform, World.change]
    split <;> exact ⟨rfl, rfl⟩
  | rename =>
    simp only [World.perform, World.rename]
    split <;> exact ⟨rfl, rfl⟩
  | lock =>
    simp only [World.perform, World.lock]
    split
    · exact ⟨rfl, rfl⟩
    · split <;> exact ⟨rfl, rfl⟩
  | _ => exact ⟨rfl, rfl⟩

/-! ### The log -/

/-- What has been printed on the channel for errors decides nothing. -/
theorem perform_complaints (w : World) (text : String) (op : Op) :
    ∃ text', ({ w with complaints := text } : World).perform op =
      ((w.perform op).1, { (w.perform op).2 with complaints := text' }) := by
  cases op with
  | write path bytes =>
    refine ⟨text, ?_⟩
    simp only [World.perform, World.change]
    split <;> rfl
  | makeDirectory path =>
    refine ⟨text, ?_⟩
    simp only [World.perform, World.change]
    split <;> rfl
  | rename source target =>
    refine ⟨text, ?_⟩
    simp only [World.perform, World.rename]
    split <;> rfl
  | lock path timeout =>
    refine ⟨text, ?_⟩
    simp only [World.perform, World.lock, World.freshLock]
    split
    · rfl
    · split <;> rfl
  | complain more => exact ⟨text ++ more, rfl⟩
  | _ => exact ⟨text, rfl⟩

theorem run_logging_from (log : Log) (p : Program α) (w : World) (text : String) :
    ∃ text', (p.logging log).run { w with complaints := text } =
      ((p.run w).1, { (p.run w).2 with complaints := text' }) := by
  induction p generalizing w text with
  | done a => exact ⟨text, rfl⟩
  | ask op next ih =>
    -- What is not logged is asked for as before.
    have hother : ∃ text', (Program.ask op fun reply => (next reply).logging log).run
        { w with complaints := text } =
          (((ask op next).run w).1, { ((ask op next).run w).2 with complaints := text' }) := by
      obtain ⟨text₁, h₁⟩ := perform_complaints w text op
      obtain ⟨text₂, h₂⟩ := ih (w.perform op).1 (w.perform op).2 text₁
      exact ⟨text₂, by rw [run, h₁]; exact h₂⟩
    cases op with
    | log event =>
      rw [logging]
      split
      · exact ih () w _
      · exact ih () w text
    | _ => exact hother

/-- A log changes nothing but what is printed on the channel for errors. -/
theorem run_logging (log : Log) (p : Program α) (w : World) :
    ∃ text, (p.logging log).run w = ((p.run w).1, { (p.run w).2 with complaints := text }) :=
  run_logging_from log p w w.complaints

/-- The log of two programs one after the other is that of both. -/
theorem logging_bind {β : Type} (log : Log) (p : Program α) (f : α → Program β) :
    (p >>= f).logging log = p.logging log >>= fun a => (f a).logging log := by
  induction p with
  | done a => rfl
  | ask op next ih =>
    have hother : (Program.ask op fun reply => (next reply >>= f).logging log) =
        (Program.ask op fun reply => (next reply).logging log >>= fun a => (f a).logging log) :=
      congrArg (Program.ask op) (funext ih)
    cases op with
    | log event =>
      show ((Program.ask (.log event) fun reply => next reply >>= f).logging log) = _
      rw [logging, logging]
      split
      · rw [ih]
        rfl
      · exact ih ()
    | _ => exact hother

/-- A log that shows nothing changes nothing at all. -/
theorem run_logging_of_silent {log : Log} (h : ∀ event, log.filter.shows event = false)
    (p : Program α) (w : World) : (p.logging log).run w = p.run w := by
  induction p generalizing w with
  | done a => rfl
  | ask op next ih =>
    cases op with
    | log event =>
      rw [logging, h, if_neg Bool.false_ne_true]
      exact ih () w
    | _ => exact ih _ _

end Host.Program

/-! ### Attempts -/

namespace Attempt

variable {ε κ α β : Type} {P : Op → Prop} {w v : World}

/-- Makes an attempt in a world. -/
def runIn (p : Attempt ε α) (w : World) : Except ε α × World :=
  Program.run (ExceptT.run p) w

@[simp] theorem runIn_pure (a : α) : runIn (pure a : Attempt ε α) w = (.ok a, w) := rfl

@[simp] theorem runIn_throw (e : ε) : runIn (throw e : Attempt ε α) w = (.error e, w) := rfl

theorem runIn_ask (op : Op) :
    runIn (ask op : Attempt ε op.Reply) w = (.ok (w.perform op).1, (w.perform op).2) := rfl

theorem runIn_bind (p : Attempt ε α) (f : α → Attempt ε β) :
    runIn (p >>= f) w =
      match runIn p w with
      | (.ok a, v) => runIn (f a) v
      | (.error e, v) => (.error e, v) := by
  unfold runIn
  rw [ExceptT.run_bind, Program.run_bind]
  rcases (Program.run (ExceptT.run p) w) with ⟨_ | _, _⟩ <;> rfl

/-- An attempt of two succeeds if both do. -/
theorem runIn_bind_ok {p : Attempt ε α} {f : α → Attempt ε β} {b : β} :
    runIn (p >>= f) w = (.ok b, v) ↔
      ∃ a u, runIn p w = (.ok a, u) ∧ runIn (f a) u = (.ok b, v) := by
  rw [runIn_bind]
  rcases runIn p w with ⟨_ | a, u⟩
  · constructor
    · rintro ⟨⟩
    · rintro ⟨_, _, ⟨⟩, _⟩
  · constructor
    · intro h
      exact ⟨a, u, rfl, h⟩
    · rintro ⟨_, _, ⟨⟩, h⟩
      exact h

/-- An attempt of two fails if one of them does. -/
theorem runIn_bind_error {p : Attempt ε α} {f : α → Attempt ε β} {e : ε} :
    runIn (p >>= f) w = (.error e, v) ↔
      runIn p w = (.error e, v) ∨
        ∃ a u, runIn p w = (.ok a, u) ∧ runIn (f a) u = (.error e, v) := by
  rw [runIn_bind]
  rcases runIn p w with ⟨e' | a, u⟩
  · constructor
    · rintro ⟨⟩
      exact .inl rfl
    · rintro (⟨⟨⟩⟩ | ⟨_, _, ⟨⟩, _⟩)
      rfl
  · constructor
    · intro h
      exact .inr ⟨a, u, rfl, h⟩
    · rintro (⟨⟨⟩⟩ | ⟨_, _, ⟨⟩, h⟩)
      exact h

theorem runIn_attempt (reply : Program (Except κ α)) (failed : κ → ε) :
    runIn (attempt reply failed) w = ((reply.run w).1.mapError failed, (reply.run w).2) := by
  unfold runIn attempt
  exact Program.run_bind _ _ w

theorem runIn_attempt_ok {reply : Program (Except κ α)} {failed : κ → ε} {a : α} :
    runIn (attempt reply failed) w = (.ok a, v) ↔ reply.run w = (.ok a, v) := by
  rw [runIn_attempt, Prod.mk.injEq, mapError_eq_ok, Prod.ext_iff]

theorem runIn_attempt_error {reply : Program (Except κ α)} {failed : κ → ε} {e : ε} :
    runIn (attempt reply failed) w = (.error e, v) ↔
      ∃ k, reply.run w = (.error k, v) ∧ failed k = e := by
  simp only [runIn_attempt, Prod.ext_iff, mapError_eq_error, exists_and_right, and_right_comm]

theorem runIn_adapt (f : κ → ε) (p : Attempt κ α) :
    runIn (ExceptT.adapt f p) w = ((runIn p w).1.mapError f, (runIn p w).2) := by
  unfold runIn
  exact Program.run_bind _ _ w

theorem runIn_adapt_ok {p : Attempt κ α} {f : κ → ε} {a : α} :
    runIn (ExceptT.adapt f p) w = (.ok a, v) ↔ runIn p w = (.ok a, v) := by
  rw [runIn_adapt, Prod.mk.injEq, mapError_eq_ok, Prod.ext_iff]

theorem runIn_adapt_error {p : Attempt κ α} {f : κ → ε} {e : ε} :
    runIn (ExceptT.adapt f p) w = (.error e, v) ↔ ∃ k, runIn p w = (.error k, v) ∧ f k = e := by
  simp only [runIn_adapt, Prod.ext_iff, mapError_eq_error, exists_and_right, and_right_comm]

/-- A lock is given back only on failure, and the failure stays what it was. -/
theorem runIn_releasing (lock : Lock) (use : Attempt ε α) :
    runIn (LedgerFile.releasing lock use) w =
      match runIn use w with
      | (.ok a, v) => (.ok a, v)
      | (.error e, v) => (.error e, (v.perform (.unlock lock)).2) := by
  have htry : ExceptT.run (LedgerFile.releasing lock use) = ExceptT.run use >>= fun
      | .ok a => pure (.ok a)
      | .error e => ExceptT.run (do ask (.unlock lock); throw e : Attempt ε α) := rfl
  unfold runIn
  rw [htry, Program.run_bind]
  rcases (Program.run (ExceptT.run use) w) with ⟨_ | _, _⟩ <;> rfl

theorem runIn_releasing_ok {lock : Lock} {use : Attempt ε α} {a : α} :
    runIn (LedgerFile.releasing lock use) w = (.ok a, v) ↔ runIn use w = (.ok a, v) := by
  rw [runIn_releasing]
  rcases runIn use w with ⟨_ | _, _⟩ <;> simp

/-! ### What attempts ask for -/

/-- The attempt asks only for what is permitted. -/
def Asks (P : Op → Prop) (p : Attempt ε α) : Prop :=
  Program.Asks P (ExceptT.run p)

theorem Asks.pure (a : α) : Asks P (pure a : Attempt ε α) :=
  show Program.Asks P (Program.done (Except.ok a)) from Program.Asks.done _

theorem Asks.throw (e : ε) : Asks P (throw e : Attempt ε α) :=
  show Program.Asks P (Program.done (Except.error e : Except ε α)) from Program.Asks.done _

theorem Asks.ask {op : Op} (h : P op) : Asks P (RepairLedger.ask op : Attempt ε op.Reply) :=
  show Program.Asks P (Program.ask op fun reply => Program.done (Except.ok reply)) from
    Program.Asks.ask h fun _ => Program.Asks.done _

theorem Asks.bind {p : Attempt ε α} {f : α → Attempt ε β} (hp : Asks P p)
    (hf : ∀ a, Asks P (f a)) : Asks P (p >>= f) := by
  refine Program.Asks.bind hp fun result => ?_
  cases result with
  | ok a => exact hf a
  | error e => exact Asks.throw e

theorem Asks.mono {Q : Op → Prop} {p : Attempt ε α} (h : Asks P p) (hPQ : ∀ op, P op → Q op) :
    Asks Q p :=
  Program.Asks.mono h hPQ

/-- An attempt that only looks at a world ends in it. -/
theorem Asks.exists_runIn {p : Attempt ε α} (h : Asks Program.Looks p) (w : World) :
    ∃ r, runIn p w = (r, w) :=
  ⟨(runIn p w).1, Prod.ext rfl (Program.Asks.world_eq h w)⟩

/-- An attempt that asks for nothing to be printed prints nothing. -/
theorem Asks.output_eq {p : Attempt ε α} (h : Asks Program.IsMute p) {r : Except ε α}
    (hr : runIn p w = (r, v)) : v.output = w.output ∧ v.complaints = w.complaints := by
  have := Program.Asks.output_eq h w
  rwa [show (Program.run (ExceptT.run p) w) = (r, v) from hr] at this

theorem Asks.attempt {reply : Program (Except κ α)} (h : reply.Asks P) (failed : κ → ε) :
    Asks P (RepairLedger.attempt reply failed) :=
  Program.Asks.bind h fun result => Program.Asks.done (result.mapError failed)

theorem Asks.adapt {p : Attempt κ α} (h : Asks P p) (f : κ → ε) : Asks P (ExceptT.adapt f p) :=
  Program.Asks.bind h fun result => Program.Asks.done (result.mapError f)

theorem Asks.lift {p : Program α} (h : p.Asks P) : Asks P (ExceptT.lift p : Attempt ε α) :=
  Program.Asks.bind h fun a => Program.Asks.done (Except.ok a)

theorem Asks.releasing {lock : Lock} {use : Attempt ε α} (h : Asks P use)
    (hu : P (.unlock lock)) : Asks P (LedgerFile.releasing lock use) := by
  refine Program.Asks.bind h fun result => ?_
  cases result with
  | ok a => exact Asks.pure a
  | error e => exact Asks.bind (Asks.ask hu) fun _ => Asks.throw e

end Attempt

end RepairLedger
