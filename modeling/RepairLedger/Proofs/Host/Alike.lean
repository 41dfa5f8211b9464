import RepairLedger.Proofs.Host.Deeds

/-!
# Runs that can hardly be told apart

Two runs of programs are compared step by step.  A `View` says what the two runs may ask for, how
far the replies to them may differ, and how far the requests may that they send.  Programs are alike
under a view (`Program.Alike`) if they ask for the same things as long as the replies do not differ
by more, and only their requests may differ.

Worlds are put amid an `Outside`: a clock and a server that have a state of their own, so that they
may answer in any way at all.  If all permitted operations keep two worlds related, whole runs of
alike programs do (`Program.Alike.runAmid`).
-/

namespace RepairLedger

namespace Host

/-! ### Clocks and servers -/

/-- What a program meets beside its world: a clock and a server, which go on from state to state. -/
structure Outside (σ : Type) where
  time : σ → Instant × σ
  answer : σ → Request → Except ConnectionFailure Response × σ
  /-- Do the requests come to the server? -/
  reached : Bool

/-- The request without what says who asks. -/
def Request.anonymous (r : Request) : Request :=
  { r with authorization := none }

namespace Outside

variable {σ : Type}

/-- The server does not look at who asks. -/
def IsBlind (o : Outside σ) : Prop :=
  ∀ s r r', Request.anonymous r = Request.anonymous r' → o.answer s r = o.answer s r'

/-- A world and what it is amid answer an operation. -/
def perform (o : Outside σ) (x : World × σ) : (op : Op) → op.Reply × (World × σ)
  | .now => ((o.time x.2).1, (x.1, (o.time x.2).2))
  | .fetch request =>
    let requests := if o.reached then x.1.requests ++ [request] else x.1.requests
    ((o.answer x.2 request).1, ({ x.1 with requests }, (o.answer x.2 request).2))
  | op => ((x.1.perform op).1, ((x.1.perform op).2, x.2))

end Outside

/-- The clock that stands still and the network, as a world has them; their state is the number of
requests that have come to a server. -/
def World.outside (w : World) : Outside Nat where
  time n := (w.clock, n)
  answer n request :=
    (w.network.answer n request, if w.network.reaches then n + 1 else n)
  reached := w.network.reaches

theorem World.isBlind_outside (w : World) : w.outside.IsBlind := by
  intro n r r' h
  have hurl : r.url = r'.url := (Request.mk.inj h).1
  cases hw : w.network <;> simp [World.outside, Network.answer, hw, hurl]

namespace Program

variable {α β γ δ σ : Type}

/-- Runs a program in a world amid a clock and a server. -/
def runAmid (o : Outside σ) : Program α → World × σ → α × (World × σ)
  | done a, x => (a, x)
  | ask op next, x => (next (o.perform x op).1).runAmid o (o.perform x op).2

theorem runAmid_bind (o : Outside σ) (p : Program α) (f : α → Program β) (x : World × σ) :
    (p >>= f).runAmid o x = (f (p.runAmid o x).1).runAmid o (p.runAmid o x).2 := by
  induction p generalizing x with
  | done a => rfl
  | ask op next ih => exact ih _ _

/-- A run in a world is a run amid what the world has. -/
theorem runAmid_outside (p : Program α) (w : World) :
    p.runAmid w.outside (w, w.requests.length) =
      ((p.run w).1, ((p.run w).2, (p.run w).2.requests.length)) := by
  induction p generalizing w with
  | done a => rfl
  | ask op next ih =>
    -- No operation touches the clock or the network.
    have hsame : (w.perform op).2.outside = w.outside := by
      have hkept : (w.perform op).2.clock = w.clock ∧ (w.perform op).2.network = w.network := by
        cases op with
        | write | makeDirectory =>
          simp only [World.perform, World.change]
          split <;> exact ⟨rfl, rfl⟩
        | rename =>
          simp only [World.perform, World.rename]
          split <;> exact ⟨rfl, rfl⟩
        | lock =>
          simp only [World.perform, World.lock]
          split
          · exact ⟨rfl, rfl⟩
          · split <;> exact ⟨rfl, rfl⟩
        | _ => exact ⟨rfl, rfl⟩
      simp only [World.outside, hkept]
    have hstep : w.outside.perform (w, w.requests.length) op =
        ((w.perform op).1, ((w.perform op).2, (w.perform op).2.requests.length)) := by
      cases op with
      | fetch request => cases hr : w.network.reaches <;>
          simp [Outside.perform, World.outside, World.perform, hr]
      | write | makeDirectory =>
        simp only [Outside.perform, World.perform, World.change]
        split <;> rfl
      | rename =>
        simp only [Outside.perform, World.perform, World.rename]
        split <;> rfl
      | lock =>
        simp only [Outside.perform, World.perform, World.lock]
        split
        · rfl
        · split <;> rfl
      | _ => rfl
    rw [runAmid, hstep, ← hsame]
    exact ih (w.perform op).1 (w.perform op).2

end Program

/-! ### Programs -/

/-- How far two runs may differ in what they get to see and in what they ask of servers. -/
structure View where
  permits : Op → Prop
  replies : (op : Op) → op.Reply → op.Reply → Prop
  requests : Request → Request → Prop
  /-- Do the errors agree? -/
  strict : Prop

/-- Both runs may ask for this, and they get to see the same. -/
def View.Shares (V : View) (op : Op) : Prop :=
  V.permits op ∧ ∀ x y, V.replies op x y → x = y

namespace Program

variable {α β γ δ σ : Type} {V : View}

/-- The programs ask for the same things as long as the replies do not differ by more than the view
allows, but for their requests, and their results are related. -/
inductive Alike (V : View) (R : α → β → Prop) : Program α → Program β → Prop
  | done {a : α} {b : β} (h : R a b) : Alike V R (done a) (done b)
  | ask {op : Op} {next : op.Reply → Program α} {next' : op.Reply → Program β} (h : V.permits op)
      (rest : ∀ x y, V.replies op x y → Alike V R (next x) (next' y)) :
    Alike V R (ask op next) (ask op next')
  | fetch {r r' : Request} {next : (Op.fetch r).Reply → Program α}
      {next' : (Op.fetch r').Reply → Program β} (h : V.requests r r')
      (rest : ∀ reply, Alike V R (next reply) (next' reply)) :
    Alike V R (ask (.fetch r) next) (ask (.fetch r') next')

namespace Alike

variable {R : α → β → Prop} {S : γ → δ → Prop} {p : Program α} {p' : Program β}

theorem pure {a : α} {b : β} (h : R a b) :
    Alike V R (Pure.pure a : Program α) (Pure.pure b : Program β) :=
  .done h

theorem request {op : Op} (h : V.permits op) :
    Alike V (V.replies op) (request op) (request op) :=
  .ask h fun _ _ hxy => .done hxy

theorem bind {f : α → Program γ} {f' : β → Program δ} (h : Alike V R p p')
    (hf : ∀ a b, R a b → Alike V S (f a) (f' b)) : Alike V S (p >>= f) (p' >>= f') := by
  induction h with
  | done h => exact hf _ _ h
  | ask h _ ih => exact .ask h ih
  | fetch h _ ih => exact .fetch h ih

theorem mono {Q : α → β → Prop} (h : Alike V R p p') (hRQ : ∀ a b, R a b → Q a b) :
    Alike V Q p p' := by
  induction h with
  | done h => exact .done (hRQ _ _ h)
  | ask h _ ih => exact .ask h ih
  | fetch h _ ih => exact .fetch h ih

/-- A program that asks only for what both runs see alike is alike to itself. -/
theorem refl {p : Program α} (h : p.Asks V.Shares) : Alike V Eq p p := by
  induction h with
  | done a => exact .done rfl
  | ask h _ ih =>
    refine .ask h.1 fun x y hxy => ?_
    obtain rfl := h.2 x y hxy
    exact ih x

/-- Programs that ask for little are alike under every view that shows no more of that. -/
theorem restrict {W : View} {P : Op → Prop} (h : Alike V R p p') (hp : p.Asks P)
    (hP : ∀ op, P op → W.permits op ∧ ∀ x y, W.replies op x y → V.replies op x y)
    (hno : ∀ r, ¬ P (.fetch r)) : Alike W R p p' := by
  induction h with
  | done h => exact .done h
  | @ask op _ _ _ _ ih =>
    cases hp with
    | ask hop hrest =>
      exact .ask (hP op hop).1 fun x y hxy => ih x y ((hP op hop).2 x y hxy) (hrest x)
  | fetch =>
    cases hp with
    | ask hop => exact absurd hop (hno _)

/-- The logs of programs that are alike are alike. -/
theorem logging (hnow : V.Shares .now) (hcomplain : ∀ text, V.permits (.complain text))
    (hlog : ∀ event, V.replies (.log event) () ()) (log : Log) (h : Alike V R p p') :
    Alike V R (p.logging log) (p'.logging log) := by
  induction h with
  | done h => exact .done h
  | fetch h _ ih => exact .fetch h ih
  | @ask op next next' h rest ih =>
    have hother : Alike V R (Program.ask op fun reply => (next reply).logging log)
        (Program.ask op fun reply => (next' reply).logging log) :=
      .ask h ih
    cases op with
    | log event =>
      have hrest := ih () () (hlog event)
      rw [Program.logging, Program.logging]
      split
      · refine .ask hnow.1 fun x y hxy => ?_
        obtain rfl := hnow.2 x y hxy
        exact .ask (hcomplain _) fun _ _ _ => hrest
      · exact hrest
    | _ => exact hother

/-- **What all permitted operations keep, the runs of alike programs keep**: if the replies in
related worlds differ by no more than the view allows and the worlds stay related, the results of
the runs are related and so are the worlds in which they end. -/
theorem runAmid {o : Outside σ} {I : World × σ → World × σ → Prop}
    (hask : ∀ op, V.permits op → ∀ x x', I x x' →
      V.replies op (o.perform x op).1 (o.perform x' op).1 ∧
        I (o.perform x op).2 (o.perform x' op).2)
    (hfetch : ∀ r r', V.requests r r' → ∀ x x', I x x' →
      (o.perform x (.fetch r)).1 = (o.perform x' (.fetch r')).1 ∧
        I (o.perform x (.fetch r)).2 (o.perform x' (.fetch r')).2)
    (h : Alike V R p p') {x x' : World × σ} (hx : I x x') :
    R (p.runAmid o x).1 (p'.runAmid o x').1 ∧ I (p.runAmid o x).2 (p'.runAmid o x').2 := by
  induction h generalizing x x' with
  | done h => exact ⟨h, hx⟩
  | ask h _ ih =>
    obtain ⟨hreply, hrest⟩ := hask _ h x x' hx
    exact ih _ _ hreply hrest
  | @fetch r r' next next' h _ ih =>
    obtain ⟨hreply, hrest⟩ := hfetch r r' h x x' hx
    rw [Program.runAmid, Program.runAmid, ← hreply]
    exact ih _ hrest

end Alike

end Program

end Host

/-! ### Attempts -/

open Host

namespace Attempt

variable {ε κ α β γ δ : Type} {V : View} {R : α → β → Prop} {S : γ → δ → Prop}

/-- Both succeed with related results, or both fail; the errors agree if that is asked for. -/
def Agree (strict : Prop) (R : α → β → Prop) : Except ε α → Except ε β → Prop
  | .ok a, .ok b => R a b
  | .error e, .error e' => strict → e = e'
  | _, _ => False

/-- Results that agree are carried on to results that agree. -/
theorem Agree.bind {strict : Prop} {x : Except ε α} {y : Except ε β} {f : α → Except ε γ}
    {g : β → Except ε δ} (h : Agree strict R x y) (hf : ∀ a b, R a b → Agree strict S (f a) (g b)) :
    Agree strict S (x >>= f) (y >>= g) := by
  rcases x with e | a <;> rcases y with e' | b
  · exact h
  · exact h.elim
  · exact h.elim
  · exact hf a b h

theorem Agree.mono {strict : Prop} {Q : α → β → Prop} {x : Except ε α} {y : Except ε β}
    (h : Agree strict R x y) (hRQ : ∀ a b, R a b → Q a b) : Agree strict Q x y := by
  rcases x with e | a <;> rcases y with e' | b
  · exact h
  · exact h.elim
  · exact h.elim
  · exact hRQ a b h

theorem agree_of_eq {strict : Prop} {x y : Except ε α} (h : x = y) : Agree strict Eq x y := by
  subst h
  cases x with
  | error e => exact fun _ => rfl
  | ok a => exact rfl

/-- The attempts are alike. -/
def Alike (V : View) (R : α → β → Prop) (p : Attempt ε α) (p' : Attempt ε β) : Prop :=
  Program.Alike V (Agree V.strict R) (ExceptT.run p) (ExceptT.run p')

namespace Alike

variable {p : Attempt ε α} {p' : Attempt ε β}

theorem pure {a : α} {b : β} (h : R a b) :
    Alike V R (Pure.pure a : Attempt ε α) (Pure.pure b : Attempt ε β) :=
  show Program.Alike V (Agree V.strict R) (Program.done (Except.ok a))
    (Program.done (Except.ok b)) from .done h

theorem throw {e e' : ε} (h : V.strict → e = e') :
    Alike V R (MonadExcept.throw e : Attempt ε α) (MonadExcept.throw e' : Attempt ε β) :=
  show Program.Alike V (Agree V.strict R) (Program.done (Except.error e))
    (Program.done (Except.error e')) from .done h

theorem ask {op : Op} (h : V.permits op) :
    Alike V (V.replies op) (RepairLedger.ask op : Attempt ε op.Reply) (RepairLedger.ask op) :=
  Program.Alike.ask h fun _ _ hxy => .done hxy

theorem fetch {r r' : Request} (h : V.requests r r') :
    Alike V Eq (RepairLedger.ask (.fetch r) : Attempt ε (Op.fetch r).Reply)
      (RepairLedger.ask (.fetch r') : Attempt ε (Op.fetch r').Reply) :=
  Program.Alike.fetch h fun _ => .done rfl

theorem bind {f : α → Attempt ε γ} {f' : β → Attempt ε δ} (h : Alike V R p p')
    (hf : ∀ a b, R a b → Alike V S (f a) (f' b)) : Alike V S (p >>= f) (p' >>= f') := by
  refine Program.Alike.bind h fun result result' hresult => ?_
  rcases result with e | a <;> rcases result' with e' | b
  · exact throw hresult
  · exact hresult.elim
  · exact hresult.elim
  · exact hf a b hresult

theorem mono {Q : α → β → Prop} (h : Alike V R p p') (hRQ : ∀ a b, R a b → Q a b) :
    Alike V Q p p' :=
  Program.Alike.mono h fun _ _ hresult => hresult.mono hRQ

theorem refl {p : Attempt ε α} (h : Asks V.Shares p) : Alike V Eq p p :=
  Program.Alike.mono (Program.Alike.refl h) fun _ _ => agree_of_eq

theorem lift {q : Program α} {q' : Program β} (h : Program.Alike V R q q') :
    Alike V R (ExceptT.lift q : Attempt ε α) (ExceptT.lift q' : Attempt ε β) :=
  Program.Alike.bind h fun _ _ hab => .done hab

theorem adapt {p : Attempt κ α} {p' : Attempt κ β} (h : Alike V R p p') (f : κ → ε) :
    Alike V R (ExceptT.adapt f p) (ExceptT.adapt f p') := by
  refine Program.Alike.bind h fun result result' hresult => ?_
  rcases result with e | a <;> rcases result' with e' | b
  · exact .done fun hs => congrArg f (hresult hs)
  · exact hresult.elim
  · exact hresult.elim
  · exact .done hresult

theorem releasing {lock : Lock} (h : Alike V R p p') (hu : V.permits (.unlock lock)) :
    Alike V R (LedgerFile.releasing lock p) (LedgerFile.releasing lock p') := by
  refine Program.Alike.bind h fun result result' hresult => ?_
  rcases result with e | a <;> rcases result' with e' | b
  · exact bind (ask hu) fun _ _ _ => throw hresult
  · exact hresult.elim
  · exact hresult.elim
  · exact pure hresult

end Alike

end Attempt

end RepairLedger
