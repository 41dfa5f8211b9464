import RepairLedger.Proofs.Host.Running

/-!
# Programs and the replies to them

What a program does can be said without a world: with these replies it ends with this result, and
asks for nothing but what is permitted (`Program.Reaches`).  The replies need not be those of a
`World`, so this also speaks of failures that a world does not have, such as a file that nobody may
read.

With the replies of a world, a program that only looks at it has the same result there
(`Program.Reaches.run`).
-/

namespace RepairLedger

open Host

namespace Host

/-- What a world replies. -/
def World.replies (w : World) (op : Op) : op.Reply :=
  (w.perform op).1

namespace Program

variable {α β : Type} {reply : (op : Op) → op.Reply} {P : Op → Prop}

/-- With these replies the program ends with the result, and on the way it asks only for what is
permitted. -/
inductive Reaches (reply : (op : Op) → op.Reply) (P : Op → Prop) : Program α → α → Prop
  | done (a : α) : Reaches reply P (done a) a
  | ask {op : Op} {next : op.Reply → Program α} {a : α} (h : P op)
      (rest : Reaches reply P (next (reply op)) a) : Reaches reply P (ask op next) a

namespace Reaches

variable {p : Program α} {f : α → Program β} {a : α} {b : β}

theorem bind (hp : Reaches reply P p a) (hf : Reaches reply P (f a) b) :
    Reaches reply P (p >>= f) b := by
  induction hp with
  | done a => exact hf
  | ask h _ ih => exact .ask h (ih hf)

theorem run {w : World} (h : Reaches w.replies Looks p a) : p.run w = (a, w) := by
  induction h with
  | done a => rfl
  | @ask op next a hop _ ih =>
    have hsame : (w.perform op).2 = w := (Asks.request hop).world_eq w
    have hrest : (next (w.perform op).1).run (w.perform op).2 = (a, w) := by
      rw [hsame]
      exact ih
    exact hrest

end Reaches

end Program

end Host

/-! ### Attempts -/

namespace Attempt

variable {ε κ α β : Type} {reply : (op : Op) → op.Reply} {P : Op → Prop}

/-- With these replies the attempt succeeds or fails like this, and on the way it asks only for what
is permitted. -/
def Reaches (reply : (op : Op) → op.Reply) (P : Op → Prop) (p : Attempt ε α) (r : Except ε α) :
    Prop :=
  Program.Reaches reply P (ExceptT.run p) r

namespace Reaches

variable {p : Attempt ε α} {f : α → Attempt ε β} {r : Except ε β} {a : α} {e : ε}

theorem pure (a : α) : Reaches reply P (Pure.pure a : Attempt ε α) (.ok a) :=
  show Program.Reaches reply P (Program.done (Except.ok a)) _ from .done _

theorem throw (e : ε) : Reaches reply P (MonadExcept.throw e : Attempt ε α) (.error e) :=
  show Program.Reaches reply P (Program.done (Except.error e)) _ from .done _

theorem ask {op : Op} (h : P op) :
    Reaches reply P (RepairLedger.ask op : Attempt ε op.Reply) (.ok (reply op)) :=
  show Program.Reaches reply P (Program.ask op fun x => Program.done (Except.ok x)) _ from
    .ask h (.done _)

theorem bind (hp : Reaches reply P p (.ok a)) (hf : Reaches reply P (f a) r) :
    Reaches reply P (p >>= f) r :=
  Program.Reaches.bind hp hf

theorem bind_error (hp : Reaches reply P p (.error e)) : Reaches reply P (p >>= f) (.error e) :=
  Program.Reaches.bind hp (.done _)

theorem adapt {q : Attempt κ α} {s : Except κ α} (h : Reaches reply P q s) (g : κ → ε) :
    Reaches reply P (ExceptT.adapt g q) (s.mapError g) :=
  Program.Reaches.bind h (.done _)

theorem runIn {w : World} {s : Except ε α} (h : Reaches w.replies Program.Looks p s) :
    runIn p w = (s, w) :=
  Program.Reaches.run h

end Reaches

end Attempt

end RepairLedger
