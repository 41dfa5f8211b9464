import RepairLedger.Host.Event
import RepairLedger.Host.Exchange
import RepairLedger.Host.Failure
import RepairLedger.Host.Path
import RepairLedger.Host.FileTree
import RepairLedger.Time.Instant
import RepairLedger.Time.Span

/-!
# Programs

A program is done, or it asks the outside world for something and goes on with the reply.  What a
program does is thus a value that can be reasoned about, whether the world is the real one or a
`World`.
-/

namespace RepairLedger.Host

/-- A lock that is held on a file. -/
structure Lock where
  key : Nat
deriving DecidableEq, Repr

/-- Why a file could not be locked. -/
inductive LockFailure where
  | cannotOpen (cause : Failure)
  /-- Someone else held the lock all the time. -/
  | held (waited : Span)
deriving DecidableEq, Repr

/-- What a program can ask for. -/
inductive Op where
  | read (path : Path)
  /-- Creates or replaces a file. -/
  | write (path : Path) (bytes : Bytes)
  | makeDirectory (path : Path)
  | kind (path : Path)
  /-- Moves a file; this replaces another file in one step. -/
  | rename (source target : Path)
  /-- Creates a file if there is none, and locks it; waits for the lock no longer than this. -/
  | lock (path : Path) (timeout : Span)
  | unlock (lock : Lock)
  | fetch (request : Request)
  | now
  /-- The value of an environment variable. -/
  | environment (name : String)
  | workingDirectory
  | print (text : String)
  /-- Prints on the channel for errors. -/
  | complain (text : String)
  | log (event : Event)

/-- What comes back. -/
abbrev Op.Reply : Op → Type
  | read _ => Except Failure Bytes
  | write _ _ | makeDirectory _ | rename _ _ => Except Failure Unit
  | kind _ => Option Kind
  | lock _ _ => Except LockFailure Lock
  | fetch _ => Except ConnectionFailure Response
  | now => Instant
  | environment _ => Option String
  | workingDirectory => Path
  | unlock _ | print _ | complain _ | log _ => Unit

inductive Program (α : Type) where
  | done (a : α)
  | ask (op : Op) (next : op.Reply → Program α)

namespace Program

/-- Asks for one thing. -/
def request (op : Op) : Program op.Reply :=
  ask op done

/-- Goes on with the result of a program. -/
protected def bind {α β : Type} : Program α → (α → Program β) → Program β
  | done a, f => f a
  | ask op next, f => ask op fun reply => (next reply).bind f

instance : Monad Program where
  pure := done
  bind := Program.bind

@[simp] theorem bind_done {α : Type} (p : Program α) : p.bind done = p := by
  induction p with
  | done a => rfl
  | ask op next ih => simp [Program.bind, ih]

theorem bind_assoc {α β γ : Type} (p : Program α) (f : α → Program β) (g : β → Program γ) :
    (p.bind f).bind g = p.bind fun a => (f a).bind g := by
  induction p with
  | done a => rfl
  | ask op next ih => simp [Program.bind, ih]

instance : LawfulMonad Program :=
  LawfulMonad.mk' Program (fun p => bind_done p) (fun _ _ => rfl) bind_assoc

/-- Runs a program with an interpreter for what it asks. -/
def interpret {m : Type → Type} [Monad m] (perform : (op : Op) → m op.Reply) {α : Type} :
    Program α → m α
  | done a => pure a
  | ask op next => do
    let reply ← perform op
    (next reply).interpret perform

end Program

end RepairLedger.Host
