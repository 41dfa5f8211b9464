import RepairLedger.Host.Program

/-!
# Worlds

A world that programs run in, as a value: its files, the locks on them, the environment, the time,
the network, and what has been printed and asked so far.  Time stands still, and a lock that
somebody else holds is never released.
-/

namespace RepairLedger.Host

structure World where
  files : FileTree
  /-- Where paths begin that do not begin at the root. -/
  base : Location
  /-- The locations of the files that are locked; a lock goes with its file when it is moved. -/
  locks : List (Lock × Location)
  environment : List (String × String)
  /-- The time; a clock shows leap seconds at the end of a minute only. -/
  clock : { t : Instant // t.IsRegular }
  network : Network
  /-- The requests that came to a server, in their order. -/
  requests : List Request
  output : String
  complaints : String
deriving DecidableEq

namespace World

/-- The path of a location. -/
def pathOf (location : Location) : Path :=
  Path.ofPieces [] (location.map String.toList).reverse

/-- A lock that is not in use. -/
def freshLock (w : World) : Lock :=
  ⟨w.locks.foldl (fun n l => max n (l.1.key + 1)) 0⟩

/-- Locks a file, unless it is locked already. -/
def lock (w : World) (path : Path) (timeout : Span) : Except LockFailure Lock × World :=
  match w.files.ensureFile w.base path with
  | .error cause => (.error (.cannotOpen cause), w)
  | .ok (files, location) =>
    if w.locks.any (·.2 = location) then (.error (.held timeout), { w with files })
    else
      let key := w.freshLock
      (.ok key, { w with files, locks := (key, location) :: w.locks })

/-- Moves a file, with the locks on it; those on a file that it replaces no longer matter. -/
def rename (w : World) (source target : Path) : Except Failure Unit × World :=
  match w.files.rename w.base source target with
  | .error cause => (.error cause, w)
  | .ok (files, source, target) =>
    let locks := w.locks.filter fun l => l.2 ≠ target
    let locks := locks.map fun l => if l.2 = source then (l.1, target) else l
    (.ok (), { w with files, locks })

/-- The world after a change of its files, if it can be made. -/
def change (w : World) : Except Failure FileTree → Except Failure Unit × World
  | .error cause => (.error cause, w)
  | .ok files => (.ok (), { w with files })

/-- Answers an operation. -/
def perform (w : World) : (op : Op) → op.Reply × World
  | .read path => (w.files.read w.base path, w)
  | .write path bytes => w.change (w.files.write w.base path bytes)
  | .makeDirectory path => w.change (w.files.makeDirectory w.base path)
  | .kind path => (w.files.kind? w.base path, w)
  | .rename source target => w.rename source target
  | .lock path timeout => w.lock path timeout
  | .unlock lock => ((), { w with locks := w.locks.filter fun l => l.1 ≠ lock })
  | .fetch request =>
    let requests := if w.network.reaches then w.requests ++ [request] else w.requests
    (w.network.answer w.requests.length request, { w with requests })
  | .now => (w.clock.val, w)
  | .environment name => (w.environment.lookup name, w)
  | .workingDirectory => (pathOf w.base, w)
  | .print text => ((), { w with output := w.output ++ text })
  | .complain text => ((), { w with complaints := w.complaints ++ text })
  | .log _ => ((), w)

end World

namespace Program

/-- Runs a program in a world. -/
def run {α : Type} : Program α → World → α × World
  | done a, w => (a, w)
  | ask op next, w =>
    let (reply, w) := w.perform op
    (next reply).run w

theorem run_bind {α β : Type} (p : Program α) (f : α → Program β) (w : World) :
    (p >>= f).run w = (f (p.run w).1).run (p.run w).2 := by
  induction p generalizing w with
  | done a => rfl
  | ask op next ih => exact ih _ _

end Program

end RepairLedger.Host
