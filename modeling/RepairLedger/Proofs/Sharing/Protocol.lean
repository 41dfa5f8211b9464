import Mathlib.Logic.Function.Basic
import RepairLedger.Proofs.Ledger.Outcome
import RepairLedger.Proofs.Ledger.Runs
import RepairLedger.Proofs.Sharing.Answers

/-!
# Sharing a ledger file

Processes that share a ledger file keep to a protocol: a new ledger is written by the one that has
the lock, beside the file, and comes from what that process has read since it took the lock; and the
lock is given back after the move.  Reading is free to all.  Where a process is in this is its
`Phase`, and what it may do next is said by `Moves`.

Two invariants of all runs (`Run`) are about the lock alone:

* `Guarded` : the lock is with one process at most, and whoever has it is known to the world;
* `Orderly` : a process that has not taken the lock has not touched the ledger.
-/

namespace RepairLedger

namespace Sharing

open Host

/-! ### The protocol -/

/-- Where a process is in its work on a ledger file. -/
inductive Phase where
  /-- It has not got the lock, and has not read the file. -/
  | outside
  /-- It has read the file without the lock. -/
  | seen (reply : Except Failure Bytes)
  /-- It has the lock. -/
  | locked (key : Lock)
  /-- It has read the file under the lock. -/
  | loaded (key : Lock) (l : Ledger)
  /-- It has written the new ledger beside the file. -/
  | written (key : Lock) (l : Ledger) (c : Call) (record : Record)
  /-- It has moved the new ledger into its place. -/
  | moved (key : Lock) (c : Call) (record : Record)
  /-- It is done, perhaps after a commit, or was refused the lock. -/
  | gone (done : Option (Call × Record))

namespace Phase

/-- The lock that the process has. -/
def key? : Phase → Option Lock
  | locked key | loaded key _ | written key _ _ _ | moved key _ _ => some key
  | outside | seen _ | gone _ => none

/-- What the process has read under the lock and has not replaced yet. -/
def ledger? : Phase → Option Ledger
  | loaded _ l | written _ l _ _ => some l
  | _ => none

theorem exists_key_of_ledger {φ : Phase} {l : Ledger} (h : φ.ledger? = some l) :
    ∃ key, φ.key? = some key := by
  cases φ with
  | loaded key | written key => exact ⟨key, rfl⟩
  | _ => cases h

/-- What the process has committed. -/
def done? : Phase → Option (Call × Record)
  | moved _ c record => some (c, record)
  | gone done => done
  | _ => none

end Phase

/-- Does the operation read the ledger, or change any file but the one that is locked? -/
def Touches (path : Path) : Op → Prop
  | .read p => p = path
  | .write .. | .rename .. => True
  | _ => False

/-- The operations that anyone may ask for at any time. -/
def IsFree (path : Path) : Op → Prop
  | .lock .. | .unlock _ => False
  | op => ¬ Touches path op

/-- What a process may do with a ledger file if it makes only such calls, and where that takes it.
-/
inductive Moves (path : Path) (may : Call → Prop) : Phase → (op : Op) → op.Reply → Phase → Prop
  | free (φ : Phase) {op : Op} (h : IsFree path op) (reply : op.Reply) : Moves path may φ op reply φ
  | look (reply : Except Failure Bytes) : Moves path may .outside (.read path) reply (.seen reply)
  | refuse (timeout : Span) (failure : LockFailure) :
    Moves path may .outside (.lock (LedgerLock.pathFor path) timeout) (.error failure) (.gone none)
  | take (timeout : Span) (key : Lock) :
    Moves path may .outside (.lock (LedgerLock.pathFor path) timeout) (.ok key) (.locked key)
  | load {key : Lock} {reply : Except Failure Bytes} {l : Ledger}
    (h : Ledger.ofRead path reply = .ok l) :
    Moves path may (.locked key) (.read path) reply (.loaded key l)
  /-- Whoever has the lock may read anything. -/
  | reread {φ : Phase} {key : Lock} (h : φ.key? = some key) (p : Path)
    (reply : Except Failure Bytes) : Moves path may φ (.read p) reply φ
  | write {key : Lock} {l : Ledger} {c : Call} {record : Record} (hc : may c)
    (h : l.perform c = .ok record) :
    Moves path may (.loaded key l)
      (.write (Ledger.temporaryPath path) (Text.encode (l.upsert c.id record).text)) (.ok ())
      (.written key l c record)
  | failToWrite (key : Lock) (l : Ledger) (bytes : Bytes) (cause : Failure) :
    Moves path may (.loaded key l) (.write (Ledger.temporaryPath path) bytes) (.error cause)
      (.loaded key l)
  | move (key : Lock) (l : Ledger) (c : Call) (record : Record) :
    Moves path may (.written key l c record) (.rename (Ledger.temporaryPath path) path) (.ok ())
      (.moved key c record)
  | failToMove (key : Lock) (l : Ledger) (c : Call) (record : Record) (cause : Failure) :
    Moves path may (.written key l c record) (.rename (Ledger.temporaryPath path) path)
      (.error cause) (.written key l c record)
  | release {φ : Phase} {key : Lock} (h : φ.key? = some key) :
    Moves path may φ (.unlock key) () (.gone φ.done?)

/-! ### Runs -/

/-- One step: who has asked for what, and what was answered. -/
structure Event (ι : Type) where
  who : ι
  op : Op
  reply : op.Reply

/-- The process that has moved a file, if that is what happened. -/
def Event.mover? {ι : Type} (e : Event ι) : Option ι :=
  match e.op, e.reply with
  | .rename _ _, .ok _ => some e.who
  | _, _ => none

section Runs

variable {ι : Type} [DecidableEq ι]

/-- What can come about when processes share a ledger file and take their steps in any order: what
has happened, the world after it, and where the processes are. -/
inductive Run (path : Path) (may : ι → Call → Prop) (start : World) :
    List (Event ι) → World → (ι → Phase) → Prop
  | start : Run path may start [] start fun _ => .outside
  | step {trace : List (Event ι)} {w v : World} {φ : ι → Phase} {p : ι} {op : Op}
    {reply : op.Reply} {ψ : Phase} (h : Run path may start trace w φ)
    (ha : w.Answers op reply v) (hm : Moves path (may p) (φ p) op reply ψ) :
    Run path may start (trace ++ [⟨p, op, reply⟩]) v (Function.update φ p ψ)

end Runs

/-! ### Steps -/

/-- The ledger, its lock and the temporary file are three files. -/
structure Apart (base : Location) (path : Path) : Prop where
  ledger_lock : FileTree.goal base path ≠ FileTree.goal base (LedgerLock.pathFor path)
  ledger_temporary : FileTree.goal base path ≠ FileTree.goal base (Ledger.temporaryPath path)
  temporary_lock :
    FileTree.goal base (Ledger.temporaryPath path) ≠ FileTree.goal base (LedgerLock.pathFor path)

theorem apart_of_place {t : FileTree} {base d : Location} {path : Path} {name : Piece}
    (h : t.place base path = .ok (.named d name false)) : Apart base path where
  ledger_lock := FileTree.goal_ne_withEnding h (by decide) (by decide)
  ledger_temporary := FileTree.goal_ne_withEnding h (by decide) (by decide)
  temporary_lock := FileTree.goal_withEnding_ne h (by decide) (by decide) (by decide)

theorem Apart.companions_ne {base : Location} {path : Path} (h : Apart base path) :
    ∀ q ∈ Ledger.companions path, FileTree.goal base q ≠ FileTree.goal base path := by
  intro q hq
  rcases List.mem_cons.1 hq with rfl | hq
  · exact h.ledger_lock.symm
  · obtain rfl := List.mem_singleton.1 hq
    exact h.ledger_temporary.symm

section Steps

variable {ι : Type} {path : Path} {may : Call → Prop} {base : Location} {w v : World}
  {φ : ι → Phase} {p : ι} {op : Op} {reply : op.Reply} {ψ ψ' : Phase}

theorem IsFree.permits (h : IsFree path op) : ∃ dirs, Permits [] dirs op := by
  cases op with
  | makeDirectory q => exact ⟨[q], List.mem_singleton.2 rfl⟩
  | write | rename => exact absurd trivial h
  | lock => exact h.elim
  | _ => exact ⟨[], trivial⟩

theorem IsFree.not_touches (h : IsFree path op) : ¬ Touches path op := by
  cases op with
  | lock | unlock => exact h.elim
  | _ => exact h

theorem IsFree.locks_eq (h : IsFree path op) (ha : w.Answers op reply v) : v.locks = w.locks := by
  refine ha.locks_eq ?_
  cases op with
  | rename => exact h trivial
  | lock | unlock => exact h
  | _ => trivial

theorem IsFree.mover?_eq_none (h : IsFree path op) (p : ι) :
    (Event.mk p op reply).mover? = none := by
  cases op with
  | rename => exact absurd trivial h
  | _ => rfl

/-- Unless it moves a file, a process changes only the files beside the ledger. -/
theorem Moves.within_companions (hm : Moves path may ψ op reply ψ') (ha : w.Answers op reply v)
    (p : ι) (hmover : (Event.mk p op reply).mover? = none) :
    ∃ dirs, w.Within (Ledger.companions path) dirs v := by
  cases hm with
  | free _ hfree =>
    obtain ⟨dirs, hdirs⟩ := hfree.permits
    exact ⟨dirs, (ha.within hdirs).mono (fun _ h => absurd h List.not_mem_nil) fun _ h => h⟩
  | look | load | reread | release => exact ⟨[], ha.within trivial⟩
  | refuse | take | write | failToWrite =>
    exact ⟨[], ha.within (by simp [Permits, Ledger.companions])⟩
  | move => cases hmover
  | failToMove =>
    obtain rfl := ha.rename_error
    exact ⟨[], .refl v⟩

/-- A process moves no file but the new ledger. -/
theorem Moves.moved (hm : Moves path may ψ op reply ψ') (ha : w.Answers op reply v) {p : ι}
    (hmover : (Event.mk p op reply).mover? ≠ none) :
    FileTree.Moved w.base (Ledger.temporaryPath path) path w.files v.files
      (FileTree.goal w.base (Ledger.temporaryPath path)) (FileTree.goal w.base path) := by
  cases hm with
  | move => exact ha.rename_ok.1
  | free _ hfree => exact absurd (hfree.mover?_eq_none p) hmover
  | _ => exact absurd rfl hmover

/-- Whatever a process does, it does to the ledger and the files beside it. -/
theorem Moves.within (hm : Moves path may ψ op reply ψ') (ha : w.Answers op reply v) :
    ∃ dirs, w.Within (path :: Ledger.companions path) dirs v := by
  cases hmover : (Event.mk () op reply).mover? with
  | none =>
    obtain ⟨dirs, hwithin⟩ := hm.within_companions ha () hmover
    exact ⟨dirs, hwithin.mono (fun _ h => List.mem_cons_of_mem _ h) fun _ h => h⟩
  | some _ =>
    cases hm with
    | move => exact ⟨[], ha.within (by simp [Permits, Ledger.companions])⟩
    | free _ hfree =>
      rw [hfree.mover?_eq_none] at hmover
      cases hmover
    | _ => cases hmover

/-- A process without the lock creates the lock file at most. -/
theorem Moves.within_of_no_key (hm : Moves path may ψ op reply ψ') (ha : w.Answers op reply v)
    (hk : ψ.key? = none) : ∃ dirs, w.Within [LedgerLock.pathFor path] dirs v := by
  cases hm with
  | free _ hfree =>
    obtain ⟨dirs, hdirs⟩ := hfree.permits
    exact ⟨dirs, (ha.within hdirs).mono (fun _ h => absurd h List.not_mem_nil) fun _ h => h⟩
  | look | reread => exact ⟨[], ha.within trivial⟩
  | refuse | take => exact ⟨[], ha.within (by simp [Permits])⟩
  | release h =>
    rw [hk] at h
    cases h
  | load | write | failToWrite | move | failToMove => cases hk

/-- Nobody comes back to where nothing has been done. -/
theorem Moves.to_outside (hm : Moves path may ψ op reply .outside) :
    ψ = .outside ∧ ¬ Touches path op := by
  cases hm with
  | free _ hfree => exact ⟨rfl, hfree.not_touches⟩
  | reread hkey => cases hkey

/-- Whoever is done does nothing to the ledger any more. -/
theorem Moves.of_gone {done : Option (Call × Record)}
    (hm : Moves path may (.gone done) op reply ψ) :
    ψ = .gone done ∧ ¬ Touches path op := by
  cases hm with
  | free _ hfree => exact ⟨rfl, hfree.not_touches⟩
  | reread hkey | release hkey => cases hkey

theorem Moves.to_seen {seen : Except Failure Bytes} (hm : Moves path may ψ op reply (.seen seen))
    (p : ι) : ψ = .seen seen ∨ Event.mk p op reply = ⟨p, .read path, seen⟩ := by
  cases hm with
  | free => exact .inl rfl
  | look => exact .inr rfl
  | reread hkey => cases hkey

theorem Moves.refused {timeout : Span} {failure : LockFailure}
    (hm : Moves path may ψ (.lock (LedgerLock.pathFor path) timeout) (.error failure) ψ') :
    ψ = .outside ∧ ψ' = .gone none := by
  cases hm with
  | free _ hfree => exact hfree.elim
  | refuse => exact ⟨rfl, rfl⟩

/-! ### The lock -/

variable [DecidableEq ι]

/-- At most one process has the lock, and whoever has it is known to the world. -/
structure Guarded (path : Path) (base : Location) (w : World) (φ : ι → Phase) : Prop where
  base_eq : w.base = base
  held : ∀ p key, (φ p).key? = some key →
    (key, FileTree.goal base (LedgerLock.pathFor path)) ∈ w.locks ∧
      w.files.Names base (LedgerLock.pathFor path) (FileTree.goal base (LedgerLock.pathFor path))
  alone : ∀ p q key key', (φ p).key? = some key → (φ q).key? = some key' → p = q

theorem key?_update (h : ψ.key? = (φ p).key?) (q : ι) :
    (Function.update φ p ψ q).key? = (φ q).key? := by
  by_cases hq : q = p
  · subst hq
    rw [Function.update_self, h]
  · rw [Function.update_of_ne hq]

/-- A step that neither takes the lock nor gives it back. -/
theorem Guarded.keep (h : Guarded path base w φ) (hm : Moves path may ψ op reply ψ')
    (ha : w.Answers op reply v) (hφ : φ p = ψ) (hψ : ψ'.key? = ψ.key?)
    (hl : ∀ held ∈ w.locks, held.2 = FileTree.goal base (LedgerLock.pathFor path) →
      held ∈ v.locks) : Guarded path base v (Function.update φ p ψ') := by
  obtain ⟨dirs, hwithin⟩ := hm.within ha
  subst hφ
  refine ⟨hwithin.base_eq.trans h.base_eq, fun q key hq => ?_, fun q q' key key' hq hq' => ?_⟩
  · rw [key?_update hψ] at hq
    obtain ⟨hheld, hnames⟩ := h.held q key hq
    exact ⟨hl _ hheld rfl, hnames.keeps hwithin.confined.keeps⟩
  · rw [key?_update hψ] at hq hq'
    exact h.alone q q' key key' hq hq'

/-- A process that gets the lock is alone, since there is no lock on the lock file. -/
theorem Guarded.take {timeout : Span} {key : Lock} (h : Guarded path base w φ)
    (ha : w.Answers (.lock (LedgerLock.pathFor path) timeout) (.ok key) v)
    (hwithin : w.base = v.base ∧ FileTree.Keeps w.files v.files) :
    Guarded path base v (Function.update φ p (.locked key)) := by
  obtain ⟨hfree, hlocks, hnames⟩ := ha.lock_ok
  rw [h.base_eq] at hfree hlocks hnames
  have hnobody : ∀ q key', (φ q).key? ≠ some key' := fun q key' hq =>
    hfree _ (h.held q key' hq).1 rfl
  have honly : ∀ q key', (Function.update φ p (Phase.locked key) q).key? = some key' →
      q = p ∧ key' = key := by
    intro q key' hq
    by_cases hqp : q = p
    · subst hqp
      rw [Function.update_self] at hq
      cases hq
      exact ⟨rfl, rfl⟩
    · rw [Function.update_of_ne hqp] at hq
      exact absurd hq (hnobody q key')
  refine ⟨hwithin.1.symm.trans h.base_eq, fun q key' hq => ?_, fun q q' key₁ key₂ hq hq' => ?_⟩
  · obtain ⟨rfl, rfl⟩ := honly q key' hq
    exact ⟨hlocks ▸ List.mem_cons_self, hnames⟩
  · rw [(honly q key₁ hq).1, (honly q' key₂ hq').1]

/-- A process that gives the lock back had it alone, so nobody has it any more. -/
theorem Guarded.release {key : Lock} {done : Option (Call × Record)} (h : Guarded path base w φ)
    (hp : (φ p).key? = some key) (hb : v.base = w.base) :
    Guarded path base v (Function.update φ p (.gone done)) := by
  have hnobody : ∀ q key', (Function.update φ p (Phase.gone done) q).key? ≠ some key' := by
    intro q key' hq
    by_cases hqp : q = p
    · subst hqp
      rw [Function.update_self] at hq
      cases hq
    · rw [Function.update_of_ne hqp] at hq
      exact hqp (h.alone q p key' key hq hp)
  exact ⟨hb.trans h.base_eq, fun q key' hq => absurd hq (hnobody q key'),
    fun q q' key₁ _ hq _ => absurd hq (hnobody q key₁)⟩

theorem Guarded.step (h : Guarded path base w φ) (hapart : Apart base path)
    (hm : Moves path may (φ p) op reply ψ) (ha : w.Answers op reply v) :
    Guarded path base v (Function.update φ p ψ) := by
  obtain ⟨dirs, hwithin⟩ := hm.within ha
  generalize hφ : φ p = χ at hm
  have hmoves := hm
  cases hm with
  | free _ hfree =>
    refine h.keep hmoves ha hφ rfl fun held hheld _ => ?_
    rwa [hfree.locks_eq ha]
  | look | load | reread | write | failToWrite =>
    refine h.keep hmoves ha hφ rfl fun held hheld _ => ?_
    rwa [ha.locks_eq trivial]
  | refuse timeout failure =>
    refine h.keep hmoves ha hφ rfl fun held hheld _ => ?_
    rwa [ha.lock_error]
  | take timeout key => exact h.take ha ⟨hwithin.base_eq.symm, hwithin.confined.keeps⟩
  | move key l c record =>
    refine h.keep hmoves ha hφ rfl fun held hheld hlock => ha.rename_ok.2 held hheld ?_ ?_
    · rw [hlock, h.base_eq]
      exact hapart.temporary_lock.symm
    · rw [hlock, h.base_eq]
      exact hapart.ledger_lock.symm
  | failToMove key l c record cause =>
    refine h.keep hmoves ha hφ rfl fun held hheld _ => ?_
    rwa [ha.rename_error]
  | release hkey => exact h.release (hφ ▸ hkey) hwithin.base_eq

end Steps

/-! ### Whole runs -/

section Invariants

variable {ι : Type} [DecidableEq ι] {path : Path} {may : ι → Call → Prop} {start w v : World}
  {trace : List (Event ι)} {φ : ι → Phase} {p : ι} {op : Op} {reply : op.Reply} {ψ : Phase}

theorem Run.base_eq (h : Run path may start trace w φ) : w.base = start.base := by
  induction h with
  | start => rfl
  | step _ ha hm ih =>
    obtain ⟨dirs, hwithin⟩ := hm.within ha
    exact hwithin.base_eq.trans ih

theorem Run.guarded (h : Run path may start trace w φ) (hapart : Apart start.base path) :
    Guarded path start.base w φ := by
  induction h with
  | start =>
    refine ⟨rfl, ?_, ?_⟩
    · intro p key hp
      cases hp
    · intro p q key key' hp
      cases hp
  | step _ ha hm ih => exact ih.step hapart hm ha

/-- What the events of a process say about where it is. -/
structure Orderly (path : Path) (trace : List (Event ι)) (φ : ι → Phase) : Prop where
  outside : ∀ p, φ p = .outside → ∀ e ∈ trace, e.who = p → ¬ Touches path e.op
  refused : ∀ p timeout failure,
    ⟨p, .lock (LedgerLock.pathFor path) timeout, .error failure⟩ ∈ trace →
      φ p = .gone none ∧ ∀ e ∈ trace, e.who = p → ¬ Touches path e.op
  seen : ∀ p reply, φ p = .seen reply → ⟨p, .read path, reply⟩ ∈ trace

theorem Orderly.step (h : Orderly path trace φ) (hm : Moves path (may p) (φ p) op reply ψ) :
    Orderly path (trace ++ [⟨p, op, reply⟩]) (Function.update φ p ψ) := by
  have hother : ∀ q, q ≠ p → Function.update φ p ψ q = φ q := fun q hq =>
    Function.update_of_ne hq ψ φ
  -- What a process has not done before, it has not done if it does not do it now.
  have huntouched : ∀ q, (∀ e ∈ trace, e.who = q → ¬ Touches path e.op) →
      (q = p → ¬ Touches path op) →
      ∀ e ∈ trace ++ [⟨p, op, reply⟩], e.who = q → ¬ Touches path e.op := by
    intro q hold hnew e he hq
    rcases List.mem_append.1 he with he | he
    · exact hold e he hq
    · obtain rfl := List.mem_singleton.1 he
      exact hnew hq.symm
  constructor
  case outside =>
    intro q hq
    by_cases hqp : q = p
    · subst hqp
      rw [Function.update_self] at hq
      subst hq
      obtain ⟨hφ, hop⟩ := hm.to_outside
      exact huntouched q (h.outside q hφ) fun _ => hop
    · exact huntouched q (h.outside q (hother q hqp ▸ hq)) fun heq => absurd heq hqp
  case refused =>
    intro q timeout failure hmem
    rcases List.mem_append.1 hmem with hmem | hmem
    · obtain ⟨hφ, hold⟩ := h.refused q timeout failure hmem
      by_cases hqp : q = p
      · subst hqp
        rw [hφ] at hm
        obtain ⟨rfl, hop⟩ := hm.of_gone
        exact ⟨Function.update_self .., huntouched q hold fun _ => hop⟩
      · exact ⟨hother q hqp ▸ hφ, huntouched q hold fun heq => absurd heq hqp⟩
    · cases List.mem_singleton.1 hmem
      obtain ⟨hφ, rfl⟩ := hm.refused
      exact ⟨Function.update_self .., huntouched p (h.outside p hφ) fun _ => id⟩
  case seen =>
    intro q seen hq
    by_cases hqp : q = p
    · subst hqp
      rw [Function.update_self] at hq
      subst hq
      rcases hm.to_seen q with hφ | hevent
      · exact List.mem_append_left _ (h.seen q seen hφ)
      · exact List.mem_append_right _ (List.mem_singleton.2 hevent.symm)
    · exact List.mem_append_left _ (h.seen q seen (hother q hqp ▸ hq))

/-- **A process that is refused the lock does not touch the ledger**, neither before nor
afterwards. -/
theorem Run.orderly (h : Run path may start trace w φ) : Orderly path trace φ := by
  induction h with
  | start =>
    refine ⟨?_, ?_, ?_⟩
    · intro p _ e he
      exact absurd he List.not_mem_nil
    · intro p timeout failure hmem
      exact absurd hmem List.not_mem_nil
    · intro p reply hp
      cases hp
  | step _ _ hm ih => exact ih.step hm

end Invariants

end Sharing

end RepairLedger
