import RepairLedger.Proofs.Host.Directories
import RepairLedger.Proofs.Ledger.Commuting
import RepairLedger.Proofs.Ledger.Saving

/-!
# Cycles on a file

A program that works on a ledger file goes through cycles: the file is locked and read, one call is
made on the ledger, and the record is committed or the file closed as it is (`LedgerFile.cycle`).
Between two cycles nothing is left of the ledger but the bytes of the file.

That is enough.  If nobody else has the lock, a run of cycles on a file that is missing at first
finds and makes, call by call, what the calls find and make of a ledger that is written and read
after each of them (`LedgerFile.cycles_filed`).  What one cycle needs of the world is kept by it
(`Ledger.Sites`), and what is written is what will be read, as the ledger stays fit to be stored
(`Ledger.Storable`).

If the instants in the calls are regular, this is what they find and make without any file
(`LedgerFile.cycles_refine`).  Otherwise this fails (`LedgerFile.cycles_ne_of_leap`), but each call
is still accepted or refused as it would be without a file.
-/

namespace RepairLedger

open Host Json Attempt

/-! ### Ledgers that can be stored -/

/-- A call that makes no record that cannot be stored. -/
structure Call.IsStorable (c : Call) : Prop where
  valid : c.id.IsValid
  statistics : ∀ capture, c.action = .create capture → capture.statistics.json.IsSorted ∧
    capture.statistics.json.IsExact ∧ capture.statistics.json.depth ≤ Ledger.statisticsDepth

/-- The state that an action brings along. -/
def Action.state? : Action → Option PullState
  | .create capture => some capture.state
  | .finalize capture => some capture.state
  | .annotate _ => none

/-- A call that brings regular instants only. -/
structure Call.IsRegular (c : Call) : Prop where
  now : c.now.IsRegular
  state : ∀ s ∈ c.action.state?, s.IsRegular

theorem Instant.IsRegular.later {a b : Instant} (ha : a.IsRegular) (hb : b.IsRegular) :
    (a.later b).IsRegular := by
  rcases Instant.later_eq_or a b with h | h
  · rwa [h]
  · rwa [h]

namespace Ledger

variable {l m : Ledger} {c : Call} {id : PullId} {record : Record}

/-- The ledger is what will be read when it has been written. -/
structure Storable (l : Ledger) : Prop where
  readable : l.Readable
  exact : l.IsExact

theorem storable_empty : empty.Storable where
  readable := readable_empty
  exact _ h := absurd h List.not_mem_nil

/-- What is read of a ledger can be written again. -/
theorem storable_asRead (hw : l.WellFormed) (hx : l.IsExact)
    (hd : ∀ e ∈ l.entries, e.2.statistics.json.depth ≤ statisticsDepth) : l.asRead.Storable where
  readable := {
    nodup := l.ids_asRead ▸ hw.nodup
    valid := l.ids_asRead ▸ hw.valid
    sorted := forall_statistics_asRead (P := fun s => s.json.IsSorted).2 hw.sorted
    shallow := forall_statistics_asRead (P := fun s => s.json.depth ≤ statisticsDepth).2 hd
    regular := l.isRegular_asRead }
  exact := forall_statistics_asRead (P := fun s => s.json.IsExact).2 hx

/-- The ledger after a call, when it has been written and read again. -/
def afterFiled (l : Ledger) (c : Call) : Ledger :=
  (l.after c).asRead

/-- The ledger after some calls, if it is written and read after each of them. -/
def runFiled (l : Ledger) (calls : List Call) : Ledger :=
  calls.foldl afterFiled l

/-- What the calls of a run find, and what they make of it. -/
def steps (l : Ledger) : List Call → List (Ledger × Except LedgerError Record)
  | [] => []
  | c :: calls => (l, l.perform c) :: (l.after c).steps calls

/-- What the calls of a run find and make if the ledger is written and read after each of them. -/
def stepsFiled (l : Ledger) : List Call → List (Ledger × Except LedgerError Record)
  | [] => []
  | c :: calls => (l, l.perform c) :: (l.afterFiled c).stepsFiled calls

/-- A call keeps the ledger storable: what it does not capture has been stored already. -/
theorem Storable.afterFiled (h : l.Storable) (hc : c.IsStorable) : (l.afterFiled c).Storable := by
  have hfound : ∀ q, l.get? c.id = some q → q.statistics.json.IsSorted ∧
      q.statistics.json.IsExact ∧ q.statistics.json.depth ≤ statisticsDepth := fun q hq =>
    have hmem := (mem_entries_iff h.readable.nodup).2 hq
    ⟨h.readable.sorted _ hmem, h.exact _ hmem, h.readable.shallow _ hmem⟩
  cases hp : l.perform c with
  | error e =>
    rw [Ledger.afterFiled, after_of_error hp, asRead_eq_self_iff.2 h.readable.regular]
    exact h
  | ok record =>
    obtain ⟨hsorted, hexact, hdepth⟩ : record.statistics.json.IsSorted ∧
        record.statistics.json.IsExact ∧ record.statistics.json.depth ≤ statisticsDepth := by
      obtain ⟨capture, ha, -, rfl⟩ | ⟨capture, q, -, hq, rfl⟩ | ⟨edit, q, -, hq, rfl⟩ :=
        perform_cases hp
      · exact hc.statistics capture ha
      · exact hfound q hq
      · exact hfound q hq
    rw [Ledger.afterFiled, after_of_ok hp]
    exact storable_asRead (h.readable.toWellFormed.upsert hc.valid hsorted)
      (h.exact.upsert hexact) (forall_upsert (P := fun r =>
        r.statistics.json.depth ≤ statisticsDepth) h.readable.shallow hdepth)

/-! ### With a file and without -/

/-- Regular calls keep the ledger regular. -/
theorem IsRegular.after (h : l.IsRegular) (hc : c.IsRegular) : (l.after c).IsRegular := by
  have hfound : ∀ q, l.get? c.id = some q → q.IsRegular := fun q hq => by
    obtain ⟨before, behind, hentries, -⟩ := exists_place hq
    exact h (c.id, q) (by simp [hentries])
  cases hp : l.perform c with
  | error e =>
    rw [after_of_error hp]
    exact h
  | ok record =>
    rw [after_of_ok hp]
    refine h.upsert (Record.isRegular_iff.2 ?_)
    obtain ⟨capture, ha, -, rfl⟩ | ⟨capture, q, ha, hq, rfl⟩ | ⟨edit, q, -, hq, rfl⟩ :=
      perform_cases hp
    · exact ⟨hc.state _ (by rw [ha]; rfl), hc.now, hc.now⟩
    · obtain ⟨-, hcreated, hlast⟩ := Record.isRegular_iff.1 (hfound q hq)
      exact ⟨hc.state _ (by rw [ha]; rfl), hcreated, hlast.later hc.now⟩
    · obtain ⟨hstate, hcreated, hlast⟩ := Record.isRegular_iff.1 (hfound q hq)
      exact ⟨hstate, hcreated, hlast.later hc.now⟩

theorem afterFiled_of_isRegular (h : l.IsRegular) (hc : c.IsRegular) :
    l.afterFiled c = l.after c :=
  asRead_eq_self_iff.2 (h.after hc)

/-- Regular calls find and make the same with a file and without. -/
theorem stepsFiled_eq (h : l.IsRegular) {calls : List Call} (hc : ∀ c ∈ calls, c.IsRegular) :
    l.stepsFiled calls = l.steps calls ∧ l.runFiled calls = l.run calls := by
  induction calls generalizing l with
  | nil => exact ⟨rfl, rfl⟩
  | cons c calls ih =>
    obtain ⟨hfirst, hc⟩ := List.forall_mem_cons.1 hc
    obtain ⟨hsteps, hrun⟩ := ih (h.after hfirst) hc
    have hafter := afterFiled_of_isRegular h hfirst
    refine ⟨?_, ?_⟩
    · rw [stepsFiled, steps, hafter, hsteps]
    · rw [runFiled, List.foldl_cons, hafter]
      exact hrun

/-- Which ids a call found, and whether it was accepted. -/
def outline (step : Ledger × Except LedgerError Record) : List PullId × Except LedgerError Unit :=
  (step.1.ids, step.2.map fun _ => ())

/-- An accepted call enters its id, unless it is there. -/
theorem ids_after : (l.after c).ids =
    if (l.verdict c).isOk ∧ c.id ∉ l.ids then l.ids ++ [c.id] else l.ids := by
  unfold verdict
  cases hp : l.perform c with
  | error e =>
    rw [after_of_error hp, if_neg]
    rintro ⟨⟨⟩, _⟩
  | ok record =>
    rw [after_of_ok hp, ids_upsert]
    by_cases hid : c.id ∈ l.ids
    · rw [if_pos hid, if_neg fun h => h.2 hid]
    · rw [if_neg hid, if_pos ⟨rfl, hid⟩]

/-- What decides about a call is for which pull requests there are records. -/
theorem verdict_of_ids_eq (h : l.ids = m.ids) : l.verdict c = m.verdict c :=
  verdict_congr (by rw [contains_eq, contains_eq, h])

/-- With a file and without, calls find the same ids and are accepted alike. -/
theorem outline_stepsFiled (h : l.ids = m.ids) (calls : List Call) :
    (l.stepsFiled calls).map outline = (m.steps calls).map outline := by
  induction calls generalizing l m with
  | nil => rfl
  | cons c calls ih =>
    have hverdict : l.verdict c = m.verdict c := verdict_of_ids_eq h
    have hafter : (l.afterFiled c).ids = (m.after c).ids := by
      rw [afterFiled, ids_asRead, ids_after, ids_after, hverdict, h]
    rw [stepsFiled, steps, List.map_cons, List.map_cons, ih hafter]
    exact congrArg (· :: _) (Prod.ext h hverdict)

theorem accepted_cons (calls : List Call) : l.accepted (c :: calls) =
    if (l.verdict c).isOk then c :: (l.after c).accepted calls
    else (l.after c).accepted calls := by
  unfold verdict
  cases hp : l.perform c with
  | error e => exact accepted_of_error hp calls
  | ok record => exact accepted_of_ok hp calls

theorem accepted_of_ids_eq (h : l.ids = m.ids) (calls : List Call) :
    l.accepted calls = m.accepted calls := by
  induction calls generalizing l m with
  | nil => rfl
  | cons c calls ih =>
    have hverdict : l.verdict c = m.verdict c := verdict_of_ids_eq h
    have hafter : (l.after c).ids = (m.after c).ids := by
      rw [ids_after, ids_after, hverdict, h]
    rw [accepted_cons, accepted_cons, hverdict, ih hafter]

/-- If every call is refused, the file is left alone. -/
theorem runFiled_of_accepted_eq_nil (hr : l.IsRegular) {calls : List Call}
    (h : l.accepted calls = []) : l.runFiled calls = l := by
  induction calls with
  | nil => rfl
  | cons c calls ih =>
    cases hp : l.perform c with
    | ok r =>
      rw [accepted_of_ok hp] at h
      cases h
    | error e =>
      have hafter : l.afterFiled c = l := by
        rw [afterFiled, after_of_error hp, asRead_eq_self_iff.2 hr]
      rw [accepted_of_error hp, after_of_error hp] at h
      rw [runFiled, List.foldl_cons, hafter]
      exact ih h

end Ledger

/-! ### Cycles -/

namespace LedgerFile

/-- Locks and reads a ledger file, makes a call on the ledger, and commits the record, or closes the
file as it is if there is none. -/
def cycle (path : Path) (timeout : Span) (c : Call) :
    Attempt LedgerError (Ledger × Except LedgerError Record) := do
  let f ← acquire path timeout
  match f.ledger.perform c with
  | .ok record =>
    let _ ← f.commit c.id record
    return (f.ledger, .ok record)
  | .error e =>
    ExceptT.lift f.close
    return (f.ledger, .error e)

/-- Makes calls on a ledger file, each in a cycle of its own. -/
def cycles (path : Path) :
    List (Span × Call) → Attempt LedgerError (List (Ledger × Except LedgerError Record))
  | [] => return []
  | (timeout, c) :: requests => do
    let step ← cycle path timeout c
    return step :: (← cycles path requests)

end LedgerFile

/-! ### The places of the files -/

namespace Ledger

/-- The ledger file and those beside it have their places. -/
structure Placed (path : Path) (loc lock temporary : Location) (w : World) : Prop where
  ledger_eq : w.files.fileLocation w.base path = .ok loc
  lock_eq : w.files.fileLocation w.base (LedgerLock.pathFor path) = .ok lock
  temporary_eq : w.files.fileLocation w.base (temporaryPath path) = .ok temporary

/-- There are places for all the files, and nobody has the lock. -/
structure Sites (path : Path) (loc lock temporary : Location) (w : World) : Prop
    extends Placed path loc lock temporary w where
  free : ∀ held ∈ w.locks, held.2 ≠ lock

variable {path : Path} {loc lock temporary : Location} {l : Ledger} {w v : World}

theorem Placed.mono (h : Placed path loc lock temporary w) (hb : v.base = w.base)
    (hf : ∀ p l, w.files.fileLocation w.base p = .ok l → v.files.fileLocation w.base p = .ok l) :
    Placed path loc lock temporary v where
  ledger_eq := hb ▸ hf _ _ h.ledger_eq
  lock_eq := hb ▸ hf _ _ h.lock_eq
  temporary_eq := hb ▸ hf _ _ h.temporary_eq

theorem Placed.ne_lock (h : Placed path loc lock temporary w) : loc ≠ lock := by
  obtain ⟨d, name, hp, -, rfl, -⟩ := FileTree.fileLocation_eq_ok.1 h.ledger_eq
  exact FileTree.ne_of_sibling hp (by decide) (by decide) (FileTree.names_of_fileLocation h.lock_eq)

/-- Nothing has to be created around the files. -/
theorem Placed.createParent (h : Placed path loc lock temporary w) :
    (createParent path).run w = (.ok (), w) := by
  obtain ⟨d, name, hp, -⟩ := FileTree.fileLocation_eq_ok.1 h.ledger_eq
  exact createParent_of_place hp

theorem Placed.createParent_lock (h : Placed path loc lock temporary w) :
    (RepairLedger.createParent (LedgerLock.pathFor path)).run w = (.ok (), w) := by
  obtain ⟨d, name, hp, -⟩ := FileTree.fileLocation_eq_ok.1 h.lock_eq
  exact createParent_of_place hp

/-- All locks on the lock file are one. -/
def LockedBy (key : Lock) (lock : Location) (w : World) : Prop :=
  ∀ held ∈ w.locks, held.2 = lock → held.1 = key

/-- Whoever gives the lock back leaves it free. -/
theorem Placed.unlock {key : Lock} (h : Placed path loc lock temporary w)
    (hk : LockedBy key lock w) :
    Sites path loc lock temporary (w.perform (.unlock key)).2 := by
  refine ⟨h.mono rfl fun _ _ hl => hl, fun held hheld heq => ?_⟩
  obtain ⟨hmem, hne⟩ := List.mem_filter.1 hheld
  exact absurd (hk held hmem heq) (by simpa using hne)

/-- The lock can be taken, and the ledger is left alone by that. -/
theorem Sites.lock_ok (h : Sites path loc lock temporary w) (timeout : Span) :
    ∃ key v, w.lock (LedgerLock.pathFor path) timeout = (.ok key, v) ∧
      Placed path loc lock temporary v ∧ LockedBy key lock v ∧
      v.files.get? loc = w.files.get? loc := by
  have hfree : w.locks.any (·.2 = lock) = false := by
    simpa using fun key location hmem => h.free (key, location) hmem
  have hheld : ∀ held ∈ (w.freshLock, lock) :: w.locks, held.2 = lock → held.1 = w.freshLock := by
    intro held hmem heq
    rcases List.mem_cons.1 hmem with rfl | hmem
    · rfl
    · exact absurd heq (h.free held hmem)
  cases hentry : w.files.get? lock with
  | some entry =>
    refine ⟨w.freshLock, { w with locks := (w.freshLock, lock) :: w.locks }, ?_,
      h.toPlaced.mono rfl fun _ _ hl => hl, hheld, rfl⟩
    simp [World.lock, FileTree.ensureFile, h.lock_eq, hentry, hfree, bind, Except.bind]
  | none =>
    refine ⟨w.freshLock, { w with
      files := w.files.set lock (.file []), locks := (w.freshLock, lock) :: w.locks }, ?_,
      h.toPlaced.mono rfl fun _ _ hl => FileTree.fileLocation_set h.lock_eq hl, hheld, ?_⟩
    · simp [World.lock, FileTree.ensureFile, h.lock_eq, hentry, hfree, bind, Except.bind]
    · dsimp only
      rw [FileTree.get?_set (FileTree.names_of_fileLocation h.lock_eq).ne_nil, if_neg h.ne_lock]

theorem Placed.write_ok {key : Lock} (h : Placed path loc lock temporary w)
    (hk : LockedBy key lock w) (bytes : Bytes) :
    ∃ v, w.perform (.write (temporaryPath path) bytes) = (.ok (), v) ∧
      Placed path loc lock temporary v ∧ LockedBy key lock v ∧
      v.files.get? temporary = some (.file bytes) := by
  refine ⟨{ w with files := w.files.set temporary (.file bytes) }, ?_,
    h.mono rfl fun _ _ hl => FileTree.fileLocation_set h.temporary_eq hl, hk, ?_⟩
  · simp [World.perform, World.change, FileTree.write, h.temporary_eq, bind, Except.bind]
  · rw [FileTree.get?_set (FileTree.names_of_fileLocation h.temporary_eq).ne_nil, if_pos rfl]

/-- The move takes the locks on the temporary file along, and those on the lock file stay. -/
theorem Placed.rename_ok {key : Lock} {bytes : Bytes} (h : Placed path loc lock temporary w)
    (hk : LockedBy key lock w) (hb : w.files.get? temporary = some (.file bytes)) :
    ∃ v, w.perform (.rename (temporaryPath path) path) = (.ok (), v) ∧
      Placed path loc lock temporary v ∧ LockedBy key lock v ∧
      v.files.get? loc = some (.file bytes) := by
  obtain ⟨files, hfiles⟩ := FileTree.rename_of_fileLocation h.temporary_eq hb h.ledger_eq
  have hmoved := FileTree.moved_of_rename hfiles
  obtain ⟨moved, hmovedBytes, hget⟩ := hmoved.bytes
  rw [hb] at hmovedBytes
  cases hmovedBytes
  refine ⟨(w.rename (temporaryPath path) path).2, ?_, ?_, ?_, ?_⟩
  · simp only [World.perform, World.rename, hfiles]
  · simp only [World.rename, hfiles]
    exact h.mono rfl fun _ _ hl => hmoved.fileLocation_eq hl
  · simp only [World.rename, hfiles]
    intro held hmem heq
    obtain ⟨was, hwas, rfl⟩ := List.mem_map.1 hmem
    split at heq
    · exact absurd heq h.ne_lock
    · rw [if_neg ‹_›]
      exact hk was (List.mem_of_mem_filter hwas) heq
  · simp only [World.rename, hfiles, hget, if_true]

/-- A ledger can be written, whatever was there before. -/
theorem Placed.save_ok {key : Lock} (h : Placed path loc lock temporary w)
    (hk : LockedBy key lock w) (l : Ledger) :
    ∃ v, runIn (l.save path) w = (.ok (), v) ∧ Placed path loc lock temporary v ∧
      LockedBy key lock v ∧ v.files.get? loc = some (.file (Text.encode l.text)) := by
  obtain ⟨w₁, hwrite, h₁, hk₁, hb⟩ := h.write_ok hk (Text.encode l.text)
  obtain ⟨w₂, hrename, h₂, hk₂, hb₂⟩ := h₁.rename_ok hk₁ hb
  refine ⟨w₂, ?_, h₂, hk₂, hb₂⟩
  unfold save
  refine runIn_bind_ok.2 ⟨(), w, runIn_attempt_ok.2 h.createParent, ?_⟩
  refine runIn_bind_ok.2 ⟨(), w₁, runIn_attempt_ok.2 hwrite, ?_⟩
  exact runIn_bind_ok.2 ⟨(), w₂, runIn_attempt_ok.2 hrename, rfl⟩

end Ledger

namespace LedgerFile

variable {path : Path} {loc lock temporary : Location} {l : Ledger} {w v : World} {c : Call}

/-- A free ledger can be locked and read. -/
theorem acquire_of_sites (h : Ledger.Sites path loc lock temporary w)
    (hl : l.IsHeldBy (w.files.get? loc)) (timeout : Span) :
    ∃ key v, runIn (acquire path timeout) w = (.ok ⟨path, l, key⟩, v) ∧
      Ledger.Placed path loc lock temporary v ∧ Ledger.LockedBy key lock v ∧
      v.files.get? loc = w.files.get? loc := by
  obtain ⟨key, v, hlock, hv, hk, hget⟩ := h.lock_ok timeout
  refine ⟨key, v, ?_, hv, hk, hget⟩
  have htaken : runIn (LedgerLock.acquire (LedgerLock.pathFor path) timeout) w = (.ok key, v) := by
    refine runIn_bind_ok.2 ⟨(), w, runIn_attempt_ok.2 h.createParent_lock, ?_⟩
    refine runIn_bind_ok.2 ⟨.ok key, v, ?_, rfl⟩
    rw [runIn_ask, World.perform, hlock]
  refine runIn_bind_ok.2 ⟨key, v, htaken, runIn_bind_ok.2 ⟨l, v, ?_, rfl⟩⟩
  rw [runIn_releasing_ok, Ledger.runIn_load, Ledger.ofRead_of_isHeldBy hv.ledger_eq (hget ▸ hl)]

/-- **One cycle.**  It finds the ledger that the file holds and does to the file what the call does
to the ledger. -/
theorem cycle_of_sites (h : Ledger.Sites path loc lock temporary w)
    (hl : l.IsHeldBy (w.files.get? loc)) (timeout : Span) (c : Call) :
    ∃ v, runIn (cycle path timeout c) w = (.ok (l, l.perform c), v) ∧
      Ledger.Sites path loc lock temporary v ∧
      v.files.get? loc = if (l.perform c).isOk then some (.file (Text.encode (l.after c).text))
        else w.files.get? loc := by
  obtain ⟨key, v, hacquire, hv, hk, hget⟩ := acquire_of_sites h hl timeout
  cases hp : l.perform c with
  | error e =>
    refine ⟨(v.perform (.unlock key)).2, runIn_bind_ok.2 ⟨_, v, hacquire, ?_⟩, hv.unlock hk, hget⟩
    simp only [hp]
    rfl
  | ok record =>
    obtain ⟨u, hsave, hu, hk', hwritten⟩ := hv.save_ok hk (l.upsert c.id record)
    refine ⟨(u.perform (.unlock key)).2, runIn_bind_ok.2 ⟨_, v, hacquire, ?_⟩, hu.unlock hk', ?_⟩
    · simp only [hp]
      refine runIn_bind_ok.2 ⟨l.upsert c.id record, (u.perform (.unlock key)).2, ?_, rfl⟩
      refine runIn_bind_ok.2 ⟨(), u, runIn_releasing_ok.2 hsave, ?_⟩
      exact runIn_bind_ok.2 ⟨(), _, rfl, rfl⟩
    · rw [Ledger.after_of_ok hp]
      exact hwritten

/-! ### Runs of cycles -/

/-- The bytes of a file after a run of calls on the ledger that it holds. -/
def entryAfter (l : Ledger) (calls : List Call) (entry : Option Entry) : Option Entry :=
  if l.accepted calls = [] then entry else some (.file (Text.encode (l.runFiled calls).text))

/-- After one call and the others, the file is what it is after all of them. -/
theorem entryAfter_cons (l : Ledger) (c : Call) (calls : List Call) (entry : Option Entry) :
    entryAfter (l.afterFiled c) calls (if (l.perform c).isOk then
        some (.file (Text.encode (l.after c).text)) else entry) =
      entryAfter l (c :: calls) entry := by
  have hrun : l.runFiled (c :: calls) = (l.afterFiled c).runFiled calls := rfl
  have haccepted : (l.afterFiled c).accepted calls = (l.after c).accepted calls :=
    Ledger.accepted_of_ids_eq (l.after c).ids_asRead calls
  rw [entryAfter, entryAfter, hrun, haccepted]
  cases hp : l.perform c with
  | error e =>
    rw [Ledger.accepted_of_error hp]
    rfl
  | ok record =>
    have hne : c :: (l.after c).accepted calls ≠ [] := List.cons_ne_nil _ _
    rw [Ledger.accepted_of_ok hp, if_neg hne]
    by_cases hnil : (l.after c).accepted calls = []
    · have hleft : (l.afterFiled c).runFiled calls = l.afterFiled c :=
        Ledger.runFiled_of_accepted_eq_nil (l.after c).isRegular_asRead (haccepted.trans hnil)
      rw [if_pos hnil, hleft, Ledger.afterFiled, Ledger.text_asRead]
      rfl
    · rw [if_neg hnil]

theorem cycles_of_sites (h : Ledger.Sites path loc lock temporary w)
    (hl : l.IsHeldBy (w.files.get? loc)) (hs : l.Storable) (requests : List (Span × Call))
    (hc : ∀ r ∈ requests, r.2.IsStorable) :
    ∃ v, runIn (cycles path requests) w = (.ok (l.stepsFiled (requests.map Prod.snd)), v) ∧
      Ledger.Sites path loc lock temporary v ∧
      v.files.get? loc = entryAfter l (requests.map Prod.snd) (w.files.get? loc) := by
  induction requests generalizing l w with
  | nil => exact ⟨w, rfl, h, rfl⟩
  | cons request requests ih =>
    obtain ⟨timeout, c⟩ := request
    have hs' : (l.afterFiled c).Storable := hs.afterFiled (hc _ List.mem_cons_self)
    obtain ⟨u, hcycle, hu, hget⟩ := cycle_of_sites h hl timeout c
    have hl' : (l.afterFiled c).IsHeldBy (u.files.get? loc) := by
      rw [hget]
      cases hp : l.perform c with
      | error e =>
        rw [Ledger.afterFiled, Ledger.after_of_error hp,
          Ledger.asRead_eq_self_iff.2 hs.readable.regular]
        exact hl
      | ok record =>
        have hread := hs'.readable.reread hs'.exact
        rw [Ledger.afterFiled, Ledger.text_asRead, ← Ledger.ofBytes_text] at hread
        exact hread
    obtain ⟨v, hrun, hv, hend⟩ := ih hu hl' hs' fun r hr => hc r (List.mem_cons_of_mem _ hr)
    refine ⟨v, ?_, hv, ?_⟩
    · unfold cycles
      exact runIn_bind_ok.2 ⟨_, u, hcycle, runIn_bind_ok.2 ⟨_, v, hrun, rfl⟩⟩
    · rw [hend, hget]
      exact entryAfter_cons l c _ _

end LedgerFile

/-! ### From a missing file on -/

/-- There is no ledger file at the path, but one can be kept there: when the directories around it
have been created, it and the files beside it have their places, and nobody has the lock. -/
structure Ledger.IsAwaitedAt (path : Path) (w : World) : Prop where
  missing : w.files.read w.base path = .error .notFound
  sites : ∃ v loc lock temporary, (createParent path).run w = (.ok (), v) ∧
    Ledger.Sites path loc lock temporary v ∧ v.files.get? loc = none

/-- The directories around a ledger are those around its lock. -/
theorem createParent_pathFor {t : FileTree} {base loc : Location} {path : Path}
    (h : t.fileLocation base path = .ok loc) :
    createParent (LedgerLock.pathFor path) = createParent path := by
  obtain ⟨d, name, hp, -, -, -⟩ := FileTree.fileLocation_eq_ok.1 h
  obtain ⟨outer, hrev, -, hcomponent, hdots⟩ := FileTree.pieces_of_place hp
  have hparent : (LedgerLock.pathFor path).parent? = path.parent? :=
    Path.parent?_withEnding hrev hcomponent hdots (by decide)
  rw [createParent, createParent, hparent]

/-- Directories that are created first need not be there. -/
theorem LedgerFile.runIn_acquire_of_created {path : Path} {w u : World} (timeout : Span)
    (hw : (createParent (LedgerLock.pathFor path)).run w = (.ok (), u))
    (hu : (createParent (LedgerLock.pathFor path)).run u = (.ok (), u)) :
    runIn (LedgerFile.acquire path timeout) w = runIn (LedgerFile.acquire path timeout) u := by
  unfold LedgerFile.acquire LedgerLock.acquire
  simp only [runIn_bind, runIn_attempt, hw, hu]

/-- From a missing file on, each cycle finds the ledger that the calls before it make of the empty
one if it is written and read after each of them.  If no call has been accepted, the file is still
missing, and otherwise it is the text of the last of these ledgers. -/
theorem LedgerFile.cycles_filed {path : Path} {w : World} (h : Ledger.IsAwaitedAt path w)
    (requests : List (Span × Call)) (hc : ∀ r ∈ requests, r.2.IsStorable) :
    ∃ v, runIn (LedgerFile.cycles path requests) w =
        (.ok (Ledger.empty.stepsFiled (requests.map Prod.snd)), v) ∧
      v.files.read v.base path =
        if Ledger.empty.accepted (requests.map Prod.snd) = [] then .error .notFound
        else .ok (Text.encode (Ledger.empty.runFiled (requests.map Prod.snd)).text) := by
  obtain ⟨u, loc, lock, temporary, hcreate, hu, hnone⟩ := h.sites
  obtain ⟨v, hrun, hv, hentry⟩ := LedgerFile.cycles_of_sites hu (l := .empty) (by rw [hnone]; rfl)
    Ledger.storable_empty requests hc
  cases requests with
  | nil => exact ⟨w, rfl, h.missing⟩
  | cons request requests =>
    refine ⟨v, ?_, ?_⟩
    · -- The directories are created in the first cycle, which goes on as if they had been there.
      have hsame := createParent_pathFor hu.ledger_eq
      obtain ⟨timeout, c⟩ := request
      have hacquire := LedgerFile.runIn_acquire_of_created timeout (hsame ▸ hcreate)
        (hsame ▸ hu.createParent)
      rw [← hrun]
      simp only [LedgerFile.cycles, LedgerFile.cycle, runIn_bind, hacquire]
    · rw [FileTree.read_of_fileLocation hv.ledger_eq, hentry, LedgerFile.entryAfter, hnone]
      by_cases hnil : Ledger.empty.accepted ((request :: requests).map Prod.snd) = []
      · rw [if_pos hnil, if_pos hnil]
      · rw [if_neg hnil, if_neg hnil]

/-- **Cycles on a file do what the calls do to a ledger in memory.**  From a missing file on, each
cycle finds a ledger of the same ids as the calls before it make of the empty one, and its call is
accepted or refused with the same error; and if no call has been accepted, the file is still
missing.  If the instants in the calls are regular, each cycle finds the very ledger and makes the
same record of it, and if a call has been accepted, the file is the text of the ledger in memory. -/
theorem LedgerFile.cycles_refine {path : Path} {w : World} (h : Ledger.IsAwaitedAt path w)
    (requests : List (Span × Call)) (hc : ∀ r ∈ requests, r.2.IsStorable) :
    ∃ found v, runIn (LedgerFile.cycles path requests) w = (.ok found, v) ∧
      found.map Ledger.outline =
        (Ledger.empty.steps (requests.map Prod.snd)).map Ledger.outline ∧
      (v.files.read v.base path = .error .notFound ↔
        Ledger.empty.accepted (requests.map Prod.snd) = []) ∧
      ((∀ r ∈ requests, r.2.IsRegular) →
        found = Ledger.empty.steps (requests.map Prod.snd) ∧
        v.files.read v.base path =
          if Ledger.empty.accepted (requests.map Prod.snd) = [] then .error .notFound
          else .ok (Text.encode (Ledger.empty.run (requests.map Prod.snd)).text)) := by
  obtain ⟨v, hrun, hread⟩ := LedgerFile.cycles_filed h requests hc
  refine ⟨_, v, hrun, Ledger.outline_stepsFiled rfl _, ?_, fun hr => ?_⟩
  · rw [hread]
    split
    · exact iff_of_true rfl ‹_›
    · exact iff_of_false (by rintro ⟨⟩) ‹_›
  · have hcalls : ∀ c ∈ requests.map Prod.snd, c.IsRegular := List.forall_mem_map.2 hr
    obtain ⟨hsteps, hfinal⟩ := Ledger.stepsFiled_eq Ledger.readable_empty.regular hcalls
    rw [hread, hfinal]
    exact ⟨hsteps, rfl⟩

/-- A creation, a second one that is refused, an edit of another pull request that is refused, and a
finalization, on a file whose directory is missing. -/
theorem LedgerFile.cycles_refine_created :
    let k : PullId := ⟨"acme", "widget", 42⟩
    let state : PullState := ⟨"url", .epoch, none, none, "open", false, 42⟩
    let create : Call := ⟨k, .create ⟨state, "diff", .empty⟩, .epoch⟩
    let edit : Call := ⟨⟨"acme", "widget", 7⟩, .annotate ⟨.afterOpening, "why", "edit"⟩, .epoch⟩
    let calls : List Call := [create, create, edit, ⟨k, .finalize ⟨state, "final"⟩, .epoch⟩]
    let path : Path := ⟨"data/prs.json"⟩
    let w : World := .empty .epoch []
    let requests : List (Span × Call) := calls.map fun c => (.ofMillis 2000, c)
    Ledger.IsAwaitedAt path w ∧ (∀ r ∈ requests, r.2.IsStorable) ∧
      (∀ r ∈ requests, r.2.IsRegular) ∧
      ∃ v, runIn (LedgerFile.cycles path requests) w = (.ok (Ledger.empty.steps calls), v) ∧
        v.files.read v.base path = .ok (Text.encode (Ledger.empty.run calls).text) := by
  intro k state create edit calls path w requests
  have hempty : Statistics.empty.json.IsSorted ∧ Statistics.empty.json.IsExact ∧
      Statistics.empty.json.depth ≤ Ledger.statisticsDepth :=
    ⟨Statistics.isSorted_json_empty, trivial, by decide⟩
  have hc : ∀ r ∈ requests, r.2.IsStorable ∧ r.2.IsRegular := by
    intro r hr
    obtain ⟨c, hcall, rfl⟩ := List.mem_map.1 hr
    simp only [calls, List.mem_cons, List.not_mem_nil, or_false] at hcall
    have hstate : ∀ s ∈ some state, s.IsRegular := by rintro _ ⟨⟩; decide
    rcases hcall with rfl | rfl | rfl | rfl
    · exact ⟨⟨by decide, by rintro _ ⟨⟩; exact hempty⟩, by decide, hstate⟩
    · exact ⟨⟨by decide, by rintro _ ⟨⟩; exact hempty⟩, by decide, hstate⟩
    · exact ⟨⟨by decide, by rintro _ ⟨⟩⟩, by decide, by rintro _ ⟨⟩⟩
    · exact ⟨⟨by decide, by rintro _ ⟨⟩⟩, by decide, hstate⟩
  have hw : Ledger.IsAwaitedAt path w := by
    refine ⟨by decide +kernel, { w with files := ⟨[(["data"], .directory)]⟩ },
      ["data", "prs.json"], ["data", "prs.json.lock"], ["data", "prs.json.tmp"],
      by decide +kernel, ⟨⟨by decide +kernel, by decide +kernel, by decide +kernel⟩, ?_⟩, rfl⟩
    simp [w, World.empty]
  have hstorable : ∀ r ∈ requests, r.2.IsStorable := fun r hr => (hc r hr).1
  have hregular : ∀ r ∈ requests, r.2.IsRegular := fun r hr => (hc r hr).2
  obtain ⟨found, v, hrun, -, -, hsame⟩ := LedgerFile.cycles_refine hw requests hstorable
  obtain ⟨rfl, hread⟩ := hsame hregular
  exact ⟨hw, hstorable, hregular, v, hrun, hread⟩

/-- A creation at the leap second of 09:00:00, which is written as the second 09:00:01.  The next
cycle does not find the record that was created; and the time of its call, the beginning of that
second, comes later than the leap second, but not than the time that it finds. -/
theorem LedgerFile.cycles_ne_of_leap :
    let k : PullId := ⟨"acme", "widget", 42⟩
    let day : Date := ⟨2021, 3, 1, by decide⟩
    let leap : Instant := ⟨day, 32400, 1333333333, by decide, by decide⟩
    let next : Instant := ⟨day, 32401, 0, by decide, by decide⟩
    let read : Instant := ⟨day, 32401, 333333333, by decide, by decide⟩
    let state : PullState := ⟨"url", .epoch, none, none, "open", false, 42⟩
    let calls : List Call := [⟨k, .create ⟨state, "diff", .empty⟩, leap⟩,
      ⟨k, .finalize ⟨state, "final"⟩, next⟩, ⟨k, .annotate ⟨.afterOpening, "why", "edit"⟩, next⟩]
    let path : Path := ⟨"prs.json"⟩
    let w : World := .empty .epoch []
    let requests : List (Span × Call) := calls.map fun c => (.ofMillis 2000, c)
    let changed (step : Ledger × Except LedgerError Record) : Option Instant :=
      (step.1.get? k).map (·.times.lastModified)
    Ledger.IsAwaitedAt path w ∧ (∀ r ∈ requests, r.2.IsStorable) ∧
      ∃ found v, runIn (LedgerFile.cycles path requests) w = (.ok found, v) ∧
        found.map changed = [none, some read, some read] ∧
        (Ledger.empty.steps calls).map changed = [none, some leap, some next] ∧
        found ≠ Ledger.empty.steps calls := by
  intro k day leap next read state calls path w requests changed
  have hc : ∀ r ∈ requests, r.2.IsStorable := by
    intro r hr
    obtain ⟨c, hcall, rfl⟩ := List.mem_map.1 hr
    simp only [calls, List.mem_cons, List.not_mem_nil, or_false] at hcall
    rcases hcall with rfl | rfl | rfl
    · refine ⟨by decide, ?_⟩
      rintro _ ⟨⟩
      exact ⟨Statistics.isSorted_json_empty, trivial, by decide⟩
    · exact ⟨by decide, by rintro _ ⟨⟩⟩
    · exact ⟨by decide, by rintro _ ⟨⟩⟩
  have hw : Ledger.IsAwaitedAt path w := by
    refine ⟨by decide +kernel, w, ["prs.json"], ["prs.json.lock"], ["prs.json.tmp"],
      by decide +kernel, ⟨⟨by decide +kernel, by decide +kernel, by decide +kernel⟩, ?_⟩, rfl⟩
    simp [w, World.empty]
  obtain ⟨v, hrun, -⟩ := LedgerFile.cycles_filed hw requests hc
  have hfound : (Ledger.empty.stepsFiled calls).map changed = [none, some read, some read] := by
    decide +kernel
  have hmemory : (Ledger.empty.steps calls).map changed = [none, some leap, some next] := by
    decide +kernel
  refine ⟨hw, hc, _, v, hrun, hfound, hmemory, fun hsame => ?_⟩
  have hboth := hfound.symm.trans ((congrArg (List.map changed) hsame).trans hmemory)
  exact absurd hboth (by decide)

end RepairLedger
