import RepairLedger.Proofs.Host.Running
import RepairLedger.Proofs.Host.Siblings

/-!
# Saving a ledger

What the cycle of the ledger file does to the files of a world.  Whatever happens, only the lock
file, the temporary file and new directories around them may differ until the very last step
(`Ledger.save_error`); and that step puts the new ledger in the place of the old one and leaves no
temporary file (`Ledger.save_ok`).

Taking the lock also shows where the ledger is: its path names a location in the directory of the
lock (`LedgerFile.acquire_ok`), and what is read there is what was there before the lock was taken.
-/

namespace RepairLedger

open Host

/-! ### Permitted operations -/

/-- The operations that change only files which the first paths name, and create only directories
which the others name. -/
def Permits (files dirs : List Path) : Op → Prop
  | .write path _ | .lock path _ => path ∈ files
  | .makeDirectory path => path ∈ dirs
  | .rename source target => source ∈ files ∧ target ∈ files
  | _ => True

theorem Host.Program.Looks.permits {files dirs : List Path} {op : Op} (h : Program.Looks op) :
    Permits files dirs op := by
  cases op with
  | read | kind | now | environment | workingDirectory | log => trivial
  | _ => exact h.elim

/-- The second world has grown out of the first one, and its files differ only as the paths allow.
-/
structure Host.World.Within (files dirs : List Path) (w v : World) : Prop where
  base_eq : v.base = w.base
  confined : FileTree.Confined w.base files dirs w.files v.files

namespace Host.World.Within

variable {files dirs files' dirs' : List Path} {u v w : World}

theorem refl (w : World) : Within files dirs w w :=
  ⟨rfl, .refl _⟩

theorem trans (h : Within files dirs u v) (h' : Within files dirs v w) : Within files dirs u w :=
  ⟨h'.base_eq.trans h.base_eq, h.confined.trans (h.base_eq ▸ h'.confined)⟩

theorem mono (h : Within files dirs w v) (hf : ∀ p ∈ files, p ∈ files')
    (hd : ∀ p ∈ dirs, p ∈ dirs') : Within files' dirs' w v :=
  ⟨h.base_eq, h.confined.mono hf hd⟩

theorem of_files_eq (hb : v.base = w.base) (hf : v.files = w.files) : Within files dirs w v :=
  ⟨hb, hf ▸ .refl _⟩

/-- What changes no file keeps to any paths. -/
theorem of_nothing (h : Within [] [] w v) : Within files dirs w v :=
  h.mono (fun _ hp => absurd hp List.not_mem_nil) fun _ hp => absurd hp List.not_mem_nil

/-- A permitted operation keeps to the paths. -/
theorem perform {op : Op} (h : Permits files dirs op) (w : World) :
    Within files dirs w (w.perform op).2 := by
  cases op with
  | write path bytes =>
    simp only [World.perform, World.change]
    split
    · exact refl w
    · exact ⟨rfl, .write ‹_› h⟩
  | makeDirectory path =>
    simp only [World.perform, World.change]
    split
    · exact refl w
    · exact ⟨rfl, .makeDirectory ‹_› h⟩
  | rename source target =>
    simp only [World.perform, World.rename]
    split
    · exact refl w
    · exact ⟨rfl, .moved (FileTree.moved_of_rename ‹_›) h.1 h.2⟩
  | lock path timeout =>
    simp only [World.perform, World.lock]
    split
    · exact refl w
    · rename_i hf
      split
      · exact ⟨rfl, .ensureFile hf h⟩
      · exact ⟨rfl, .ensureFile hf h⟩
  | _ => exact of_files_eq rfl rfl

theorem names {base : Location} {path : Path} {loc : Location} (h : Within files dirs w v)
    (hn : w.files.Names base path loc) : v.files.Names base path loc :=
  hn.keeps h.confined.keeps

end Host.World.Within

/-- A program that keeps to what is permitted keeps to the paths. -/
theorem Host.Program.Asks.within {α : Type} {p : Program α} {files dirs : List Path}
    (h : p.Asks (Permits files dirs)) (w : World) : w.Within files dirs (p.run w).2 :=
  h.run .refl .trans (fun _ hop => .perform hop) w

/-- A program that may change no file changes none. -/
theorem Host.Program.Asks.files_eq {α : Type} {p : Program α} (h : p.Asks (Permits [] []))
    (w : World) : (p.run w).2.files = w.files ∧ (p.run w).2.base = w.base := by
  refine h.run (R := fun w v => v.files = w.files ∧ v.base = w.base) (fun _ => ⟨rfl, rfl⟩)
    (fun h h' => ⟨h'.1.trans h.1, h'.2.trans h.2⟩) ?_ w
  intro op hop w
  cases op with
  | write | makeDirectory | lock => exact absurd hop List.not_mem_nil
  | rename => exact absurd hop.1 List.not_mem_nil
  | _ => exact ⟨rfl, rfl⟩

namespace Attempt

variable {ε α : Type} {w v : World} {files dirs : List Path}

theorem Asks.within {p : Attempt ε α} (h : Asks (Permits files dirs) p) {r : Except ε α}
    (hr : runIn p w = (r, v)) : w.Within files dirs v := by
  have := Program.Asks.within h w
  rwa [show (Program.run (ExceptT.run p) w) = (r, v) from hr] at this

theorem Asks.files_eq {p : Attempt ε α} (h : Asks (Permits [] []) p) {r : Except ε α}
    (hr : runIn p w = (r, v)) : v.files = w.files ∧ v.base = w.base := by
  have := Program.Asks.files_eq h w
  rwa [show (Program.run (ExceptT.run p) w) = (r, v) from hr] at this

end Attempt

open Attempt

/-! ### Directories -/

/-- The directories that are created before a file is. -/
def Host.Path.directories (path : Path) : List Path :=
  match path.parent? with
  | none => []
  | some parent => if parent.isEmpty then [] else parent.ancestors

section Directories

variable {P : Op → Prop} (hkind : ∀ path, P (.kind path))
include hkind

theorem asks_createDirectories {paths : List Path} (h : ∀ p ∈ paths, P (.makeDirectory p)) :
    (createDirectories paths).Asks P := by
  -- What is there already is looked at again.
  have hagain : ∀ result path, (createDirectories.again result path).Asks P := by
    intro result path
    unfold createDirectories.again
    split
    · exact .pure _
    · exact .bind (.request (hkind path)) fun _ => .pure _
  induction paths with
  | nil => exact .pure _
  | cons path outer ih =>
    have hpath := h path List.mem_cons_self
    have houter := ih fun p hp => h p (List.mem_cons_of_mem _ hp)
    unfold createDirectories
    refine .bind (.request hpath) fun reply => ?_
    split
    · exact .pure _
    · refine .bind houter fun result => ?_
      split
      · exact .pure _
      · exact .bind (.request hpath) fun _ => hagain _ _
    · exact hagain _ _

theorem asks_createParent {path : Path} (h : ∀ p ∈ path.directories, P (.makeDirectory p)) :
    (createParent path).Asks P := by
  unfold createParent
  unfold Path.directories at h
  cases hparent : path.parent? with
  | none => exact .pure _
  | some parent =>
    rw [hparent] at h
    dsimp only at h ⊢
    split
    · exact .pure _
    · rename_i hempty
      rw [if_neg hempty] at h
      exact asks_createDirectories hkind h

end Directories

/-! ### Loading -/

namespace Ledger

theorem looks_load (path : Path) : Asks Program.Looks (load path) := by
  unfold load
  refine .bind (.ask trivial) fun reply => ?_
  split
  · exact .bind (.ask trivial) fun _ => .pure _
  · exact .throw _
  · split
    · exact .throw _
    · exact .bind (.ask trivial) fun _ => .pure _

/-- The ledger that a read file holds; a missing file holds the empty ledger. -/
def ofRead (path : Path) : Except Failure Bytes → Except LedgerError Ledger
  | .error .notFound => .ok empty
  | .error cause => .error (.readFailed path cause)
  | .ok bytes => (ofBytes bytes).mapError (.corrupt path)

/-- Loading a ledger reads its file and changes nothing. -/
theorem runIn_load (path : Path) (w : World) :
    runIn (load path) w = (ofRead path (w.files.read w.base path), w) := by
  unfold load
  rw [runIn_bind, runIn_ask]
  simp only [World.perform]
  cases hr : w.files.read w.base path with
  | error cause => cases cause <;> rfl
  | ok bytes =>
    simp only [ofRead]
    cases ofBytes bytes <;> rfl

/-- The ledger is what the entry of its file holds. -/
def IsHeldBy (l : Ledger) : Option Entry → Prop
  | none => l = empty
  | some (.file bytes) => ofBytes bytes = .ok l
  | some .directory => False

theorem isHeldBy_of_ofRead {t : FileTree} {base loc : Location} {path : Path} {l : Ledger}
    (hl : t.fileLocation base path = .ok loc) (h : ofRead path (t.read base path) = .ok l) :
    l.IsHeldBy (t.get? loc) := by
  rw [FileTree.read_of_fileLocation hl] at h
  cases he : t.get? loc with
  | none =>
    rw [he] at h
    cases h
    rfl
  | some entry =>
    rw [he] at h
    cases entry with
    | file bytes =>
      simp only [ofRead] at h
      cases hb : ofBytes bytes with
      | error fault =>
        rw [hb] at h
        cases h
      | ok l' =>
        rw [hb] at h
        cases h
        exact hb
    | directory => exact absurd he (FileTree.not_directory_of_fileLocation hl)

theorem ofRead_of_isHeldBy {t : FileTree} {base loc : Location} {path : Path} {l : Ledger}
    (hl : t.fileLocation base path = .ok loc) (h : l.IsHeldBy (t.get? loc)) :
    ofRead path (t.read base path) = .ok l := by
  rw [FileTree.read_of_fileLocation hl]
  cases he : t.get? loc with
  | none =>
    rw [he] at h
    rw [show l = empty from h]
    rfl
  | some entry =>
    rw [he] at h
    cases entry with
    | file bytes =>
      have hbytes : ofBytes bytes = .ok l := h
      simp only [ofRead, hbytes]
      rfl
    | directory => exact h.elim

/-! ### Saving -/

theorem asks_save {P : Op → Prop} {path : Path} (hlooks : ∀ op, Program.Looks op → P op)
    (hdirs : ∀ p ∈ path.directories, P (.makeDirectory p))
    (hwrite : ∀ bytes, P (.write (temporaryPath path) bytes))
    (hmove : P (.rename (temporaryPath path) path)) (l : Ledger) : Asks P (l.save path) := by
  unfold save
  refine .bind (.attempt (asks_createParent (fun _ => hlooks _ trivial) hdirs) _) fun _ => ?_
  refine .bind (.attempt (.request (hwrite _)) _) fun _ => ?_
  refine .bind (.attempt (.request hmove) _) fun _ => ?_
  exact .ask (hlooks _ trivial)

/-- The ledger is the file at the path, and nothing is left where it was written first. -/
structure WrittenTo (l : Ledger) (path : Path) (w : World) : Prop where
  ledger : ∃ loc, w.files.fileLocation w.base path = .ok loc ∧
    w.files.get? loc = some (.file (Text.encode l.text))
  temporary : ∃ loc, w.files.fileLocation w.base (temporaryPath path) = .ok loc ∧
    w.files.get? loc = none

theorem WrittenTo.read {l : Ledger} {path : Path} {w : World} (h : l.WrittenTo path w) :
    w.files.read w.base path = .ok (Text.encode l.text) := by
  obtain ⟨loc, hl, he⟩ := h.ledger
  rw [FileTree.read_of_fileLocation hl, he]

/-- The temporary file with the new ledger in it. -/
theorem fileLocation_of_write {t t' : FileTree} {base : Location} {path : Path} {bytes : Bytes}
    (h : t.write base path bytes = .ok t') :
    ∃ loc, t'.fileLocation base path = .ok loc ∧ t'.get? loc = some (.file bytes) := by
  have hc : FileTree.Confined base [path] [] t t' := .write h (by simp)
  obtain ⟨loc, hl, h⟩ := bind_eq_ok.1 h
  cases h
  have he : (t.set loc (.file bytes)).get? loc = some (.file bytes) := by
    rw [FileTree.get?_set (FileTree.names_of_fileLocation hl).ne_nil, if_pos rfl]
  exact ⟨loc, FileTree.fileLocation_keeps hc.keeps hl (by rw [he]; simp), he⟩

variable {l : Ledger} {path : Path} {w v : World}

/-- A failed save has not touched the ledger file. -/
theorem save_error {e : LedgerError} (h : runIn (l.save path) w = (.error e, v)) :
    w.Within [temporaryPath path] path.directories v := by
  have hdirs : ∀ {u r},
      runIn (attempt (createParent path) (LedgerError.writeFailed path)) w = (r, u) →
      w.Within [temporaryPath path] path.directories u :=
    Asks.within (.attempt (asks_createParent (fun _ => trivial) fun _ hp => hp) _)
  unfold save at h
  -- The steps are taken in their order: the directories, the temporary file and the move.
  rcases runIn_bind_error.1 h with h | ⟨_, u, hu, h⟩
  · exact hdirs h
  refine (hdirs hu).trans ?_
  rcases runIn_bind_error.1 h with h | ⟨_, u', hu', h⟩
  · exact Asks.within (.attempt (.request (by simp [Permits])) _) h
  have hwrite : u.Within [temporaryPath path] path.directories u' :=
    Asks.within (.attempt (.request (by simp [Permits])) _) hu'
  refine hwrite.trans ?_
  rcases runIn_bind_error.1 h with h | ⟨_, _, _, h⟩
  · -- The move failed, and so it has moved nothing.
    obtain ⟨cause, hr, -⟩ := runIn_attempt_error.1 h
    have hv : v = u' := by
      simp only [Program.request, Program.run, World.perform, World.rename] at hr
      split at hr
      · cases hr
        rfl
      · cases hr
    exact hv ▸ .refl _
  · cases h

/-- A save that succeeds leaves the new ledger in its place and no temporary file. -/
theorem save_ok (h : runIn (l.save path) w = (.ok (), v)) :
    w.Within [temporaryPath path, path] path.directories v ∧ l.WrittenTo path v := by
  have hasks : Asks (Permits [temporaryPath path, path] path.directories) (l.save path) :=
    asks_save (fun _ => Program.Looks.permits) (fun _ hp => hp) (by simp [Permits])
      (by simp [Permits]) l
  refine ⟨hasks.within h, ?_⟩
  unfold save at h
  obtain ⟨_, u, -, h⟩ := runIn_bind_ok.1 h
  obtain ⟨_, u₁, hwrite, h⟩ := runIn_bind_ok.1 h
  obtain ⟨_, u₂, hrename, h⟩ := runIn_bind_ok.1 h
  cases h
  have hwrite := runIn_attempt_ok.1 hwrite
  simp only [Program.request, Program.run, World.perform, World.change] at hwrite
  split at hwrite
  · cases hwrite
  rename_i files hfiles
  cases hwrite
  have hrename := runIn_attempt_ok.1 hrename
  simp only [Program.request, Program.run, World.perform, World.rename] at hrename
  split at hrename
  · cases hrename
  rename_i files' source target hmove
  cases hrename
  have hmoved := FileTree.moved_of_rename hmove
  obtain ⟨tmp, htmp, hbytes⟩ := fileLocation_of_write hfiles
  -- What is moved is what has been written.
  rw [hmoved.source_eq] at htmp
  cases htmp
  obtain ⟨bytes, hsource, hget⟩ := hmoved.bytes
  rw [hbytes] at hsource
  cases hsource
  have htarget : files'.get? target = some (.file (Text.encode l.text)) := by
    rw [hget, if_pos rfl]
  -- The temporary file is a sibling of the ledger, so what is gone is not what has been put there.
  have hne : source ≠ target := by
    obtain ⟨d, name, hp, -, rfl, -⟩ := FileTree.fileLocation_eq_ok.1 hmoved.target_eq
    exact (FileTree.ne_of_sibling hp (by decide) (by decide)
      (FileTree.names_of_fileLocation hmoved.source_eq)).symm
  have hgone : files'.get? source = none := by
    rw [hget, if_neg hne, if_pos rfl]
  exact ⟨
    ⟨target, FileTree.fileLocation_keeps hmoved.keeps hmoved.target_eq (by rw [htarget]; simp),
      htarget⟩,
    source, FileTree.fileLocation_keeps hmoved.keeps hmoved.source_eq (by rw [hgone]; simp), hgone⟩

end Ledger

/-! ### The lock -/

theorem LedgerLock.asks_acquire {P : Op → Prop} {path : Path} {timeout : Span}
    (hlooks : ∀ op, Program.Looks op → P op)
    (hdirs : ∀ p ∈ path.directories, P (.makeDirectory p)) (hlock : P (.lock path timeout)) :
    Asks P (LedgerLock.acquire path timeout) := by
  unfold LedgerLock.acquire
  refine .bind (.attempt (asks_createParent (fun _ => hlooks _ trivial) hdirs) _) fun _ => ?_
  refine .bind (.ask hlock) fun reply => ?_
  split
  · exact .bind (.ask (hlooks _ trivial)) fun _ => .pure _
  · exact .throw _
  · exact .bind (.ask (hlooks _ trivial)) fun _ => .throw _

theorem Host.World.names_of_lock {path : Path} {timeout : Span} {lock : Lock} {w v : World}
    (h : w.lock path timeout = (.ok lock, v)) : ∃ loc, v.files.Names v.base path loc := by
  unfold World.lock at h
  split at h
  · cases h
  · rename_i files location hf
    have hc : FileTree.Confined w.base [path] [] w.files files := .ensureFile hf (by simp)
    have hnames : files.Names w.base path location := by
      obtain ⟨loc, hl, hf⟩ := bind_eq_ok.1 hf
      have hn := (FileTree.names_of_fileLocation hl).keeps hc.keeps
      split at hf <;> cases hf <;> exact hn
    split at h <;> cases h
    exact ⟨location, hnames⟩

/-- A lock that has been taken is on a file that its path names. -/
theorem LedgerLock.acquire_ok {path : Path} {timeout : Span} {lock : Lock} {w v : World}
    (h : runIn (LedgerLock.acquire path timeout) w = (.ok lock, v)) :
    ∃ loc, v.files.Names v.base path loc := by
  obtain ⟨_, u, -, h⟩ := runIn_bind_ok.1 h
  obtain ⟨reply, u', hlock, h⟩ := runIn_bind_ok.1 h
  have hreply : u.lock path timeout = (reply, u') := by
    rw [runIn_ask] at hlock
    cases hlock
    rfl
  rcases reply with failure | lock'
  · cases failure <;> cases h
  · cases h
    exact World.names_of_lock hreply

namespace LedgerFile

variable {path : Path} {timeout : Span} {w v : World}

theorem asks_acquire {P : Op → Prop} (hlooks : ∀ op, Program.Looks op → P op)
    (hdirs : ∀ p ∈ (LedgerLock.pathFor path).directories, P (.makeDirectory p))
    (hlock : P (.lock (LedgerLock.pathFor path) timeout)) (hunlock : ∀ key, P (.unlock key)) :
    Asks P (acquire path timeout) := by
  refine .bind (LedgerLock.asks_acquire hlooks hdirs hlock) fun lock => ?_
  exact .bind (.releasing ((Ledger.looks_load path).mono hlooks) (hunlock lock)) fun _ => .pure _

theorem asks_commit {P : Op → Prop} {f : LedgerFile} (hlooks : ∀ op, Program.Looks op → P op)
    (hdirs : ∀ p ∈ f.path.directories, P (.makeDirectory p))
    (hwrite : ∀ bytes, P (.write (Ledger.temporaryPath f.path) bytes))
    (hmove : P (.rename (Ledger.temporaryPath f.path) f.path)) (hunlock : P (.unlock f.lock))
    (id : PullId) (record : Record) : Asks P (f.commit id record) :=
  .bind (.releasing (Ledger.asks_save hlooks hdirs hwrite hmove _) hunlock) fun _ =>
    .bind (.ask hunlock) fun _ => .pure _

/-- A ledger file that has been locked and read: the lock is beside it, and the ledger is what can
be read now. -/
theorem acquire_ok {f : LedgerFile} (h : runIn (acquire path timeout) w = (.ok f, v)) :
    f.path = path ∧ (∃ loc, v.files.Names v.base (LedgerLock.pathFor path) loc) ∧
      Ledger.ofRead path (v.files.read v.base path) = .ok f.ledger := by
  obtain ⟨lock, u, hlock, h⟩ := runIn_bind_ok.1 h
  obtain ⟨ledger, u', hload, h⟩ := runIn_bind_ok.1 h
  cases h
  rw [runIn_releasing, Ledger.runIn_load] at hload
  cases hr : Ledger.ofRead path (u.files.read u.base path) with
  | error e =>
    rw [hr] at hload
    cases hload
  | ok l =>
    rw [hr] at hload
    cases hload
    exact ⟨rfl, LedgerLock.acquire_ok hlock, hr⟩

theorem commit_error {f : LedgerFile} {id : PullId} {record : Record} {e : LedgerError}
    (h : runIn (f.commit id record) w = (.error e, v)) :
    w.Within [Ledger.temporaryPath f.path] f.path.directories v := by
  rcases runIn_bind_error.1 h with h | ⟨_, _, _, h⟩
  · rw [runIn_releasing] at h
    rcases hs : runIn ((f.ledger.upsert id record).save f.path) w with ⟨_ | _, u⟩
    · rw [hs] at h
      cases h
      exact (Ledger.save_error hs).trans (.of_files_eq rfl rfl)
    · rw [hs] at h
      cases h
  · rcases runIn_bind_error.1 h with h | ⟨_, _, _, h⟩ <;> cases h

theorem commit_ok {f : LedgerFile} {id : PullId} {record : Record} {l : Ledger}
    (h : runIn (f.commit id record) w = (.ok l, v)) :
    w.Within [Ledger.temporaryPath f.path, f.path] f.path.directories v ∧
      (f.ledger.upsert id record).WrittenTo f.path v := by
  obtain ⟨_, u, hs, h⟩ := runIn_bind_ok.1 h
  obtain ⟨_, u', hu, h⟩ := runIn_bind_ok.1 h
  cases h
  cases hu
  rw [runIn_releasing] at hs
  rcases hs' : runIn ((f.ledger.upsert id record).save f.path) w with ⟨_ | _, u''⟩
  · rw [hs'] at hs
    cases hs
  · rw [hs'] at hs
    cases hs
    obtain ⟨hw, hl⟩ := Ledger.save_ok hs'
    -- Giving back the lock changes no file.
    exact ⟨hw.trans (.of_files_eq rfl rfl), hl.ledger, hl.temporary⟩

end LedgerFile

end RepairLedger
