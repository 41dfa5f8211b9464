import RepairLedger.Proofs.Ledger.Saving

/-!
# What becomes of a ledger file

Two things can become of the ledger file when a command tries to change it.  It is spared
(`Ledger.Spared`): whatever its path leads to is as it was, readable or not.  Or it is replaced
(`Ledger.Replaced`): the ledger that was there before has given way to another one, and no temporary
file is left.

In both cases only the files beside it and new directories around it may have changed as well.  That
they do not get in the way of the ledger is a matter of their names (`World.Within.get?_eq_or`).
-/

namespace RepairLedger

open Host

/-- The path is another one with an ending added to its name. -/
def Host.Path.IsSibling (sibling path : Path) : Prop :=
  ∃ ending : String, sibling = path.withEnding ending ∧ '/' ∉ ending.toList ∧ ending.toList ≠ []

namespace Host.World.Within

variable {files dirs : List Path} {path : Path} {d loc : Location} {name : Piece} {w v : World}

/-- Where only siblings are changed, a file is what it was; but where nothing was, a directory may
have come. -/
theorem get?_eq_or (h : w.Within files dirs v) (hs : ∀ p ∈ files, p.IsSibling path)
    (hp : v.files.place w.base path = .ok (.named d name false)) :
    v.files.get? (d ++ [String.ofList name]) = w.files.get? (d ++ [String.ofList name]) ∨
      w.files.get? (d ++ [String.ofList name]) = none ∧
        v.files.get? (d ++ [String.ofList name]) = some .directory := by
  rcases h.confined.frame (d ++ [String.ofList name]) with heq | ⟨p, hmem, hn⟩ | ⟨hnone, hdir, -⟩
  · exact .inl heq
  · obtain ⟨ending, rfl, he, hne⟩ := hs p hmem
    exact absurd rfl (FileTree.ne_of_sibling hp he hne hn)
  · exact .inr ⟨hnone, hdir⟩

theorem get?_eq (h : w.Within files dirs v) (hs : ∀ p ∈ files, p.IsSibling path)
    (hl : v.files.fileLocation w.base path = .ok loc) : v.files.get? loc = w.files.get? loc := by
  obtain ⟨d, name, hp, -, rfl, hdir⟩ := FileTree.fileLocation_eq_ok.1 hl
  rcases h.get?_eq_or hs hp with heq | ⟨-, hnew⟩
  · exact heq
  · exact absurd hnew hdir

end Host.World.Within

namespace Ledger

/-- The files that are written beside a ledger file: the lock and the file for the new ledger. -/
def companions (path : Path) : List Path :=
  [LedgerLock.pathFor path, temporaryPath path]

/-- The directories that are created around a ledger file. -/
def surroundings (path : Path) : List Path :=
  (LedgerLock.pathFor path).directories ++ path.directories

theorem isSibling_of_mem_companions {sibling path : Path} (h : sibling ∈ companions path) :
    sibling.IsSibling path := by
  rcases List.mem_cons.1 h with rfl | h
  · exact ⟨".lock", rfl, by decide, by decide⟩
  · obtain rfl := List.mem_singleton.1 h
    exact ⟨".tmp", rfl, by decide, by decide⟩

/-- The ledger file at the path is as it was, whatever it is. -/
structure Spared (path : Path) (w v : World) : Prop where
  /-- Only the files beside it have changed, and there may be new directories. -/
  within : w.Within (companions path) (surroundings path) v
  /-- Where the path leads to a file now, there is what there was, also if it led nowhere then. -/
  entry : ∀ loc, v.files.fileLocation w.base path = .ok loc →
    v.files.get? loc = w.files.get? loc
  /-- If the path led to the place of a file, the same bytes are read there, or still none. -/
  bytes : ∀ loc, w.files.fileLocation w.base path = .ok loc → ∀ bytes,
    v.files.read w.base path = .ok bytes ↔ w.files.read w.base path = .ok bytes

/-- The ledger at the path has been replaced by another one. -/
structure Replaced (path : Path) (l l' : Ledger) (w v : World) : Prop where
  /-- Only it and the files beside it have changed, and there may be new directories. -/
  within : w.Within (path :: companions path) (surroundings path) v
  /-- Where the ledger is, there was the old one; if there was no file, the old one is empty. -/
  before : ∀ loc, v.files.fileLocation v.base path = .ok loc → l.IsHeldBy (w.files.get? loc)
  after : l'.WrittenTo path v

variable {l l' : Ledger} {path : Path} {w v v' : World}

theorem spared_of_within (h : w.Within (companions path) (surroundings path) v) :
    Spared path w v := by
  have hs : ∀ p ∈ companions path, p.IsSibling path := fun _ => isSibling_of_mem_companions
  refine ⟨h, fun loc hl => h.get?_eq hs hl, fun loc hl bytes => ?_⟩
  obtain ⟨d, name, hp, hlong, rfl, -⟩ := FileTree.fileLocation_eq_ok.1 hl
  have hp' := FileTree.place_keeps h.confined.keeps hp
  rw [FileTree.read_of_place hp hlong, FileTree.read_of_place hp' hlong]
  rcases h.get?_eq_or hs hp' with heq | ⟨hnone, hdir⟩
  · rw [heq]
  · -- A directory has no bytes, and neither has nothing.
    rw [hnone, hdir]
    simp

theorem Spared.refl (path : Path) (w : World) : Spared path w w :=
  spared_of_within (.refl w)

theorem Spared.of_files_eq (h : Spared path w v) (hb : v'.base = v.base)
    (hf : v'.files = v.files) : Spared path w v' :=
  spared_of_within (h.within.trans (.of_files_eq hb hf))

theorem Replaced.of_files_eq (h : Replaced path l l' w v) (hb : v'.base = v.base)
    (hf : v'.files = v.files) : Replaced path l l' w v' where
  within := h.within.trans (.of_files_eq hb hf)
  before := by
    rw [hb, hf]
    exact h.before
  after := ⟨by rw [hb, hf]; exact h.after.ledger, by rw [hb, hf]; exact h.after.temporary⟩

/-- What is read under the lock was there before the lock was taken, wherever the path leads to
after all. -/
theorem isHeldBy_of_locked {files dirs : List Path} {u : World}
    (hwu : w.Within [LedgerLock.pathFor path] dirs u) (huv : u.Within files dirs v)
    (hlock : ∃ loc, u.files.Names u.base (LedgerLock.pathFor path) loc)
    (hread : ofRead path (u.files.read u.base path) = .ok l) {loc : Location}
    (hl : v.files.fileLocation v.base path = .ok loc) : l.IsHeldBy (w.files.get? loc) := by
  have hs : ∀ p ∈ [LedgerLock.pathFor path], p.IsSibling path := fun p hp =>
    isSibling_of_mem_companions (List.mem_cons.2 (.inl (List.mem_singleton.1 hp)))
  obtain ⟨lock, hlock⟩ := hlock
  rw [huv.base_eq] at hl
  obtain ⟨d, name, hp, hlong, rfl, hdir⟩ := FileTree.fileLocation_eq_ok.1 hl
  -- The lock is beside the ledger, so the ledger has had its place since the lock was taken.
  obtain ⟨d', hp', -⟩ := FileTree.place_of_sibling hp (by decide) hlock
  have hsame := FileTree.place_keeps huv.confined.keeps hp'
  rw [hp] at hsame
  cases hsame
  have hl' : u.files.fileLocation u.base path = .ok (d ++ [String.ofList name]) :=
    FileTree.fileLocation_eq_ok.2 ⟨d, name, hp', hlong, rfl, fun h => hdir (huv.confined.keeps _ h)⟩
  have hheld := isHeldBy_of_ofRead hl' hread
  rw [hwu.base_eq] at hl'
  rwa [hwu.get?_eq hs hl'] at hheld

/-- The old ledger could be loaded if its path led to the place of a file. -/
theorem Replaced.load_before (h : Replaced path l l' w v) {loc : Location}
    (hl : w.files.fileLocation w.base path = .ok loc) :
    Attempt.runIn (load path) w = (.ok l, w) := by
  obtain ⟨loc', hl', -⟩ := h.after.ledger
  have hbefore := h.before loc' hl'
  have hnames := (FileTree.names_of_fileLocation hl).keeps h.within.confined.keeps
  rw [h.within.base_eq] at hl'
  obtain rfl := hnames.unique (FileTree.names_of_fileLocation hl')
  rw [runIn_load, ofRead_of_isHeldBy hl hbefore]

/-- The new ledger can be loaded if its text can be read. -/
theorem Replaced.load_after (h : Replaced path l l' w v) :
    Attempt.runIn (load path) v =
      ((ofBytes (Text.encode l'.text)).mapError (LedgerError.corrupt path), v) := by
  rw [runIn_load, h.after.read]
  rfl

end Ledger

end RepairLedger
