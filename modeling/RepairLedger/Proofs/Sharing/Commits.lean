import RepairLedger.Proofs.Sharing.Protocol

/-!
# Commits

What processes that keep to the protocol make of a ledger file.  Since the lock is with one of them
at most, what the holder has read is still what the file holds, as nobody else moves anything there
(`Kept.quiet`); so a move puts a ledger there that follows the one it replaces (`Kept.commit`), and
the file is always what the last commit has left (`Run.kept`).

No lock is needed to read: the file changes only by the move, in one step, so that whoever reads it
sees what some commit has left (`Kept.reads`).
-/

namespace RepairLedger

/-- An operation that has been carried out was allowed. -/
theorem Ledger.check_of_perform {l : Ledger} {c : Call} {record : Record}
    (h : l.perform c = .ok record) : c.action.operation.check l c.id = .ok () := by
  obtain ⟨_, ha, hl, -⟩ | ⟨_, _, ha, hl, -⟩ | ⟨_, _, ha, hl, -⟩ := Ledger.perform_cases h
  · simp [ha, Action.operation, Operation.check, Ledger.contains, hl]
  · simp [ha, Action.operation, Operation.check, Ledger.contains, hl]
  · simp [ha, Action.operation, Operation.check, Ledger.contains, hl]

namespace Sharing

open Host

/-! ### Lineages -/

/-- A new ledger in the place of the old one: the call that a process made on what it had read, and
the record that came of it. -/
structure Commit (ι : Type) where
  who : ι
  before : Ledger
  call : Call
  record : Record

/-- The file that a commit leaves. -/
def Commit.entry {ι : Type} (c : Commit ι) : Entry :=
  .file (Text.encode (c.before.upsert c.call.id c.record).text)

/-- The commits follow one another from what was there at first to what is there now: each one is a
call on the ledger that was left by the one before it, and was allowed there. -/
inductive Lineage {ι : Type} (initial : Option Entry) : List (Commit ι) → Option Entry → Prop
  | initial : Lineage initial [] initial
  | commit {commits : List (Commit ι)} {e : Option Entry} (h : Lineage initial commits e)
    (c : Commit ι) (hb : c.before.IsHeldBy e)
    (hc : c.call.action.operation.check c.before c.call.id = .ok ())
    (hr : c.before.perform c.call = .ok c.record) :
    Lineage initial (commits ++ [c]) (some c.entry)

/-- Commits leave files, so where nothing is there was nothing at first. -/
theorem Lineage.eq_none {ι : Type} {initial : Option Entry} {commits : List (Commit ι)}
    (h : Lineage initial commits none) : initial = none := by
  cases h
  rfl

/-! ### Steps -/

variable {ι : Type} {path : Path} {may : ι → Call → Prop} {start w v : World}
  {trace : List (Event ι)} {φ : ι → Phase} {p : ι} {op : Op} {reply : op.Reply} {ψ ψ' : Phase}
  {commits : List (Commit ι)}

/-- What has been read under the lock is still there, and what is there is what the last commit has
left.  The commits are the moves, in their order. -/
structure Kept (path : Path) (may : ι → Call → Prop) (start : World) (trace : List (Event ι))
    (w : World) (φ : ι → Phase) (commits : List (Commit ι)) : Prop where
  keeps : FileTree.Keeps start.files w.files
  loaded : ∀ p l, (φ p).ledger? = some l →
    w.files.get? (FileTree.goal start.base path) ≠ some .directory →
    l.IsHeldBy (w.files.get? (FileTree.goal start.base path))
  written : ∀ p key l c record, φ p = .written key l c record →
    may p c ∧ l.perform c = .ok record ∧
      w.files.get? (FileTree.goal start.base (Ledger.temporaryPath path)) =
        some (.file (Text.encode (l.upsert c.id record).text))
  lineage : w.files.get? (FileTree.goal start.base path) ≠ some .directory →
    Lineage (start.files.get? (FileTree.goal start.base path)) commits
      (w.files.get? (FileTree.goal start.base path))
  movers : commits.map Commit.who = trace.filterMap Event.mover?
  entitled : ∀ c ∈ commits, may c.who c.call
  done : ∀ p c record, (φ p).done? = some (c, record) →
    ∃ commit ∈ commits, commit.who = p ∧ commit.call = c ∧ commit.record = record
  reads : ∀ p bytes, ⟨p, .read path, .ok bytes⟩ ∈ trace → ∃ earlier, earlier <+: commits ∧
    Lineage (start.files.get? (FileTree.goal start.base path)) earlier (some (.file bytes))
  missing : ∀ p, ⟨p, .read path, .error .notFound⟩ ∈ trace →
    (∃ d name, start.files.place start.base path = .ok (.named d name false)) →
    start.files.get? (FileTree.goal start.base path) = none

/-- What is read under the lock is what the file holds. -/
theorem isHeldBy_of_load {t : FileTree} {d : Location} {name : Piece} {key : Lock}
    {reply : Except Failure Bytes} {l : Ledger}
    (hplace : t.place start.base path = .ok (.named d name false))
    (hg : Guarded path start.base w φ) (hφ : (φ p).key? = some key)
    (hread : Ledger.ofRead path reply = .ok l) (ha : w.Answers (.read path) reply v) :
    l.IsHeldBy (w.files.get? (FileTree.goal start.base path)) := by
  have hbase := hg.base_eq
  cases reply with
  | ok bytes =>
    have hentry := ha.read_ok
    rw [hbase] at hentry
    rw [hentry]
    exact mapError_eq_ok.1 hread
  | error cause =>
    cases cause with
    | notFound =>
      -- The lock is beside the ledger, so the directory is there.
      obtain ⟨d', hplace', -⟩ := FileTree.place_of_sibling hplace (by decide) (hg.held p key hφ).2
      have hentry := ha.read_missing (hbase ▸ hplace')
      rw [hbase] at hentry
      cases hread
      rw [hentry]
      rfl
    | _ => cases hread

variable [DecidableEq ι]

/-- A step that moves no file leaves the ledger to whoever has read it, and the temporary file to
whoever has written it. -/
theorem Kept.quiet (h : Kept path may start trace w φ commits)
    (hg : Guarded path start.base w φ) (hapart : Apart start.base path)
    (hm : Moves path (may p) ψ op reply ψ') (hφ : φ p = ψ) (ha : w.Answers op reply v)
    (hmover : (Event.mk p op reply).mover? = none)
    (hloaded : ∀ l, ψ'.ledger? = some l → ψ.ledger? = some l ∨
      l.IsHeldBy (w.files.get? (FileTree.goal start.base path)))
    (hwritten : ∀ key l c record, ψ' = .written key l c record →
      may p c ∧ l.perform c = .ok record ∧
        v.files.get? (FileTree.goal start.base (Ledger.temporaryPath path)) =
          some (.file (Text.encode (l.upsert c.id record).text)))
    (hdone : ψ'.done? = ψ.done?) :
    Kept path may start (trace ++ [⟨p, op, reply⟩]) v (Function.update φ p ψ') commits := by
  obtain ⟨dirs, hwithin⟩ := hm.within_companions ha p hmover
  have hbase := hg.base_eq
  -- The ledger is as it was, unless it has become a directory.
  have hledger : v.files.get? (FileTree.goal start.base path) ≠ some .directory →
      v.files.get? (FileTree.goal start.base path) =
        w.files.get? (FileTree.goal start.base path) := by
    rw [← hbase] at hapart ⊢
    exact hwithin.get?_eq_of_not_directory hapart.companions_ne
  have hother : ∀ q, q ≠ p → Function.update φ p ψ' q = φ q := fun q hq =>
    Function.update_of_ne hq ψ' φ
  constructor
  case keeps => exact fun loc hloc => hwithin.confined.keeps loc (h.keeps loc hloc)
  case loaded =>
    intro q l hq hdir
    have hsame := hledger hdir
    rw [hsame] at hdir ⊢
    by_cases hqp : q = p
    · subst hqp
      rw [Function.update_self] at hq
      rcases hloaded l hq with hold | hnew
      · exact h.loaded q l (hφ ▸ hold) hdir
      · exact hnew
    · exact h.loaded q l (hother q hqp ▸ hq) hdir
  case written =>
    intro q key l c record hq
    by_cases hqp : q = p
    · subst hqp
      rw [Function.update_self] at hq
      exact hwritten key l c record hq
    · rw [hother q hqp] at hq
      obtain ⟨hmay, hperform, hentry⟩ := h.written q key l c record hq
      -- Only the holder of the lock writes the temporary file, and that is not the one that moves.
      have hnokey : ψ.key? = none := by
        cases hk : ψ.key? with
        | none => rfl
        | some key' => exact absurd (hg.alone q p key key' (by rw [hq]; rfl) (hφ ▸ hk)) hqp
      obtain ⟨dirs, hwithin⟩ := hm.within_of_no_key ha hnokey
      refine ⟨hmay, hperform, hwithin.get?_eq_some (fun r hr => ?_) hentry⟩
      obtain rfl := List.mem_singleton.1 hr
      rw [hbase]
      exact hapart.temporary_lock.symm
  case lineage =>
    intro hdir
    have hsame := hledger hdir
    rw [hsame] at hdir ⊢
    exact h.lineage hdir
  case movers =>
    rw [List.filterMap_append, ← h.movers]
    simp [hmover]
  case entitled => exact h.entitled
  case done =>
    intro q c record hq
    by_cases hqp : q = p
    · subst hqp
      rw [Function.update_self, hdone] at hq
      exact h.done q c record (hφ ▸ hq)
    · exact h.done q c record (hother q hqp ▸ hq)
  case reads =>
    intro q bytes hmem
    rcases List.mem_append.1 hmem with hmem | hmem
    · exact h.reads q bytes hmem
    · cases List.mem_singleton.1 hmem
      have hentry := hbase ▸ ha.read_ok
      exact ⟨commits, List.prefix_refl _, hentry ▸ h.lineage (by rw [hentry]; simp)⟩
  case missing =>
    intro q hmem hplace
    rcases List.mem_append.1 hmem with hmem | hmem
    · exact h.missing q hmem hplace
    · cases List.mem_singleton.1 hmem
      obtain ⟨d, name, hplace⟩ := hplace
      have hnone := ha.read_missing (hbase ▸ FileTree.place_keeps h.keeps hplace)
      rw [hbase] at hnone
      exact Lineage.eq_none (hnone ▸ h.lineage (by rw [hnone]; simp))

/-- **A commit.**  What the process has read is still there, so the new ledger follows the one that
it replaces. -/
theorem Kept.commit {key : Lock} {l : Ledger} {c : Call} {record : Record}
    (h : Kept path may start trace w φ commits) (hg : Guarded path start.base w φ)
    (hφ : φ p = .written key l c record)
    (ha : w.Answers (.rename (Ledger.temporaryPath path) path) (.ok ()) v) :
    Kept path may start (trace ++ [⟨p, .rename (Ledger.temporaryPath path) path, .ok ()⟩]) v
      (Function.update φ p (.moved key c record)) (commits ++ [⟨p, l, c, record⟩]) := by
  obtain ⟨hmay, hperform, htemporary⟩ := h.written p key l c record hφ
  obtain ⟨hmoved, -⟩ := ha.rename_ok
  rw [hg.base_eq] at hmoved
  obtain ⟨bytes, hbytes, hget⟩ := hmoved.bytes
  rw [htemporary] at hbytes
  cases hbytes
  have hdir := FileTree.not_directory_of_fileLocation hmoved.target_eq
  have hentry : v.files.get? (FileTree.goal start.base path) =
      some (Commit.entry ⟨p, l, c, record⟩) := by
    rw [hget, if_pos rfl]
    rfl
  -- Nobody else has read the file under the lock.
  have hnobody : ∀ q l, (Function.update φ p (Phase.moved key c record) q).ledger? ≠ some l := by
    intro q l hq
    by_cases hqp : q = p
    · subst hqp
      rw [Function.update_self] at hq
      cases hq
    · rw [Function.update_of_ne hqp] at hq
      obtain ⟨key', hkey'⟩ := Phase.exists_key_of_ledger hq
      exact hqp (hg.alone q p key' key hkey' (by rw [hφ]; rfl))
  constructor
  case keeps => exact fun loc hloc => hmoved.keeps loc (h.keeps loc hloc)
  case loaded => exact fun q l hq => absurd hq (hnobody q l)
  case written =>
    intro q key' l' c' record' hq
    exact absurd (by rw [hq]; rfl) (hnobody q l')
  case lineage =>
    intro _
    rw [hentry]
    exact .commit (h.lineage hdir) _ (h.loaded p l (by rw [hφ]; rfl) hdir)
      (Ledger.check_of_perform hperform) hperform
  case movers =>
    rw [List.map_append, List.filterMap_append, ← h.movers]
    rfl
  case entitled =>
    intro commit hcommit
    rcases List.mem_append.1 hcommit with hcommit | hcommit
    · exact h.entitled commit hcommit
    · obtain rfl := List.mem_singleton.1 hcommit
      exact hmay
  case done =>
    intro q c' record' hq
    by_cases hqp : q = p
    · subst hqp
      rw [Function.update_self] at hq
      cases hq
      exact ⟨_, List.mem_append_right _ (List.mem_singleton.2 rfl), rfl, rfl, rfl⟩
    · rw [Function.update_of_ne hqp] at hq
      obtain ⟨commit, hcommit, hwho⟩ := h.done q c' record' hq
      exact ⟨commit, List.mem_append_left _ hcommit, hwho⟩
  case reads =>
    intro q bytes hmem
    rcases List.mem_append.1 hmem with hmem | hmem
    · obtain ⟨earlier, hprefix, hlineage⟩ := h.reads q bytes hmem
      exact ⟨earlier, hprefix.trans (List.prefix_append _ _), hlineage⟩
    · cases List.mem_singleton.1 hmem
  case missing =>
    intro q hmem hplace
    rcases List.mem_append.1 hmem with hmem | hmem
    · exact h.missing q hmem hplace
    · cases List.mem_singleton.1 hmem

/-- Whatever is done next, the ledger is kept, perhaps with one more commit. -/
theorem Kept.step {t : FileTree} {d : Location} {name : Piece}
    (h : Kept path may start trace w φ commits)
    (hplace : t.place start.base path = .ok (.named d name false))
    (hg : Guarded path start.base w φ) (hm : Moves path (may p) (φ p) op reply ψ)
    (ha : w.Answers op reply v) :
    ∃ commits',
      Kept path may start (trace ++ [⟨p, op, reply⟩]) v (Function.update φ p ψ) commits' := by
  have hapart := apart_of_place hplace
  generalize hφ : φ p = χ at hm
  have hmoves := hm
  cases hm with
  | move key l c record => exact ⟨_, h.commit hg hφ ha⟩
  | free _ hfree =>
    refine ⟨commits, h.quiet hg hapart hmoves hφ ha (hfree.mover?_eq_none p)
      (fun l hl => .inl hl) (fun key l c record hψ => ?_) rfl⟩
    obtain ⟨hmay, hperform, hentry⟩ := h.written p key l c record (hφ.trans hψ)
    obtain ⟨dirs, hdirs⟩ := hfree.permits
    exact ⟨hmay, hperform,
      (ha.within hdirs).get?_eq_some (fun q hq => absurd hq List.not_mem_nil) hentry⟩
  | look | refuse | take | failToWrite =>
    exact ⟨commits, h.quiet hg hapart hmoves hφ ha rfl (fun l hl => .inl hl)
      (fun key l c record hψ => by cases hψ) rfl⟩
  | release =>
    exact ⟨commits, h.quiet hg hapart hmoves hφ ha rfl
      (fun l hl => by cases hl) (fun key l c record hψ => by cases hψ) rfl⟩
  | load hread =>
    refine ⟨commits, h.quiet hg hapart hmoves hφ ha rfl (fun l hl => ?_)
      (fun key l c record hψ => by cases hψ) rfl⟩
    cases hl
    exact .inr (isHeldBy_of_load hplace hg (by rw [hφ]; rfl) hread ha)
  | reread =>
    obtain rfl := ha.read_world
    exact ⟨commits, h.quiet hg hapart hmoves hφ ha rfl (fun l hl => .inl hl)
      (fun key l c record hψ => h.written p key l c record (hφ.trans hψ)) rfl⟩
  | failToMove =>
    obtain rfl := ha.rename_error
    exact ⟨commits, h.quiet hg hapart hmoves hφ ha rfl (fun l hl => .inl hl)
      (fun key l c record hψ => h.written p key l c record (hφ.trans hψ)) rfl⟩
  | write hmay hperform =>
    refine ⟨commits, h.quiet hg hapart hmoves hφ ha rfl (fun l hl => .inl hl)
      (fun key l c record hψ => ?_) rfl⟩
    cases hψ
    have hentry := ha.write_ok
    rw [hg.base_eq] at hentry
    exact ⟨hmay, hperform, hentry⟩

/-! ### Whole runs -/

/-- **The ledger is kept in every run.** -/
theorem Run.kept {t : FileTree} {d : Location} {name : Piece}
    (h : Run path may start trace w φ)
    (hplace : t.place start.base path = .ok (.named d name false)) :
    ∃ commits, Kept path may start trace w φ commits := by
  induction h with
  | start =>
    refine ⟨[], ⟨fun _ h => h, ?_, ?_, fun _ => .initial, rfl, ?_, ?_, ?_, ?_⟩⟩
    · intro p l hp
      cases hp
    · intro p key l c record hp
      cases hp
    · intro c hc
      exact absurd hc List.not_mem_nil
    · intro p c record hp
      cases hp
    · intro p bytes hmem
      exact absurd hmem List.not_mem_nil
    · intro p hmem
      exact absurd hmem List.not_mem_nil
  | step hrun ha hm ih =>
    obtain ⟨commits, hkept⟩ := ih
    exact hkept.step hplace (hrun.guarded (apart_of_place hplace)) hm ha

/-- Once a ledger has been moved into its place, there is a file. -/
theorem Run.exists_file (h : Run path may start trace w φ) {e : Event ι} (he : e ∈ trace)
    (hmover : e.mover? ≠ none) :
    ∃ loc bytes, w.files.fileLocation w.base path = .ok loc ∧
      w.files.get? loc = some (.file bytes) := by
  induction h with
  | start => exact absurd he List.not_mem_nil
  | @step trace w v φ p op reply ψ _ ha hm ih =>
    by_cases hnew : (Event.mk p op reply).mover? = none
    · -- The new step is another one, and does not touch the file.
      have hold : e ∈ trace := by
        rcases List.mem_append.1 he with he | he
        · exact he
        · exact absurd hnew (List.mem_singleton.1 he ▸ hmover)
      obtain ⟨loc, bytes, hloc, hentry⟩ := ih hold
      obtain ⟨d, name, hplace, -⟩ := FileTree.fileLocation_eq_ok.1 hloc
      obtain rfl := (FileTree.names_of_fileLocation hloc).eq_goal
      obtain ⟨dirs, hwithin⟩ := hm.within_companions ha p hnew
      have hkept := hwithin.get?_eq_some (apart_of_place hplace).companions_ne hentry
      refine ⟨_, bytes, ?_, hkept⟩
      rw [hwithin.base_eq]
      exact FileTree.fileLocation_keeps hwithin.confined.keeps hloc (by rw [hkept]; simp)
    · have hmoved := hm.moved ha hnew
      obtain ⟨dirs, hwithin⟩ := hm.within ha
      obtain ⟨bytes, -, hget⟩ := hmoved.bytes
      refine ⟨_, bytes, ?_, by rw [hget, if_pos rfl]⟩
      rw [hwithin.base_eq]
      exact hmoved.fileLocation_eq hmoved.target_eq

end Sharing

end RepairLedger
