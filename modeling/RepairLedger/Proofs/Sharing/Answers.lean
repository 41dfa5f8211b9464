import RepairLedger.Proofs.Host.Goals
import RepairLedger.Proofs.Ledger.Saving

/-!
# What the world may answer

A world alone gives one answer to each operation (`World.perform`).  When many processes share a
world, and for any length of time, more can happen: the clock goes on, servers say what they like,
the lock may be refused since it was taken a moment ago, and files may fail to be read, written or
moved without a reason that could be seen (`World.Answers`).

Two things are still certain.  What is read is what is there (`World.Answers.read_ok`,
`World.Answers.read_missing`), and an operation changes only the files that it is about
(`World.Answers.within`).
-/

namespace RepairLedger.Host.World

/-- What may happen instead of what a world does when it is left alone.  A write that fails may
leave a part of the bytes, or other bytes, in its file; nothing is said to be missing that is there.
-/
def Varies (w : World) : (op : Op) → op.Reply → World → Prop
  | .fetch _, _, v | .now, _, v => v = w
  | .read _, reply, v => v = w ∧ ∃ cause, reply = .error cause ∧ cause ≠ .notFound
  | .write path _, reply, v => (∃ cause, reply = .error cause) ∧
      (v = w ∨ ∃ part, w.perform (.write path part) = (.ok (), v))
  | .makeDirectory _, reply, v | .rename _ _, reply, v => v = w ∧ ∃ cause, reply = .error cause
  | .lock path _, reply, v => (∃ failure, reply = .error failure) ∧
      (v = w ∨ ∃ files loc, w.files.ensureFile w.base path = .ok (files, loc) ∧
        v = { w with files })
  | _, _, _ => False

/-- A reply to an operation, and the world after it. -/
def Answers (w : World) (op : Op) (reply : op.Reply) (v : World) : Prop :=
  w.perform op = (reply, v) ∨ w.Varies op reply v

namespace Answers

variable {w v : World} {op : Op} {reply : op.Reply} {files dirs : List Path} {path : Path}

/-- A permitted operation keeps to the paths, whatever is answered. -/
theorem within (h : w.Answers op reply v) (hop : Permits files dirs op) :
    w.Within files dirs v := by
  have hperform : ∀ {op : Op} {reply : op.Reply} {u}, Permits files dirs op →
      w.perform op = (reply, u) → w.Within files dirs u := by
    rintro op reply u hop hu
    have := Within.perform hop w
    rwa [hu] at this
  rcases h with h | h
  · exact hperform hop h
  · cases op with
    | write path bytes =>
      obtain ⟨-, rfl | ⟨part, hpart⟩⟩ := h
      · exact .refl v
      · have hpermits : Permits files dirs (.write path part) := hop
        exact hperform hpermits hpart
    | lock path timeout =>
      obtain ⟨-, rfl | ⟨files, loc, hf, rfl⟩⟩ := h
      · exact .refl v
      · exact ⟨rfl, .ensureFile hf hop⟩
    | fetch | now =>
      obtain rfl : v = w := h
      exact .refl v
    | read | makeDirectory | rename =>
      obtain ⟨rfl, -⟩ := h
      exact .refl v
    | _ => exact h.elim

/-- Only taking a lock, giving one back and moving a file have to do with locks. -/
theorem locks_eq (h : w.Answers op reply v)
    (hop : match op with | .lock .. | .unlock _ | .rename .. => False | _ => True) :
    v.locks = w.locks := by
  have hchange : ∀ (result : Except Failure FileTree) {reply u}, w.change result = (reply, u) →
      u.locks = w.locks := by
    rintro (_ | _) reply u ⟨⟩ <;> rfl
  rcases h with h | h
  · cases op with
    | write | makeDirectory => exact hchange _ h
    | lock | unlock | rename => exact hop.elim
    | _ =>
      cases h
      rfl
  · cases op with
    | write path bytes =>
      obtain ⟨-, rfl | ⟨part, hpart⟩⟩ := h
      · rfl
      · exact hchange _ hpart
    | fetch | now =>
      obtain rfl : v = w := h
      rfl
    | read | makeDirectory =>
      obtain ⟨rfl, -⟩ := h
      rfl
    | lock | unlock | rename => exact hop.elim
    | _ => exact h.elim

/-- Reading changes nothing. -/
theorem read_world {reply : Except Failure Bytes} (h : w.Answers (.read path) reply v) : v = w := by
  rcases h with h | h
  · cases h
    rfl
  · exact h.1

/-- What is read is what is there. -/
theorem read_ok {bytes : Bytes} (h : w.Answers (.read path) (.ok bytes) v) :
    w.files.get? (FileTree.goal w.base path) = some (.file bytes) := by
  rcases h with h | ⟨-, cause, h, -⟩
  · have hread : w.files.read w.base path = .ok bytes := congrArg Prod.fst h
    obtain ⟨loc, hloc, hread⟩ := bind_eq_ok.1 hread
    obtain rfl := FileTree.eq_goal_of_locate hloc
    split at hread
    · rename_i hentry
      cases hread
      exact hentry
    · cases hread
    · cases hread
  · cases h

/-- What is found missing is missing, if there is the directory that it would be in. -/
theorem read_missing {d : Location} {name : Piece}
    (h : w.Answers (.read path) (.error .notFound) v)
    (hp : w.files.place w.base path = .ok (.named d name false)) :
    w.files.get? (FileTree.goal w.base path) = none := by
  have hgoal : d ++ [String.ofList name] = FileTree.goal w.base path :=
    FileTree.Names.eq_goal ⟨d, name, false, hp, rfl⟩
  rcases h with h | ⟨-, cause, h, hcause⟩
  · rw [← hgoal]
    exact FileTree.get?_of_read_missing hp (congrArg Prod.fst h)
  · cases h
    exact absurd rfl hcause

/-! ### What has been done -/

/-- A lock is given only if nobody has it. -/
theorem lock_ok {timeout : Span} {key : Lock} (h : w.Answers (.lock path timeout) (.ok key) v) :
    (∀ held ∈ w.locks, held.2 ≠ FileTree.goal w.base path) ∧
      v.locks = (key, FileTree.goal w.base path) :: w.locks ∧
      v.files.Names w.base path (FileTree.goal w.base path) := by
  rcases h with h | ⟨⟨failure, h⟩, -⟩
  · have hlock : w.lock path timeout = (.ok key, v) := h
    obtain ⟨loc, hnames⟩ := names_of_lock hlock
    obtain rfl := hnames.eq_goal
    unfold lock at hlock
    split at hlock
    · cases hlock
    · rename_i files location hf
      obtain ⟨loc, hloc, hf⟩ := bind_eq_ok.1 hf
      obtain rfl : location = loc := by split at hf <;> cases hf <;> rfl
      obtain rfl := (FileTree.names_of_fileLocation hloc).eq_goal
      split at hlock
      · cases hlock
      · rename_i hfree
        cases hlock
        refine ⟨fun held hheld heq => hfree ?_, rfl, hnames⟩
        exact List.any_eq_true.2 ⟨held, hheld, by simpa using heq⟩
  · cases h

/-- A lock that is refused leaves all locks as they are. -/
theorem lock_error {timeout : Span} {failure : LockFailure}
    (h : w.Answers (.lock path timeout) (.error failure) v) : v.locks = w.locks := by
  rcases h with h | ⟨-, rfl | ⟨files, loc, -, rfl⟩⟩
  · have hlock : w.lock path timeout = (.error failure, v) := h
    unfold lock at hlock
    split at hlock
    · cases hlock
      rfl
    · split at hlock
      · cases hlock
        rfl
      · cases hlock
  · rfl
  · rfl

theorem write_ok {bytes : Bytes} (h : w.Answers (.write path bytes) (.ok ()) v) :
    v.files.get? (FileTree.goal w.base path) = some (.file bytes) := by
  rcases h with h | ⟨⟨cause, h⟩, -⟩
  · simp only [perform, change] at h
    split at h
    · cases h
    · rename_i files hfiles
      cases h
      obtain ⟨loc, hloc, hentry⟩ := Ledger.fileLocation_of_write hfiles
      obtain rfl := (FileTree.names_of_fileLocation hloc).eq_goal
      exact hentry
  · cases h

/-- A move takes along the locks on the file that is moved, and drops those on the file that it
replaces. -/
theorem rename_ok {source target : Path} (h : w.Answers (.rename source target) (.ok ()) v) :
    FileTree.Moved w.base source target w.files v.files (FileTree.goal w.base source)
        (FileTree.goal w.base target) ∧
      ∀ held ∈ w.locks, held.2 ≠ FileTree.goal w.base source →
        held.2 ≠ FileTree.goal w.base target → held ∈ v.locks := by
  rcases h with h | ⟨-, cause, h⟩
  · simp only [perform, rename] at h
    split at h
    · cases h
    · rename_i files loc location hmove
      cases h
      have hmoved := FileTree.moved_of_rename hmove
      obtain rfl := (FileTree.names_of_fileLocation hmoved.source_eq).eq_goal
      obtain rfl := (FileTree.names_of_fileLocation hmoved.target_eq).eq_goal
      refine ⟨hmoved, fun held hheld hs ht => List.mem_map.2 ⟨held, ?_, if_neg hs⟩⟩
      exact List.mem_filter.2 ⟨hheld, by simpa using ht⟩
  · cases h

/-- A move that fails has moved nothing. -/
theorem rename_error {source target : Path} {cause : Failure}
    (h : w.Answers (.rename source target) (.error cause) v) : v = w := by
  rcases h with h | h
  · simp only [perform, rename] at h
    split at h
    · cases h
      rfl
    · cases h
  · exact h.1

end Answers

namespace Within

variable {w v : World} {files dirs : List Path} {loc : Location}

/-- Away from the files that are changed, the only thing that can come is a directory. -/
theorem get?_of_ne_goal (h : w.Within files dirs v)
    (hloc : ∀ p ∈ files, FileTree.goal w.base p ≠ loc) :
    v.files.get? loc = w.files.get? loc ∨
      w.files.get? loc = none ∧ v.files.get? loc = some .directory := by
  rcases h.confined.frame loc with heq | ⟨p, hmem, hn⟩ | ⟨hnone, hdir, -⟩
  · exact .inl heq
  · exact absurd hn.eq_goal.symm (hloc p hmem)
  · exact .inr ⟨hnone, hdir⟩

/-- What is there, and is not changed, stays. -/
theorem get?_eq_some (h : w.Within files dirs v) (hloc : ∀ p ∈ files, FileTree.goal w.base p ≠ loc)
    {entry : Entry} (he : w.files.get? loc = some entry) : v.files.get? loc = some entry := by
  rcases h.get?_of_ne_goal hloc with heq | ⟨hnone, -⟩
  · rw [heq, he]
  · rw [he] at hnone
    cases hnone

/-- Where there is no directory, what is not changed is as it was. -/
theorem get?_eq_of_not_directory (h : w.Within files dirs v)
    (hloc : ∀ p ∈ files, FileTree.goal w.base p ≠ loc)
    (hdir : v.files.get? loc ≠ some .directory) : v.files.get? loc = w.files.get? loc := by
  rcases h.get?_of_ne_goal hloc with heq | ⟨-, hnew⟩
  · exact heq
  · exact absurd hnew hdir

end Within

end RepairLedger.Host.World
