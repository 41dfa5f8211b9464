import RepairLedger.Proofs.Host.Directories

/-!
# Where paths lead

Whether a path leads anywhere depends on the directories that are there.  Where it leads, if it
does, depends on its text alone (`FileTree.goal`), since there are no links.  So the place of a file
can be spoken of in every state of the world, also before its directory has been created
(`FileTree.Names.eq_goal`, `FileTree.eq_goal_of_locate`).

The goals of a file and its siblings are in one directory, under different names
(`FileTree.goal_withEnding`).
-/

namespace RepairLedger.Host.FileTree

variable {t : FileTree} {base location loc d : Location} {path : Path} {pieces more : List Piece}

/-- The location that pieces lead to from another one, if all directories on the way are there. -/
def walk (location : Location) : List Piece → Location
  | [] => location
  | piece :: pieces =>
    if piece = [] ∨ piece = ['.'] then walk location pieces
    else if piece = ['.', '.'] then walk location.dropLast pieces
    else walk (location ++ [String.ofList piece]) pieces

/-- The location that a path leads to, if it leads to any. -/
def goal (base : Location) (path : Path) : Location :=
  walk (start base path) (Text.pieces '/' path.text.toList)

theorem walk_append (location : Location) (pieces more : List Piece) :
    walk location (pieces ++ more) = walk (walk location pieces) more := by
  induction pieces generalizing location with
  | nil => rfl
  | cons piece pieces ih =>
    simp only [List.cons_append, walk, ih]
    split
    · rfl
    · split <;> rfl

theorem walk_skipped {skipped : List Piece} (h : ∀ p ∈ skipped, Piece.isComponent p = false)
    (location : Location) : walk location skipped = location := by
  induction skipped with
  | nil => rfl
  | cons p skipped ih =>
    have hp : p = [] ∨ p = ['.'] := by
      have := h p List.mem_cons_self
      simpa [Piece.isComponent, or_iff_not_imp_left] using this
    rw [walk, if_pos hp]
    exact ih fun q hq => h q (List.mem_cons_of_mem _ hq)

theorem walk_name {name : Piece} (hn : name.isComponent) (hdots : name ≠ ['.', '.'])
    (location : Location) : walk location [name] = location ++ [String.ofList name] := by
  obtain ⟨hne, hdot⟩ : name ≠ [] ∧ name ≠ ['.'] := by simpa [Piece.isComponent] using hn
  rw [walk, if_neg (not_or.2 ⟨hne, hdot⟩), if_neg hdots, walk]

theorem eq_walk_of_follow (h : t.follow location pieces = .ok d) : d = walk location pieces := by
  induction pieces generalizing location with
  | nil =>
    cases h
    rfl
  | cons piece pieces ih =>
    obtain ⟨next, hnext, hf⟩ := bind_eq_ok.1 h
    obtain ⟨-, henter⟩ := enter_eq_ok.1 hnext
    rw [walk]
    split at henter
    · rw [if_pos ‹_›, ← henter]
      exact ih hf
    · rw [if_neg ‹_›]
      split at henter
      · rw [if_pos ‹_›, ← henter]
        exact ih hf
      · rw [if_neg ‹_›, ← henter.2.1]
        exact ih hf

/-- What can be looked at is at the goal of the path. -/
theorem eq_goal_of_locate (h : t.locate base path = .ok loc) : loc = goal base path := by
  obtain ⟨⟨⟩, -, hf⟩ := bind_eq_ok.1 h
  exact eq_walk_of_follow hf

/-- What can be created is at the goal of the path. -/
theorem Names.eq_goal (h : Names t base path loc) : loc = goal base path := by
  obtain ⟨d, name, slash, hp, rfl⟩ := h
  obtain ⟨-, ⟨outer, ho, hf⟩, -, hdots, -⟩ := place_eq_named.1 hp
  obtain ⟨blanks, hblanks, hpieces⟩ := pieces_eq path
  have hne : name ≠ [] := ne_nil_of_reversedPieces ho
  have hcomponent : name.isComponent := by simp [Piece.isComponent, hne, hdots.1]
  rw [goal, hpieces, ho, walk_append, walk_skipped hblanks, List.reverse_cons, walk_append,
    walk_name hcomponent hdots.2, ← eq_walk_of_follow hf]

/-- What is read is what is at the location that the path leads to. -/
theorem read_of_locate {l : Location} (hl : t.locate base path = .ok l) :
    t.read base path = match t.get? l with
      | some (.file bytes) => .ok bytes
      | some .directory => .error .isDirectory
      | none => .error .notFound := by
  rw [read, hl]
  rfl

/-- What can be read is a file. -/
theorem kind?_of_read {bytes : Bytes} (h : t.read base path = .ok bytes) :
    t.kind? base path = some .file := by
  obtain ⟨l, hl, hread⟩ := bind_eq_ok.1 h
  rw [kind?, hl]
  dsimp only at hread ⊢
  split at hread
  · rw [‹t.get? l = _›]
    rfl
  · cases hread
  · cases hread

/-- A file is what it was when another path has been written to, unless that leads to the same
place. -/
theorem read_write {t' : FileTree} {output : Path} {bytes : Bytes}
    (hk : t.kind? base path = some .file) (hw : t.write base output bytes = .ok t') :
    t'.read base path = if goal base output = goal base path then .ok bytes
      else t.read base path := by
  obtain ⟨out, hout, h⟩ := bind_eq_ok.1 hw
  cases h
  unfold kind? at hk
  split at hk
  · rename_i l hl
    have hnames := names_of_fileLocation hout
    rw [read_of_locate (locate_set hout hl), read_of_locate hl, get?_set hnames.ne_nil,
      ← hnames.eq_goal, ← eq_goal_of_locate hl]
    by_cases heq : out = l
    · rw [if_pos heq.symm, if_pos heq]
    · rw [if_neg (Ne.symm heq), if_neg heq]
  · cases hk

/-- The goals of a file and of its sibling, which need not be there. -/
theorem goal_withEnding {name : Piece} {ending : String}
    (h : t.place base path = .ok (.named d name false)) (he : '/' ∉ ending.toList) :
    goal base (path.withEnding ending) = d ++ [String.ofList (name ++ ending.toList)] := by
  obtain ⟨outer, hrev, hf, hcomponent, hdots⟩ := pieces_of_place h
  obtain ⟨before, skipped, hbefore, hskipped, hpieces, habs⟩ :=
    Path.pieces_withEnding hrev hcomponent hdots he
  have hstart : start base (path.withEnding ending) = start base path := by
    rw [start, start, habs]
  -- A name with something behind it is no dot, and no two dots either.
  obtain ⟨hne, hdot⟩ : name ≠ [] ∧ name ≠ ['.'] := by simpa [Piece.isComponent] using hcomponent
  have hlonger : Piece.isComponent (name ++ ending.toList) ∧
      name ++ ending.toList ≠ ['.', '.'] := by
    obtain ⟨c, cs, rfl⟩ := List.exists_cons_of_ne_nil hne
    rcases cs with _ | ⟨c', cs⟩
    · simp_all [Piece.isComponent]
    · simp_all [Piece.isComponent]
  rw [hbefore] at hf
  rw [goal, hpieces, hstart, walk_append, walk_name hlonger.1 hlonger.2, eq_walk_of_follow hf,
    walk_append, walk_skipped hskipped]

theorem goal_of_place {name : Piece} (h : t.place base path = .ok (.named d name false)) :
    goal base path = d ++ [String.ofList name] :=
  (Names.eq_goal ⟨d, name, false, h, rfl⟩).symm

/-- A file and its sibling have different goals. -/
theorem goal_ne_withEnding {name : Piece} {ending : String}
    (h : t.place base path = .ok (.named d name false)) (he : '/' ∉ ending.toList)
    (hne : ending.toList ≠ []) : goal base path ≠ goal base (path.withEnding ending) := by
  rw [goal_of_place h, goal_withEnding h he]
  intro heq
  have hnames := String.ofList_inj.1 (List.cons.inj (List.append_cancel_left heq)).1
  have hlength := congrArg List.length hnames
  rw [List.length_append] at hlength
  exact hne (List.length_eq_zero_iff.1 (by omega))

/-- Siblings with different endings have different goals. -/
theorem goal_withEnding_ne {name : Piece} {ending ending' : String}
    (h : t.place base path = .ok (.named d name false)) (he : '/' ∉ ending.toList)
    (he' : '/' ∉ ending'.toList) (hne : ending ≠ ending') :
    goal base (path.withEnding ending) ≠ goal base (path.withEnding ending') := by
  rw [goal_withEnding h he, goal_withEnding h he']
  intro heq
  have hnames := String.ofList_inj.1 (List.cons.inj (List.append_cancel_left heq)).1
  exact hne (String.toList_inj.1 (List.append_cancel_left hnames))

end RepairLedger.Host.FileTree
