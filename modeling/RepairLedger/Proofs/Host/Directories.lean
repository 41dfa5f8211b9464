import RepairLedger.Host.World
import RepairLedger.Ledger.File
import RepairLedger.Proofs.Host.Siblings

/-!
# The directory of a file

Where a path leads to a name in a directory, the path without its last component leads to that
directory (`FileTree.locate_parent`).  So the directories around a file need not be created if the
file has a place: the attempt to do so succeeds and changes nothing (`createParent_of_place`).
-/

namespace RepairLedger

open Host

namespace Host

namespace Path

/-! ### The pieces of a directory -/

variable {path : Path} {first name : Piece} {kept mid : List Piece}

/-- The root has a second piece, which is empty; every other directory has its own pieces. -/
theorem pieces_ofPieces (hs : ∀ p ∈ first :: kept, '/' ∉ p) :
    Text.pieces '/' (ofPieces first kept).text.toList =
      if first = [] ∧ kept = [] then [[], []] else first :: kept.reverse := by
  have hslash : ∀ p ∈ first :: kept.reverse, '/' ∉ p := fun p h => hs p (by simpa using h)
  unfold ofPieces
  split
  · rfl
  · rename_i hne
    rw [if_neg (fun h => hne h.1 h.2), String.toList_ofList, pieces_joinPieces (by simp) hslash]

theorem split_ofPieces (hlast : ∀ last ∈ kept.head?, Piece.isComponent last)
    (hs : ∀ p ∈ first :: kept, '/' ∉ p) : (ofPieces first kept).split = (first, kept) := by
  rw [split, pieces_ofPieces hs]
  by_cases hroot : first = [] ∧ kept = []
  · obtain ⟨rfl, rfl⟩ := hroot
    rfl
  · rw [if_neg hroot]
    cases kept with
    | nil => rfl
    | cons last rest =>
      have hcomponent : Piece.isComponent last := hlast last rfl
      simp only [List.reverse_reverse]
      rw [List.dropWhile_cons_of_neg (by simp [hcomponent])]

/-- A directory is the first of the directories around what is in it. -/
theorem ancestors_ofPieces (hlast : ∀ last ∈ kept.head?, Piece.isComponent last)
    (hs : ∀ p ∈ first :: kept, '/' ∉ p) :
    ∃ outer, (ofPieces first kept).ancestors = ofPieces first kept :: outer := by
  rw [ancestors, split_ofPieces hlast hs]
  cases kept with
  | nil => exact ⟨[], rfl⟩
  | cons last rest =>
    have hcomponent : Piece.isComponent last := hlast last rfl
    exact ⟨prefixes first rest, by simp [prefixes, hcomponent]⟩

/-- What the parent of a path consists of: of the pieces behind the first one, those at the end that
are no components are left out. -/
theorem exists_kept (hp : Text.pieces '/' path.text.toList = first :: mid ++ [name])
    (hn : name.isComponent) :
    ∃ kept skipped, mid = kept.reverse ++ skipped ∧ (∀ p ∈ skipped, p.isComponent = false) ∧
      path.parent? = some (ofPieces first kept) ∧
      (∀ last ∈ kept.head?, Piece.isComponent last) ∧ ∀ p ∈ first :: kept, '/' ∉ p := by
  refine ⟨_, (mid.reverse.takeWhile (!Piece.isComponent ·)).reverse, ?_, fun p hp => ?_,
    parent?_of_directory hp hn, isComponent_of_mem_kept, noSlash_of_mem_kept fun p h => ?_⟩
  · rw [← List.reverse_append, List.takeWhile_append_dropWhile, List.reverse_reverse]
  · simpa using List.all_eq_true.1 List.all_takeWhile p (List.mem_reverse.1 hp)
  · exact Text.notMem_of_mem_pieces (hp ▸ List.mem_append_left _ h)

/-- The text of a path begins with the text of its directory. -/
theorem ofPieces_isPrefix {skipped : List Piece}
    (hp : Text.pieces '/' path.text.toList = first :: kept.reverse ++ skipped ++ [name]) :
    (ofPieces first kept).text.toList <+: path.text.toList := by
  have htext := joinPieces_pieces path.text.toList
  rw [hp, List.append_assoc, joinPieces_append (by simp) (by simp)] at htext
  rw [← htext]
  unfold ofPieces
  split
  · exact List.prefix_append ['/'] _
  · rw [String.toList_ofList]
    exact List.prefix_append _ _

end Path

namespace FileTree

variable {t : FileTree} {base location d : Location} {path parent : Path} {name : Piece}

theorem follow_append {pieces more : List Piece} :
    t.follow location (pieces ++ more) = .ok d ↔
      ∃ l, t.follow location pieces = .ok l ∧ t.follow l more = .ok d := by
  induction pieces generalizing location with
  | nil => simp [follow]
  | cons piece pieces ih =>
    simp only [List.cons_append, follow, bind_eq_ok, ih]
    constructor
    · rintro ⟨next, hn, l, hl, hd⟩
      exact ⟨l, ⟨next, hn, hl⟩, hd⟩
    · rintro ⟨l, ⟨next, hn, hl⟩, hd⟩
      exact ⟨next, hn, l, hl, hd⟩

theorem eq_of_follow_skipped {skipped : List Piece} (hs : ∀ p ∈ skipped, p.isComponent = false)
    (h : t.follow location skipped = .ok d) : d = location := by
  induction skipped generalizing location with
  | nil =>
    cases h
    rfl
  | cons p skipped ih =>
    obtain ⟨next, hn, hf⟩ := bind_eq_ok.1 h
    have hp : p = [] ∨ p = ['.'] := by
      have := hs p List.mem_cons_self
      simpa [Piece.isComponent, or_iff_not_imp_left] using this
    obtain ⟨-, hnext⟩ := enter_eq_ok.1 hn
    rw [if_pos hp] at hnext
    rw [← hnext]
    exact ih (fun q hq => hs q (List.mem_cons_of_mem _ hq)) hf

theorem checkPath_eq_ok : checkPath path = .ok () ↔
    '\x00' ∉ path.text.toList ∧ path.isEmpty = false ∧
      (Text.encode path.text).length < pathLimit := by
  unfold checkPath
  by_cases hnul : '\x00' ∈ path.text.toList
  · simp [hnul]
  · by_cases hempty : path.isEmpty = true
    · simp [hnul, hempty]
    · by_cases hlong : pathLimit ≤ (Text.encode path.text).length
      · simp [hnul, hempty, hlong]
      · simp [hnul, hempty, hlong, Nat.lt_of_not_le hlong]

theorem checkPath_of_isPrefix (h : parent.text.toList <+: path.text.toList)
    (hc : checkPath path = .ok ()) (hne : parent.isEmpty = false) : checkPath parent = .ok () := by
  obtain ⟨hnul, -, hlong⟩ := checkPath_eq_ok.1 hc
  refine checkPath_eq_ok.2 ⟨fun hmem => hnul (h.subset hmem), hne, lt_of_le_of_lt ?_ hlong⟩
  obtain ⟨rest, hrest⟩ := h
  simp only [Text.encode, ← hrest, List.flatMap_append, List.length_append, Nat.le_add_right]

theorem isAbsolute_of_isPrefix (h : parent.text.toList <+: path.text.toList)
    (hne : parent.isEmpty = false) : parent.isAbsolute = path.isAbsolute := by
  obtain ⟨rest, hrest⟩ := h
  have hnil : parent.text.toList ≠ [] := by simpa [Path.isEmpty] using hne
  obtain ⟨c, cs, hc⟩ := List.exists_cons_of_ne_nil hnil
  simp [Path.isAbsolute, ← hrest, hc]

/-- The way to a directory is the way along the pieces of its path. -/
theorem follow_ofPieces {first : Piece} {kept skipped : List Piece}
    (hskipped : ∀ p ∈ skipped, p.isComponent = false) (hs : ∀ p ∈ first :: kept, '/' ∉ p)
    (hf : t.follow location (first :: kept.reverse ++ skipped) = .ok d)
    (hd : t.get? d = some .directory) :
    t.follow location (Text.pieces '/' (Path.ofPieces first kept).text.toList) = .ok d := by
  obtain ⟨l, hl, hrest⟩ := follow_append.1 hf
  obtain rfl := eq_of_follow_skipped hskipped hrest
  rw [Path.pieces_ofPieces hs]
  split
  · -- The pieces of the root lead nowhere, and neither does its first piece.
    rename_i hroot
    obtain ⟨rfl, rfl⟩ := hroot
    obtain rfl := eq_of_follow_skipped (by simp [Piece.isComponent]) hl
    exact follow_skipped (by simp [Piece.isComponent]) hd
  · exact hl

/-- **Where a path leads to a name in a directory, its parent leads to the directory.** -/
theorem locate_parent (hp : t.place base path = .ok (.named d name false))
    (h : path.parent? = some parent) (hne : parent.isEmpty = false) :
    t.locate base parent = .ok d ∧ ∃ outer, parent.ancestors = parent :: outer := by
  obtain ⟨hc, -, hd, -, -⟩ := place_eq_named.1 hp
  obtain ⟨outer, hrev, hf, hcomponent, -⟩ := pieces_of_place hp
  have hpieces : Text.pieces '/' path.text.toList = outer.reverse ++ [name] := by
    rw [← List.reverse_reverse (Text.pieces '/' path.text.toList), hrev, List.reverse_cons]
  cases hfirst : outer.reverse with
  | nil =>
    -- A name alone has the empty path for a parent.
    have hsplit : path.split = (name, []) := by
      rw [Path.split, hpieces, hfirst]
      rfl
    have hname := ne_nil_of_isComponent hcomponent
    have hempty : path.parent? = some ⟨""⟩ := by simp [Path.parent?, hsplit]
    rw [hempty] at h
    cases h
    cases hne
  | cons first mid =>
    rw [hfirst] at hpieces hf
    obtain ⟨kept, skipped, rfl, hskipped, hparent, hlast, hslash⟩ :=
      Path.exists_kept hpieces hcomponent
    rw [h] at hparent
    cases hparent
    have hprefix := Path.ofPieces_isPrefix hpieces
    refine ⟨?_, Path.ancestors_ofPieces hlast hslash⟩
    rw [locate, checkPath_of_isPrefix hprefix hc hne, start, isAbsolute_of_isPrefix hprefix hne]
    exact follow_ofPieces hskipped hslash hf hd

/-- The pieces of a path are those without the slashes at its end, and nothing behind them. -/
theorem pieces_eq (path : Path) : ∃ blanks, (∀ p ∈ blanks, Piece.isComponent p = false) ∧
    Text.pieces '/' path.text.toList = (reversedPieces path).reverse ++ blanks := by
  refine ⟨((Text.pieces '/' path.text.toList).reverse.takeWhile (· = [])).reverse, fun p hp => ?_,
    ?_⟩
  · have hnil : p = [] := by
      simpa using List.all_eq_true.1 List.all_takeWhile p (List.mem_reverse.1 hp)
    simp [hnil, Piece.isComponent]
  · rw [reversedPieces, ← List.reverse_append, List.takeWhile_append_dropWhile,
      List.reverse_reverse]

/-- The root, and what ends with dots, is no name in a directory. -/
theorem place_eq_unnamed (hc : checkPath path = .ok ())
    (h : ∀ last outer, reversedPieces path = last :: outer → (last = ['.'] ∨ last = ['.', '.']) ∧
      t.follow (start base path) outer.reverse = .ok d ∧ t.get? d = some .directory) :
    t.place base path = .ok .unnamed := by
  unfold place
  rw [hc]
  cases hrev : (Text.pieces '/' path.text.toList).reverse.dropWhile (· = []) with
  | nil => simp only [bind, Except.bind, hrev]
  | cons last outer =>
    obtain ⟨hdots, hf, hd⟩ := h last outer hrev
    simp only [bind, Except.bind, hrev, hf, checkDirectory_eq_ok.2 hd, hdots, if_true]

/-- Where a path leads to a directory, none can be created. -/
theorem makeDirectory_of_locate (h : t.locate base path = .ok d)
    (hd : t.get? d = some .directory) : t.makeDirectory base path = .error .alreadyExists := by
  obtain ⟨⟨⟩, hc, hf⟩ := bind_eq_ok.1 h
  obtain ⟨blanks, hblanks, hpieces⟩ := pieces_eq path
  rw [hpieces] at hf
  obtain ⟨l, hl, hrest⟩ := follow_append.1 hf
  obtain rfl := eq_of_follow_skipped hblanks hrest
  cases hrev : reversedPieces path with
  | nil =>
    have hplace : t.place base path = .ok .unnamed :=
      place_eq_unnamed (d := []) hc fun last outer h => by simp [hrev] at h
    rw [makeDirectory, hplace]
    rfl
  | cons last outer =>
    rw [hrev, List.reverse_cons] at hl
    obtain ⟨l', hl', hlast⟩ := follow_append.1 hl
    obtain ⟨next, hnext, hend⟩ := bind_eq_ok.1 hlast
    cases hend
    obtain ⟨hdir, henter⟩ := enter_eq_ok.1 hnext
    by_cases hdots : last = ['.'] ∨ last = ['.', '.']
    · have hplace : t.place base path = .ok .unnamed :=
        place_eq_unnamed hc fun last' outer' h => by
          rw [hrev] at h
          cases h
          exact ⟨hdots, hl', hdir⟩
      rw [makeDirectory, hplace]
      rfl
    · obtain ⟨hdot, hdotdot⟩ := not_or.1 hdots
      have hne : last ≠ [] := ne_nil_of_reversedPieces hrev
      rw [if_neg (not_or.2 ⟨hne, hdot⟩), if_neg hdotdot] at henter
      obtain ⟨hlong, rfl, -⟩ := henter
      have hplace := place_eq_named.2 ⟨hc, ⟨outer, hrev, hl'⟩, hdir, ⟨hdot, hdotdot⟩, rfl⟩
      simp only [makeDirectory, hplace, bind, Except.bind, hlong, hd]
      rfl

end FileTree

end Host

variable {path : Path} {w : World} {d : Location} {name : Piece}

/-- **Where a file has its place, the directories around it are there already.** -/
theorem createParent_of_place (hp : w.files.place w.base path = .ok (.named d name false)) :
    (createParent path).run w = (.ok (), w) := by
  unfold createParent
  cases hparent : path.parent? with
  | none => rfl
  | some parent =>
    dsimp only
    split
    · rfl
    · rename_i hne
      obtain ⟨hlocate, outer, houter⟩ :=
        FileTree.locate_parent hp hparent (Bool.eq_false_iff.2 hne)
      obtain ⟨-, -, hd, -, -⟩ := FileTree.place_eq_named.1 hp
      have hmake := FileTree.makeDirectory_of_locate hlocate hd
      have hkind : w.files.kind? w.base parent = some .directory := by
        rw [FileTree.kind?, hlocate]
        simp [hd, Entry.kind]
      rw [houter]
      simp only [createDirectories, createDirectories.again, Program.run_bind, Program.request,
        Program.run, World.perform, hmake, World.change, hkind]
      rfl

end RepairLedger
