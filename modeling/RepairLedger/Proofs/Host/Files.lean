import RepairLedger.Host.FileTree
import RepairLedger.Proofs.Result

/-!
# What happens to files

A path names a location if something may be created there (`FileTree.Names`): every piece before the
last one leads to a directory.  Directories are never taken away, so a path that names a location
goes on naming it (`FileTree.Names.keeps`).

`FileTree.Confined` says how far two trees may differ: at the locations that some paths name, and by
directories that are new at the locations that some other paths name.  Each operation keeps to the
paths it is given.
-/

namespace RepairLedger.Host

namespace FileTree

variable {t t' t'' : FileTree} {base location loc d : Location} {entry : Entry} {path : Path}

/-! ### Entries -/

theorem lookup_setEntry (entries : List (Location × Entry)) :
    (setEntry location entry entries).lookup loc =
      if loc = location then some entry else entries.lookup loc := by
  induction entries with
  | nil => rw [setEntry, lookup_cons_eq_ite]
  | cons e rest ih =>
    obtain ⟨x, e⟩ := e
    rw [setEntry]
    by_cases hx : x = location
    · subst hx
      rw [if_pos rfl, lookup_cons_eq_ite, lookup_cons_eq_ite]
      split <;> rfl
    · rw [if_neg hx, lookup_cons_eq_ite, lookup_cons_eq_ite, ih]
      by_cases h : loc = x
      · simp [h, hx]
      · simp [h]

theorem get?_set (h : location ≠ []) :
    (t.set location entry).get? loc = if loc = location then some entry else t.get? loc := by
  cases loc with
  | nil => simp [get?, Ne.symm h]
  | cons name rest => exact lookup_setEntry t.entries

theorem lookup_filter_ne (entries : List (Location × Entry)) :
    (entries.filter fun e => e.1 ≠ location).lookup loc =
      if loc = location then none else entries.lookup loc := by
  induction entries with
  | nil => simp
  | cons e rest ih =>
    obtain ⟨x, e⟩ := e
    by_cases hx : x = location
    · subst hx
      rw [List.filter_cons_of_neg (by simp), ih]
      rw [lookup_cons_eq_ite]
      split <;> rfl
    · rw [List.filter_cons_of_pos (by simpa using hx), lookup_cons_eq_ite, lookup_cons_eq_ite, ih]
      by_cases h : loc = x
      · simp [h, hx]
      · simp [h]

theorem get?_remove (h : location ≠ []) :
    (t.remove location).get? loc = if loc = location then none else t.get? loc := by
  cases loc with
  | nil => simp [get?, Ne.symm h]
  | cons name rest => exact lookup_filter_ne t.entries

theorem checkDirectory_eq_ok : t.checkDirectory d = .ok () ↔ t.get? d = some .directory := by
  unfold checkDirectory
  cases t.get? d with
  | none => simp
  | some e => cases e <;> simp

/-! ### Directories stay -/

/-- What is a directory in one tree is one in the other. -/
def Keeps (t t' : FileTree) : Prop :=
  ∀ loc, t.get? loc = some .directory → t'.get? loc = some .directory

theorem enter_eq_ok {piece : Piece} :
    t.enter d piece = .ok loc ↔ t.get? d = some .directory ∧
      (if piece = [] ∨ piece = ['.'] then loc = d
      else if piece = ['.', '.'] then loc = d.dropLast
      else isTooLong piece = false ∧ loc = d ++ [String.ofList piece] ∧ t.get? loc ≠ none) := by
  unfold enter
  rw [bind_eq_ok]
  constructor
  · rintro ⟨⟨⟩, hd, h⟩
    refine ⟨checkDirectory_eq_ok.1 hd, ?_⟩
    split at h
    · cases h
      rw [if_pos ‹_›]
    · rw [if_neg ‹_›]
      split at h
      · cases h
        rw [if_pos ‹_›]
      · rw [if_neg ‹_›]
        split at h
        · cases h
        · rename_i hlong
          dsimp only at h
          split at h
          · rename_i he
            cases h
            exact ⟨Bool.eq_false_iff.2 hlong, rfl, by rw [he]; simp⟩
          · cases h
  · rintro ⟨hd, h⟩
    refine ⟨(), checkDirectory_eq_ok.2 hd, ?_⟩
    split at h
    · rw [if_pos ‹_›, h]
    · rw [if_neg ‹_›]
      split at h
      · rw [if_pos ‹_›, h]
      · obtain ⟨hlong, rfl, hn⟩ := h
        obtain ⟨e, he⟩ := Option.ne_none_iff_exists'.1 hn
        rw [if_neg ‹_›, if_neg (by simp [hlong])]
        simp only [he]

/-- Where a directory is reached, the way begins in a directory. -/
theorem directory_of_follow {pieces : List Piece} (h : t.follow location pieces = .ok d)
    (hd : t.get? d = some .directory) : t.get? location = some .directory := by
  cases pieces with
  | nil =>
    cases h
    exact hd
  | cons piece pieces =>
    obtain ⟨next, hn, -⟩ := bind_eq_ok.1 h
    exact (enter_eq_ok.1 hn).1

/-- The way to a directory stays. -/
theorem follow_keeps (hk : Keeps t t') {pieces : List Piece}
    (h : t.follow location pieces = .ok d) (hd : t.get? d = some .directory) :
    t'.follow location pieces = .ok d := by
  induction pieces generalizing location with
  | nil => exact h
  | cons piece pieces ih =>
    obtain ⟨next, hn, hf⟩ := bind_eq_ok.1 h
    refine bind_eq_ok.2 ⟨next, ?_, ih hf⟩
    -- The next location is on the way to a directory, so it is one itself.
    have hnext := hk next (directory_of_follow hf hd)
    obtain ⟨hl, hc⟩ := enter_eq_ok.1 hn
    refine enter_eq_ok.2 ⟨hk location hl, ?_⟩
    split at hc
    · rwa [if_pos ‹_›]
    · rw [if_neg ‹_›]
      split at hc
      · rwa [if_pos ‹_›]
      · rw [if_neg ‹_›]
        exact ⟨hc.1, hc.2.1, by rw [hnext]; simp⟩

/-! ### Places -/

/-- The pieces of a path without slashes at its end, last first. -/
def reversedPieces (path : Path) : List Piece :=
  (Text.pieces '/' path.text.toList).reverse.dropWhile (· = [])

/-- Does a path end with a slash? -/
def endsWithSlash (path : Path) : Bool :=
  (Text.pieces '/' path.text.toList).reverse.head? = some []

theorem ne_nil_of_reversedPieces {name : Piece} {outer : List Piece}
    (h : reversedPieces path = name :: outer) : name ≠ [] := by
  have hhead := List.head?_dropWhile_not (· = []) (Text.pieces '/' path.text.toList).reverse
  rw [← reversedPieces, h] at hhead
  simpa using hhead

/-- The last piece is a name if no slash follows it. -/
theorem reverse_pieces_of_no_slash {name : Piece} {outer : List Piece}
    (h : reversedPieces path = name :: outer) (hs : endsWithSlash path = false) :
    (Text.pieces '/' path.text.toList).reverse = name :: outer := by
  have hne := ne_nil_of_reversedPieces h
  unfold reversedPieces at h
  unfold endsWithSlash at hs
  cases hrev : (Text.pieces '/' path.text.toList).reverse with
  | nil =>
    rw [hrev] at h
    cases h
  | cons last rest =>
    have hlast : last ≠ [] := by
      rintro rfl
      simp [hrev] at hs
    rwa [hrev, List.dropWhile_cons_of_neg (by simpa using hlast)] at h

theorem place_eq_named {name : Piece} {slash : Bool} :
    t.place base path = .ok (.named d name slash) ↔
      checkPath path = .ok () ∧
        (∃ outer, reversedPieces path = name :: outer ∧
          t.follow (start base path) outer.reverse = .ok d) ∧
        t.get? d = some .directory ∧ (name ≠ ['.'] ∧ name ≠ ['.', '.']) ∧
        slash = endsWithSlash path := by
  unfold place
  rw [bind_eq_ok]
  dsimp only
  constructor
  · rintro ⟨⟨⟩, hc, h⟩
    refine ⟨hc, ?_⟩
    split at h
    · cases h
    · rename_i last outer hp
      obtain ⟨dir, hf, h⟩ := bind_eq_ok.1 h
      obtain ⟨⟨⟩, hd, h⟩ := bind_eq_ok.1 h
      split at h
      · cases h
      · rename_i hdots
        cases h
        exact ⟨⟨outer, hp, hf⟩, checkDirectory_eq_ok.1 hd, not_or.1 hdots, rfl⟩
  · rintro ⟨hc, ⟨outer, hp, hf⟩, hd, hdots, rfl⟩
    refine ⟨(), hc, ?_⟩
    split
    · rename_i hn
      rw [reversedPieces, hn] at hp
      cases hp
    · rename_i last rest hl
      rw [reversedPieces, hl] at hp
      cases hp
      refine bind_eq_ok.2 ⟨d, hf, bind_eq_ok.2 ⟨(), checkDirectory_eq_ok.2 hd, ?_⟩⟩
      rw [if_neg (not_or.2 hdots)]
      rfl

theorem ne_nil_of_isComponent {name : Piece} (h : name.isComponent = true) : name ≠ [] := by
  rintro rfl
  cases h

/-- What a path is made of that leads to the place of a file. -/
theorem pieces_of_place {name : Piece} (h : t.place base path = .ok (.named d name false)) :
    ∃ outer, (Text.pieces '/' path.text.toList).reverse = name :: outer ∧
      t.follow (start base path) outer.reverse = .ok d ∧ name.isComponent = true ∧
      name ≠ ['.', '.'] := by
  obtain ⟨-, ⟨outer, ho, hf⟩, -, hdots, hs⟩ := place_eq_named.1 h
  have hne := ne_nil_of_reversedPieces ho
  exact ⟨outer, reverse_pieces_of_no_slash ho hs.symm, hf,
    by simp [Piece.isComponent, hne, hdots.1], hdots.2⟩

theorem place_keeps (hk : Keeps t t') {name : Piece} {slash : Bool}
    (h : t.place base path = .ok (.named d name slash)) :
    t'.place base path = .ok (.named d name slash) := by
  obtain ⟨hc, ⟨outer, hp, hf⟩, hd, hdots, hs⟩ := place_eq_named.1 h
  exact place_eq_named.2 ⟨hc, ⟨outer, hp, follow_keeps hk hf hd⟩, hk d hd, hdots, hs⟩

/-- The path names the location: something may be created there, if nothing is. -/
def Names (t : FileTree) (base : Location) (path : Path) (loc : Location) : Prop :=
  ∃ d name slash, t.place base path = .ok (.named d name slash) ∧ loc = d ++ [String.ofList name]

theorem Names.keeps (hk : Keeps t t') (h : Names t base path loc) : Names t' base path loc := by
  obtain ⟨d, name, slash, hp, rfl⟩ := h
  exact ⟨d, name, slash, place_keeps hk hp, rfl⟩

/-- A path names one location at most. -/
theorem Names.unique (h : Names t base path loc) (h' : Names t base path location) :
    loc = location := by
  obtain ⟨d, name, slash, hp, rfl⟩ := h
  obtain ⟨d', name', slash', hp', rfl⟩ := h'
  rw [hp] at hp'
  cases hp'
  rfl

theorem Names.ne_nil (h : Names t base path loc) : loc ≠ [] := by
  obtain ⟨d, name, slash, -, rfl⟩ := h
  simp

theorem fileLocation_eq_ok :
    t.fileLocation base path = .ok loc ↔
      ∃ d name, t.place base path = .ok (.named d name false) ∧ isTooLong name = false ∧
        loc = d ++ [String.ofList name] ∧ t.get? loc ≠ some .directory := by
  unfold fileLocation
  rw [bind_eq_ok]
  constructor
  · rintro ⟨place, hp, h⟩
    split at h
    · cases h
    · cases h
    · rename_i d name
      split at h
      · cases h
      · rename_i hlong
        dsimp only at h
        split at h
        · cases h
        · rename_i hdir
          cases h
          exact ⟨d, name, hp, Bool.eq_false_iff.2 hlong, rfl, hdir⟩
  · rintro ⟨d, name, hp, hlong, rfl, hdir⟩
    refine ⟨_, hp, ?_⟩
    dsimp only
    rw [if_neg (by simp [hlong])]
    split
    · exact absurd ‹_› hdir
    · rfl

theorem names_of_fileLocation (h : t.fileLocation base path = .ok loc) : Names t base path loc := by
  obtain ⟨d, name, hp, -, rfl, -⟩ := fileLocation_eq_ok.1 h
  exact ⟨d, name, false, hp, rfl⟩

theorem not_directory_of_fileLocation (h : t.fileLocation base path = .ok loc) :
    t.get? loc ≠ some .directory := by
  obtain ⟨-, -, -, -, -, hdir⟩ := fileLocation_eq_ok.1 h
  exact hdir

/-- A path goes on leading to the place of a file, unless a directory comes there. -/
theorem fileLocation_keeps (hk : Keeps t t') (h : t.fileLocation base path = .ok loc)
    (hdir : t'.get? loc ≠ some .directory) : t'.fileLocation base path = .ok loc := by
  obtain ⟨d, name, hp, hlong, rfl, -⟩ := fileLocation_eq_ok.1 h
  exact fileLocation_eq_ok.2 ⟨d, name, place_keeps hk hp, hlong, rfl, hdir⟩

theorem enter_name {name : Piece} (hd : t.get? d = some .directory)
    (hn : name ≠ [] ∧ name ≠ ['.'] ∧ name ≠ ['.', '.']) (hlong : isTooLong name = false) :
    t.enter d name = match t.get? (d ++ [String.ofList name]) with
      | some _ => .ok (d ++ [String.ofList name])
      | none => .error .notFound := by
  unfold enter
  rw [checkDirectory_eq_ok.2 hd, if_neg (not_or.2 ⟨hn.1, hn.2.1⟩), if_neg hn.2.2,
    if_neg (by simp [hlong])]
  rfl

theorem follow_append_of_ok {pieces : List Piece} (h : t.follow location pieces = .ok d)
    (more : List Piece) : t.follow location (pieces ++ more) = t.follow d more := by
  induction pieces generalizing location with
  | nil =>
    cases h
    rfl
  | cons piece pieces ih =>
    obtain ⟨next, hn, hf⟩ := bind_eq_ok.1 h
    rw [List.cons_append, follow, hn]
    exact ih hf

/-- Looking at a file goes the same way as finding its place, and one piece further. -/
theorem locate_of_place {name : Piece} (hp : t.place base path = .ok (.named d name false)) :
    t.locate base path = t.enter d name := by
  obtain ⟨hc, -⟩ := place_eq_named.1 hp
  obtain ⟨outer, hrev, hf, -, -⟩ := pieces_of_place hp
  have hpieces : Text.pieces '/' path.text.toList = outer.reverse ++ [name] := by
    rw [← List.reverse_reverse (Text.pieces '/' path.text.toList), hrev, List.reverse_cons]
  rw [locate, hc, hpieces]
  refine (follow_append_of_ok hf [name]).trans ?_
  rw [follow]
  cases t.enter d name <;> rfl

/-- What is read at a name in a directory. -/
theorem read_of_place {name : Piece} (hp : t.place base path = .ok (.named d name false))
    (hlong : isTooLong name = false) :
    t.read base path = match t.get? (d ++ [String.ofList name]) with
      | some (.file bytes) => .ok bytes
      | some .directory => .error .isDirectory
      | none => .error .notFound := by
  obtain ⟨-, -, hd, hdots, -⟩ := place_eq_named.1 hp
  obtain ⟨-, -, -, hcomponent, -⟩ := pieces_of_place hp
  have hname := ne_nil_of_isComponent hcomponent
  rw [read, locate_of_place hp, enter_name hd ⟨hname, hdots⟩ hlong]
  cases he : t.get? (d ++ [String.ofList name]) with
  | none => rfl
  | some entry => cases entry <;> simp only [bind, Except.bind, he]

/-- If a file is said to be missing, nothing has its name in the directory. -/
theorem get?_of_read_missing {name : Piece} (hp : t.place base path = .ok (.named d name false))
    (h : t.read base path = .error .notFound) : t.get? (d ++ [String.ofList name]) = none := by
  cases hlong : isTooLong name with
  | false =>
    rw [read_of_place hp hlong] at h
    split at h
    · cases h
    · cases h
    · assumption
  | true =>
    -- Of a name that is too long, this is said and nothing else.
    obtain ⟨-, -, hd, hdots, -⟩ := place_eq_named.1 hp
    obtain ⟨-, -, -, hcomponent, -⟩ := pieces_of_place hp
    have hname := ne_nil_of_isComponent hcomponent
    have henter : t.enter d name = .error .nameTooLong := by
      unfold enter
      rw [checkDirectory_eq_ok.2 hd, if_neg (not_or.2 ⟨hname, hdots.1⟩), if_neg hdots.2,
        if_pos hlong]
      rfl
    rw [read, locate_of_place hp, henter] at h
    cases h

/-- What is read where a path leads to the place of a file. -/
theorem read_of_fileLocation (h : t.fileLocation base path = .ok loc) :
    t.read base path = match t.get? loc with
      | some (.file bytes) => .ok bytes
      | _ => .error .notFound := by
  obtain ⟨d, name, hp, hlong, rfl, hdir⟩ := fileLocation_eq_ok.1 h
  rw [read_of_place hp hlong]
  cases he : t.get? (d ++ [String.ofList name]) with
  | none => rfl
  | some entry =>
    cases entry with
    | file bytes => rfl
    | directory => exact absurd he hdir

/-! ### How far two trees differ -/

/-- The trees differ only at the locations that the paths `files` name, and by new directories at
locations that the paths `dirs` name. -/
structure Confined (base : Location) (files dirs : List Path) (t t' : FileTree) : Prop where
  keeps : Keeps t t'
  frame : ∀ loc, t'.get? loc = t.get? loc ∨ (∃ p ∈ files, Names t' base p loc) ∨
    (t.get? loc = none ∧ t'.get? loc = some .directory ∧ ∃ p ∈ dirs, Names t' base p loc)

namespace Confined

variable {files dirs files' dirs' : List Path}

theorem refl (t : FileTree) : Confined base files dirs t t :=
  ⟨fun _ h => h, fun _ => .inl rfl⟩

theorem trans (h : Confined base files dirs t t') (h' : Confined base files dirs t' t'') :
    Confined base files dirs t t'' := by
  refine ⟨fun loc hl => h'.keeps loc (h.keeps loc hl), fun loc => ?_⟩
  -- The later change tells where to look: what it has left alone is the work of the earlier one.
  rcases h'.frame loc with heq | hfile | ⟨hnone, hdir, hnew⟩
  · rw [heq]
    rcases h.frame loc with heq | ⟨p, hp, hn⟩ | ⟨hnone, hdir, p, hp, hn⟩
    · exact .inl heq
    · exact .inr (.inl ⟨p, hp, hn.keeps h'.keeps⟩)
    · exact .inr (.inr ⟨hnone, hdir, p, hp, hn.keeps h'.keeps⟩)
  · exact .inr (.inl hfile)
  · rcases h.frame loc with heq | ⟨p, hp, hn⟩ | ⟨-, hdir', -⟩
    · exact .inr (.inr ⟨heq ▸ hnone, hdir, hnew⟩)
    · exact .inr (.inl ⟨p, hp, hn.keeps h'.keeps⟩)
    · rw [hnone] at hdir'
      cases hdir'

theorem mono (h : Confined base files dirs t t') (hf : ∀ p ∈ files, p ∈ files')
    (hd : ∀ p ∈ dirs, p ∈ dirs') : Confined base files' dirs' t t' := by
  refine ⟨h.keeps, fun loc => ?_⟩
  rcases h.frame loc with heq | ⟨p, hp, hn⟩ | ⟨hnone, hdir, p, hp, hn⟩
  · exact .inl heq
  · exact .inr (.inl ⟨p, hf p hp, hn⟩)
  · exact .inr (.inr ⟨hnone, hdir, p, hd p hp, hn⟩)

/-- Setting the entry of a file keeps to the path that names it. -/
theorem set_file {bytes : Bytes} (h : t.fileLocation base path = .ok loc) (hp : path ∈ files) :
    Confined base files dirs t (t.set loc (.file bytes)) := by
  have hnames := names_of_fileLocation h
  have hset : ∀ l, (t.set loc (.file bytes)).get? l = if l = loc then _ else t.get? l := fun l =>
    get?_set hnames.ne_nil
  -- No directory is overwritten, as the place of a file is none.
  have hkeeps : Keeps t (t.set loc (.file bytes)) := by
    intro l hl
    have hne : l ≠ loc := by
      rintro rfl
      exact not_directory_of_fileLocation h hl
    rw [hset, if_neg hne, hl]
  refine ⟨hkeeps, fun l => ?_⟩
  by_cases hl : l = loc
  · subst hl
    exact .inr (.inl ⟨path, hp, hnames.keeps hkeeps⟩)
  · rw [hset, if_neg hl]
    exact .inl rfl

theorem write {bytes : Bytes} (h : t.write base path bytes = .ok t') (hp : path ∈ files) :
    Confined base files dirs t t' := by
  obtain ⟨loc, hl, h⟩ := bind_eq_ok.1 h
  cases h
  exact set_file hl hp

theorem ensureFile (h : t.ensureFile base path = .ok (t', loc)) (hp : path ∈ files) :
    Confined base files dirs t t' := by
  obtain ⟨location, hl, h⟩ := bind_eq_ok.1 h
  split at h
  · cases h
    exact refl t
  · cases h
    exact set_file hl hp

theorem makeDirectory (h : t.makeDirectory base path = .ok t') (hp : path ∈ dirs) :
    Confined base files dirs t t' := by
  obtain ⟨place, hplace, h⟩ := bind_eq_ok.1 h
  split at h
  · cases h
  · rename_i d name slash
    split at h
    · cases h
    · dsimp only at h
      split at h
      · cases h
      · rename_i hnone
        cases h
        have hnames : Names t base path (d ++ [String.ofList name]) :=
          ⟨d, name, slash, hplace, rfl⟩
        have hset : ∀ l, (t.set (d ++ [String.ofList name]) .directory).get? l =
            if l = d ++ [String.ofList name] then _ else t.get? l := fun l => get?_set hnames.ne_nil
        have hkeeps : Keeps t (t.set (d ++ [String.ofList name]) .directory) := by
          intro l hl
          rw [hset]
          split
          · rfl
          · exact hl
        refine ⟨hkeeps, fun l => ?_⟩
        by_cases hl : l = d ++ [String.ofList name]
        · subst hl
          exact .inr (.inr ⟨hnone, by rw [hset, if_pos rfl], path, hp, hnames.keeps hkeeps⟩)
        · rw [hset, if_neg hl]
          exact .inl rfl

end Confined

/-- The file places of all paths are where they were when a file has been set. -/
theorem fileLocation_set {bytes : Bytes} {other : Path} {l : Location}
    (h : t.fileLocation base path = .ok loc) (hl : t.fileLocation base other = .ok l) :
    (t.set loc (.file bytes)).fileLocation base other = .ok l := by
  have hc : Confined base [path] [] t (t.set loc (.file bytes)) := .set_file h List.mem_cons_self
  refine fileLocation_keeps hc.keeps hl ?_
  rw [get?_set (names_of_fileLocation h).ne_nil]
  split
  · simp
  · exact not_directory_of_fileLocation hl

/-- What is reached is reached still where nothing goes away and directories stay. -/
theorem follow_grows (hk : Keeps t t') (hg : ∀ l, t.get? l ≠ none → t'.get? l ≠ none)
    {pieces : List Piece} (h : t.follow location pieces = .ok d) :
    t'.follow location pieces = .ok d := by
  induction pieces generalizing location with
  | nil => exact h
  | cons piece pieces ih =>
    obtain ⟨next, hn, hf⟩ := bind_eq_ok.1 h
    refine bind_eq_ok.2 ⟨next, ?_, ih hf⟩
    obtain ⟨hl, hc⟩ := enter_eq_ok.1 hn
    refine enter_eq_ok.2 ⟨hk location hl, ?_⟩
    split at hc
    · rwa [if_pos ‹_›]
    · rw [if_neg ‹_›]
      split at hc
      · rwa [if_pos ‹_›]
      · rw [if_neg ‹_›]
        exact ⟨hc.1, hc.2.1, hg _ hc.2.2⟩

/-- All paths that lead somewhere lead there still when a file has been set. -/
theorem locate_set {bytes : Bytes} {other : Path} {l : Location}
    (h : t.fileLocation base path = .ok loc) (hl : t.locate base other = .ok l) :
    (t.set loc (.file bytes)).locate base other = .ok l := by
  have hc : Confined base [path] [] t (t.set loc (.file bytes)) := .set_file h List.mem_cons_self
  obtain ⟨⟨⟩, hcheck, hf⟩ := bind_eq_ok.1 hl
  refine bind_eq_ok.2 ⟨(), hcheck, follow_grows hc.keeps ?_ hf⟩
  intro x hx
  rw [get?_set (names_of_fileLocation h).ne_nil]
  split
  · exact Option.some_ne_none _
  · exact hx

/-! ### Moving a file -/

/-- What a move finds and leaves. -/
structure Moved (base : Location) (source target : Path) (t t' : FileTree)
    (loc location : Location) : Prop where
  source_eq : t.fileLocation base source = .ok loc
  target_eq : t.fileLocation base target = .ok location
  /-- The moved file was there. -/
  bytes : ∃ bytes, t.get? loc = some (.file bytes) ∧
    ∀ l, t'.get? l =
      if l = location then some (.file bytes) else if l = loc then none else t.get? l

theorem moved_of_rename {source target : Path}
    (h : t.rename base source target = .ok (t', loc, location)) :
    Moved base source target t t' loc location := by
  obtain ⟨s, hs, h⟩ := bind_eq_ok.1 h
  obtain ⟨place, hplace, h⟩ := bind_eq_ok.1 h
  split at h
  · cases h
  · rename_i d name slash
    dsimp only at h
    split at h
    · cases h
    rename_i hlong
    split at h
    · cases h
    · cases h
    · rename_i bytes hbytes
      split at h
      · cases h
      rename_i hslash
      split at h
      · cases h
      rename_i hdir
      cases h
      -- A file cannot be moved to a path with a slash at its end.
      have hslash : slash = false := by simpa using hslash
      subst hslash
      have htarget : t.fileLocation base target = .ok (d ++ [String.ofList name]) :=
        fileLocation_eq_ok.2 ⟨d, name, hplace, Bool.eq_false_iff.2 hlong, rfl, hdir⟩
      refine ⟨hs, htarget, bytes, hbytes, fun l => ?_⟩
      rw [get?_set (by simp), get?_remove (names_of_fileLocation hs).ne_nil]

theorem Moved.keeps {source target : Path} (h : Moved base source target t t' loc location) :
    Keeps t t' := by
  obtain ⟨bytes, hbytes, hget⟩ := h.bytes
  intro l hl
  rw [hget, if_neg, if_neg, hl]
  · rintro rfl
    exact not_directory_of_fileLocation h.source_eq hl
  · rintro rfl
    exact not_directory_of_fileLocation h.target_eq hl

/-- The file places of all paths are where they were after a move. -/
theorem Moved.fileLocation_eq {source target : Path} {l : Location}
    (h : Moved base source target t t' loc location) (hl : t.fileLocation base path = .ok l) :
    t'.fileLocation base path = .ok l := by
  refine fileLocation_keeps h.keeps hl ?_
  obtain ⟨bytes, -, hget⟩ := h.bytes
  rw [hget]
  split
  · simp
  · split
    · simp
    · exact not_directory_of_fileLocation hl

/-- A file can be moved to where another one may be. -/
theorem rename_of_fileLocation {source target : Path} {bytes : Bytes}
    (hs : t.fileLocation base source = .ok loc) (hb : t.get? loc = some (.file bytes))
    (ht : t.fileLocation base target = .ok location) :
    ∃ t', t.rename base source target = .ok (t', loc, location) := by
  obtain ⟨d, name, hp, hlong, rfl, hdir⟩ := fileLocation_eq_ok.1 ht
  refine ⟨(t.remove loc).set (d ++ [String.ofList name]) (.file bytes), ?_⟩
  simp only [rename, hs, hp, hb, hlong, hdir, bind, Except.bind, if_false, Bool.false_eq_true]

theorem Confined.moved {files dirs : List Path} {source target : Path}
    (h : Moved base source target t t' loc location) (hs : source ∈ files) (ht : target ∈ files) :
    Confined base files dirs t t' := by
  obtain ⟨bytes, -, hget⟩ := h.bytes
  refine ⟨h.keeps, fun l => ?_⟩
  by_cases hl : l = location
  · subst hl
    exact .inr (.inl ⟨target, ht, (names_of_fileLocation h.target_eq).keeps h.keeps⟩)
  · by_cases hl' : l = loc
    · subst hl'
      exact .inr (.inl ⟨source, hs, (names_of_fileLocation h.source_eq).keeps h.keeps⟩)
    · rw [hget, if_neg hl, if_neg hl']
      exact .inl rfl

end FileTree

end RepairLedger.Host
