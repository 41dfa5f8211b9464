import Mathlib.Data.List.DropRight
import Mathlib.Tactic.ByContra
import RepairLedger.Proofs.Host.Files

/-!
# Siblings of a file

The path of a file with an ending added to its name (`Path.withEnding`) has the same pieces as the
path of the file but for the last one, and but for pieces that lead nowhere
(`Path.pieces_withEnding`).  So it names a location in the same directory, under another name
(`FileTree.place_of_sibling`): a file and its siblings never get in each other's way.  The path of
that directory is the same as well (`Path.parent?_withEnding`).
-/

namespace RepairLedger

namespace Text

variable {c : Char} {cs : List Char}

theorem pieces_ne_nil (c : Char) (cs : List Char) : pieces c cs ≠ [] := by
  cases cs with
  | nil => simp [pieces]
  | cons x xs =>
    rw [pieces]
    split
    · simp
    · split <;> simp

theorem notMem_of_mem_pieces {p : List Char} (h : p ∈ pieces c cs) : c ∉ p := by
  induction cs generalizing p with
  | nil =>
    rw [pieces, List.mem_singleton] at h
    simp [h]
  | cons x xs ih =>
    rw [pieces] at h
    split at h
    · exact absurd ‹_› (pieces_ne_nil c xs)
    · rename_i piece rest hp
      rw [hp] at ih
      split at h
      · rcases List.mem_cons.1 h with rfl | h
        · exact List.not_mem_nil
        · exact ih h
      · rename_i hx
        rcases List.mem_cons.1 h with rfl | h
        · rw [List.mem_cons, not_or]
          exact ⟨Ne.symm hx, ih List.mem_cons_self⟩
        · exact ih (List.mem_cons_of_mem _ h)

theorem pieces_of_notMem (h : c ∉ cs) : pieces c cs = [cs] := by
  induction cs with
  | nil => rfl
  | cons x xs ih =>
    rw [List.mem_cons, not_or] at h
    simp only [pieces, ih h.2, Ne.symm h.1, if_false]

theorem pieces_append {p : List Char} (h : c ∉ p) (cs : List Char) :
    pieces c (p ++ c :: cs) = p :: pieces c cs := by
  obtain ⟨q, qs, hq⟩ := List.exists_cons_of_ne_nil (pieces_ne_nil c cs)
  induction p with
  | nil => simp only [List.nil_append, pieces, hq, if_true]
  | cons x xs ih =>
    rw [List.mem_cons, not_or] at h
    simp only [List.cons_append, pieces, ih h.2, Ne.symm h.1, if_false]

end Text

namespace Host

namespace Path

/-! ### Pieces put together -/

theorem joinPieces_cons {p : Piece} {ps : List Piece} (h : ps ≠ []) :
    joinPieces (p :: ps) = p ++ '/' :: joinPieces ps := by
  cases ps with
  | nil => exact absurd rfl h
  | cons q qs => rfl

theorem joinPieces_append {ps qs : List Piece} (hp : ps ≠ []) (hq : qs ≠ []) :
    joinPieces (ps ++ qs) = joinPieces ps ++ '/' :: joinPieces qs := by
  induction ps with
  | nil => exact absurd rfl hp
  | cons p ps ih =>
    cases ps with
    | nil => exact joinPieces_cons hq
    | cons p' ps =>
      have hne : p' :: ps ≠ [] := by simp
      rw [List.cons_append, joinPieces_cons (by simp), ih hne, joinPieces_cons hne,
        List.append_assoc, List.cons_append]

theorem joinPieces_pieces (cs : List Char) : joinPieces (Text.pieces '/' cs) = cs := by
  induction cs with
  | nil => rfl
  | cons x xs ih =>
    rw [Text.pieces]
    split
    · exact absurd ‹_› (Text.pieces_ne_nil '/' xs)
    · rename_i piece rest hp
      rw [hp] at ih
      split
      · rename_i hx
        rw [joinPieces_cons (by simp), ih, hx, List.nil_append]
      · cases rest with
        | nil => rw [joinPieces] at ih ⊢; rw [ih]
        | cons q qs =>
          rw [joinPieces_cons (by simp)] at ih ⊢
          rw [List.cons_append, ih]

theorem pieces_joinPieces {ps : List Piece} (hne : ps ≠ []) (h : ∀ p ∈ ps, '/' ∉ p) :
    Text.pieces '/' (joinPieces ps) = ps := by
  induction ps with
  | nil => exact absurd rfl hne
  | cons p ps ih =>
    have hp := h p List.mem_cons_self
    cases ps with
    | nil => exact Text.pieces_of_notMem hp
    | cons q qs =>
      rw [joinPieces_cons (by simp), Text.pieces_append hp,
        ih (by simp) fun x hx => h x (List.mem_cons_of_mem _ hx)]

theorem head?_joinPieces {p : Piece} {ps : List Piece} (h : ps ≠ []) :
    (joinPieces (p :: ps)).head? = (p ++ ['/']).head? := by
  rw [joinPieces_cons h]
  cases p <;> rfl

/-! ### The pieces of a sibling -/

/-- What follows the directory of a path that is not the root: a slash and the name. -/
theorem join_of_piece {ps : List Piece} {last : Piece} {name : String} (hl : last ≠ [])
    (hs : '/' ∉ last) (hn : name.toList.head? ≠ some '/') :
    (Path.join ⟨String.ofList (joinPieces (ps ++ [last]))⟩ name).text.toList =
      joinPieces (ps ++ [last] ++ [name.toList]) := by
  -- The text ends with the last character of the last piece, which is no slash.
  have hlast : (joinPieces (ps ++ [last])).getLast? = last.getLast? := by
    cases ps with
    | nil => rfl
    | cons p ps =>
      obtain ⟨c, cs, rfl⟩ := List.exists_cons_of_ne_nil hl
      rw [joinPieces_append (by simp) (by simp), joinPieces, List.getLast?_append,
        List.getLast?_cons_of_ne_nil hl, List.getLast?_cons, Option.some_or]
  have hslash : last.getLast? ≠ some '/' := fun h => hs (List.mem_of_getLast? h)
  have hne : joinPieces (ps ++ [last]) ≠ [] := by
    intro h
    rw [h] at hlast
    exact hl (List.getLast?_eq_none_iff.1 hlast.symm)
  unfold Path.join
  rw [if_neg hn, if_neg]
  · have hps : ps ++ [last] ≠ [] := by simp
    rw [joinPieces_append hps (by simp), joinPieces]
    simp
  · simp [Path.isEmpty, hne, hlast, hslash]

/-- What follows a directory that ends with a component, or has one piece only. -/
theorem join_ofPieces {first : Piece} {kept : List Piece} {name : String}
    (hlast : ∀ last ∈ kept.head?, Piece.isComponent last) (hs : ∀ p ∈ first :: kept, '/' ∉ p)
    (hn : name.toList.head? ≠ some '/') :
    ((ofPieces first kept).join name).text.toList =
      joinPieces (first :: kept.reverse ++ [name.toList]) := by
  cases kept with
  | nil =>
    cases first with
    | nil =>
      -- The root ends with a slash already.
      have hroot : ofPieces [] [] = ⟨"/"⟩ := rfl
      rw [hroot]
      unfold Path.join
      rw [if_neg hn, if_pos (.inr rfl)]
      simp [joinPieces]
    | cons c cs =>
      have hfirst : '/' ∉ c :: cs := hs _ List.mem_cons_self
      have hjoin : (Path.join ⟨String.ofList (joinPieces ([] ++ [c :: cs]))⟩ name).text.toList =
          joinPieces ([] ++ [c :: cs] ++ [name.toList]) := join_of_piece (by simp) hfirst hn
      exact hjoin
  | cons last rest =>
    have hcomponent : Piece.isComponent last := hlast last rfl
    have hmem : '/' ∉ last := hs last (List.mem_cons_of_mem _ List.mem_cons_self)
    have hof : ofPieces first (last :: rest) =
        ⟨String.ofList (joinPieces (first :: rest.reverse ++ [last]))⟩ := by
      simp [ofPieces]
    rw [hof, List.reverse_cons]
    exact join_of_piece (by rintro rfl; simp [Piece.isComponent] at hcomponent) hmem hn

/-- A name with an ending does not begin with a slash, as the name does not. -/
theorem head?_longer_ne {name : Piece} (hne : name ≠ []) (hs : '/' ∉ name) (ending : String) :
    (String.ofList name ++ ending).toList.head? ≠ some '/' := by
  obtain ⟨c, cs, rfl⟩ := List.exists_cons_of_ne_nil hne
  rw [String.toList_append, String.toList_ofList]
  rintro ⟨⟩
  exact hs List.mem_cons_self

section Ending

variable {path : Path} {ending : String} {name first : Piece} {mid : List Piece}

/-- A file name alone has no directory, so its sibling is a name alone, too. -/
theorem withEnding_of_name (hp : Text.pieces '/' path.text.toList = [name])
    (hn : name.isComponent) (hdots : name ≠ ['.', '.']) (hs : '/' ∉ name) (ending : String) :
    (path.withEnding ending).text.toList = name ++ ending.toList := by
  obtain ⟨hne, hdot⟩ : name ≠ [] ∧ name ≠ ['.'] := by simpa [Piece.isComponent] using hn
  have hfile : path.fileName? = some (String.ofList name) := by
    simp [Path.fileName?, Path.split, hp, hne, hdot, hdots]
  have hparent : path.parent? = some ⟨""⟩ := by
    simp [Path.parent?, Path.split, hp]
  have hhead := head?_longer_ne hne hs ending
  simp only [Path.withEnding, Path.withFileName, hfile, hparent, Option.getD_some]
  unfold Path.join
  rw [if_neg hhead, if_pos (.inl rfl)]
  simp

/-- What is left when the pieces at the end that are no components are left out ends with a
component, unless nothing is left. -/
theorem isComponent_of_mem_kept :
    ∀ last ∈ (mid.reverse.dropWhile (!Piece.isComponent ·)).head?, Piece.isComponent last := by
  intro last h
  have hdrop := List.head?_dropWhile_not (!Piece.isComponent ·) mid.reverse
  rw [h] at hdrop
  simpa using hdrop

theorem noSlash_of_mem_kept (h : ∀ p ∈ first :: mid, '/' ∉ p) :
    ∀ p ∈ first :: mid.reverse.dropWhile (!Piece.isComponent ·), '/' ∉ p := by
  intro p hp
  rcases List.mem_cons.1 hp with rfl | hp
  · exact h p List.mem_cons_self
  · have hmid : p ∈ mid.reverse := (List.dropWhile_sublist _).subset hp
    exact h p (List.mem_cons_of_mem _ (List.mem_reverse.1 hmid))

theorem split_of_directory (hp : Text.pieces '/' path.text.toList = first :: mid ++ [name])
    (hn : name.isComponent) : path.split = (first, name :: mid.reverse) := by
  simp only [Path.split, hp, List.reverse_append, List.reverse_singleton,
    List.cons_append, List.nil_append]
  rw [List.dropWhile_cons_of_neg (by simp [hn])]

/-- The directory of a path ends with its last component, if there is one behind the first piece. -/
theorem parent?_of_directory (hp : Text.pieces '/' path.text.toList = first :: mid ++ [name])
    (hn : name.isComponent) :
    path.parent? = some (ofPieces first (mid.reverse.dropWhile (!Piece.isComponent ·))) := by
  rw [Path.parent?, split_of_directory hp hn]
  cases first <;> rfl

/-- Behind a directory, the pieces between its last component and the name are left out. -/
theorem withEnding_of_directory (hp : Text.pieces '/' path.text.toList = first :: mid ++ [name])
    (hn : name.isComponent) (hdots : name ≠ ['.', '.']) (ending : String) :
    (path.withEnding ending).text.toList =
      joinPieces (first :: (mid.reverse.dropWhile (!Piece.isComponent ·)).reverse ++
        [name ++ ending.toList]) := by
  have hslash : ∀ p ∈ first :: mid ++ [name], '/' ∉ p := fun p h =>
    Text.notMem_of_mem_pieces (hp ▸ h)
  obtain ⟨hne, hdot⟩ : name ≠ [] ∧ name ≠ ['.'] := by simpa [Piece.isComponent] using hn
  have hfile : path.fileName? = some (String.ofList name) := by
    simp [Path.fileName?, split_of_directory hp hn, hne, hdot, hdots]
  have hnew : (String.ofList name ++ ending).toList = name ++ ending.toList := by simp
  have hhead := head?_longer_ne hne (hslash name (by simp)) ending
  simp only [Path.withEnding, Path.withFileName, hfile, parent?_of_directory hp hn,
    Option.getD_some]
  rw [← hnew]
  exact join_ofPieces isComponent_of_mem_kept (noSlash_of_mem_kept fun p h => hslash p
    (List.mem_append_left _ h)) hhead

/-- The pieces behind a directory. -/
theorem pieces_withEnding_of_directory
    (hp : Text.pieces '/' path.text.toList = first :: mid ++ [name]) (hn : name.isComponent)
    (hdots : name ≠ ['.', '.']) (he : '/' ∉ ending.toList) :
    Text.pieces '/' (path.withEnding ending).text.toList =
      first :: (mid.reverse.dropWhile (!Piece.isComponent ·)).reverse ++
        [name ++ ending.toList] := by
  have hslash : ∀ p ∈ first :: mid ++ [name], '/' ∉ p := fun p h =>
    Text.notMem_of_mem_pieces (hp ▸ h)
  rw [withEnding_of_directory hp hn hdots ending]
  refine pieces_joinPieces (by simp) fun p h => ?_
  rcases List.mem_append.1 h with h | h
  · refine noSlash_of_mem_kept (fun p h => hslash p (List.mem_append_left _ h)) p ?_
    simpa [List.mem_reverse] using h
  · obtain rfl := List.mem_singleton.1 h
    rw [List.mem_append, not_or]
    exact ⟨hslash name (by simp), he⟩

/-- A path that ends with a name has the pieces of its sibling, with another last piece and perhaps
some before it that are no components. -/
theorem pieces_withEnding {outer : List Piece}
    (hp : (Text.pieces '/' path.text.toList).reverse = name :: outer) (hn : name.isComponent)
    (hdots : name ≠ ['.', '.']) (he : '/' ∉ ending.toList) :
    ∃ before skipped, outer.reverse = before ++ skipped ∧
      (∀ p ∈ skipped, p.isComponent = false) ∧
      Text.pieces '/' (path.withEnding ending).text.toList =
        before ++ [name ++ ending.toList] ∧
      (path.withEnding ending).isAbsolute = path.isAbsolute := by
  have hpieces : Text.pieces '/' path.text.toList = outer.reverse ++ [name] := by
    rw [← List.reverse_reverse (Text.pieces '/' path.text.toList), hp, List.reverse_cons]
  have hname : '/' ∉ name :=
    have hmem : name ∈ Text.pieces '/' path.text.toList := by simp [hpieces]
    Text.notMem_of_mem_pieces hmem
  have hnewSlash : '/' ∉ name ++ ending.toList := by
    rw [List.mem_append, not_or]
    exact ⟨hname, he⟩
  have htext := joinPieces_pieces path.text.toList
  rw [hpieces] at htext
  cases hrev : outer.reverse with
  | nil =>
    rw [hrev, List.nil_append] at hpieces htext
    have hsibling := withEnding_of_name hpieces hn hdots hname ending
    refine ⟨[], [], rfl, by simp, ?_, ?_⟩
    · rw [hsibling, Text.pieces_of_notMem hnewSlash, List.nil_append]
    · obtain ⟨c, cs, rfl⟩ := List.exists_cons_of_ne_nil (show name ≠ [] by
        rintro rfl
        simp [Piece.isComponent] at hn)
      rw [joinPieces] at htext
      simp [Path.isAbsolute, hsibling, ← htext]
  | cons first mid =>
    rw [hrev] at hpieces htext
    have hsibling := withEnding_of_directory hpieces hn hdots ending
    have hsplit : first :: mid =
        (first :: (mid.reverse.dropWhile (!Piece.isComponent ·)).reverse) ++
          (mid.reverse.takeWhile (!Piece.isComponent ·)).reverse := by
      rw [List.cons_append, ← List.reverse_append, List.takeWhile_append_dropWhile,
        List.reverse_reverse]
    refine ⟨_, _, hsplit, fun p hp => ?_, pieces_withEnding_of_directory hpieces hn hdots he, ?_⟩
    · have := List.all_eq_true.1 List.all_takeWhile p (List.mem_reverse.1 hp)
      simpa using this
    · -- Both texts begin with the first piece and a slash.
      rw [Path.isAbsolute, Path.isAbsolute, hsibling, ← htext, List.cons_append, List.cons_append,
        head?_joinPieces (by simp), head?_joinPieces (by simp)]

/-- A sibling is in the same directory. -/
theorem parent?_withEnding {outer : List Piece}
    (hp : (Text.pieces '/' path.text.toList).reverse = name :: outer) (hn : name.isComponent)
    (hdots : name ≠ ['.', '.']) (he : '/' ∉ ending.toList) :
    (path.withEnding ending).parent? = path.parent? := by
  obtain ⟨hne, hdot⟩ : name ≠ [] ∧ name ≠ ['.'] := by simpa [Piece.isComponent] using hn
  have hpieces : Text.pieces '/' path.text.toList = outer.reverse ++ [name] := by
    rw [← List.reverse_reverse (Text.pieces '/' path.text.toList), hp, List.reverse_cons]
  have hname : '/' ∉ name :=
    have hmem : name ∈ Text.pieces '/' path.text.toList := by simp [hpieces]
    Text.notMem_of_mem_pieces hmem
  cases hrev : outer.reverse with
  | nil =>
    rw [hrev, List.nil_append] at hpieces
    have hlonger : '/' ∉ name ++ ending.toList := by
      rw [List.mem_append, not_or]
      exact ⟨hname, he⟩
    have hsibling := withEnding_of_name hpieces hn hdots hname ending
    simp [Path.parent?, Path.split, hpieces, hsibling, Text.pieces_of_notMem hlonger, hne]
  | cons first mid =>
    rw [hrev] at hpieces
    -- The longer name is a component as well, and the rest has been cut already.
    have hlonger : Piece.isComponent (name ++ ending.toList) := by
      obtain ⟨c, cs, rfl⟩ := List.exists_cons_of_ne_nil hne
      cases cs with
      | nil => simp_all [Piece.isComponent]
      | cons d ds => simp [Piece.isComponent]
    rw [parent?_of_directory hpieces hn,
      parent?_of_directory (pieces_withEnding_of_directory hpieces hn hdots he) hlonger,
      List.reverse_reverse, List.dropWhile_idempotent]

end Ending

end Path

/-! ### The places of siblings -/

namespace FileTree

variable {t t₀ : FileTree} {base d d₀ loc : Location} {path : Path} {ending : String} {name : Piece}

/-- Pieces that are no components lead nowhere. -/
theorem follow_skipped {skipped : List Piece} (hs : ∀ p ∈ skipped, p.isComponent = false)
    (hd : t.get? d = some .directory) : t.follow d skipped = .ok d := by
  induction skipped with
  | nil => rfl
  | cons p skipped ih =>
    refine bind_eq_ok.2 ⟨d, enter_eq_ok.2 ⟨hd, ?_⟩, ih fun q hq => hs q (List.mem_cons_of_mem _ hq)⟩
    have hp : p = [] ∨ p = ['.'] := by
      have := hs p List.mem_cons_self
      simpa [Piece.isComponent, or_iff_not_imp_left] using this
    rw [if_pos hp]

/-- If a sibling of a file names a location, the file has its place in the same directory; that the
path ends with a name can be seen in any tree. -/
theorem place_of_sibling (h₀ : t₀.place base path = .ok (.named d₀ name false))
    (he : '/' ∉ ending.toList) (hl : Names t base (path.withEnding ending) loc) :
    ∃ d, t.place base path = .ok (.named d name false) ∧
      loc = d ++ [String.ofList (name ++ ending.toList)] := by
  obtain ⟨hc, ⟨outer, ho, -⟩, -, hdots, hs⟩ := place_eq_named.1 h₀
  have hne := ne_nil_of_reversedPieces ho
  have hrev := reverse_pieces_of_no_slash ho hs.symm
  have hcomponent : name.isComponent := by simp [Piece.isComponent, hne, hdots.1]
  obtain ⟨before, skipped, hbefore, hskipped, hpieces, habs⟩ :=
    Path.pieces_withEnding hrev hcomponent hdots.2 he
  -- The way to the sibling is the way to the file, but for pieces that lead nowhere.
  obtain ⟨d, name', slash, hp, rfl⟩ := hl
  obtain ⟨-, ⟨outer', ho', hf⟩, hd, -, -⟩ := place_eq_named.1 hp
  have hnew : name ++ ending.toList ≠ [] := by simp [hne]
  have hrevSibling : reversedPieces (path.withEnding ending) =
      (name ++ ending.toList) :: before.reverse := by
    simp [reversedPieces, hpieces, hnew]
  rw [hrevSibling] at ho'
  obtain ⟨rfl, rfl⟩ := List.cons.inj ho'
  rw [List.reverse_reverse] at hf
  have hstart : start base (path.withEnding ending) = start base path := by
    rw [start, start, habs]
  rw [hstart] at hf
  refine ⟨d, place_eq_named.2 ⟨hc, ⟨outer, ho, ?_⟩, hd, hdots, hs⟩, rfl⟩
  rw [hbefore, follow_append_of_ok hf]
  exact follow_skipped hskipped hd

/-- A file and its sibling have different locations. -/
theorem ne_of_sibling (hp : t.place base path = .ok (.named d name false))
    (he : '/' ∉ ending.toList) (hne : ending.toList ≠ [])
    (hl : Names t base (path.withEnding ending) loc) : d ++ [String.ofList name] ≠ loc := by
  obtain ⟨d', hp', rfl⟩ := place_of_sibling hp he hl
  rw [hp] at hp'
  cases hp'
  intro h
  have hnames := String.ofList_inj.1 (List.cons.inj (List.append_cancel_left h)).1
  have := congrArg List.length hnames
  rw [List.length_append] at this
  exact hne (List.length_eq_zero_iff.1 (by omega))

end FileTree

end Host

end RepairLedger
