import Mathlib.Data.List.Forall2
import RepairLedger.Proofs.Host.Alike
import RepairLedger.Proofs.Host.Files

/-!
# Trees that differ in their contents

Two trees are alike (`FileTree.Like`) if they have the same directories and files in the same
places, and the contents of a file in the one and in the other are the same or related.  Where a
path leads does not depend on what is in the files, so each operation says the same of both and
gives trees that are alike again; only to read a file may tell them apart.
-/

namespace RepairLedger.Host

open Attempt (Agree agree_of_eq)

/-- Two files whose contents are the same or related, or two directories. -/
def Entry.Like (C : Bytes → Bytes → Prop) : Entry → Entry → Prop
  | .file b, .file b' => b = b' ∨ C b b'
  | .directory, .directory => True
  | _, _ => False

theorem Entry.like_refl {C : Bytes → Bytes → Prop} (e : Entry) : Entry.Like C e e := by
  cases e with
  | file b => exact .inl rfl
  | directory => trivial

namespace FileTree

variable {C : Bytes → Bytes → Prop} {t t' : FileTree} {e e' : Entry} {base location : Location}
  {path : Path}

/-- The trees have like entries at the same locations, in one order. -/
def Like (C : Bytes → Bytes → Prop) (t t' : FileTree) : Prop :=
  List.Forall₂ (fun x y => x.1 = y.1 ∧ Entry.Like C x.2 y.2) t.entries t'.entries

namespace Like

theorem refl (t : FileTree) : Like C t t :=
  List.forall₂_same.2 fun e _ => ⟨rfl, e.2.like_refl⟩

/-- Trees whose contents may not differ are the same. -/
theorem eq (h : Like (fun _ _ => False) t t') : t = t' := by
  have hentries : t.entries = t'.entries := by
    rw [← List.forall₂_eq_eq_eq]
    refine h.imp fun x y hxy => Prod.ext hxy.1 ?_
    obtain ⟨-, hlike⟩ := hxy
    rcases x with ⟨_, b | _⟩ <;> rcases y with ⟨_, b' | _⟩
    · exact congrArg Entry.file (hlike.resolve_right id)
    · exact hlike.elim
    · exact hlike.elim
    · rfl
  cases t
  cases t'
  exact congrArg FileTree.mk hentries

theorem get? (h : Like C t t') (location : Location) :
    Option.Rel (Entry.Like C) (t.get? location) (t'.get? location) := by
  cases location with
  | nil => exact .some trivial
  | cons name rest =>
    obtain ⟨xs⟩ := t
    obtain ⟨ys⟩ := t'
    show Option.Rel _ (xs.lookup (name :: rest)) (ys.lookup (name :: rest))
    change List.Forall₂ _ xs ys at h
    induction h with
    | nil => exact .none
    | @cons x y xs ys hxy _ ih =>
      rw [List.lookup_cons, List.lookup_cons, ← hxy.1]
      cases name :: rest == x.1 with
      | true => exact .some hxy.2
      | false => exact ih

theorem set (h : Like C t t') (location : Location) (he : Entry.Like C e e') :
    Like C (t.set location e) (t'.set location e') := by
  obtain ⟨xs⟩ := t
  obtain ⟨ys⟩ := t'
  change List.Forall₂ _ xs ys at h
  show List.Forall₂ _ (setEntry location e xs) (setEntry location e' ys)
  induction h with
  | nil => exact .cons ⟨rfl, he⟩ .nil
  | @cons x y xs ys hxy hrest ih =>
    obtain ⟨l, e₁⟩ := x
    obtain ⟨l', e₂⟩ := y
    obtain ⟨rfl, hlike⟩ := hxy
    rw [setEntry, setEntry]
    split
    · exact .cons ⟨rfl, he⟩ hrest
    · exact .cons ⟨rfl, hlike⟩ ih

theorem remove (h : Like C t t') (location : Location) :
    Like C (t.remove location) (t'.remove location) := by
  obtain ⟨xs⟩ := t
  obtain ⟨ys⟩ := t'
  change List.Forall₂ _ xs ys at h
  show List.Forall₂ _ (xs.filter _) (ys.filter _)
  induction h with
  | nil => exact .nil
  | @cons x y xs ys hxy _ ih =>
    rw [List.filter_cons, List.filter_cons, ← hxy.1]
    split
    · exact .cons hxy ih
    · exact ih

/-! ### Paths -/

theorem kind_eq (h : Like C t t') (location : Location) :
    (t.get? location).map Entry.kind = (t'.get? location).map Entry.kind := by
  generalize t.get? location = x, t'.get? location = y, h.get? location = hxy
  cases hxy with
  | none => rfl
  | @some e e' hlike => cases e <;> cases e' <;> first | rfl | exact hlike.elim

theorem directory_iff (h : Like C t t') (location : Location) :
    t.get? location = some .directory ↔ t'.get? location = some .directory := by
  generalize t.get? location = x, t'.get? location = y, h.get? location = hxy
  cases hxy with
  | none => exact Iff.rfl
  | @some e e' hlike => cases e <;> cases e' <;> first | exact hlike.elim | simp

theorem checkDirectory_eq (h : Like C t t') (location : Location) :
    t.checkDirectory location = t'.checkDirectory location := by
  unfold checkDirectory
  generalize t.get? location = x, t'.get? location = y, h.get? location = hxy
  cases hxy with
  | none => rfl
  | @some e e' hlike => cases e <;> cases e' <;> first | rfl | exact hlike.elim

theorem enter_eq (h : Like C t t') (location : Location) (piece : Piece) :
    t.enter location piece = t'.enter location piece := by
  unfold enter
  rw [h.checkDirectory_eq]
  refine bind_congr fun _ => ?_
  split
  · rfl
  · split
    · rfl
    · split
      · rfl
      · dsimp only
        generalize t.get? (location ++ [String.ofList piece]) = x,
          t'.get? (location ++ [String.ofList piece]) = y,
          h.get? (location ++ [String.ofList piece]) = hxy
        cases hxy <;> rfl

theorem follow_eq (h : Like C t t') (location : Location) (pieces : List Piece) :
    t.follow location pieces = t'.follow location pieces := by
  induction pieces generalizing location with
  | nil => rfl
  | cons piece pieces ih =>
    rw [follow, follow, h.enter_eq]
    exact bind_congr fun next => ih next

theorem locate_eq (h : Like C t t') (base : Location) (path : Path) :
    t.locate base path = t'.locate base path :=
  bind_congr fun _ => h.follow_eq _ _

theorem place_eq (h : Like C t t') (base : Location) (path : Path) :
    t.place base path = t'.place base path := by
  unfold place
  refine bind_congr fun _ => ?_
  dsimp only
  split
  · rfl
  · rw [h.follow_eq]
    refine bind_congr fun directory => ?_
    rw [h.checkDirectory_eq]

theorem fileLocation_eq (h : Like C t t') (base : Location) (path : Path) :
    t.fileLocation base path = t'.fileLocation base path := by
  unfold fileLocation
  rw [h.place_eq]
  refine bind_congr fun place => ?_
  split
  · rfl
  · rfl
  · split
    · rfl
    · rename_i directory name _
      dsimp only
      generalize t.get? (directory ++ [String.ofList name]) = x,
        t'.get? (directory ++ [String.ofList name]) = y,
        h.get? (directory ++ [String.ofList name]) = hxy
      cases hxy with
      | none => rfl
      | @some e e' hlike => cases e <;> cases e' <;> first | rfl | exact hlike.elim

/-! ### Operations -/

theorem kind?_eq (h : Like C t t') (base : Location) (path : Path) :
    t.kind? base path = t'.kind? base path := by
  unfold kind?
  rw [h.locate_eq]
  split
  · exact h.kind_eq _
  · rfl

/-- What is read is the same or related. -/
theorem read (h : Like C t t') (base : Location) (path : Path) :
    Agree True (fun b b' => b = b' ∨ C b b') (t.read base path) (t'.read base path) := by
  refine Agree.bind (agree_of_eq (h.locate_eq base path)) fun location _ hl => ?_
  subst hl
  generalize t.get? location = x, t'.get? location = y, h.get? location = hxy
  cases hxy with
  | none => exact fun _ => rfl
  | @some e e' hlike =>
    cases e with
    | file b =>
      cases e' with
      | file b' => exact hlike
      | directory => exact hlike.elim
    | directory =>
      cases e' with
      | file b' => exact hlike.elim
      | directory => exact fun _ => rfl

theorem write (h : Like C t t') (base : Location) (path : Path) (bytes : Bytes) :
    Agree True (Like C) (t.write base path bytes) (t'.write base path bytes) := by
  refine Agree.bind (agree_of_eq (h.fileLocation_eq base path)) fun location _ hl => ?_
  subst hl
  exact h.set location (.inl rfl)

theorem ensureFile (h : Like C t t') (base : Location) (path : Path) :
    Agree True (fun x y => Like C x.1 y.1 ∧ x.2 = y.2) (t.ensureFile base path)
      (t'.ensureFile base path) := by
  refine Agree.bind (agree_of_eq (h.fileLocation_eq base path)) fun location _ hl => ?_
  subst hl
  generalize t.get? location = x, t'.get? location = y, h.get? location = hxy
  cases hxy with
  | none => exact ⟨h.set location (.inl rfl), rfl⟩
  | some => exact ⟨h, rfl⟩

theorem makeDirectory (h : Like C t t') (base : Location) (path : Path) :
    Agree True (Like C) (t.makeDirectory base path) (t'.makeDirectory base path) := by
  refine Agree.bind (agree_of_eq (h.place_eq base path)) fun place _ hplace => ?_
  subst hplace
  cases place with
  | unnamed => exact fun _ => rfl
  | named directory name slash =>
    dsimp only
    split
    · exact fun _ => rfl
    · generalize t.get? (directory ++ [String.ofList name]) = x,
        t'.get? (directory ++ [String.ofList name]) = y,
        h.get? (directory ++ [String.ofList name]) = hxy
      cases hxy with
      | none => exact h.set _ trivial
      | some => exact fun _ => rfl

theorem rename (h : Like C t t') (base : Location) (source target : Path) :
    Agree True (fun x y => Like C x.1 y.1 ∧ x.2 = y.2) (t.rename base source target)
      (t'.rename base source target) := by
  refine Agree.bind (agree_of_eq (h.fileLocation_eq base source)) fun location _ hl => ?_
  subst hl
  refine Agree.bind (agree_of_eq (h.place_eq base target)) fun place _ hplace => ?_
  subst hplace
  cases place with
  | unnamed => exact fun _ => rfl
  | named directory name slash =>
    dsimp only
    split
    · exact fun _ => rfl
    have hdirectory : t.get? (directory ++ [String.ofList name]) = some .directory ↔
        t'.get? (directory ++ [String.ofList name]) = some .directory :=
      h.directory_iff _
    generalize t.get? location = x, t'.get? location = y, h.get? location = hxy
    cases hxy with
    | none => exact fun _ => rfl
    | @some e e' hlike =>
      cases e with
      | directory =>
        cases e' with
        | file b' => exact hlike.elim
        | directory => exact fun _ => rfl
      | file b =>
        cases e' with
        | directory => exact hlike.elim
        | file b' =>
          dsimp only
          split
          · exact fun _ => rfl
          · by_cases hd : t.get? (directory ++ [String.ofList name]) = some .directory
            · rw [if_pos hd, if_pos (hdirectory.1 hd)]
              exact fun _ => rfl
            · rw [if_neg hd, if_neg (hdirectory.not.1 hd)]
              exact ⟨(h.remove location).set _ hlike, rfl⟩

end Like

end FileTree

end RepairLedger.Host
