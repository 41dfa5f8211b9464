import RepairLedger.Hosting.GitHub
import RepairLedger.Proofs.Host.Contents

/-!
# Worlds that differ in tokens

Two runs are contrasted that may differ in the token that they send along, in the environment
variable for it and in the contents of files (`Contrast`).  What they get to see of the world is the
same but for these (`Contrast.view`), and each operation keeps their worlds the same but for these
(`Host.World.Like.perform`).  So do the runs of programs that are alike (`Contrast.run_alike`).
-/

namespace RepairLedger

open Host Attempt

/-- The requests are the same, or they differ in the token alone. -/
def Host.Request.SameBut (t t' : String) (r r' : Request) : Prop :=
  r = r' ∨ r.anonymous = r'.anonymous ∧ r.authorization = some (GitHub.authorization t) ∧
    r'.authorization = some (GitHub.authorization t')

theorem Host.Request.SameBut.anonymous_eq {t t' : String} {r r' : Request}
    (h : r.SameBut t t' r') : r.anonymous = r'.anonymous := by
  obtain rfl | ⟨h, -⟩ := h
  · rfl
  · exact h

/-- Requests that differ in no more than one and the same token are the same. -/
theorem Host.Request.SameBut.eq {t : String} {r r' : Request} (h : r.SameBut t t r') : r = r' := by
  obtain rfl | ⟨h, ht, ht'⟩ := h
  · rfl
  · obtain ⟨url, accept, userAgent, authorization⟩ := r
    obtain ⟨url', accept', userAgent', authorization'⟩ := r'
    obtain ⟨rfl, rfl, rfl, -⟩ := Request.mk.inj h
    exact congrArg _ (ht.trans ht'.symm)

/-- How two runs may differ. -/
structure Contrast where
  /-- The token that the first run may send along. -/
  first : String
  /-- The token that the second run may send along in its place. -/
  second : String
  /-- What the environment variable for the token may hold. -/
  environment : Option String → Option String → Prop
  /-- What may stand in files. -/
  content : Bytes → Bytes → Prop
  /-- Do the errors agree? -/
  strict : Prop

namespace Contrast

/-- The environment variable for the token. -/
def variableName : String := "GITHUB_TOKEN"

/-- How far replies may differ. -/
def replies (c : Contrast) : (op : Op) → op.Reply → op.Reply → Prop
  | .read _, x, y => Agree True (fun b b' => b = b' ∨ c.content b b') x y
  | .environment name, x, y => if name = variableName then c.environment x y else x = y
  | _, x, y => x = y

/-- What the two runs get to see, and what they ask of servers. -/
def view (c : Contrast) : View where
  permits := Program.IsLocal
  replies := c.replies
  requests := Request.SameBut c.first c.second
  strict := c.strict

end Contrast

/-- The worlds are the same but for what the contrast allows. -/
structure Host.World.Like (c : Contrast) (w w' : World) : Prop where
  files : FileTree.Like c.content w.files w'.files
  base : w.base = w'.base
  locks : w.locks = w'.locks
  environment : ∀ name, c.replies (.environment name) (w.environment.lookup name)
    (w'.environment.lookup name)
  requests : List.Forall₂ (Request.SameBut c.first c.second) w.requests w'.requests
  output : w.output = w'.output
  complaints : w.complaints = w'.complaints

namespace Host.World.Like

variable {c : Contrast} {w w' : World} {σ : Type}

/-- A change of files that can be made in both worlds or in neither. -/
theorem change (h : w.Like c w') {x y : Except Failure FileTree}
    (hxy : Agree True (FileTree.Like c.content) x y) :
    (w.change x).1 = (w'.change y).1 ∧ (w.change x).2.Like c (w'.change y).2 := by
  rcases x with e | t <;> rcases y with e' | t'
  · exact ⟨congrArg Except.error (hxy trivial), h⟩
  · exact hxy.elim
  · exact hxy.elim
  · exact ⟨rfl, { h with files := hxy }⟩

theorem lock (h : w.Like c w') (path : Path) (timeout : Span) :
    (w.lock path timeout).1 = (w'.lock path timeout).1 ∧
      (w.lock path timeout).2.Like c (w'.lock path timeout).2 := by
  have hensure := h.files.ensureFile w.base path
  unfold World.lock World.freshLock
  rw [← h.base, ← h.locks]
  generalize w.files.ensureFile w.base path = x, w'.files.ensureFile w.base path = y at hensure
  rcases x with e | ⟨t, location⟩ <;> rcases y with e' | ⟨t', location'⟩
  · exact ⟨congrArg (Except.error ∘ LockFailure.cannotOpen) (hensure trivial), h⟩
  · exact hensure.elim
  · exact hensure.elim
  · obtain ⟨hfiles, rfl⟩ := hensure
    dsimp only
    split
    · exact ⟨rfl, { h with files := hfiles, base := rfl, locks := rfl }⟩
    · exact ⟨rfl, { h with files := hfiles, base := rfl, locks := rfl }⟩

theorem rename (h : w.Like c w') (source target : Path) :
    (w.rename source target).1 = (w'.rename source target).1 ∧
      (w.rename source target).2.Like c (w'.rename source target).2 := by
  have hmove := h.files.rename w.base source target
  unfold World.rename
  rw [← h.base, ← h.locks]
  generalize w.files.rename w.base source target = x,
    w'.files.rename w.base source target = y at hmove
  rcases x with e | ⟨t, locations⟩ <;> rcases y with e' | ⟨t', locations'⟩
  · exact ⟨congrArg Except.error (hmove trivial), h⟩
  · exact hmove.elim
  · exact hmove.elim
  · obtain ⟨hfiles, rfl⟩ := hmove
    exact ⟨rfl, { h with files := hfiles, base := rfl, locks := rfl }⟩

/-- An operation is answered alike in both worlds, which stay the same but for what the contrast
allows. -/
theorem perform (o : Outside σ) (s : σ) {op : Op} (hop : Program.IsLocal op) (h : w.Like c w') :
    c.replies op (o.perform (w, s) op).1 (o.perform (w', s) op).1 ∧
      (o.perform (w, s) op).2.1.Like c (o.perform (w', s) op).2.1 ∧
        (o.perform (w, s) op).2.2 = (o.perform (w', s) op).2.2 := by
  cases op with
  | fetch => exact hop.elim
  | read path =>
    refine ⟨?_, h, rfl⟩
    show Agree True _ (w.files.read w.base path) (w'.files.read w'.base path)
    rw [← h.base]
    exact h.files.read w.base path
  | write path bytes =>
    have hchange := h.change (h.files.write w.base path bytes)
    show _ = (w'.change (w'.files.write w'.base path bytes)).1 ∧
      World.Like c _ (w'.change (w'.files.write w'.base path bytes)).2 ∧ _
    rw [← h.base]
    exact ⟨hchange.1, hchange.2, rfl⟩
  | makeDirectory path =>
    have hchange := h.change (h.files.makeDirectory w.base path)
    show _ = (w'.change (w'.files.makeDirectory w'.base path)).1 ∧
      World.Like c _ (w'.change (w'.files.makeDirectory w'.base path)).2 ∧ _
    rw [← h.base]
    exact ⟨hchange.1, hchange.2, rfl⟩
  | kind path =>
    refine ⟨?_, h, rfl⟩
    show w.files.kind? w.base path = w'.files.kind? w'.base path
    rw [← h.base]
    exact h.files.kind?_eq w.base path
  | rename source target =>
    obtain ⟨hreply, hlike⟩ := h.rename source target
    exact ⟨hreply, hlike, rfl⟩
  | lock path timeout =>
    obtain ⟨hreply, hlike⟩ := h.lock path timeout
    exact ⟨hreply, hlike, rfl⟩
  | unlock lock =>
    have hlocks := congrArg (List.filter fun l : Lock × Location => l.1 ≠ lock) h.locks
    exact ⟨rfl, { h with locks := hlocks }, rfl⟩
  | now => exact ⟨rfl, h, rfl⟩
  | environment name => exact ⟨h.environment name, h, rfl⟩
  | workingDirectory => exact ⟨congrArg World.pathOf h.base, h, rfl⟩
  | print text => exact ⟨rfl, { h with output := congrArg (· ++ text) h.output }, rfl⟩
  | complain text => exact ⟨rfl, { h with complaints := congrArg (· ++ text) h.complaints }, rfl⟩
  | log event => exact ⟨rfl, h, rfl⟩

theorem fetch {o : Outside σ}
    (ho : ∀ s r r', Request.SameBut c.first c.second r r' → o.answer s r = o.answer s r') (s : σ)
    {r r' : Request} (hr : r.SameBut c.first c.second r') (h : w.Like c w') :
    (o.perform (w, s) (.fetch r)).1 = (o.perform (w', s) (.fetch r')).1 ∧
      (o.perform (w, s) (.fetch r)).2.1.Like c (o.perform (w', s) (.fetch r')).2.1 ∧
        (o.perform (w, s) (.fetch r)).2.2 = (o.perform (w', s) (.fetch r')).2.2 := by
  have hrequests : List.Forall₂ (Request.SameBut c.first c.second)
      (if o.reached then w.requests ++ [r] else w.requests)
      (if o.reached then w'.requests ++ [r'] else w'.requests) := by
    split
    · exact List.rel_append h.requests (.cons hr .nil)
    · exact h.requests
  have hanswer := ho s r r' hr
  exact ⟨(Prod.ext_iff.1 hanswer).1, { h with requests := hrequests }, (Prod.ext_iff.1 hanswer).2⟩

end Host.World.Like

/-- Runs of alike programs end in worlds that are the same but for what the contrast allows, and
with related results. -/
theorem Contrast.run_alike {α β σ : Type} {R : α → β → Prop} {c : Contrast} {o : Outside σ}
    (ho : ∀ s r r', Request.SameBut c.first c.second r r' → o.answer s r = o.answer s r')
    {p : Program α} {p' : Program β} (h : Program.Alike c.view R p p') {w w' : World}
    (hw : w.Like c w') (s : σ) :
    R (p.runAmid o (w, s)).1 (p'.runAmid o (w', s)).1 ∧
      (p.runAmid o (w, s)).2.1.Like c (p'.runAmid o (w', s)).2.1 ∧
        (p.runAmid o (w, s)).2.2 = (p'.runAmid o (w', s)).2.2 := by
  refine h.runAmid (I := fun x x' => x.1.Like c x'.1 ∧ x.2 = x'.2) ?_ ?_ ⟨hw, rfl⟩
  · rintro op hop ⟨u, s⟩ ⟨u', s'⟩ ⟨hu, rfl⟩
    exact hu.perform o s hop
  · rintro r r' hr ⟨u, s⟩ ⟨u', s'⟩ ⟨hu, rfl⟩
    exact hu.fetch ho s hr

end RepairLedger
