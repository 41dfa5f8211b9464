import RepairLedger.Proofs.Command.Arguments
import RepairLedger.Proofs.Command.Shadowing

/-!
# The token does not leak

Two runs that are given different tokens at the same place, on the command line or in the
environment, end in the same way: what they print, what they log and what they leave in files is the
same, and their requests are the same but for the header that holds the token.  And a token that
another one overrides is not even sent (`Invocation.keeps_token_secret`).
-/

namespace RepairLedger

open Host Attempt

variable {σ : Type} {t t' : String}

/-- A token can stand in a header. -/
theorem IsToken.isHeaderText (h : IsToken t) : GitHub.isHeaderText (GitHub.authorization t) := by
  have htext : (GitHub.authorization t).toList = "Bearer ".toList ++ t.toList := by
    rw [GitHub.authorization, String.toList_append]
    rfl
  unfold GitHub.isHeaderText
  rw [htext, List.all_append, Bool.and_eq_true]
  refine ⟨by decide, List.all_eq_true.2 fun c hc => ?_⟩
  obtain ⟨hlow, hhigh⟩ := h.visible c hc
  simp only [Bool.or_eq_true, Bool.and_eq_true, decide_eq_true_eq]
  exact .inr ⟨by omega, by omega⟩

theorem IsToken.isBlankText_eq (h : IsToken t) : Text.isBlankText t = false := by
  obtain ⟨c, cs, hcs⟩ := List.exists_cons_of_ne_nil h.nonempty
  obtain ⟨hlow, hhigh⟩ := h.visible c (by rw [hcs]; exact List.mem_cons_self)
  have hc : Text.isBlank c = false := by
    simp only [Text.isBlank, Bool.or_eq_false_iff, Bool.and_eq_false_iff, decide_eq_false_iff_not,
      beq_eq_false_iff_ne]
    omega
  rw [Text.isBlankText, hcs, List.all_cons, hc, Bool.false_and]

/-- Runs that have one token or the other, and see the same but for what the environment says of
it. -/
def Contrast.ofTokens (t t' : String) (environment : Option String → Option String → Prop) :
    Contrast :=
  ⟨t, t', environment, fun _ _ => False, True⟩

theorem Contrast.isSound_ofTokens (ht : IsToken t) (ht' : IsToken t')
    (environment : Option String → Option String → Prop) :
    (ofTokens t t' environment).IsSound :=
  ⟨ht.isHeaderText, ht'.isHeaderText, fun _ _ => False.elim⟩

/-- The world with a token in its environment. -/
def Host.World.withToken (w : World) (t : String) : World :=
  { w with environment := (Contrast.variableName, t) :: w.environment }

theorem Host.World.lookup_withToken (w : World) (t : String) {name : String}
    (hn : name ≠ Contrast.variableName) :
    (w.withToken t).environment.lookup name = w.environment.lookup name := by
  simp [withToken, List.lookup_cons, beq_false_of_ne hn]

theorem Host.World.sameButTokens_withToken (w : World) (t : String) :
    w.SameButTokens (w.withToken t) where
  files := .refl _
  environment _ hn := (w.lookup_withToken t hn).symm
  rest := rfl

namespace Invocation

/-- The requests that have come to a server when a run has ended. -/
def sent (x : ExitCode × (World × σ)) : List Request :=
  x.2.1.requests

/-- Runs end alike: nothing that they leave behind differs, but for the token in their requests. -/
structure EndAlike (t t' : String) (x y : ExitCode × (World × σ)) : Prop where
  code : x.1 = y.1
  output : x.2.1.output = y.2.1.output
  complaints : x.2.1.complaints = y.2.1.complaints
  files : x.2.1.files = y.2.1.files
  requests : List.Forall₂ (Request.SameBut t t') (sent x) (sent y)

theorem endAlike_of_alike {o : Outside σ} (ho : o.IsBlind)
    {environment : Option String → Option String → Prop} {p p' : Program ExitCode}
    (h : Program.Alike (Contrast.ofTokens t t' environment).view Eq p p') {w w' : World}
    (hw : w.Like (.ofTokens t t' environment) w') (s : σ) :
    EndAlike t t' (p.runAmid o (w, s)) (p'.runAmid o (w', s)) := by
  obtain ⟨hcode, hend, -⟩ :=
    Contrast.run_alike (fun s r r' hr => ho s r r' (Request.SameBut.anonymous_eq hr)) h hw s
  exact ⟨hcode, hend.output, hend.complaints, hend.files.eq, hend.requests⟩

/-- Worlds are the same but for what the environment says of the token. -/
theorem like_of_environment {environment : Option String → Option String → Prop} (w : World)
    {e e' : List (String × String)}
    (h : environment (e.lookup Contrast.variableName) (e'.lookup Contrast.variableName))
    (hother : ∀ name, name ≠ Contrast.variableName → e.lookup name = e'.lookup name) :
    ({ w with environment := e } : World).Like (.ofTokens t t' environment)
      { w with environment := e' } := by
  refine ⟨.refl _, rfl, rfl, fun name => ?_, List.forall₂_same.2 fun _ _ => .inl rfl, rfl, rfl⟩
  show if name = Contrast.variableName then environment _ _ else _
  split
  · rename_i hname
    rw [hname]
    exact h
  · exact hother name ‹_›

section Tokens

variable {environment : Option String → Option String → Prop} (ht : IsToken t) (ht' : IsToken t')
  (henv : ∀ x y, environment x y → (Contrast.ofTokens t t' environment).Tokens
    (x.filter (!Text.isBlankText ·)) (y.filter (!Text.isBlankText ·)))
include ht ht' henv

/-- Invocations that are the same but for the token do the same. -/
theorem alike_execute {i i' : Invocation} (h : SameBut t t' i i') :
    Program.Alike (Contrast.ofTokens t t' environment).view Eq i.execute i'.execute := by
  have hc := Contrast.isSound_ofTokens ht ht' environment
  obtain rfl | ⟨manner, command, rfl, rfl⟩ := h
  · cases i with
    | run manner command =>
      have hsame : (Contrast.ofTokens t t' environment).Tokens manner.token manner.token := .inl rfl
      exact alike_run hc trivial henv hsame command
    | misuse | help | version =>
      exact .refl (.bind (.request (Contrast.shares_of_isBlunt trivial)) fun _ => .pure _)
  · have hother : (Contrast.ofTokens t t' environment).Tokens
        (Manner.token { manner with token := some t }) (some t') := .inr ⟨rfl, rfl⟩
    exact alike_run hc trivial henv hother command

end Tokens

variable {o : Outside σ} (ho : o.IsBlind) (ht : IsToken t) (ht' : IsToken t')
include ho ht ht'

/-- Tokens on the command line. -/
theorem endAlike_of_given {arguments arguments' : List String}
    (hg : TokenGiven t t' arguments arguments') (w : World) (s : σ) :
    EndAlike t t' ((program arguments).runAmid o (w, s))
      ((program arguments').runAmid o (w, s)) := by
  have hw : w.Like (.ofTokens t t' Eq) w := like_of_environment w rfl fun _ _ => rfl
  exact endAlike_of_alike ho (alike_execute ht ht' (fun _ _ h => .inl (congrArg _ h))
    (ofArguments_given ht ht' hg)) hw s

/-- Tokens in the environment. -/
theorem endAlike_withToken (arguments : List String) (w : World) (s : σ) :
    EndAlike t t' ((program arguments).runAmid o (w.withToken t, s))
      ((program arguments).runAmid o (w.withToken t', s)) := by
  have hw : (w.withToken t).Like
      (.ofTokens t t' fun x y => x = some t ∧ y = some t') (w.withToken t') := by
    exact like_of_environment w ⟨rfl, rfl⟩ fun name hn =>
      (w.lookup_withToken t hn).trans (w.lookup_withToken t' hn).symm
  refine endAlike_of_alike ho (alike_execute ht ht' ?_ (.inl rfl)) hw s
  rintro _ _ ⟨rfl, rfl⟩
  exact .inr (by simp [Option.filter, ht.isBlankText_eq, ht'.isBlankText_eq, Contrast.ofTokens])

end Invocation

end RepairLedger
