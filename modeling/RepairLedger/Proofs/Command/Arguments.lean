import Mathlib.Data.List.Forall2
import RepairLedger.Command.Invocation
import RepairLedger.Proofs.Host.Alike

/-!
# Arguments with one token or another

Two lists of arguments differ in the value of one option `--token` alone (`TokenGiven`).  Then the
options that are found in them differ in this value alone (`Command.Form.scan_given`), and they are
the same invocation, or runs of the same command in manners that differ in the token alone
(`Invocation.ofArguments_given`).
-/

namespace RepairLedger

open Attempt (Agree)

/-- A text that can be given as a token: visible characters, of which the first is no hyphen. -/
structure IsToken (text : String) : Prop where
  nonempty : text.toList ≠ []
  visible : ∀ c ∈ text.toList, 0x21 ≤ c.toNat ∧ c.toNat ≤ 0x7E
  unhyphened : text.toList.head? ≠ some '-'

instance (text : String) : Decidable (IsToken text) :=
  decidable_of_iff
    (text.toList ≠ [] ∧ (text.toList.all fun c => 0x21 ≤ c.toNat && c.toNat ≤ 0x7E) = true ∧
      text.toList.head? ≠ some '-')
    ⟨fun ⟨h, hall, hhead⟩ => ⟨h, by simpa using hall, hhead⟩,
      fun ⟨h, hall, hhead⟩ => ⟨h, by simpa using hall, hhead⟩⟩

/-- The second arguments are the first but for the one token, which is given as the value of the
option `--token` at the same place in both. -/
inductive TokenGiven (t t' : String) : List String → List String → Prop
  | next (after : List String) :
    TokenGiven t t' ("--token" :: t :: after) ("--token" :: t' :: after)
  | attached (after : List String) :
    TokenGiven t t' (("--token=" ++ t) :: after) (("--token=" ++ t') :: after)
  | behind (argument : String) {rest rest' : List String} (h : TokenGiven t t' rest rest') :
    TokenGiven t t' (argument :: rest) (argument :: rest')

namespace Command

/-- The name of the option for the token. -/
def tokenName : String := "token"

/-! ### What is found -/

/-- The options that were found are the same but for the one token. -/
def Found.Like (t t' : String) (found found' : Found) : Prop :=
  List.Forall₂ (fun x y => x = y ∨ x = (tokenName, t) ∧ y = (tokenName, t')) found found'

namespace Found.Like

variable {t t' : String} {found found' : Found}

theorem refl (found : Found) : Found.Like t t' found found :=
  List.forall₂_same.2 fun _ _ => .inl rfl

theorem lookup (h : Found.Like t t' found found') (name : String) :
    found.lookup name = found'.lookup name ∨
      name = tokenName ∧ found.lookup name = some t ∧ found'.lookup name = some t' := by
  induction h with
  | nil => exact .inl rfl
  | @cons x y _ _ hxy _ ih =>
    obtain ⟨n, v⟩ := x
    by_cases hn : name = n
    · subst hn
      obtain rfl | ⟨hx, rfl⟩ := hxy
      · exact .inl (by simp only [List.lookup_cons_self])
      · cases hx
        exact .inr ⟨rfl, List.lookup_cons_self, List.lookup_cons_self⟩
    · obtain rfl | ⟨hx, rfl⟩ := hxy
      · simpa only [List.lookup_cons, beq_false_of_ne hn] using ih
      · cases hx
        simpa only [List.lookup_cons, beq_false_of_ne hn] using ih

theorem lookup_of_ne (h : Found.Like t t' found found') {name : String} (hn : name ≠ tokenName) :
    found.lookup name = found'.lookup name :=
  (h.lookup name).resolve_right fun hname => hn hname.1

theorem isSome_lookup (h : Found.Like t t' found found') (name : String) :
    (found.lookup name).isSome = (found'.lookup name).isSome := by
  obtain heq | ⟨-, h, h'⟩ := h.lookup name
  · rw [heq]
  · rw [h, h']
    rfl

end Found.Like

/-! ### Reading -/

namespace Form

variable {t t' : String} {found found' : Found} {form : Form}

theorem add_like (h : Found.Like t t' found found') {name value value' : String}
    (hv : value = value' ∨ (name, value) = (tokenName, t) ∧ (name, value') = (tokenName, t')) :
    Agree True (Found.Like t t') (add found name value) (add found' name value') := by
  unfold add
  rw [h.isSome_lookup]
  split
  · exact fun _ => rfl
  · refine List.rel_append h (.cons ?_ .nil)
    obtain rfl | hv := hv
    · exact .inl rfl
    · exact .inr hv

theorem addValue_like (h : Found.Like t t' found found') (p : Parameter) (value : String) :
    Agree True (Found.Like t t') (addValue found p value) (addValue found' p value) := by
  unfold addValue
  split
  · split
    · exact add_like h (.inl rfl)
    · exact fun _ => rfl
  all_goals exact fun _ => rfl

theorem addFlag_like (h : Found.Like t t' found found') (p : Parameter) :
    Agree True (Found.Like t t') (addFlag found p) (addFlag found' p) := by
  unfold addFlag
  split
  · exact add_like h (.inl rfl)
  all_goals exact fun _ => rfl

/-- What is found is alike, and the same is still to come. -/
def Pending (t t' : String) (x y : Found × Option Parameter) : Prop :=
  Found.Like t t' x.1 y.1 ∧ x.2 = y.2

theorem addOption_like (h : Found.Like t t' found found') (p : Parameter)
    (attached : Option String) :
    Agree True (Pending t t') (addOption found p attached) (addOption found' p attached) := by
  cases attached with
  | some value => exact (addValue_like h p value).bind fun _ _ hf => ⟨hf, rfl⟩
  | none =>
    unfold addOption
    dsimp only
    split
    · exact ⟨h, rfl⟩
    · exact (addFlag_like h p).bind fun _ _ hf => ⟨hf, rfl⟩

theorem addShort_like (h : Found.Like t t' found found') (text : List Char) :
    Agree True (Pending t t') (addShort form found text) (addShort form found' text) := by
  induction text generalizing found found' with
  | nil => exact ⟨h, rfl⟩
  | cons c rest ih =>
    unfold addShort
    split
    · exact fun _ => rfl
    · split
      · split
        · exact addOption_like h _ _
        · exact addOption_like h _ _
        · exact addOption_like h _ _
      · exact (addFlag_like h _).bind fun _ _ hf => ih hf

theorem addLong_like (h : Found.Like t t' found found') (text : List Char) :
    Agree True (Pending t t') (addLong form found text) (addLong form found' text) := by
  unfold addLong
  dsimp only
  split
  · exact fun _ => rfl
  · exact addOption_like h _ _

theorem addOperand_like (h : Found.Like t t' found found') (argument : String) :
    Agree True (Found.Like t t') (addOperand form found argument)
      (addOperand form found' argument) := by
  unfold addOperand
  split
  · exact fun _ => rfl
  · exact addValue_like h _ _

theorem foldlM_addOperand_like (h : Found.Like t t' found found') (arguments : List String) :
    Agree True (Found.Like t t') (arguments.foldlM (addOperand form) found)
      (arguments.foldlM (addOperand form) found') := by
  induction arguments generalizing found found' with
  | nil => exact h
  | cons argument rest ih =>
    rw [List.foldlM_cons, List.foldlM_cons]
    exact (addOperand_like h argument).bind fun _ _ hf => ih hf

/-- What kind of an argument it is, by its first characters. -/
inductive Kind where
  | operands
  | long (text : List Char)
  | short (text : List Char)
  | operand

def kindOf (argument : String) : Kind :=
  match argument.toList with
  | ['-', '-'] => .operands
  | '-' :: '-' :: text => .long text
  | '-' :: c :: text => .short (c :: text)
  | _ => .operand

/-- The reading of one argument, by its kind. -/
theorem scan_none_cons (found : Found) (argument : String) (rest : List String) :
    scan form found none (argument :: rest) =
      (if form.commands.contains argument then .ok (found, .command argument rest)
      else match kindOf argument with
        | .operands => do return (← rest.foldlM (addOperand form) found, .complete)
        | .long text => addLong form found text >>= fun (found, next) => scan form found next rest
        | .short text => addShort form found text >>= fun (found, next) => scan form found next rest
        | .operand =>
          addOperand form found argument >>= fun found => scan form found none rest) := by
  rw [scan]
  unfold kindOf
  split
  · rfl
  · split <;> simp [*]

/-- The same arguments, behind options that are the same but for the token. -/
theorem scan_like (h : Found.Like t t' found found') (pending : Option Parameter)
    (arguments : List String) :
    Agree True (fun x y => Found.Like t t' x.1 y.1 ∧ x.2 = y.2)
      (scan form found pending arguments) (scan form found' pending arguments) := by
  induction arguments generalizing found found' pending with
  | nil =>
    cases pending with
    | none => exact ⟨h, rfl⟩
    | some p => exact fun _ => rfl
  | cons argument rest ih =>
    cases pending with
    | some p =>
      rw [scan, scan]
      split
      · exact fun _ => rfl
      · exact (addValue_like h p argument).bind fun _ _ hf => ih hf none
    | none =>
      rw [scan_none_cons, scan_none_cons]
      split
      · exact ⟨h, rfl⟩
      · split
        · exact (foldlM_addOperand_like h rest).bind fun _ _ hf => ⟨hf, rfl⟩
        · exact (addLong_like h _).bind fun ⟨_, next⟩ ⟨_, _⟩ ⟨hf, hn⟩ => by
            cases hn; exact ih hf next
        · exact (addShort_like h _).bind fun ⟨_, next⟩ ⟨_, _⟩ ⟨hf, hn⟩ => by
            cases hn; exact ih hf next
        · exact (addOperand_like h argument).bind fun _ _ hf => ih hf none

/-! ### The option for the token -/

/-- The form has the option for the token, and what looks like an option can be nothing else. -/
structure TakesToken (form : Form) : Prop where
  parameter : ∃ p, form.parameters.find? (·.long.toList = tokenName.toList) = some p ∧
    p.long = tokenName ∧ p.role = .value fun _ => true
  command : ∀ argument, isOption argument = true → form.commands.contains argument = false
  operand : ∀ found argument, isOption argument = true →
    addOperand form found argument = .error .misuse

/-- What is found is alike, and the list ends in the same way, or the token is given behind the same
command. -/
def Ended (t t' : String) (x y : Found × Ending) : Prop :=
  Found.Like t t' x.1 y.1 ∧ (x.2 = y.2 ∨ ∃ name rest rest', TokenGiven t t' rest rest' ∧
    x.2 = .command name rest ∧ y.2 = .command name rest')

theorem isOption_token : isOption "--token" = true := rfl

theorem isOption_attached (text : String) : isOption ("--token=" ++ text) = true := by
  unfold isOption
  rw [String.toList_append]
  rfl

theorem isOption_of_isToken (h : IsToken t) : isOption t = false := by
  unfold isOption
  split
  · rename_i heq
    exact absurd (by rw [heq]; rfl) h.unhyphened
  · rfl

theorem kindOf_token : kindOf "--token" = .long tokenName.toList := rfl

theorem kindOf_attached (text : String) :
    kindOf ("--token=" ++ text) = .long (tokenName.toList ++ '=' :: text.toList) := by
  unfold kindOf
  rw [String.toList_append]
  rfl

/-- Behind two hyphens no token can be given. -/
theorem foldlM_addOperand_given (hform : form.TakesToken) (h : Found.Like t t' found found')
    {arguments arguments' : List String} (hg : TokenGiven t t' arguments arguments') :
    ∃ stop, arguments.foldlM (addOperand form) found = .error stop ∧
      arguments'.foldlM (addOperand form) found' = .error stop := by
  induction hg generalizing found found' with
  | next after =>
    rw [List.foldlM_cons, List.foldlM_cons, hform.operand found _ isOption_token,
      hform.operand found' _ isOption_token]
    exact ⟨_, rfl, rfl⟩
  | attached after =>
    rw [List.foldlM_cons, List.foldlM_cons, hform.operand found _ (isOption_attached t),
      hform.operand found' _ (isOption_attached t')]
    exact ⟨_, rfl, rfl⟩
  | behind argument _ ih =>
    have hadd : Agree True (Found.Like t t') (addOperand form found argument)
        (addOperand form found' argument) := addOperand_like h argument
    rw [List.foldlM_cons, List.foldlM_cons]
    generalize addOperand form found argument = x, addOperand form found' argument = y at hadd
    rcases x with stop | f <;> rcases y with stop' | f'
    · obtain rfl := hadd trivial
      exact ⟨stop, rfl, rfl⟩
    · exact hadd.elim
    · exact hadd.elim
    · exact ih hadd

section Token

variable {p : Parameter}
  (hfind : form.parameters.find? (·.long.toList = tokenName.toList) = some p)
  (hr : p.role = .value fun _ => true)

include hfind hr in
theorem addLong_token (found : Found) :
    addLong form found tokenName.toList = .ok (found, some p) := by
  have hname : tokenName.toList.takeWhile (· ≠ '=') = tokenName.toList := rfl
  have hrest : tokenName.toList.drop tokenName.toList.length = [] := rfl
  unfold addLong
  dsimp only
  rw [hname, hfind, hrest]
  simp only [addOption, takesValue, hr, if_true]
  rfl

include hfind in
theorem addLong_attached (found : Found) (text : String) :
    addLong form found (tokenName.toList ++ '=' :: text.toList) =
      addOption found p (some text) := by
  have hname : (tokenName.toList ++ '=' :: text.toList).takeWhile (· ≠ '=') = tokenName.toList :=
    rfl
  have hrest : (tokenName.toList ++ '=' :: text.toList).drop tokenName.toList.length =
      '=' :: text.toList := rfl
  unfold addLong
  dsimp only
  rw [hname, hfind, hrest]
  simp only [String.ofList_toList]

include hr in
/-- The one token is found where the other is. -/
theorem addValue_token (hl : p.long = tokenName) (h : Found.Like t t' found found') :
    Agree True (Found.Like t t') (addValue found p t) (addValue found' p t') := by
  simp only [addValue, hr, hl, if_true]
  exact add_like h (.inr ⟨rfl, rfl⟩)

include hr in
theorem addOption_token (hl : p.long = tokenName) (h : Found.Like t t' found found') :
    Agree True (Pending t t') (addOption found p (some t)) (addOption found' p (some t')) :=
  (addValue_token hr hl h).bind fun _ _ hf => ⟨hf, rfl⟩

end Token

/-- **What is found in arguments that differ in the token differs in the token.** -/
theorem scan_given (hform : form.TakesToken) (ht : IsToken t) (ht' : IsToken t')
    (h : Found.Like t t' found found') (pending : Option Parameter)
    {arguments arguments' : List String} (hg : TokenGiven t t' arguments arguments') :
    Agree True (Ended t t') (scan form found pending arguments)
      (scan form found' pending arguments') := by
  obtain ⟨p, hfind, hlong, hrole⟩ := hform.parameter
  -- Behind the token, the arguments are the same.
  have hsame : ∀ {f f'} next (after : List String), Found.Like t t' f f' →
      Agree True (Ended t t') (scan form f next after) (scan form f' next after) :=
    fun next after hf => (scan_like hf next after).mono fun _ _ hxy => ⟨hxy.1, .inl hxy.2⟩
  induction hg generalizing found found' pending with
  | next after =>
    cases pending with
    | some q =>
      rw [scan, scan, if_pos isOption_token, if_pos isOption_token]
      exact fun _ => rfl
    | none =>
      rw [scan_none_cons, scan_none_cons, hform.command _ isOption_token, kindOf_token]
      simp only [addLong_token hfind hrole, if_neg Bool.false_ne_true]
      show Agree True _ (scan form found (some p) (t :: after))
        (scan form found' (some p) (t' :: after))
      rw [scan, scan, isOption_of_isToken ht, isOption_of_isToken ht',
        if_neg Bool.false_ne_true, if_neg Bool.false_ne_true]
      exact (addValue_token hrole hlong h).bind fun _ _ hf => hsame none after hf
  | attached after =>
    cases pending with
    | some q =>
      rw [scan, scan, if_pos (isOption_attached t), if_pos (isOption_attached t')]
      exact fun _ => rfl
    | none =>
      rw [scan_none_cons, scan_none_cons, hform.command _ (isOption_attached t),
        hform.command _ (isOption_attached t'), kindOf_attached, kindOf_attached]
      simp only [addLong_attached hfind, if_neg Bool.false_ne_true]
      exact (addOption_token hrole hlong h).bind fun ⟨_, next⟩ ⟨_, _⟩ ⟨hf, hn⟩ => by
        cases hn; exact hsame next after hf
  | @behind argument rest rest' hg ih =>
    cases pending with
    | some q =>
      rw [scan, scan]
      split
      · exact fun _ => rfl
      · exact (addValue_like h q argument).bind fun _ _ hf => ih hf none
    | none =>
      rw [scan_none_cons, scan_none_cons]
      split
      · exact ⟨h, .inr ⟨argument, rest, rest', hg, rfl, rfl⟩⟩
      · split
        · obtain ⟨stop, hstop, hstop'⟩ := foldlM_addOperand_given hform h hg
          rw [hstop, hstop']
          exact fun _ => rfl
        · exact (addLong_like h _).bind fun ⟨_, next⟩ ⟨_, _⟩ ⟨hf, hn⟩ => by
            cases hn; exact ih hf next
        · exact (addShort_like h _).bind fun ⟨_, next⟩ ⟨_, _⟩ ⟨hf, hn⟩ => by
            cases hn; exact ih hf next
        · exact (addOperand_like h argument).bind fun _ _ hf => ih hf none

end Form

/-! ### Commands -/

theorem takesToken_formOf (options : List Parameter)
    (h : options.find? (·.long.toList = tokenName.toList) = none) :
    (formOf options).TakesToken where
  parameter := by
    unfold formOf
    dsimp only
    rw [List.find?_append, h, Option.none_or]
    exact ⟨_, rfl, rfl, rfl⟩
  command _ _ := rfl
  operand _ _ _ := rfl

/-- No command is named like an option. -/
theorem isOption_of_mem_names {name : String} (h : name ∈ names) : Form.isOption name = false := by
  have hall : ∀ name ∈ names, Form.isOption name = false := by decide
  exact hall name h

theorem takesToken_outerForm : outerForm.TakesToken where
  parameter := ⟨_, rfl, rfl, rfl⟩
  command argument h := by
    by_contra hcontains
    have hmem : argument ∈ names := List.contains_iff_mem.1 (eq_true_of_ne_false hcontains)
    rw [isOption_of_mem_names hmem] at h
    cases h
  operand _ _ _ := rfl

theorem takesToken_completions : completionsSyntax.form.TakesToken where
  parameter := ⟨_, rfl, rfl, rfl⟩
  command _ _ := rfl
  operand found argument h := by
    have hnone : (Shell.ofName? argument).isSome = false := by
      by_contra hsome
      obtain ⟨shell, hshell⟩ := Option.isSome_iff_exists.1 (eq_true_of_ne_false hsome)
      have hname := List.find?_some hshell
      obtain rfl : shell.name = argument := of_decide_eq_true hname
      cases shell <;> cases h
    simp [completionsSyntax, Form.addOperand, Form.addValue, hnone]

theorem takesToken_of_mem {s : Syntax} (h : s ∈ syntaxes) : s.form.TakesToken := by
  simp only [syntaxes, List.mem_cons, List.not_mem_nil, or_false] at h
  obtain rfl | rfl | rfl | rfl | rfl | rfl := h
  · exact takesToken_formOf _ rfl
  · exact takesToken_formOf _ rfl
  · exact takesToken_formOf _ rfl
  · exact takesToken_formOf _ rfl
  · exact takesToken_formOf _ rfl
  · exact takesToken_completions

/-- What the arguments make of a command does not depend on the token. -/
theorem command?_like {t t' : String} {found found' : Found} (h : Found.Like t t' found found')
    {s : Syntax} (hs : s ∈ syntaxes) : s.command? found = s.command? found' := by
  have hlookup : ∀ name, name ≠ tokenName → found.lookup name = found'.lookup name :=
    fun name => h.lookup_of_ne
  have hpath : ∀ name, name ≠ tokenName → path? found name = path? found' name :=
    fun name hn => congrArg _ (hlookup name hn)
  have hsubject : subject? found = subject? found' := by
    rw [subject?, subject?, hlookup "owner" (by decide), hlookup "repo-name" (by decide),
      hlookup "pr-number" (by decide), hpath "prs-json-file" (by decide)]
  simp only [syntaxes, List.mem_cons, List.not_mem_nil, or_false] at hs
  obtain rfl | rfl | rfl | rfl | rfl | rfl := hs
  · simp only [createInitialSyntax, hsubject, hpath "stats-file" (by decide)]
  · simp only [finalizeSyntax, hsubject]
  · simp only [addManualEditSyntax, hsubject, hlookup "edit-type" (by decide),
      hpath "diff-file" (by decide), hlookup "edit-reason" (by decide)]
  · simp only [reportSyntax, hpath "prs-json-file" (by decide), hpath "output" (by decide)]
  · simp only [describeSyntax, hsubject]
  · simp only [completionsSyntax, hlookup "shell" (by decide)]

end Command

open Command

variable {t t' : String}

/-- The manners in which a command is to be run are the same but for the token. -/
theorem Manner.ofFound_like {outer outer' inner inner' : Found}
    (ho : Found.Like t t' outer outer') (hi : Found.Like t t' inner inner') :
    ofFound outer inner = ofFound outer' inner' ∨
      ∃ manner : Manner, ofFound outer inner = { manner with token := some t } ∧
        ofFound outer' inner' = { manner with token := some t' } := by
  have hset : ∀ name, ((inner.lookup name).isSome || (outer.lookup name).isSome) =
      ((inner'.lookup name).isSome || (outer'.lookup name).isSome) := fun name => by
    rw [hi.isSome_lookup, ho.isSome_lookup]
  have htoken : (inner.lookup "token").or (outer.lookup "token") =
        (inner'.lookup "token").or (outer'.lookup "token") ∨
      (inner.lookup "token").or (outer.lookup "token") = some t ∧
        (inner'.lookup "token").or (outer'.lookup "token") = some t' := by
    obtain heq | ⟨-, h, h'⟩ := hi.lookup "token"
    · rw [heq]
      cases inner'.lookup "token" with
      | some value => exact .inl rfl
      | none =>
        obtain heq' | ⟨-, h, h'⟩ := ho.lookup "token"
        · exact .inl heq'
        · exact .inr ⟨h, h'⟩
    · rw [h, h']
      exact .inr ⟨rfl, rfl⟩
  unfold ofFound
  dsimp only
  simp only [hset "verbose", hset "json", hset "quiet"]
  obtain heq | ⟨h, h'⟩ := htoken
  · rw [heq]
    exact .inl rfl
  · rw [h, h']
    exact .inr ⟨⟨_, _, _, none⟩, rfl, rfl⟩

namespace Invocation

/-- The invocations are the same, or runs of a command in manners that differ in the token alone. -/
def SameBut (t t' : String) (i i' : Invocation) : Prop :=
  i = i' ∨ ∃ (manner : Manner) (command : Command),
    i = run { manner with token := some t } command ∧
      i' = run { manner with token := some t' } command

/-- Help is wanted for no token. -/
theorem ofTopics_given {topics topics' : List String} (hg : TokenGiven t t' topics topics') :
    ofTopics topics = misuse ∧ ofTopics topics' = misuse := by
  have hattached : ∀ text, ofTopics ["--token=" ++ text] = misuse := by
    intro text
    unfold ofTopics
    refine if_neg fun hcontains => ?_
    have hname := isOption_of_mem_names (List.contains_iff_mem.1 hcontains)
    rw [Form.isOption_attached] at hname
    cases hname
  cases hg with
  | next after => exact ⟨rfl, rfl⟩
  | attached after =>
    cases after with
    | nil => exact ⟨hattached t, hattached t'⟩
    | cons topic rest => exact ⟨rfl, rfl⟩
  | behind topic h => cases h <;> exact ⟨rfl, rfl⟩

theorem ofCommand_like {outer outer' : Found} (ho : Found.Like t t' outer outer') (name : String)
    {arguments arguments' : List String}
    (htopics : ofTopics arguments = ofTopics arguments')
    (hread : ∀ form : Form, form.TakesToken → Agree True (fun x y => Found.Like t t' x.1 y.1)
      (form.read arguments) (form.read arguments')) :
    SameBut t t' (ofCommand outer name arguments) (ofCommand outer' name arguments') := by
  unfold ofCommand
  split
  · rw [htopics]
    exact .inl rfl
  · rename_i s hfind
    have hs := List.mem_of_find?_eq_some hfind
    have hread := hread s.form (takesToken_of_mem hs)
    generalize s.form.read arguments = x, s.form.read arguments' = y at hread
    rcases x with stop | ⟨inner, ending⟩ <;> rcases y with stop' | ⟨inner', ending'⟩
    · obtain rfl := hread trivial
      exact .inl rfl
    · exact hread.elim
    · exact hread.elim
    · have hcommand : s.command? inner = s.command? inner' := command?_like hread hs
      dsimp only
      rw [hcommand]
      cases s.command? inner' with
      | none => exact .inl rfl
      | some command =>
        obtain heq | ⟨manner, h, h'⟩ := Manner.ofFound_like ho hread
        · exact .inl (congrArg (run · command) heq)
        · exact .inr ⟨manner, command, congrArg (run · command) h, congrArg (run · command) h'⟩

/-- **The token decides nothing about what is wanted**: arguments that differ in the token are the
same invocation but for it. -/
theorem ofArguments_given (ht : IsToken t) (ht' : IsToken t') {arguments arguments' : List String}
    (hg : TokenGiven t t' arguments arguments') :
    SameBut t t' (ofArguments arguments) (ofArguments arguments') := by
  have hread := Form.scan_given takesToken_outerForm ht ht' (Found.Like.refl []) none hg
  unfold ofArguments Form.read
  generalize outerForm.scan [] none arguments = x, outerForm.scan [] none arguments' = y at hread
  rcases x with stop | ⟨outer, ending⟩ <;> rcases y with stop' | ⟨outer', ending'⟩
  · obtain rfl := hread trivial
    exact .inl rfl
  · exact hread.elim
  · exact hread.elim
  · obtain ⟨ho, rfl | ⟨name, rest, rest', hgiven, rfl, rfl⟩⟩ := hread
    · cases ending with
      | complete => exact .inl rfl
      | command name rest =>
        refine ofCommand_like ho name rfl fun form _ => ?_
        exact (Form.scan_like (Found.Like.refl []) none rest).mono fun _ _ h => h.1
    · refine ofCommand_like ho name ?_ fun form hform => ?_
      · rw [(ofTopics_given hgiven).1, (ofTopics_given hgiven).2]
      · exact (Form.scan_given hform ht ht' (Found.Like.refl []) none hgiven).mono fun _ _ h => h.1

end Invocation

end RepairLedger
