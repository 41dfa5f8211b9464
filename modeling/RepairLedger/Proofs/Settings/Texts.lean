import RepairLedger.Command.Run
import RepairLedger.Proofs.Json.Printed
import RepairLedger.Proofs.Result
import RepairLedger.Proofs.Text.Lossy

/-!
# Settings files hold nothing else

A ledger and the statistics of a repair tool are JSON objects, so the first character of their text
that is no blank is a brace (`Json.Document.opens_of_object`).  No line of a settings file begins
with one (`Toml.Document.read?_of_opens`).  Hence what can be read as settings can be read neither
as a ledger nor as statistics: `FileSettings.not_ledger`, `FileSettings.not_statistics`.
-/

namespace RepairLedger

/-- The text begins with a brace, but for blanks and line ends. -/
inductive Text.Opens : List Char → Prop
  | brace (rest : List Char) : Opens ('\x7b' :: rest)
  | blank {c : Char} {rest : List Char} (hc : Json.isSpace c = true) (h : Opens rest) :
    Opens (c :: rest)

/-! ### JSON -/

namespace Json

/-- The outermost frame is an array. -/
def InArray (stack : List Frame) : Prop :=
  ∃ items, stack.getLast? = some (.array items)

theorem InArray.cons {frame : Frame} {stack : List Frame} (h : InArray stack) :
    InArray (frame :: stack) := by
  obtain ⟨items, hi⟩ := h
  refine ⟨items, ?_⟩
  rw [List.getLast?_cons, hi]
  rfl

theorem InArray.of_array {items : List Tree} {stack : List Frame} (h : stack = [] ∨ InArray stack) :
    InArray (.array items :: stack) := by
  obtain rfl | h := h
  · exact ⟨items, rfl⟩
  · exact h.cons

theorem InArray.tail {frame : Frame} {stack : List Frame} (h : InArray (frame :: stack)) :
    (∃ items, frame = .array items ∧ stack = []) ∨ InArray stack := by
  obtain ⟨items, hi⟩ := h
  cases stack with
  | nil => exact .inl ⟨items, Option.some.inj hi, rfl⟩
  | cons frame' stack =>
    rw [List.getLast?_cons_cons] at hi
    exact .inr ⟨items, hi⟩

namespace State

/-- Whatever is still to be read, the tree will be no object. -/
def NoObject : State → Prop
  | value stack | colon _ _ stack | member _ stack | afterMember _ stack => InArray stack
  | item _ stack | afterItem _ stack => stack = [] ∨ InArray stack
  | done tree | trailing tree => ∀ members ending, tree ≠ .object members ending

theorem noObject_deliver {tree : Tree} {stack : List Frame}
    (h : (stack = [] ∧ ∀ members ending, tree ≠ .object members ending) ∨ InArray stack) :
    NoObject (deliver tree stack) := by
  obtain ⟨rfl, h⟩ | h := h
  · exact h
  · cases stack with
    | nil =>
      obtain ⟨items, hi⟩ := h
      cases hi
    | cons frame stack =>
      obtain ⟨items, rfl, rfl⟩ | hstack := h.tail
      · exact Or.inl rfl
      · cases frame with
        | array items => exact Or.inr hstack
        | object members name => exact hstack

theorem noObject_begin {t : Token} {stack : List Frame} (h : InArray stack) :
    NoObject (begin t stack) := by
  unfold begin
  split
  · exact .inr h
  · exact h
  · exact noObject_deliver (.inr h)

/-- An array that ends is no object. -/
theorem noObject_deliver_array {items : List Tree} {ending : Ending} {stack : List Frame}
    (h : stack = [] ∨ InArray stack) : NoObject (deliver (.array items ending) stack) :=
  noObject_deliver (h.imp_left fun h => ⟨h, fun _ _ heq => by cases heq⟩)

theorem NoObject.step {state : State} (h : state.NoObject) (t : Token) :
    (state.step t).NoObject := by
  cases state with
  | value stack => exact noObject_begin h
  | item items stack =>
    simp only [State.step]
    split
    · exact noObject_deliver_array h
    · exact noObject_deliver_array h
    · exact noObject_begin (.of_array h)
  | member members stack =>
    simp only [State.step]
    split
    · exact h
    · exact noObject_deliver (.inr h)
    · exact noObject_deliver (.inr h)
    · exact noObject_deliver (.inr h)
  | colon members name stack =>
    simp only [State.step]
    split
    · exact InArray.cons h
    · exact noObject_deliver (.inr (InArray.cons h))
  | afterItem items stack =>
    simp only [State.step]
    split
    · exact h
    · exact noObject_deliver_array h
    · exact noObject_deliver_array h
  | afterMember members stack =>
    simp only [State.step]
    split
    · exact h
    · exact noObject_deliver (.inr h)
    · exact noObject_deliver (.inr h)
  | done tree => exact h
  | trailing tree => exact h

theorem NoObject.read {state : State} (h : state.NoObject) (text : List Text.Symbol) :
    (state.read text).NoObject := by
  fun_induction State.read state text with
  | case1 => exact h
  | case2 => exact h.step _
  | case3 _ _ _ _ ih => exact ih h
  | case4 _ _ _ _ ih => exact ih (h.step _)

theorem enclose_ne_object {tree : Tree} {stack : List Frame}
    (h : (stack = [] ∧ ∀ members ending, tree ≠ .object members ending) ∨ InArray stack)
    (members : List (Quoted × Tree)) (ending : Ending) :
    enclose tree stack ≠ .object members ending := by
  induction stack generalizing tree with
  | nil =>
    obtain ⟨-, h⟩ | ⟨items, hi⟩ := h
    · exact h members ending
    · cases hi
  | cons frame stack ih =>
    obtain ⟨h, -⟩ | h := h
    · cases h
    obtain ⟨items, rfl, rfl⟩ | hstack := h.tail
    · exact fun heq => by cases heq
    · cases frame <;> exact ih (.inr hstack)

theorem NoObject.tree_ne {state : State} (h : state.NoObject) (members : List (Quoted × Tree))
    (ending : Ending) : state.tree ≠ .object members ending := by
  have harray : ∀ {items e stack}, stack = [] ∨ InArray stack →
      enclose (.array items e) stack ≠ .object members ending := fun hstack =>
    enclose_ne_object (hstack.imp_left fun h => ⟨h, fun _ _ heq => by cases heq⟩) _ _
  cases state with
  | value stack => exact enclose_ne_object (.inr h) _ _
  | item items stack => cases items <;> exact harray h
  | member done stack => cases done <;> exact enclose_ne_object (.inr h) _ _
  | colon done name stack => exact enclose_ne_object (.inr (InArray.cons h)) _ _
  | afterItem items stack => exact harray h
  | afterMember done stack => exact enclose_ne_object (.inr h) _ _
  | done tree => exact h members ending
  | trailing tree => exact h members ending

end State

/-! ### Objects -/

theorem eq_brace_of_token {c : Char} {rest : List Text.Symbol}
    (h : (token c rest).1 = .beginObject) : c = '\x7b' := by
  have hp : punctuation? c = some (token c rest).1 := punctuation?_of_token (by rw [h]; rfl)
  rw [h] at hp
  by_contra hc
  revert hp
  simp only [punctuation?, hc, if_false]
  split_ifs <;> rintro ⟨⟩

/-- Only a brace begins an object. -/
theorem State.noObject_begin_nil {t : Token} (h : t ≠ .beginObject) : NoObject (begin t []) := by
  cases t with
  | beginObject => exact absurd rfl h
  | beginArray => exact .inl rfl
  | _ => exact fun _ _ heq => by cases heq

theorem State.read_value (text : List Char) :
    Text.Opens text ∨ ((value []).read (text.map .char)).NoObject ∨
      ((value []).read (text.map .char)) = .value [] := by
  induction text with
  | nil => exact .inr (.inr (by rw [List.map_nil, State.read]))
  | cons c rest ih =>
    rw [List.map_cons, State.read]
    split
    · exact ih.imp_left (.blank ‹_›)
    by_cases ht : (token c (rest.map .char)).1 = .beginObject
    · obtain rfl := eq_brace_of_token ht
      exact .inl (.brace rest)
    · exact .inr (.inl ((noObject_begin_nil ht).read _))

/-- A text that holds an object begins with a brace, but for blanks. -/
theorem Document.opens_of_object {text : List Char} {members : List (Quoted × Tree)}
    {ending : Ending} (h : (ofSymbols (text.map .char)).tree = .object members ending) :
    Text.Opens text := by
  have htree : ((State.value []).read (text.map .char)).tree = .object members ending := by
    rw [← h, ofSymbols]
    split
    · rename_i tree hread
      rw [hread]
      rfl
    · rfl
  obtain hopens | hread | hread := State.read_value text
  · exact hopens
  · exact absurd htree (hread.tree_ne _ _)
  · rw [hread] at htree
    cases htree

/-- Only an object is read as one. -/
theorem Decoder.object_of_value {depth : Nat} {tree : Tree} {members : Members}
    (h : value depth tree = .ok (.object members)) :
    ∃ trees ending, tree = .object trees ending := by
  obtain ⟨v, hv, hcanonical⟩ := map_eq_ok.1 h
  cases tree with
  | object trees ending => exact ⟨trees, ending, rfl⟩
  | missing => cases hv
  | unseparated => cases hv
  | leaf t =>
    cases t with
    | number n | string s =>
      obtain ⟨_, _, rfl⟩ := map_eq_ok.1 hv
      cases hcanonical
    | null | bool b =>
      cases hv
      cases hcanonical
    | _ => cases hv
  | array items ending =>
    cases depth with
    | zero => cases hv
    | succ depth =>
      obtain ⟨values, _, hrest⟩ := bind_eq_ok.1 hv
      obtain ⟨_, _, hv⟩ := bind_eq_ok.1 hrest
      cases hv
      cases hcanonical

end Json

/-! ### TOML -/

namespace Toml

/-- The next line, if there is one. -/
def nextLine : Scan (Option (Option Line)) := do
  Scan.blanks
  if (← Scan.peek).isNone then return none else some <$> line

theorem nextLine_blank {c : Char} (h : Scan.isBlank c = true) (rest : List Char) :
    nextLine (c :: rest) = nextLine rest := by
  have hblanks : Scan.blanks (c :: rest) = Scan.blanks rest := by
    simp [Scan.blanks, Scan.takeWhile, discard, Functor.discard, h, StateT.map,
      Functor.mapConst]
  simp only [nextLine, bind, StateT.bind, hblanks]

/-- The next line of a text that begins with a brace says nothing, or it is no line. -/
theorem nextLine_of_opens {text : List Char} (h : Text.Opens text) :
    nextLine text = none ∨ ∃ rest, nextLine text = some (some none, rest) ∧ Text.Opens rest := by
  induction h with
  | brace rest => exact .inl rfl
  | @blank c rest hc h ih =>
    simp only [Json.isSpace, Bool.or_eq_true, decide_eq_true_eq] at hc
    obtain ((rfl | rfl) | rfl) | rfl := hc
    · rwa [nextLine_blank rfl]
    · exact .inr ⟨rest, rfl, h⟩
    · rwa [nextLine_blank rfl]
    · exact .inl rfl

theorem many_nextLine_of_opens {text : List Char} (h : Text.Opens text) :
    Scan.many nextLine text = none := by
  induction hn : text.length using Nat.strong_induction_on generalizing text with
  | _ n ih =>
    rw [Scan.many]
    obtain hnone | ⟨rest, hsome, hrest⟩ := nextLine_of_opens h
    · rw [hnone]
    · rw [hsome]
      dsimp only
      split_ifs with hlt
      · rw [ih rest.length (hn ▸ hlt) hrest rfl]
      · rfl

theorem opens_of_unifyLines? {text text' : List Char} (h : Text.Opens text)
    (hu : unifyLines? text = some text') : Text.Opens text' := by
  fun_induction unifyLines? text generalizing text' with
  | case1 => cases h
  | case2 rest ih =>
    obtain ⟨tail, htail, rfl⟩ := Option.map_eq_some_iff.1 hu
    cases h with
    | blank _ h =>
      cases h with
      | blank hc h => exact .blank hc (ih h htail)
  | case3 c rest _ _ ih =>
    obtain ⟨tail, htail, rfl⟩ := Option.map_eq_some_iff.1 hu
    cases h with
    | brace => exact .brace tail
    | blank hc h => exact .blank hc (ih h htail)
  | case4 => cases hu

/-- No document begins with a brace. -/
theorem Document.read?_of_opens {text : List Char} (h : Text.Opens text) : read? text = none := by
  have hunify : unify? text = unifyLines? text := by
    unfold unify?
    split
    · cases h with
      | blank hc => exact absurd hc (by decide)
    · rfl
  show ((unify? text).bind fun text => (Scan.many nextLine text).bind _) = none
  rw [hunify]
  cases hu : unifyLines? text with
  | none => rfl
  | some text' => rw [Option.bind_some, many_nextLine_of_opens (opens_of_unifyLines? h hu)]; rfl

end Toml

/-! ### Settings files -/

namespace FileSettings

/-- Reads the bytes of a settings file. -/
def ofBytes? (bytes : Bytes) : Option FileSettings :=
  (Text.decode? bytes).bind ofText?

theorem not_opens {text : String} {s : FileSettings} (h : ofText? text = some s) :
    ¬Text.Opens text.toList := by
  intro hopens
  rw [ofText?, Toml.Document.read?_of_opens hopens] at h
  cases h

/-- The text of settings is not that of an object. -/
theorem tree_ne_object {text : String} {s : FileSettings} (h : ofText? text = some s)
    (members : List (Json.Quoted × Json.Tree)) (ending : Json.Ending) :
    (Json.Document.ofSymbols (Text.symbolsOf text)).tree ≠ .object members ending :=
  fun hobject => not_opens h (Json.Document.opens_of_object hobject)

/-- What can be read as settings holds no ledger. -/
theorem not_ledger {bytes : Bytes} {s : FileSettings} (h : ofBytes? bytes = some s) :
    ∃ fault, Ledger.ofBytes bytes = .error fault := by
  obtain ⟨text, htext, hs⟩ := Option.bind_eq_some_iff.1 h
  cases hl : Ledger.ofBytes bytes with
  | error fault => exact ⟨fault, rfl⟩
  | ok l =>
    rw [Ledger.ofBytes, Text.symbols_of_decode? htext] at hl
    obtain ⟨l', hdecoded, -⟩ := bind_eq_ok.1 hl
    revert hdecoded
    generalize ht : (Json.Document.ofSymbols (Text.symbolsOf text)).tree = tree
    cases tree with
    | object members ending => exact absurd ht (tree_ne_object hs members ending)
    | _ => rintro ⟨⟩

/-- What can be read as settings holds no statistics. -/
theorem not_statistics {text : String} {s : FileSettings} (path : Host.Path)
    (h : ofText? text = some s) : ∃ e, Job.statisticsOf path text = .error e := by
  unfold Job.statisticsOf
  split
  · exact ⟨_, rfl⟩
  rename_i value hvalue
  cases value with
  | object members =>
    obtain ⟨value, hdecoded, hrest⟩ := bind_eq_ok.1 hvalue
    split at hrest
    · cases hrest
    cases hrest
    obtain ⟨trees, ending, htree⟩ := Json.Decoder.object_of_value hdecoded
    exact absurd htree (tree_ne_object h trees ending)
  | _ => exact ⟨_, rfl⟩

end FileSettings

end RepairLedger
