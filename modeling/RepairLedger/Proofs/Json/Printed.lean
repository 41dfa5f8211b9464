import RepairLedger.Proofs.Json.Reals
import RepairLedger.Proofs.Json.Shape
import RepairLedger.Json.Decoder

/-!
# Reading what is spelled

A text that spells a value is read as a tree that follows the value (`Value.readTree`), whatever
the spelling and whatever stands around it (`State.read_spelled`).  The induction is over the value:
read where a value is due, its spelling delivers its tree to the frames around it and leaves the
rest of the text.  What the writer writes is one spelling among others (`Document.ofSymbols_text`),
and it is JSON in any case (`isDocument_text`).

If all numbers are integers, the tree is that of the value itself (`Value.tree`), which gives the
value back unless the containers are nested too deep (`Value.value_tree`).  So a text spells one
value (`Value.eq_of_isSpelledBy`), and what is read is its canonical form
(`Decoder.run_value_spelled`).
-/

namespace RepairLedger.Json

open Text

/-! ### The tree of a value -/

mutual

/-- The tree of a value. -/
def Value.tree : Value → Tree
  | .null => .leaf .null
  | .bool b => .leaf (.bool b)
  | .number n => .leaf (.number (.ok n))
  | .string s => .leaf (.string (.ofText s))
  | .array items => .array (itemTrees items) .closed
  | .object members => .object (memberTrees members) .closed

def itemTrees : List Value → List Tree
  | [] => []
  | v :: vs => v.tree :: itemTrees vs

def memberTrees : List (String × Value) → List (Quoted × Tree)
  | [] => []
  | (name, v) :: rest => (.ofText name, v.tree) :: memberTrees rest

end

mutual

theorem Value.value_tree (depth : Nat) : ∀ v : Value,
    v.tree.value depth = if v.depth ≤ depth then .ok v else .error .tooDeep
  | .null | .bool _ | .number _ | .string _ => (if_pos (Nat.zero_le _)).symm
  | .array items => by
    cases depth with
    | zero => rfl
    | succ d =>
      simp only [Value.tree, Tree.value, Value.depth, itemValues_itemTrees d items,
        Nat.add_le_add_iff_right]
      split <;> rfl
  | .object members => by
    cases depth with
    | zero => rfl
    | succ d =>
      simp only [Value.tree, Tree.value, Value.depth, memberValues_memberTrees d members,
        Nat.add_le_add_iff_right]
      split <;> rfl

theorem itemValues_itemTrees (depth : Nat) : ∀ items : List Value,
    itemValues depth (itemTrees items) =
      if Value.depthItems items ≤ depth then .ok items else .error .tooDeep
  | [] => rfl
  | v :: vs => by
    simp only [itemTrees, itemValues, Value.value_tree depth v, itemValues_itemTrees depth vs,
      Value.depthItems, Nat.max_le]
    by_cases hv : v.depth ≤ depth <;> by_cases hs : Value.depthItems vs ≤ depth <;>
      simp only [hv, hs, and_self, and_true, and_false, if_true, if_false] <;> rfl

theorem memberValues_memberTrees (depth : Nat) : ∀ members : List (String × Value),
    memberValues depth (memberTrees members) =
      if Value.depthMembers members ≤ depth then .ok members else .error .tooDeep
  | [] => rfl
  | (name, v) :: rest => by
    simp only [memberTrees, memberValues, Value.value_tree depth v,
      memberValues_memberTrees depth rest, Value.depthMembers, Nat.max_le, Quoted.ofText]
    by_cases hv : v.depth ≤ depth <;> by_cases hs : Value.depthMembers rest ≤ depth <;>
      simp only [hv, hs, and_self, and_true, and_false, if_true, if_false] <;> rfl

end

mutual

/-- The tree that the text of a value is read as.  Only in place of a floating point number,
something else may be read. -/
def Value.readTree : Value → Tree
  | .null => .leaf .null
  | .bool b => .leaf (.bool b)
  | .number n => .leaf n.token
  | .string s => .leaf (.string (.ofText s))
  | .array items => .array (readItemTrees items) .closed
  | .object members => .object (readMemberTrees members) .closed

def readItemTrees : List Value → List Tree
  | [] => []
  | v :: vs => v.readTree :: readItemTrees vs

def readMemberTrees : List (String × Value) → List (Quoted × Tree)
  | [] => []
  | (name, v) :: rest => (.ofText name, v.readTree) :: readMemberTrees rest

end

mutual

theorem Value.readTree_of_isExact : ∀ v : Value, v.IsExact → v.readTree = v.tree
  | .null, _ | .bool _, _ | .string _, _ => rfl
  | .number (.integer i), _ => congrArg Tree.leaf (Number.readsAs_integer i).token_eq
  | .number (.real _), h => h.elim
  | .array items, h => by rw [Value.readTree, readItemTrees_of_exact items h, Value.tree]
  | .object members, h => by rw [Value.readTree, readMemberTrees_of_exact members h, Value.tree]

theorem readItemTrees_of_exact :
    ∀ items : List Value, Value.ExactItems items → readItemTrees items = itemTrees items
  | [], _ => rfl
  | v :: vs, ⟨hv, hvs⟩ => by
    rw [readItemTrees, Value.readTree_of_isExact v hv, readItemTrees_of_exact vs hvs, itemTrees]

theorem readMemberTrees_of_exact : ∀ members : List (String × Value),
    Value.ExactMembers members → readMemberTrees members = memberTrees members
  | [], _ => rfl
  | (name, v) :: rest, ⟨hv, hrest⟩ => by
    rw [readMemberTrees, Value.readTree_of_isExact v hv, readMemberTrees_of_exact rest hrest,
      memberTrees]

end

mutual

/-- What is read is JSON in shape. -/
theorem Value.skip_readTree : ∀ v : Value, v.readTree.skip = .ok ()
  | .null | .bool _ | .string _ => rfl
  | .number n => by
    obtain ⟨r, hr, hskip⟩ := n.exists_readsAs
    rw [Value.readTree, Tree.skip, hr.token_eq, hskip]
  | .array items => by
    rw [Value.readTree, Tree.skip, skipItems_readItemTrees items]
    rfl
  | .object members => by
    rw [Value.readTree, Tree.skip, skipMembers_readMemberTrees members]
    rfl

theorem skipItems_readItemTrees : ∀ items : List Value, skipItems (readItemTrees items) = .ok ()
  | [] => rfl
  | v :: vs => by
    rw [readItemTrees, skipItems, Value.skip_readTree v, skipItems_readItemTrees vs]
    rfl

theorem skipMembers_readMemberTrees :
    ∀ members : List (String × Value), skipMembers (readMemberTrees members) = .ok ()
  | [] => rfl
  | (name, v) :: rest => by
    rw [readMemberTrees, skipMembers, Value.skip_readTree v, skipMembers_readMemberTrees rest]
    rfl

end

/-! ### Single tokens -/

namespace State

theorem read_space {c : Char} (h : isSpace c = true) (state : State) (rest : List Symbol) :
    state.read (.char c :: rest) = state.read rest := by
  rw [read, if_pos h]

theorem read_token {c : Char} {t : Token} {rest tail : List Symbol} (hs : isSpace c = false)
    (ht : token c rest = (t, tail)) (state : State) :
    state.read (.char c :: rest) = (state.step t).read tail := by
  rw [read, hs, if_neg Bool.false_ne_true, ht]

theorem read_punctuation {c : Char} {t : Token} (hs : isSpace c = false)
    (ht : punctuation? c = some t) (state : State) (rest : List Symbol) :
    state.read (.char c :: rest) = (state.step t).read rest :=
  read_token hs (by rw [token, ht]) state

theorem isSpace_of_mem {c : Char} (h : c ∈ [' ', '\n', '\t', '\r']) : isSpace c = true :=
  List.all_eq_true.1 (by decide : [' ', '\n', '\t', '\r'].all isSpace = true) c h

theorem read_blanks {b : List Char} (h : Blanks b) (state : State) (rest : List Symbol) :
    state.read (b.map .char ++ rest) = state.read rest := by
  induction b with
  | nil => rfl
  | cons c b ih =>
    obtain ⟨hc, hb⟩ := List.forall_mem_cons.1 h
    rw [List.map_cons, List.cons_append, read_space (isSpace_of_mem hc), ih hb]

theorem read_string {s : String} {cs : List Char} (h : SpellsString s cs) (state : State)
    (rest : List Symbol) :
    state.read (cs.map .char ++ rest) = (state.step (.string (.ofText s))).read rest := by
  obtain ⟨tail, rfl, ht⟩ := token_string h rest
  exact read_token (c := '"') (by decide) ht state

/-- A member is read up to its value. -/
theorem read_name {name : String} {v : Value} {cs : List Char} (h : SpellsMember name v cs)
    (members : List (Quoted × Tree)) (stack : List Frame) (rest : List Symbol) :
    ∃ tail, Spells v tail ∧ (member members stack).read (cs.map .char ++ rest) =
      (value (.object members (.ofText name) :: stack)).read (tail.map .char ++ rest) := by
  obtain ⟨hk, ha, hb, hv⟩ := h
  refine ⟨_, hv, ?_⟩
  simp only [List.map_append, List.map_cons, List.append_assoc, List.cons_append]
  rw [read_string hk, read_blanks ha]
  refine (read_punctuation (c := ':') (by decide) rfl _ _).trans ?_
  rw [read_blanks hb]
  rfl

end State

/-! ### The beginning of a value -/

/-- Is the token one of a single character? -/
def Token.isPunctuation : Token → Bool
  | beginArray | endArray | beginObject | endObject | colon | comma => true
  | _ => false

/-- Of the tokens of several characters, none is a bracket, a colon or a comma. -/
theorem punctuation?_of_token {c : Char} {rest : List Symbol}
    (h : (token c rest).1.isPunctuation = true) : punctuation? c = some (token c rest).1 := by
  revert h
  unfold token
  split
  · exact fun _ => ‹_›
  · rename_i t letters hw
    unfold wordToken
    split
    · intro ht
      revert hw
      unfold word?
      split_ifs <;> rintro ⟨⟩ <;> cases ht
    · rintro ⟨⟩
  · split_ifs
    · rintro ⟨⟩
    · unfold numberToken
      split <;> rintro ⟨⟩
    · unfold numberToken
      split <;> rintro ⟨⟩
    · rintro ⟨⟩

theorem token_ne_endArray {c : Char} (h : c ≠ ']') (rest : List Symbol) :
    (token c rest).1 ≠ .endArray := by
  intro ht
  have hp : punctuation? c = some (token c rest).1 := punctuation?_of_token (by rw [ht]; rfl)
  rw [ht] at hp
  revert hp
  simp only [punctuation?, h, if_false]
  split_ifs <;> rintro ⟨⟩

/-- A value begins neither with a blank nor with a closing bracket. -/
theorem Spells.eq_cons {v : Value} {cs : List Char} (h : Spells v cs) :
    ∃ c tail, cs = c :: tail ∧ isSpace c = false ∧ c ≠ ']' := by
  cases h with
  | number n =>
    obtain ⟨_, ⟨c, tail, hc, hs, hb, -⟩, -⟩ := n.exists_readsAs
    exact ⟨c, tail, hc, hs, hb⟩
  | string hs =>
    obtain ⟨_, -, rfl⟩ := hs
    exact ⟨_, _, rfl, by decide, by decide⟩
  | _ => exact ⟨_, _, rfl, by decide, by decide⟩

/-- An item is read like a value in its array. -/
theorem State.read_item {v : Value} {cs : List Char} (h : Spells v cs) (items : List Tree)
    (stack : List Frame) (rest : List Symbol) :
    (item items stack).read (cs.map .char ++ rest) =
      (value (.array items :: stack)).read (cs.map .char ++ rest) := by
  obtain ⟨c, tail, rfl, hs, hb⟩ := h.eq_cons
  -- Only a closing bracket makes a difference between an item and a value.
  have hstep (t : Token) (ht : t ≠ .endArray) :
      step t (item items stack) = step t (value (.array items :: stack)) := by
    cases t <;> first | exact absurd rfl ht | rfl
  have hread (state : State) :=
    read_token hs (Prod.eta (token c (tail.map .char ++ rest))).symm state
  rw [List.map_cons, List.cons_append, hread, hread, hstep _ (token_ne_endArray hb _)]

/-! ### What may follow a number -/

theorem endsNumber_blanks {b : List Char} (h : Blanks b) {rest : List Symbol}
    (hr : EndsNumber rest) : EndsNumber (b.map .char ++ rest) := by
  cases b with
  | nil => exact hr
  | cons c b =>
    have hc := (List.forall_mem_cons.1 h).1
    simp only [List.mem_cons, List.not_mem_nil, or_false] at hc
    refine endsNumber_cons ?_ _
    rcases hc with rfl | rfl | rfl | rfl <;> decide

theorem SpellsItems.endsNumber {items : List Value} {cs : List Char} (h : SpellsItems items cs)
    (rest : List Symbol) : EndsNumber (cs.map .char ++ rest) := by
  cases h with
  | close hb =>
    rw [List.map_append, List.append_assoc]
    exact endsNumber_blanks hb (endsNumber_cons (by decide) _)
  | more ha =>
    simp only [List.map_append, List.append_assoc]
    exact endsNumber_blanks ha (endsNumber_cons (by decide) _)

theorem SpellsMembers.endsNumber {members : Members} {cs : List Char} (h : SpellsMembers members cs)
    (rest : List Symbol) : EndsNumber (cs.map .char ++ rest) := by
  cases h with
  | close hb =>
    rw [List.map_append, List.append_assoc]
    exact endsNumber_blanks hb (endsNumber_cons (by decide) _)
  | more ha =>
    simp only [List.map_append, List.append_assoc]
    exact endsNumber_blanks ha (endsNumber_cons (by decide) _)

/-! ### Whole values -/

namespace State

mutual

/-- A spelling of a value is read as its tree. -/
theorem read_spelled : ∀ (v : Value) {cs : List Char}, Spells v cs → ∀ (stack : List Frame)
    {rest : List Symbol}, EndsNumber rest →
      (value stack).read (cs.map .char ++ rest) = (deliver v.readTree stack).read rest
  | .null, _, .null, _, rest, _ => read_token (c := 'n') (by decide) (token_word rfl rfl rest) _
  | .bool _, _, .yes, _, rest, _ => read_token (c := 't') (by decide) (token_word rfl rfl rest) _
  | .bool _, _, .no, _, rest, _ => read_token (c := 'f') (by decide) (token_word rfl rfl rest) _
  | .number n, _, .number _, stack, rest, hr => by
    obtain ⟨r, hreads, -⟩ := n.exists_readsAs
    have htoken := hreads.token_eq
    obtain ⟨c, tail, hc, hs, -, ht⟩ := hreads
    rw [hc, List.map_cons, List.cons_append, read_token hs (ht hr), Value.readTree, htoken]
    rfl
  | .string _, _, .string hs, stack, rest, _ => read_string hs (value stack) rest
  | .array [], _, .emptyArray hb, stack, rest, _ => by
    simp only [List.map_append, List.map_cons, List.append_assoc, List.cons_append]
    refine (read_punctuation (c := '[') (by decide) rfl _ _).trans ?_
    rw [read_blanks hb]
    exact read_punctuation (c := ']') (by decide) rfl _ rest
  | .array (v :: vs), _, .array hb hv hvs, stack, rest, _ => by
    simp only [List.map_append, List.map_cons, List.append_assoc, List.cons_append]
    refine (read_punctuation (c := '[') (by decide) rfl _ _).trans ?_
    rw [read_blanks hb]
    refine (read_item hv _ _ _).trans ?_
    -- The item may be a number, so what stands behind it has to end one.
    rw [read_spelled v hv _ (hvs.endsNumber rest)]
    exact read_items vs hvs [v.readTree] stack rest
  | .object [], _, .emptyObject hb, stack, rest, _ => by
    simp only [List.map_append, List.map_cons, List.append_assoc, List.cons_append]
    refine (read_punctuation (c := '\x7b') (by decide) rfl _ _).trans ?_
    rw [read_blanks hb]
    exact read_punctuation (c := '\x7d') (by decide) rfl _ rest
  | .object ((name, v) :: members), _, .object hb hm hms, stack, rest, _ => by
    simp only [List.map_append, List.map_cons, List.append_assoc, List.cons_append]
    refine (read_punctuation (c := '\x7b') (by decide) rfl _ _).trans ?_
    rw [read_blanks hb]
    obtain ⟨tail, hv, hread⟩ := read_name hm [] stack _
    refine hread.trans ?_
    rw [read_spelled v hv _ (hms.endsNumber rest)]
    exact read_members members hms [(.ofText name, v.readTree)] stack rest

theorem read_items : ∀ (items : List Value) {cs : List Char}, SpellsItems items cs →
    ∀ (acc : List Tree) (stack : List Frame) (rest : List Symbol),
      (afterItem acc stack).read (cs.map .char ++ rest) =
        (deliver (.array (acc.reverse ++ readItemTrees items) .closed) stack).read rest
  | [], _, .close hb, acc, stack, rest => by
    rw [List.map_append, List.append_assoc, read_blanks hb]
    refine (read_punctuation (c := ']') (by decide) rfl _ rest).trans ?_
    rw [readItemTrees, List.append_nil]
    rfl
  | v :: vs, _, .more ha hb hv hvs, acc, stack, rest => by
    simp only [List.map_append, List.map_cons, List.append_assoc, List.cons_append]
    rw [read_blanks ha]
    refine (read_punctuation (c := ',') (by decide) rfl _ _).trans ?_
    rw [read_blanks hb]
    refine (read_item hv _ _ _).trans ?_
    rw [read_spelled v hv _ (hvs.endsNumber rest)]
    refine (read_items vs hvs (v.readTree :: acc) stack rest).trans ?_
    simp [readItemTrees]

theorem read_members : ∀ (members : List (String × Value)) {cs : List Char},
    SpellsMembers members cs → ∀ (acc : List (Quoted × Tree)) (stack : List Frame)
      (rest : List Symbol), (afterMember acc stack).read (cs.map .char ++ rest) =
        (deliver (.object (acc.reverse ++ readMemberTrees members) .closed) stack).read rest
  | [], _, .close hb, acc, stack, rest => by
    rw [List.map_append, List.append_assoc, read_blanks hb]
    refine (read_punctuation (c := '\x7d') (by decide) rfl _ rest).trans ?_
    rw [readMemberTrees, List.append_nil]
    rfl
  | (name, v) :: members, _, .more ha hb hm hms, acc, stack, rest => by
    simp only [List.map_append, List.map_cons, List.append_assoc, List.cons_append]
    rw [read_blanks ha]
    refine (read_punctuation (c := ',') (by decide) rfl _ _).trans ?_
    rw [read_blanks hb]
    obtain ⟨tail, hv, hread⟩ := read_name hm acc stack _
    refine hread.trans ?_
    rw [read_spelled v hv _ (hms.endsNumber rest)]
    refine (read_members members hms ((.ofText name, v.readTree) :: acc) stack rest).trans ?_
    simp [readMemberTrees]

end

/-- After the text of a value and the end of its line, the value is complete. -/
theorem read_line (layout : Layout) (v : Value) (rest : List Symbol) :
    (value []).read ((v.chars layout 0).map .char ++ .char '\n' :: rest) =
      (done v.readTree).read rest := by
  rw [read_spelled v (spells_chars layout 0 v) [] (endsNumber_cons (by decide) rest),
    read_space (by decide), deliver]

end State

/-- **A text that spells a value is read as the tree of the value.** -/
theorem Document.ofSymbols_spelled {v : Value} {text : String} (h : v.IsSpelledBy text) :
    Document.ofSymbols (Text.symbolsOf text) = ⟨v.readTree, false⟩ := by
  obtain ⟨before, cs, after, hbefore, hcs, hafter, htext⟩ := h
  have hread : State.read (.value []) (Text.symbolsOf text) = .done v.readTree := by
    rw [Text.symbolsOf, htext, List.append_assoc, List.map_append, List.map_append,
      State.read_blanks hbefore]
    have hend : EndsNumber (after.map .char) := by
      have := endsNumber_blanks hafter endsNumber_nil
      rwa [List.append_nil] at this
    rw [State.read_spelled v hcs [] hend]
    have := State.read_blanks hafter (.deliver v.readTree []) []
    rw [List.append_nil, State.read] at this
    exact this
  rw [ofSymbols, hread]
  rfl

theorem Document.ofSymbols_spelled_of_isExact {v : Value} {text : String} (h : v.IsSpelledBy text)
    (hv : v.IsExact) : Document.ofSymbols (Text.symbolsOf text) = ⟨v.tree, false⟩ := by
  rw [ofSymbols_spelled h, v.readTree_of_isExact hv]

theorem Value.symbolsOf_text (layout : Layout) (v : Value) (more : String) :
    Text.symbolsOf (v.text layout ++ "\n" ++ more) =
      (v.chars layout 0).map .char ++ .char '\n' :: Text.symbolsOf more := by
  simp [Text.symbolsOf, text]

/-- Whatever the spelling, a value is read in its canonical form, unless it is nested too deep. -/
theorem Decoder.run_value_spelled {v : Value} {text : String} (h : v.IsSpelledBy text)
    (hv : v.IsExact) : Decoder.value.run (Text.symbolsOf text) =
      if v.depth ≤ maxDepth then .ok v.canonical else .error .tooDeep := by
  rw [run, Document.ofSymbols_spelled_of_isExact h hv]
  simp only [value, Value.value_tree]
  split <;> rfl

/-- **A text spells one value.** -/
theorem Value.eq_of_isSpelledBy {v w : Value} {text : String} (hv : v.IsSpelledBy text)
    (hw : w.IsSpelledBy text) (hxv : v.IsExact) (hxw : w.IsExact) : v = w := by
  have htree : v.tree = w.tree := by
    have := Document.ofSymbols_spelled_of_isExact hv hxv
    rw [Document.ofSymbols_spelled_of_isExact hw hxw] at this
    exact (congrArg Document.tree this).symm
  have hvalue := v.value_tree (max v.depth w.depth)
  rw [htree, Value.value_tree, if_pos (Nat.le_max_left _ _),
    if_pos (Nat.le_max_right _ _)] at hvalue
  exact (Except.ok.inj hvalue).symm

theorem Document.ofSymbols_text (layout : Layout) (v : Value) :
    Document.ofSymbols (Text.symbolsOf (v.text layout ++ "\n")) = ⟨v.readTree, false⟩ :=
  ofSymbols_spelled (v.isSpelledBy_text layout)

theorem Document.ofSymbols_text_of_isExact (layout : Layout) {v : Value} (hv : v.IsExact) :
    Document.ofSymbols (Text.symbolsOf (v.text layout ++ "\n")) = ⟨v.tree, false⟩ :=
  ofSymbols_spelled_of_isExact (v.isSpelledBy_text layout) hv

/-! ### Documents -/

/-- The text is one JSON document: there is one value, and nothing but blanks around it. -/
def IsDocument (text : String) : Prop :=
  (Document.ofSymbols (Text.symbolsOf text)).trailing = false ∧
    (Document.ofSymbols (Text.symbolsOf text)).tree.skip = .ok ()

/-- **What is written is a JSON document.** -/
theorem isDocument_text (layout : Layout) (v : Value) : IsDocument (v.text layout ++ "\n") := by
  rw [IsDocument, Document.ofSymbols_text]
  exact ⟨rfl, v.skip_readTree⟩

end RepairLedger.Json
