import RepairLedger.Proofs.Json.Printed
import RepairLedger.Proofs.Result

/-!
# Decoding what was written

A decoder reads a value as `a` (`Decoder.Reads`) if it makes `a` of the tree of the value as long
as no part of it is nested too deep, and otherwise says so.  The property goes from the parts of a
value to the whole: to lists (`Decoder.Reads.list`), to what may be `null`
(`Decoder.Reads.optional`) and to records whose members stand in the order of the fields
(`Fields.Hold.decoder`).

Where the members of such a record hold something else than its values, a value that is read is
still made of them one by one (`Fields.taken_of_decoder`).
-/

namespace RepairLedger.Json

/-- The decoder makes `a` of the value, unless it is nested too deep. -/
def Decoder.Reads {α : Type} (decoder : Decoder α) (v : Value) (a : α) : Prop :=
  ∀ depth, decoder depth v.tree = if v.depth ≤ depth then .ok a else .error .tooDeep

namespace Decoder

variable {α : Type} {decoder : Decoder α} {v : Value} {a : α}

/-- A value without containers is read at any depth. -/
theorem Reads.of_flat (hv : v.depth = 0) (h : ∀ depth, decoder depth v.tree = .ok a) :
    decoder.Reads v a := by
  intro depth
  rw [h depth, if_pos (hv ▸ Nat.zero_le depth)]

/-- A container is read if its parts are, with one container less to spare. -/
theorem Reads.of_container {inner : Nat} (hv : v.depth = inner + 1)
    (hzero : decoder 0 v.tree = .error .tooDeep)
    (hsucc : ∀ d, decoder (d + 1) v.tree = if inner ≤ d then .ok a else .error .tooDeep) :
    decoder.Reads v a := by
  intro depth
  rw [hv]
  cases depth with
  | zero => exact hzero
  | succ d => simp only [hsucc, Nat.add_le_add_iff_right]

/-- Nothing else is made of the text of a value without fractions. -/
theorem Reads.eq_of_readTree (h : decoder.Reads v a) (hv : v.IsExact) (depth : Nat) {b : α}
    (hb : decoder depth v.readTree = .ok b) : b = a := by
  rw [v.readTree_of_isExact hv, h depth] at hb
  split at hb
  · exact (Except.ok.inj hb).symm
  · cases hb

theorem reads_string (s : String) : Decoder.string.Reads (.string s) s :=
  .of_flat rfl fun _ => rfl

theorem reads_bool (b : Bool) : Decoder.bool.Reads (.bool b) b :=
  .of_flat rfl fun _ => rfl

theorem toUInt64?_ofUInt64 (n : UInt64) : (Integer.ofUInt64 n).toUInt64? = some n := by
  simp [Integer.toUInt64?, Integer.ofUInt64]

theorem reads_natural (n : UInt64) : Decoder.natural.Reads (.ofUInt64 n) n := by
  refine .of_flat rfl fun depth => ?_
  simp only [Decoder.natural, Value.ofUInt64, Value.tree, toUInt64?_ofUInt64]

theorem tree_ne_null (h : v ≠ .null) : v.tree ≠ .leaf .null := by
  cases v <;> simp_all [Value.tree]

/-- Something that may be `null` is read if what is not `null` is. -/
theorem Reads.optional {write : α → Value} (hn : ∀ a, write a ≠ .null) {a? : Option α}
    (h : ∀ a, a? = some a → decoder.Reads (write a) a) :
    decoder.optional.Reads ((a?.map write).getD .null) a? := by
  intro depth
  cases a? with
  | none => rfl
  | some a =>
    have htree : decoder.optional depth (write a).tree =
        (decoder depth (write a).tree).map some := by
      unfold Decoder.optional
      split
      · rename_i heq
        exact absurd heq (tree_ne_null (hn a))
      · rfl
    refine htree.trans ?_
    rw [h a rfl depth]
    dsimp only [Option.map_some, Option.getD_some]
    split <;> rfl

theorem items_itemTrees {write : α → Value} {as : List α}
    (h : ∀ a ∈ as, decoder.Reads (write a) a) (depth : Nat) :
    decoder.items depth (itemTrees (as.map write)) =
      if Value.depthItems (as.map write) ≤ depth then .ok as else .error .tooDeep := by
  induction as with
  | nil => rfl
  | cons a as ih =>
    simp only [List.map_cons, itemTrees, Decoder.items, Value.depthItems, Nat.max_le,
      h a List.mem_cons_self depth, ih fun b hb => h b (List.mem_cons_of_mem _ hb)]
    by_cases ha : (write a).depth ≤ depth <;>
      by_cases hs : Value.depthItems (as.map write) ≤ depth <;>
      simp only [ha, hs, and_self, and_true, and_false, if_true, if_false] <;> rfl

/-- An array is read if its items are. -/
theorem Reads.list {write : α → Value} {as : List α} (h : ∀ a ∈ as, decoder.Reads (write a) a) :
    decoder.list.Reads (.array (as.map write)) as := by
  refine .of_container rfl rfl fun d => ?_
  simp only [Value.tree, Decoder.list, enter, bind, Except.bind, items_itemTrees h d]
  by_cases hd : Value.depthItems (as.map write) ≤ d
  · simp only [hd, if_true, Ending.array]
  · simp only [hd, if_false]

/-- The members of an object that is sorted throughout are read as they are. -/
theorem reads_members {members : Members} (h : (Value.object members).IsSorted) :
    Decoder.members.Reads (.object members) members := by
  refine .of_container rfl rfl fun d => ?_
  simp only [Value.tree, Decoder.members, enter, bind, Except.bind, memberValues_memberTrees]
  by_cases hd : Value.depthMembers members ≤ d
  · -- Sorting the members once more changes nothing.
    simp only [hd, if_true, Ending.object, Value.canonicalMembers_of_sorted members h.2,
      Value.sortMembers_of_increasing h.1]
  · simp only [hd, if_false]

end Decoder

/-! ### Records -/

namespace Fields

/-- The names of the fields. -/
def names : {τ σ : Type} → Fields τ σ → List String
  | _, _, nil => []
  | _, _, cons field rest => field.name :: rest.names

/-- The members are the fields in their order, and are read as the values. -/
def Hold : {τ σ : Type} → Fields τ σ → Members → τ → Prop
  | _, _, nil, [], () => True
  | _, _, cons field rest, (name, v) :: members, (a, as) =>
    name = field.name ∧ field.decoder.Reads v a ∧ rest.Hold members as
  | _, _, _, _, _ => False

/-- All fields have been found. -/
def full : {τ σ : Type} → Fields τ σ → τ → σ
  | _, _, nil, () => ()
  | _, _, cons _ rest, (a, as) => (some a, rest.full as)

theorem collect_full : {τ σ : Type} → (fields : Fields τ σ) → (values : τ) →
    fields.collect (fields.full values) = .ok values
  | _, _, nil, () => rfl
  | _, _, cons field rest, (a, as) => by
    simp only [full, collect, Option.some_or, collect_full rest as]
    rfl

theorem Hold.map_fst : {τ σ : Type} → {fields : Fields τ σ} → {members : Members} →
    {values : τ} → fields.Hold members values → members.map Prod.fst = fields.names
  | _, _, nil, [], (), _ => rfl
  | _, _, cons field rest, (name, v) :: members, (a, as), h => by
    obtain ⟨hn, -, h⟩ := h
    rw [List.map_cons, hn, map_fst h, names]

/-- Members of other names leave the first field as it is. -/
theorem fillAll_of_forall_ne {α τ σ : Type} {field : Field α} {rest : Fields τ σ}
    {members : List (Quoted × Tree)} (h : ∀ e ∈ members, e.1.content ≠ .ok field.name)
    (depth : Nat) (slot : Option α) (slots : σ) :
    (cons field rest).fillAll depth members (slot, slots) =
      (rest.fillAll depth members slots).map fun slots => (slot, slots) := by
  induction members generalizing slots with
  | nil => rfl
  | cons e members ih =>
    obtain ⟨quoted, tree⟩ := e
    obtain ⟨hname, h⟩ := List.forall_mem_cons.1 h
    simp only [fillAll, bind, Except.bind]
    cases hq : quoted.content with
    | error fault => rfl
    | ok name =>
      have hne : field.name ≠ name := fun heq => hname (hq.trans (congrArg _ heq.symm))
      simp only [fill, if_neg hne, bind, Except.bind]
      cases rest.fill depth name tree slots with
      | error fault => rfl
      | ok filled? =>
        cases filled? with
        | none =>
          -- The member is no field at all and is skipped.
          simp only [Option.map_none]
          cases tree.skip with
          | error fault => rfl
          | ok _ => exact ih h slots
        | some slots => exact ih h slots

theorem map_content_memberTrees (members : Members) :
    (memberTrees members).map (·.1.content) = (members.map Prod.fst).map .ok := by
  induction members with
  | nil => rfl
  | cons e members ih =>
    obtain ⟨name, v⟩ := e
    rw [memberTrees, List.map_cons, List.map_cons, List.map_cons, ih]
    rfl

/-- Members of these names have no other name. -/
theorem forall_ne_of_notMem {members : List (Quoted × Tree)} {names : List String} {name : String}
    (hm : members.map (·.1.content) = names.map .ok) (hn : name ∉ names) :
    ∀ e ∈ members, e.1.content ≠ .ok name := by
  intro e he heq
  have hmem := List.mem_map_of_mem (f := (·.1.content)) he
  rw [hm, heq] at hmem
  obtain ⟨name', hname, hok⟩ := List.mem_map.1 hmem
  cases hok
  exact hn hname

theorem fillAll_of_notMem {α τ σ : Type} {field : Field α} {rest : Fields τ σ} {members : Members}
    (h : field.name ∉ members.map Prod.fst) (depth : Nat) (slot : Option α) (slots : σ) :
    (cons field rest).fillAll depth (memberTrees members) (slot, slots) =
      (rest.fillAll depth (memberTrees members) slots).map fun slots => (slot, slots) :=
  fillAll_of_forall_ne (forall_ne_of_notMem (map_content_memberTrees members) h) depth slot slots

/-- Members that are the fields in their order fill all of them. -/
theorem Hold.fillAll (depth : Nat) : {τ σ : Type} → {fields : Fields τ σ} →
    {members : Members} → {values : τ} → fields.Hold members values → fields.names.Nodup →
    fields.fillAll depth (memberTrees members) fields.none =
      if Value.depthMembers members ≤ depth then .ok (fields.full values) else .error .tooDeep
  | _, _, nil, [], (), _, _ => rfl
  | _, _, cons field rest, (name, v) :: members, (a, as), h, hnodup => by
    obtain ⟨hn, hv, h⟩ := h
    obtain ⟨hnot, hnodup⟩ := List.nodup_cons.1 hnodup
    subst hn
    -- The members behind the first one have other names, so they leave its slot alone.
    rw [← h.map_fst] at hnot
    simp only [memberTrees, Fields.fillAll, none, full, fill, Quoted.ofText, if_true, bind,
      Except.bind, hv depth, Value.depthMembers, Nat.max_le]
    by_cases hd : v.depth ≤ depth
    · simp only [hd, if_true, true_and, fillAll_of_notMem hnot, Hold.fillAll depth h hnodup]
      split <;> rfl
    · simp only [hd, if_false, false_and]

/-- **A record is read from the object that has its fields in their order.** -/
theorem Hold.decoder {τ σ α : Type} {fields : Fields τ σ} {members : Members} {values : τ}
    (h : fields.Hold members values) (hn : fields.names.Nodup) (name : String) (build : τ → α) :
    (fields.decoder name build).Reads (.object members) (build values) := by
  refine .of_container rfl rfl fun d => ?_
  simp only [Value.tree, Fields.decoder, enter, bind, Except.bind, h.fillAll d hn]
  by_cases hd : Value.depthMembers members ≤ d
  · simp only [hd, if_true, Ending.object, collect_full]
  · simp only [hd, if_false]

/-! ### What records are read as -/

/-- The members are the fields in their order, and their decoders make the values of them. -/
def Taken (depth : Nat) : {τ σ : Type} → Fields τ σ → List (Quoted × Tree) → τ → Prop
  | _, _, nil, [], () => True
  | _, _, cons field rest, (_, tree) :: members, (a, as) =>
    field.decoder depth tree = .ok a ∧ rest.Taken depth members as
  | _, _, _, _, _ => False

theorem taken_of_fillAll {depth : Nat} {τ σ : Type} {fields : Fields τ σ}
    {members : List (Quoted × Tree)} {filled : σ}
    (hm : members.map (·.1.content) = fields.names.map .ok) (hn : fields.names.Nodup)
    (h : fields.fillAll depth members fields.none = .ok filled) :
    ∃ values, filled = fields.full values ∧ fields.Taken depth members values := by
  induction fields generalizing members with
  | nil =>
    obtain rfl := List.map_eq_nil_iff.1 hm
    exact ⟨(), rfl, trivial⟩
  | cons field rest ih =>
    cases members with
    | nil => cases hm
    | cons e members =>
      obtain ⟨quoted, tree⟩ := e
      obtain ⟨hq, hm⟩ := List.cons.inj hm
      obtain ⟨hnot, hn⟩ := List.nodup_cons.1 hn
      dsimp only at hq
      unfold Fields.fillAll at h
      simp only [hq, none, fill, if_true, bind, Except.bind] at h
      cases ha : field.decoder depth tree with
      | error fault =>
        rw [ha] at h
        cases h
      | ok a =>
        rw [ha] at h
        dsimp only at h
        -- The members behind the first one are the other fields, so they leave its slot alone.
        rw [fillAll_of_forall_ne (forall_ne_of_notMem hm hnot)] at h
        obtain ⟨later, hlater, rfl⟩ := map_eq_ok.1 h
        obtain ⟨values, rfl, htaken⟩ := ih hm hn hlater
        exact ⟨(a, values), rfl, ha, htaken⟩

/-- **A record that is read from an object with the fields in their order is built of what the
decoders make of its members.** -/
theorem taken_of_decoder {τ σ α : Type} {fields : Fields τ σ} {members : List (Quoted × Tree)}
    (hm : members.map (·.1.content) = fields.names.map .ok) (hn : fields.names.Nodup)
    {name : String} {build : τ → α} {depth : Nat} {ending : Ending} {a : α}
    (h : fields.decoder name build depth (.object members ending) = .ok a) :
    ∃ inner values, fields.Taken inner members values ∧ a = build values := by
  obtain ⟨inner, -, h⟩ := bind_eq_ok.1 h
  obtain ⟨slots, hslots, h⟩ := bind_eq_ok.1 h
  obtain ⟨_, -, h⟩ := bind_eq_ok.1 h
  obtain ⟨values, hvalues, h⟩ := bind_eq_ok.1 h
  cases h
  obtain ⟨values', rfl, htaken⟩ := taken_of_fillAll hm hn hslots
  rw [collect_full] at hvalues
  cases hvalues
  exact ⟨inner, values, htaken, rfl⟩

end Fields

end RepairLedger.Json
