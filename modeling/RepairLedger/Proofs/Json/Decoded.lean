import RepairLedger.Json.Decoder
import RepairLedger.Proofs.Json.Shape
import RepairLedger.Proofs.Result

/-!
# What is decoded

The other direction: whatever the text was, what a decoder makes of it has a certain shape.  A value
is no deeper than the decoder allows (`Tree.depth_value_le`) and in canonical form
(`Decoder.value_ok`), and every field of a record comes from its own decoder or is one of its
defaults (`Fields.made_of_decoder`).  So a property of all that a decoder makes goes over to the
fields with this decoder (`Fields.Made.head`).
-/

namespace RepairLedger.Json

/-! ### Values -/

mutual

/-- A value is no deeper than its reader allows. -/
theorem Tree.depth_value_le : ∀ (tree : Tree) {depth : Nat} {v : Value},
    tree.value depth = .ok v → v.depth ≤ depth
  | .leaf t, depth, v, h => by
    -- A token is a value without containers.
    have hflat : v.depth = 0 := by
      unfold Tree.value Token.value? at h
      split at h
      · cases h
        rfl
      · cases h
        rfl
      · obtain ⟨_, -, rfl⟩ := map_eq_ok.1 h
        rfl
      · obtain ⟨_, -, rfl⟩ := map_eq_ok.1 h
        rfl
      · cases h
      · cases h
    rw [hflat]
    exact Nat.zero_le depth
  | .missing, _, _, h => by cases h
  | .unseparated _, _, _, h => by cases h
  | .array items ending, 0, _, h => by cases h
  | .array items ending, depth + 1, v, h => by
    obtain ⟨values, hvalues, h⟩ := bind_eq_ok.1 h
    obtain ⟨_, -, h⟩ := bind_eq_ok.1 h
    cases h
    exact Nat.succ_le_succ (depthItems_itemValues_le items hvalues)
  | .object members ending, 0, _, h => by cases h
  | .object members ending, depth + 1, v, h => by
    obtain ⟨values, hvalues, h⟩ := bind_eq_ok.1 h
    obtain ⟨_, -, h⟩ := bind_eq_ok.1 h
    cases h
    exact Nat.succ_le_succ (depthMembers_memberValues_le members hvalues)

theorem depthItems_itemValues_le : ∀ (trees : List Tree) {depth : Nat} {values : List Value},
    itemValues depth trees = .ok values → Value.depthItems values ≤ depth
  | [], _, _, h => by
    cases h
    exact Nat.zero_le _
  | tree :: trees, _, _, h => by
    obtain ⟨v, hv, h⟩ := bind_eq_ok.1 h
    obtain ⟨vs, hvs, h⟩ := bind_eq_ok.1 h
    cases h
    exact Nat.max_le.2 ⟨Tree.depth_value_le tree hv, depthItems_itemValues_le trees hvs⟩

theorem depthMembers_memberValues_le : ∀ (members : List (Quoted × Tree)) {depth : Nat}
    {values : List (String × Value)},
    memberValues depth members = .ok values → Value.depthMembers values ≤ depth
  | [], _, _, h => by
    cases h
    exact Nat.zero_le _
  | (name, tree) :: rest, _, _, h => by
    obtain ⟨n, -, h⟩ := bind_eq_ok.1 h
    obtain ⟨v, hv, h⟩ := bind_eq_ok.1 h
    obtain ⟨vs, hvs, h⟩ := bind_eq_ok.1 h
    cases h
    exact Nat.max_le.2 ⟨Tree.depth_value_le tree hv, depthMembers_memberValues_le rest hvs⟩

end

theorem enter_eq_ok {depth inner : Nat} : enter depth = .ok inner ↔ depth = inner + 1 := by
  cases depth with
  | zero => simp [enter]
  | succ d => simp [enter]

namespace Decoder

variable {α : Type} {depth : Nat} {tree : Tree}

/-- Any value that is read is in canonical form. -/
theorem value_ok {v : Value} (h : value depth tree = .ok v) : v.IsSorted ∧ v.depth ≤ depth := by
  obtain ⟨raw, hraw, rfl⟩ := map_eq_ok.1 h
  exact ⟨raw.isSorted_canonical, Nat.le_trans raw.depth_canonical_le (tree.depth_value_le hraw)⟩

/-- The members of an object that is read are in canonical form. -/
theorem members_ok {ms : Members} (h : members depth tree = .ok ms) :
    (Value.object ms).IsSorted ∧ (Value.object ms).depth ≤ depth := by
  unfold members at h
  split at h
  · obtain ⟨inner, hinner, h⟩ := bind_eq_ok.1 h
    obtain ⟨values, hvalues, h⟩ := bind_eq_ok.1 h
    obtain ⟨_, -, h⟩ := bind_eq_ok.1 h
    cases h
    obtain rfl := enter_eq_ok.1 hinner
    have hle := (Value.object values).depth_canonical_le
    exact ⟨(Value.object values).isSorted_canonical,
      Nat.le_trans hle (Nat.succ_le_succ (depthMembers_memberValues_le _ hvalues))⟩
  · cases h

/-- What is read from a whole text is read from a tree. -/
theorem run_ok {decoder : Decoder α} {text : List Text.Symbol} {a : α}
    (h : decoder.run text = .ok a) : ∃ tree, decoder maxDepth tree = .ok a := by
  obtain ⟨b, hb, h⟩ := bind_eq_ok.1 h
  split at h
  · cases h
  · cases h
    exact ⟨_, hb⟩

end Decoder

/-! ### Records -/

namespace Fields

/-- Each value comes from the decoder of its field, or is one of the defaults. -/
def Made (depth : Nat) : {τ σ : Type} → Fields τ σ → τ → Prop
  | _, _, nil, () => True
  | _, _, cons field rest, (a, as) =>
    ((∃ tree, field.decoder depth tree = .ok a) ∨ field.omitted = some a ∨
      field.beyond = some a) ∧ rest.Made depth as

/-- What has been found so far comes from the decoders of the fields. -/
def Found (depth : Nat) : {τ σ : Type} → Fields τ σ → σ → Prop
  | _, _, nil, () => True
  | _, _, cons field rest, (slot, slots) =>
    (∀ a, slot = some a → ∃ tree, field.decoder depth tree = .ok a) ∧ rest.Found depth slots

theorem found_none (depth : Nat) : {τ σ : Type} → (fields : Fields τ σ) →
    fields.Found depth fields.none
  | _, _, nil => trivial
  | _, _, cons _ rest => ⟨fun _ h => (by cases h), rest.found_none depth⟩

theorem found_fill {depth : Nat} {name : String} {tree : Tree} : {τ σ : Type} →
    {fields : Fields τ σ} → {slots filled : σ} → fields.Found depth slots →
    fields.fill depth name tree slots = .ok (some filled) → fields.Found depth filled
  | _, _, nil, _, _, _, h => by cases h
  | _, _, cons field rest, (slot, slots), filled, hf, h => by
    unfold fill at h
    split at h
    · split at h
      · cases h
      · obtain ⟨a, ha, h⟩ := bind_eq_ok.1 h
        cases h
        refine ⟨fun b hb => ?_, hf.2⟩
        cases hb
        exact ⟨tree, ha⟩
    · obtain ⟨filled?, hfill, h⟩ := bind_eq_ok.1 h
      cases filled? with
      | none => cases h
      | some later =>
        cases h
        exact ⟨hf.1, found_fill hf.2 hfill⟩

theorem found_fillAll {depth : Nat} {τ σ : Type} {fields : Fields τ σ} {slots filled : σ}
    {members : List (Quoted × Tree)} (hf : fields.Found depth slots)
    (h : fields.fillAll depth members slots = .ok filled) : fields.Found depth filled := by
  induction members generalizing slots with
  | nil =>
    cases h
    exact hf
  | cons member members ih =>
    obtain ⟨name, tree⟩ := member
    obtain ⟨content, -, h⟩ := bind_eq_ok.1 h
    obtain ⟨filled?, hfill, h⟩ := bind_eq_ok.1 h
    cases filled? with
    | some later => exact ih (found_fill hf hfill) h
    | none =>
      -- A member that is no field is skipped.
      obtain ⟨_, -, h⟩ := bind_eq_ok.1 h
      exact ih hf h

theorem made_of_collect {depth : Nat} : {τ σ : Type} → {fields : Fields τ σ} → {slots : σ} →
    {values : τ} → fields.Found depth slots → fields.collect slots = .ok values →
    fields.Made depth values
  | _, _, nil, _, (), _, _ => trivial
  | _, _, cons field rest, (slot, slots), (a, as), hf, h => by
    unfold collect at h
    split at h
    · cases h
    · rename_i b hb
      obtain ⟨bs, hbs, h⟩ := bind_eq_ok.1 h
      cases h
      refine ⟨?_, made_of_collect hf.2 hbs⟩
      rcases Option.or_eq_some_iff.1 hb with hslot | ⟨-, homitted⟩
      · exact .inl (hf.1 a hslot)
      · exact .inr (.inl homitted)

theorem made_of_ofItems {depth : Nat} {wanted : String} {ending : Ending} : {τ σ : Type} →
    {fields : Fields τ σ} → {index : Nat} → {trees : List Tree} → {values : τ} →
    fields.ofItems depth wanted ending index trees = .ok values → fields.Made depth values
  | _, _, nil, _, _, (), _ => trivial
  | _, _, cons field rest, index, tree :: trees, (a, as), h => by
    obtain ⟨b, hb, h⟩ := bind_eq_ok.1 h
    obtain ⟨bs, hbs, h⟩ := bind_eq_ok.1 h
    cases h
    exact ⟨.inl ⟨tree, hb⟩, made_of_ofItems hbs⟩
  | _, _, cons field rest, index, [], (a, as), h => by
    obtain ⟨_, -, h⟩ := bind_eq_ok.1 h
    split at h
    · cases h
    · rename_i b hb
      obtain ⟨bs, hbs, h⟩ := bind_eq_ok.1 h
      cases h
      exact ⟨.inr (.inr hb), made_of_ofItems hbs⟩

/-- **A record that is read is built of values that its fields have made.** -/
theorem made_of_decoder {τ σ α : Type} {fields : Fields τ σ} {name : String} {build : τ → α}
    {depth : Nat} {tree : Tree} {a : α} (h : fields.decoder name build depth tree = .ok a) :
    ∃ inner values, depth = inner + 1 ∧ fields.Made inner values ∧ a = build values := by
  unfold decoder at h
  split at h
  · obtain ⟨inner, hinner, h⟩ := bind_eq_ok.1 h
    obtain ⟨slots, hslots, h⟩ := bind_eq_ok.1 h
    obtain ⟨_, -, h⟩ := bind_eq_ok.1 h
    obtain ⟨values, hvalues, h⟩ := bind_eq_ok.1 h
    cases h
    exact ⟨inner, values, enter_eq_ok.1 hinner,
      made_of_collect (found_fillAll (fields.found_none inner) hslots) hvalues, rfl⟩
  · obtain ⟨inner, hinner, h⟩ := bind_eq_ok.1 h
    obtain ⟨values, hvalues, h⟩ := bind_eq_ok.1 h
    cases h
    exact ⟨inner, values, enter_eq_ok.1 hinner, made_of_ofItems hvalues, rfl⟩
  · cases h

end Fields

/-! ### What fields hold -/

/-- All that the decoder makes has a property. -/
def Decoder.Yields {α : Type} (decoder : Decoder α) (P : α → Prop) : Prop :=
  ∀ depth tree a, decoder depth tree = .ok a → P a

/-- All that the field can hold has a property. -/
structure Field.Yields {α : Type} (field : Field α) (P : α → Prop) : Prop where
  decoder : field.decoder.Yields P
  omitted : ∀ a, field.omitted = some a → P a
  beyond : ∀ a, field.beyond = some a → P a

section Yields

variable {α : Type} {decoder : Decoder α} {P : α → Prop}

theorem Decoder.Yields.optional (h : decoder.Yields P) :
    decoder.optional.Yields fun a? => ∀ a ∈ a?.toList, P a := by
  intro depth tree a? hread
  unfold Decoder.optional at hread
  split at hread
  · cases hread
    simp
  · obtain ⟨a, ha, rfl⟩ := map_eq_ok.1 hread
    simpa using h depth _ a ha

theorem Field.Yields.required (h : decoder.Yields P) (name : String) :
    (Field.required name decoder).Yields P :=
  ⟨h, by rintro _ ⟨⟩, by rintro _ ⟨⟩⟩

theorem Field.Yields.nullable (h : decoder.Yields P) (name : String) :
    (Field.nullable name decoder).Yields fun a? => ∀ a ∈ a?.toList, P a := by
  refine ⟨h.optional, ?_, by rintro _ ⟨⟩⟩
  rintro _ ⟨⟩
  simp

theorem Field.Yields.withDefault (h : decoder.Yields P) (name : String) {value : α}
    (hv : P value) : (Field.withDefault name decoder value).Yields P := by
  refine ⟨h, ?_, ?_⟩ <;>
  · rintro _ ⟨⟩
    exact hv

theorem Fields.Made.head {depth : Nat} {τ σ : Type} {field : Field α} {rest : Fields τ σ} {a : α}
    {as : τ} (h : (Fields.cons field rest).Made depth (a, as)) (hf : field.Yields P) : P a := by
  obtain ⟨⟨tree, ha⟩ | ha | ha, -⟩ := h
  · exact hf.decoder depth tree a ha
  · exact hf.omitted a ha
  · exact hf.beyond a ha

end Yields

end RepairLedger.Json
