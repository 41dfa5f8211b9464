import RepairLedger.Proofs.Json.Shape
import RepairLedger.Proofs.Result
import RepairLedger.Proofs.Text.ByteOrder

/-!
# The canonical form forgets the order, and nothing else

Two values may differ in the order of their members, at any depth (`Rearranged`).  Then they have
one canonical form (`Rearranged.canonical_eq`).

A part of a value is reached by steps into its arrays and objects (`Value.at?`).  In canonical form,
a value has the same parts at the same places (`Value.sameParts_canonical`), and the names in its
objects are in the order of their bytes (`Value.inByteOrder_canonical`).
-/

namespace RepairLedger.Json

namespace Value

theorem canonicalItems_eq_map (items : List Value) :
    canonicalItems items = items.map canonical := by
  induction items with
  | nil => rfl
  | cons v vs ih => rw [canonicalItems, ih, List.map_cons]

theorem canonicalMembers_eq_map (members : Members) :
    canonicalMembers members = members.map fun (name, v) => (name, v.canonical) := by
  induction members with
  | nil => rfl
  | cons e rest ih => rw [canonicalMembers, ih, List.map_cons]

theorem depthItems_append (xs ys : List Value) :
    depthItems (xs ++ ys) = max (depthItems xs) (depthItems ys) := by
  induction xs with
  | nil => simp [depthItems]
  | cons x xs ih => rw [List.cons_append, depthItems, depthItems, ih, Nat.max_assoc]

theorem depthMembers_append (xs ys : Members) :
    depthMembers (xs ++ ys) = max (depthMembers xs) (depthMembers ys) := by
  induction xs with
  | nil => simp [depthMembers]
  | cons x xs ih => rw [List.cons_append, depthMembers, depthMembers, ih, Nat.max_assoc]

/-! ### Setting two members -/

/-- Of two members with different names, it does not matter which one is set first. -/
theorem setMember_comm {a b : String} (h : a ≠ b) (v w : Value) (members : Members) :
    setMember a v (setMember b w members) = setMember b w (setMember a v members) := by
  have hab : a < b ∨ b < a := lt_or_gt_of_ne h
  induction members with
  | nil => grind [setMember, String.lt_asymm]
  | cons e rest ih => grind [setMember, String.lt_asymm, String.lt_trans]

theorem sortMembers_swap (before : Members) {a b : String × Value} (after : Members)
    (h : a.1 ≠ b.1) :
    sortMembers (before ++ a :: b :: after) = sortMembers (before ++ b :: a :: after) := by
  simp only [sortMembers, List.foldl_append, List.foldl_cons, setMember_comm h]

end Value

/-! ### Order -/

/-- The values differ at most in the order of members, at any depth.  Members that have one name
keep their order. -/
inductive Rearranged : Value → Value → Prop
  | refl (v : Value) : Rearranged v v
  /-- Two neighbours change places. -/
  | swap (before : Members) {a b : String × Value} (after : Members) (h : a.1 ≠ b.1) :
    Rearranged (.object (before ++ a :: b :: after)) (.object (before ++ b :: a :: after))
  | item (before : List Value) {v w : Value} (after : List Value) (h : Rearranged v w) :
    Rearranged (.array (before ++ v :: after)) (.array (before ++ w :: after))
  | member (before : Members) (name : String) {v w : Value} (after : Members)
      (h : Rearranged v w) :
    Rearranged (.object (before ++ (name, v) :: after)) (.object (before ++ (name, w) :: after))
  | trans {u v w : Value} (h : Rearranged u v) (h' : Rearranged v w) : Rearranged u w

namespace Rearranged

variable {v w : Value}

/-- **Rearranged values have one canonical form.** -/
theorem canonical_eq (h : Rearranged v w) : v.canonical = w.canonical := by
  induction h with
  | refl => rfl
  | swap before after h =>
    simp only [Value.canonical, Value.canonicalMembers_eq_map, List.map_append, List.map_cons]
    exact congrArg Value.object (Value.sortMembers_swap _ _ h)
  | item before after _ ih =>
    simp only [Value.canonical, Value.canonicalItems_eq_map, List.map_append, List.map_cons, ih]
  | member before name after _ ih =>
    simp only [Value.canonical, Value.canonicalMembers_eq_map, List.map_append, List.map_cons, ih]
  | trans _ _ ih ih' => exact ih.trans ih'

theorem depth_eq (h : Rearranged v w) : v.depth = w.depth := by
  induction h with
  | refl => rfl
  | swap before after =>
    simp only [Value.depth, Value.depthMembers_append, Value.depthMembers, Nat.max_left_comm]
  | item before after _ ih =>
    simp only [Value.depth, Value.depthItems_append, Value.depthItems, ih]
  | member before name after _ ih =>
    simp only [Value.depth, Value.depthMembers_append, Value.depthMembers, ih]
  | trans _ _ ih ih' => exact ih.trans ih'

theorem isExact (h : Rearranged v w) (hv : v.IsExact) : w.IsExact := by
  induction h with
  | refl => exact hv
  | swap before after =>
    simp only [Value.IsExact, Value.exactMembers_iff, List.forall_mem_append,
      List.forall_mem_cons] at hv ⊢
    exact ⟨hv.1, hv.2.2.1, hv.2.1, hv.2.2.2⟩
  | item before after _ ih =>
    simp only [Value.IsExact, Value.exactItems_iff, List.forall_mem_append,
      List.forall_mem_cons] at hv ⊢
    exact ⟨hv.1, ih hv.2.1, hv.2.2⟩
  | member before name after _ ih =>
    simp only [Value.IsExact, Value.exactMembers_iff, List.forall_mem_append,
      List.forall_mem_cons] at hv ⊢
    exact ⟨hv.1, ih hv.2.1, hv.2.2⟩
  | trans _ _ ih ih' => exact ih' (ih hv)

/-- Members with names of their own may come in any order. -/
theorem of_perm {xs ys : Members} (h : xs.Perm ys) (hn : (xs.map Prod.fst).Nodup)
    (before : Members) : Rearranged (.object (before ++ xs)) (.object (before ++ ys)) := by
  induction h generalizing before with
  | nil => exact .refl _
  | cons e _ ih =>
    have := ih (List.nodup_cons.1 hn).2 (before ++ [e])
    rwa [List.append_assoc, List.append_assoc] at this
  | swap a b rest =>
    refine .swap before rest fun hab => ?_
    exact (List.nodup_cons.1 hn).1 (by rw [hab]; exact List.mem_cons_self)
  | trans h _ ih ih' => exact (ih hn before).trans (ih' ((h.map Prod.fst).nodup_iff.1 hn) before)

end Rearranged

/-! ### Parts -/

/-- A step from an array or an object into it. -/
inductive Step where
  | item (index : Nat)
  | member (name : String)

namespace Value

/-- The part of a value after one step.  Where a name occurs twice, it is the last that counts. -/
def part? : Step → Value → Option Value
  | .item index, .array items => items[index]?
  | .member name, .object members => member? name members.reverse
  | _, _ => none

/-- The part of a value after some steps. -/
def at? (v : Value) : List Step → Option Value
  | [] => some v
  | step :: steps => (v.part? step).bind (·.at? steps)

/-- A value without what is inside of it. -/
def outside : Value → Value
  | .array _ => .array []
  | .object _ => .object []
  | v => v

/-- At each place where one of the values has a part, the other one has a part as well: both are
arrays, or both are objects, or they are equal. -/
def SameParts (v w : Value) : Prop :=
  ∀ steps, (v.at? steps).map outside = (w.at? steps).map outside

/-- In each object of the value the names increase strictly in the order of their bytes. -/
def InByteOrder (v : Value) : Prop :=
  ∀ steps members, v.at? steps = some (.object members) →
    members.Pairwise fun a b => Text.encode a.1 < Text.encode b.1

/-! ### Members of the canonical form -/

theorem member?_cons (name x : String) (v : Value) (rest : Members) :
    member? name ((x, v) :: rest) = if name = x then some v else member? name rest :=
  lookup_cons_eq_ite name x v rest

theorem member?_append (name : String) (xs ys : Members) :
    member? name (xs ++ ys) = (member? name xs).or (member? name ys) :=
  List.lookup_append

theorem member?_map (f : Value → Value) (name : String) (members : Members) :
    member? name (members.map fun (x, v) => (x, f v)) = (member? name members).map f := by
  induction members with
  | nil => rfl
  | cons e rest ih =>
    rw [List.map_cons, member?_cons, member?_cons, ih]
    split <;> rfl

theorem member?_setMember (name x : String) (v : Value) (members : Members) :
    member? name (setMember x v members) = if name = x then some v else member? name members := by
  fun_induction setMember x v members <;> grind [member?_cons]

/-- After some members have been set, the last one of a name counts. -/
theorem member?_foldl_setMember (name : String) (members done : Members) :
    member? name (members.foldl (fun sorted (x, v) => setMember x v sorted) done) =
      (member? name members.reverse).or (member? name done) := by
  induction members generalizing done with
  | nil => rfl
  | cons e rest ih =>
    rw [List.foldl_cons, ih, member?_setMember, List.reverse_cons, member?_append, Option.or_assoc,
      member?_cons]
    split <;> rfl

theorem member?_sortMembers (name : String) (members : Members) :
    member? name (sortMembers members) = member? name members.reverse := by
  rw [sortMembers, member?_foldl_setMember]
  exact Option.or_none

/-- In sorted members the last one of a name is the only one. -/
theorem member?_reverse_sortMembers (name : String) (members : Members) :
    member? name (sortMembers members).reverse = member? name members.reverse := by
  have hsorted : sortMembers (sortMembers members) = sortMembers members :=
    sortMembers_of_increasing increasing_sortMembers
  rw [← member?_sortMembers, hsorted, member?_sortMembers]

/-! ### Parts of the canonical form -/

variable {v w : Value} {step : Step} {steps : List Step}

theorem part?_canonical (step : Step) (v : Value) :
    v.canonical.part? step = (v.part? step).map canonical := by
  cases step with
  | item index =>
    cases v <;> simp [canonical, part?, canonicalItems_eq_map]
  | member name =>
    cases v with
    | object members =>
      rw [canonical, part?, member?_reverse_sortMembers, canonicalMembers_eq_map,
        ← List.map_reverse, member?_map, part?]
    | _ => rfl

theorem at?_canonical (steps : List Step) (v : Value) :
    v.canonical.at? steps = (v.at? steps).map canonical := by
  induction steps generalizing v with
  | nil => rfl
  | cons step steps ih =>
    rw [at?, at?, part?_canonical]
    cases v.part? step with
    | none => rfl
    | some part => exact ih part

theorem outside_canonical (v : Value) : v.canonical.outside = v.outside := by
  cases v <;> rfl

/-- **A value and its canonical form have the same parts.** -/
theorem sameParts_canonical (v : Value) : v.SameParts v.canonical := by
  intro steps
  rw [at?_canonical, Option.map_map]
  exact congrArg (fun f => (v.at? steps).map f) (funext fun v => (outside_canonical v).symm)

/-! ### Order of the names -/

theorem mem_of_member? {name : String} {members : Members} (h : member? name members = some v) :
    (name, v) ∈ members := by
  obtain ⟨before, after, rfl, -⟩ := List.lookup_eq_some_iff.1 h
  exact List.mem_append_right before List.mem_cons_self

theorem IsSorted.part? (h : v.IsSorted) (hw : v.part? step = some w) : w.IsSorted := by
  cases step with
  | item index =>
    cases v with
    | array items => exact sortedItems_iff.1 h w (List.mem_of_getElem? hw)
    | _ => cases hw
  | member name =>
    cases v with
    | object members =>
      exact sortedMembers_iff.1 h.2 (name, w) (List.mem_reverse.1 (mem_of_member? hw))
    | _ => cases hw

theorem IsSorted.at? (h : v.IsSorted) (hw : v.at? steps = some w) : w.IsSorted := by
  induction steps generalizing v with
  | nil =>
    cases hw
    exact h
  | cons step steps ih =>
    obtain ⟨part, hpart, hw⟩ := Option.bind_eq_some_iff.1 hw
    exact ih (h.part? hpart) hw

theorem IsSorted.inByteOrder (h : v.IsSorted) : v.InByteOrder := by
  intro steps members hat
  have hincreasing : Increasing members := (h.at? hat).1
  exact hincreasing.imp fun hlt => Text.encode_lt_encode hlt

theorem inByteOrder_canonical (v : Value) : v.canonical.InByteOrder :=
  (isSorted_canonical v).inByteOrder

end Value

end RepairLedger.Json
