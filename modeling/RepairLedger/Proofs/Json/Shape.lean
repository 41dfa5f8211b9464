import RepairLedger.Json.Value

/-!
# The shape of values

Three things decide whether a value survives being written and read: how deep its containers are
nested (`Value.depth`), whether all its numbers are integers (`Value.IsExact`), and whether the
members of its objects are in their canonical order (`Value.IsSorted`).

`Value.canonical` sorts a value (`Value.isSorted_canonical`), leaves a sorted one as it is
(`Value.canonical_of_isSorted`) and makes none deeper (`Value.depth_canonical_le`).
-/

namespace RepairLedger.Json

namespace Value

/-! ### Depth -/

mutual

/-- The number of containers around the innermost part of a value. -/
def depth : Value → Nat
  | .array items => depthItems items + 1
  | .object members => depthMembers members + 1
  | _ => 0

def depthItems : List Value → Nat
  | [] => 0
  | v :: vs => max v.depth (depthItems vs)

def depthMembers : List (String × Value) → Nat
  | [] => 0
  | (_, v) :: rest => max v.depth (depthMembers rest)

end

theorem depthMembers_le_iff {members : Members} {n : Nat} :
    depthMembers members ≤ n ↔ ∀ e ∈ members, e.2.depth ≤ n := by
  induction members with
  | nil => simp [depthMembers]
  | cons e rest ih => simp only [depthMembers, Nat.max_le, ih, List.forall_mem_cons]

/-! ### Integers only -/

mutual

/-- Are all numbers in the value integers? -/
def IsExact : Value → Prop
  | .number (.real _) => False
  | .array items => ExactItems items
  | .object members => ExactMembers members
  | _ => True

def ExactItems : List Value → Prop
  | [] => True
  | v :: vs => v.IsExact ∧ ExactItems vs

def ExactMembers : List (String × Value) → Prop
  | [] => True
  | (_, v) :: rest => v.IsExact ∧ ExactMembers rest

end

theorem exactItems_iff {items : List Value} : ExactItems items ↔ ∀ v ∈ items, v.IsExact := by
  induction items with
  | nil => simp [ExactItems]
  | cons v vs ih => simp [ExactItems, ih]

theorem exactMembers_iff {members : Members} :
    ExactMembers members ↔ ∀ e ∈ members, e.2.IsExact := by
  induction members with
  | nil => simp [ExactMembers]
  | cons e rest ih => simp [ExactMembers, ih]

/-! ### Sorted objects -/

/-- Do the names of the members increase from each to the next? -/
def Increasing (members : Members) : Prop :=
  members.Pairwise fun a b => a.1 < b.1

mutual

/-- Are the members of every object in the value sorted by name, each name once? -/
def IsSorted : Value → Prop
  | .array items => SortedItems items
  | .object members => Increasing members ∧ SortedMembers members
  | _ => True

def SortedItems : List Value → Prop
  | [] => True
  | v :: vs => v.IsSorted ∧ SortedItems vs

def SortedMembers : List (String × Value) → Prop
  | [] => True
  | (_, v) :: rest => v.IsSorted ∧ SortedMembers rest

end

theorem sortedItems_iff {items : List Value} : SortedItems items ↔ ∀ v ∈ items, v.IsSorted := by
  induction items with
  | nil => simp [SortedItems]
  | cons v vs ih => simp [SortedItems, ih]

theorem sortedMembers_iff {members : Members} :
    SortedMembers members ↔ ∀ e ∈ members, e.2.IsSorted := by
  induction members with
  | nil => simp [SortedMembers]
  | cons e rest ih => simp [SortedMembers, ih]

/-! ### Setting a member -/

variable {name : String} {value : Value} {members : Members}

theorem mem_setMember {e : String × Value} (h : e ∈ setMember name value members) :
    e = (name, value) ∨ e ∈ members := by
  fun_induction setMember name value members with
  | case1 => exact .inl (List.mem_singleton.1 h)
  | case2 => exact (List.mem_cons.1 h).imp_right id
  | case3 =>
    rcases List.mem_cons.1 h with h | h
    · exact .inl h
    · exact .inr (List.mem_cons_of_mem _ h)
  | case4 x v rest _ _ ih =>
    rcases List.mem_cons.1 h with rfl | h
    · exact .inr List.mem_cons_self
    · exact (ih h).imp_right (List.mem_cons_of_mem _)

theorem increasing_setMember (h : Increasing members) :
    Increasing (setMember name value members) := by
  fun_induction setMember name value members with
  | case1 => exact List.pairwise_singleton _ _
  | case2 x v rest hlt =>
    refine List.pairwise_cons.2 ⟨fun e he => ?_, h⟩
    rcases List.mem_cons.1 he with rfl | he
    · exact hlt
    · exact String.lt_trans hlt ((List.pairwise_cons.1 h).1 e he)
  | case3 _ v rest =>
    exact List.pairwise_cons.2 (List.pairwise_cons.1 h)
  | case4 x v rest hlt hne ih =>
    obtain ⟨hx, hr⟩ := List.pairwise_cons.1 h
    refine List.pairwise_cons.2 ⟨fun e he => ?_, ih hr⟩
    rcases mem_setMember he with rfl | he
    · rcases String.le_total x name with hle | hle
      · exact Std.lt_of_le_of_ne hle (Ne.symm hne)
      · exact absurd (Std.lt_of_le_of_ne hle hne) hlt
    · exact hx e he

/-- A name that comes after all others is set at the end. -/
theorem setMember_eq_append (h : ∀ e ∈ members, e.1 < name) :
    setMember name value members = members ++ [(name, value)] := by
  induction members with
  | nil => rfl
  | cons e rest ih =>
    obtain ⟨x, v⟩ := e
    have hx : x < name := h (x, v) List.mem_cons_self
    have hne : name ≠ x := (String.ne_of_lt hx).symm
    rw [setMember, if_neg (String.lt_asymm hx), if_neg hne, List.cons_append,
      ih fun e he => h e (List.mem_cons_of_mem _ he)]

/-! ### Sorting members -/

theorem mem_foldl_setMember {done : Members} {e : String × Value}
    (h : e ∈ members.foldl (fun sorted (n, v) => setMember n v sorted) done) :
    e ∈ done ∨ e ∈ members := by
  induction members generalizing done with
  | nil => exact .inl h
  | cons x rest ih =>
    rcases ih h with h | h
    · rcases mem_setMember h with rfl | h
      · exact .inr List.mem_cons_self
      · exact .inl h
    · exact .inr (List.mem_cons_of_mem _ h)

theorem mem_of_mem_sortMembers {e : String × Value} (h : e ∈ sortMembers members) :
    e ∈ members :=
  (mem_foldl_setMember h).resolve_left List.not_mem_nil

theorem increasing_foldl_setMember {done : Members} (h : Increasing done) :
    Increasing (members.foldl (fun sorted (n, v) => setMember n v sorted) done) := by
  induction members generalizing done with
  | nil => exact h
  | cons x rest ih => exact ih (increasing_setMember h)

theorem increasing_sortMembers : Increasing (sortMembers members) :=
  increasing_foldl_setMember .nil

theorem foldl_setMember_eq_append {done : Members} (h : Increasing (done ++ members)) :
    members.foldl (fun sorted (n, v) => setMember n v sorted) done = done ++ members := by
  induction members generalizing done with
  | nil => simp
  | cons x rest ih =>
    obtain ⟨n, v⟩ := x
    have hn : ∀ e ∈ done, e.1 < n := fun e he =>
      (List.pairwise_append.1 h).2.2 e he (n, v) List.mem_cons_self
    have happ : done ++ (n, v) :: rest = (done ++ [(n, v)]) ++ rest := by simp
    rw [happ] at h ⊢
    rw [List.foldl_cons, ← ih h]
    simp only [setMember_eq_append hn]

theorem sortMembers_of_increasing (h : Increasing members) : sortMembers members = members :=
  foldl_setMember_eq_append (show Increasing ([] ++ members) from h)

/-! ### The canonical form -/

mutual

theorem canonical_of_isSorted : ∀ v : Value, v.IsSorted → v.canonical = v
  | .null, _ | .bool _, _ | .number _, _ | .string _, _ => rfl
  | .array items, h => by rw [canonical, canonicalItems_of_sorted items h]
  | .object members, h => by
    rw [canonical, canonicalMembers_of_sorted members h.2, sortMembers_of_increasing h.1]

theorem canonicalItems_of_sorted : ∀ items, SortedItems items → canonicalItems items = items
  | [], _ => rfl
  | v :: vs, h => by
    rw [canonicalItems, canonical_of_isSorted v h.1, canonicalItems_of_sorted vs h.2]

theorem canonicalMembers_of_sorted :
    ∀ members, SortedMembers members → canonicalMembers members = members
  | [], _ => rfl
  | (n, v) :: rest, h => by
    rw [canonicalMembers, canonical_of_isSorted v h.1, canonicalMembers_of_sorted rest h.2]

end

mutual

theorem isSorted_canonical : ∀ v : Value, v.canonical.IsSorted
  | .null | .bool _ | .number _ | .string _ => trivial
  | .array items => sortedItems_canonicalItems items
  | .object members =>
    ⟨increasing_sortMembers, sortedMembers_iff.2 fun e he =>
      sortedMembers_iff.1 (sortedMembers_canonicalMembers members) e (mem_of_mem_sortMembers he)⟩

theorem sortedItems_canonicalItems : ∀ items, SortedItems (canonicalItems items)
  | [] => trivial
  | v :: vs => ⟨isSorted_canonical v, sortedItems_canonicalItems vs⟩

theorem sortedMembers_canonicalMembers : ∀ members, SortedMembers (canonicalMembers members)
  | [] => trivial
  | (_, v) :: rest => ⟨isSorted_canonical v, sortedMembers_canonicalMembers rest⟩

end

mutual

theorem depth_canonical_le : ∀ v : Value, v.canonical.depth ≤ v.depth
  | .null | .bool _ | .number _ | .string _ => Nat.le_refl _
  | .array items => Nat.succ_le_succ (depthItems_canonicalItems_le items)
  | .object members => Nat.succ_le_succ <| depthMembers_le_iff.2 fun e he =>
    depthMembers_le_iff.1 (depthMembers_canonicalMembers_le members) e (mem_of_mem_sortMembers he)

theorem depthItems_canonicalItems_le : ∀ items, depthItems (canonicalItems items) ≤ depthItems items
  | [] => Nat.le_refl _
  | v :: vs => by
    have := depth_canonical_le v
    have := depthItems_canonicalItems_le vs
    simp only [canonicalItems, depthItems]
    omega

theorem depthMembers_canonicalMembers_le :
    ∀ members, depthMembers (canonicalMembers members) ≤ depthMembers members
  | [] => Nat.le_refl _
  | (_, v) :: rest => by
    have := depth_canonical_le v
    have := depthMembers_canonicalMembers_le rest
    simp only [canonicalMembers, depthMembers]
    omega

end

end Value

end RepairLedger.Json
