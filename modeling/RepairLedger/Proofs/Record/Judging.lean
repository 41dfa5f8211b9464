import Mathlib.Data.List.Forall2
import RepairLedger.Ledger.Error
import RepairLedger.Proofs.Json.Decoding
import RepairLedger.Proofs.Result
import RepairLedger.Proofs.Text.Spelling
import RepairLedger.Record.Statistics

/-!
# Which statistics are accepted

The reader of statistics goes from one look-up to the next and stops at the first thing that is
wrong.  What it accepts can be said without it: the empty object, and an object whose list of
repairs describes one repair with each element (`Statistics.Payload`).  Whatever else it is given it
refuses, and if there is a list, the refusal names the first element that describes none, and of
that element the first demand that it does not meet (`Statistics.Offends`).

Each function has one lemma that says what it can give: `repair_cases` for an element,
`repairsFrom_cases` for a list and `ofValue_cases` for a payload.
-/

namespace RepairLedger.Statistics

open Json

/-! ### Elements -/

/-- The value names a rule: it is a natural number of 64 bits, or a text that is a numeral of one,
but for the blanks around it. -/
inductive NamesRule : Value → UInt64 → Prop
  | number (n : UInt64) : NamesRule (.ofUInt64 n) n
  | text {s : String} {numeral : List Char} {n : UInt64} (hs : Text.Strips s.toList numeral)
      (hn : Numeral.Spells numeral n.toNat) : NamesRule (.string s) n

/-- The member of this name, if the value is an object that has one. -/
def field? (name : String) : Value → Option Value
  | .object members => Value.member? name members
  | _ => none

/-- The element is an object with the rule and the two counts of the repair. -/
structure Describes (item : Value) (r : Repair) : Prop where
  object : ∃ members, item = .object members
  rule : ∃ v, field? ruleName item = some v ∧ NamesRule v r.rule
  before : field? beforeName item = some (.ofUInt64 r.before)
  after : field? afterName item = some (.ofUInt64 r.after)

/-- What is asked of an element. -/
inductive Demand where
  | object
  | rule
  | before
  | after
deriving DecidableEq, Repr

namespace Demand

/-- The place in the order in which the demands are made. -/
def rank : Demand → Nat
  | object => 0
  | rule => 1
  | before => 2
  | after => 3

/-- Does the element meet the demand? -/
def IsMet (item : Value) : Demand → Prop
  | object => ∃ members, item = .object members
  | rule => ∃ v n, field? ruleName item = some v ∧ NamesRule v n
  | before => ∃ n, field? beforeName item = some (.ofUInt64 n)
  | after => ∃ n, field? afterName item = some (.ofUInt64 n)

/-- The element does not meet the demand, but all that are made before it. -/
def FirstUnmet (item : Value) (d : Demand) : Prop :=
  ¬ d.IsMet item ∧ ∀ e : Demand, e.rank < d.rank → e.IsMet item

/-- The flaw of an element that does not meet the demand. -/
def flaw (index : Nat) : Demand → Flaw
  | object => .repairNotObject index
  | rule => .badRule index
  | before => .badCount index beforeName
  | after => .badCount index afterName

/-- What is said of an element that does not meet the demand. -/
def complaint : Demand → String
  | object => " must be an object"
  | rule => ".ruleKey must be a numeric rule id"
  | before => ".nbViolationsBefore must be a non-negative integer"
  | after => ".nbViolationsAfter must be a non-negative integer"

theorem message_flaw (index : Nat) (d : Demand) :
    (d.flaw index).message = "repairs[" ++ Numeral.textOf index ++ "]" ++ d.complaint := by
  apply String.toList_inj.1
  cases d <;>
    simp [flaw, Flaw.message, complaint, repairsName, ruleName, beforeName, afterName, toString]

end Demand

theorem toUInt64?_eq_some_iff {i : Integer} {n : UInt64} :
    i.toUInt64? = some n ↔ i = .ofUInt64 n := by
  constructor
  · obtain ⟨value, inRange⟩ := i
    intro h
    unfold Integer.toUInt64? at h
    split at h
    · rename_i hpos
      obtain rfl := Option.some.inj h
      have hlt : value.toNat < UInt64.size := by
        have : (UInt64.size : Int) = 18446744073709551616 := rfl
        omega
      rw [Integer.ofUInt64, Integer.mk.injEq]
      show value = ((UInt64.ofNat value.toNat).toNat : Int)
      rw [UInt64.toNat_ofNat_of_lt' hlt]
      exact (Int.toNat_of_nonneg hpos).symm
    · cases h
  · rintro rfl
    exact Decoder.toUInt64?_ofUInt64 n

theorem natural?_eq_some_iff {v : Value} {n : UInt64} : natural? v = some n ↔ v = .ofUInt64 n := by
  unfold natural?
  split
  · rw [toUInt64?_eq_some_iff, Value.ofUInt64, Value.number.injEq, Number.integer.injEq]
  · rename_i hnot
    simp only [reduceCtorEq, false_iff]
    exact hnot _

theorem rule?_eq_some_iff {v : Value} {n : UInt64} : rule? v = some n ↔ NamesRule v n := by
  constructor
  · intro h
    unfold rule? at h
    split at h
    · rename_i s
      exact .text (Text.strips_trim s.toList) (Numeral.read?_eq_some_iff.1 h)
    · obtain rfl := natural?_eq_some_iff.1 h
      exact .number n
  · intro h
    cases h with
    | number => exact natural?_eq_some_iff.2 rfl
    | text hs hn =>
      rw [rule?, hs.trim_eq]
      exact Numeral.read?_eq_some_iff.2 hn

variable {item : Value} {r : Repair}

/-- An element that describes a repair meets all demands. -/
theorem Describes.isMet (h : Describes item r) : ∀ d : Demand, d.IsMet item
  | .object => h.object
  | .rule => let ⟨v, hv, hn⟩ := h.rule; ⟨v, _, hv, hn⟩
  | .before => ⟨_, h.before⟩
  | .after => ⟨_, h.after⟩

/-- An object does not meet the demand, but it names a rule and has the first count where these are
asked for before. -/
theorem Demand.firstUnmet_object {members : Members} {d : Demand}
    (h : ¬ d.IsMet (.object members)) (hrule : rule.rank < d.rank → rule.IsMet (.object members))
    (hbefore : before.rank < d.rank → before.IsMet (.object members)) :
    d.FirstUnmet (.object members) := by
  refine ⟨h, fun e he => ?_⟩
  cases e with
  | object => exact ⟨members, rfl⟩
  | rule => exact hrule he
  | before => exact hbefore he
  | after => cases d <;> exact absurd he (by decide)

/-- What the rule of an object is read as, if it names one. -/
theorem rule_cases (members : Members) :
    (∃ n, (Value.member? ruleName members).bind rule? = some n ∧
      ∃ v, field? ruleName (.object members) = some v ∧ NamesRule v n) ∨
      (Value.member? ruleName members).bind rule? = none ∧
        ¬ Demand.rule.IsMet (.object members) := by
  have hiff : ∀ n, (Value.member? ruleName members).bind rule? = some n ↔
      ∃ v, field? ruleName (.object members) = some v ∧ NamesRule v n := by
    intro n
    simp [Option.bind_eq_some_iff, rule?_eq_some_iff, field?]
  cases hr : (Value.member? ruleName members).bind rule? with
  | some n => exact .inl ⟨n, rfl, (hiff n).1 hr⟩
  | none =>
    refine .inr ⟨rfl, fun ⟨v, n, hv, hn⟩ => ?_⟩
    rw [(hiff n).2 ⟨v, hv, hn⟩] at hr
    cases hr

/-- What a count is read as, if there is one. -/
theorem count_cases (index : Nat) (name : String) (members : Members) :
    (∃ n, count index name members = .ok n ∧
      Value.member? name members = some (.ofUInt64 n)) ∨
      count index name members = .error (.badCount index name) ∧
        ¬ ∃ n, Value.member? name members = some (.ofUInt64 n) := by
  have hiff : ∀ n, (Value.member? name members).bind natural? = some n ↔
      Value.member? name members = some (.ofUInt64 n) := by
    intro n
    simp [Option.bind_eq_some_iff, natural?_eq_some_iff]
  unfold count
  split
  · rename_i n hn
    exact .inl ⟨n, rfl, (hiff n).1 hn⟩
  · rename_i hnone
    refine .inr ⟨rfl, fun ⟨n, hn⟩ => ?_⟩
    rw [(hiff n).2 hn] at hnone
    cases hnone

/-- **What is read of an element** is the repair that it describes, or else the first demand that it
does not meet is missed. -/
theorem repair_cases (index : Nat) (item : Value) :
    (∃ r, repair index item = .ok r ∧ Describes item r) ∨
      ∃ d : Demand, repair index item = .error (d.flaw index) ∧ d.FirstUnmet item := by
  by_cases hobject : ∃ members, item = .object members
  · obtain ⟨members, rfl⟩ := hobject
    -- Inside of an object the demands come in the order in which the parts are read.
    obtain ⟨n, hr, hrule⟩ | ⟨hr, hrule⟩ := rule_cases members
    · have hrule' : Demand.rule.IsMet (.object members) := let ⟨v, hv, hn⟩ := hrule; ⟨v, n, hv, hn⟩
      obtain ⟨b, hb, hbefore⟩ | ⟨hb, hbefore⟩ := count_cases index beforeName members
      · obtain ⟨a, ha, hafter⟩ | ⟨ha, hafter⟩ := count_cases index afterName members
        · refine .inl ⟨⟨n, b, a⟩, ?_, ⟨members, rfl⟩, hrule, hbefore, hafter⟩
          simp only [repair, hr, hb, ha]
          rfl
        · refine .inr ⟨.after, ?_,
            Demand.firstUnmet_object hafter (fun _ => hrule') (fun _ => ⟨b, hbefore⟩)⟩
          simp only [repair, hr, hb, ha]
          rfl
      · refine .inr ⟨.before, ?_, Demand.firstUnmet_object hbefore (fun _ => hrule')
          (fun he => absurd he (by decide))⟩
        simp only [repair, hr, hb]
        rfl
    · refine .inr ⟨.rule, ?_, Demand.firstUnmet_object hrule (fun he => absurd he (by decide))
        (fun he => absurd he (by decide))⟩
      simp only [repair, hr]
      rfl
  · refine .inr ⟨.object, ?_, hobject, fun e he => absurd he (Nat.not_lt_zero _)⟩
    unfold repair
    split
    · exact absurd ⟨_, rfl⟩ hobject
    · rfl

/-! ### Lists of elements -/

/-- The element at the index is the first of the list that describes no repair, and this is the
first demand that it does not meet. -/
structure Offends (items : List Value) (index : Nat) (d : Demand) : Prop where
  earlier : ∀ j < index, ∀ item, items[j]? = some item → ∃ r, Describes item r
  unmet : ∃ item, items[index]? = some item ∧ d.FirstUnmet item

/-- **What is read of a list** is one repair for each element, in their order, or else the flaw of
the first element that describes none. -/
theorem repairsFrom_cases (start : Nat) (items : List Value) :
    (∃ rs, repairsFrom start items = .ok rs ∧ List.Forall₂ Describes items rs) ∨
      ∃ index d, repairsFrom start items = .error (Demand.flaw (start + index) d) ∧
        Offends items index d := by
  induction items generalizing start with
  | nil => exact .inl ⟨[], rfl, .nil⟩
  | cons item items ih =>
    obtain ⟨r, hr, hdescribes⟩ | ⟨d, hd, hunmet⟩ := repair_cases start item
    · obtain ⟨rs, hrs, hall⟩ | ⟨index, d, herror, hoffends⟩ := ih (start + 1)
      · refine .inl ⟨r :: rs, ?_, .cons hdescribes hall⟩
        simp only [repairsFrom, hr, hrs]
        rfl
      · refine .inr ⟨index + 1, d, ?_, fun j hj x hx => ?_, hoffends.unmet⟩
        · rw [Nat.add_assoc, Nat.add_comm 1] at herror
          simp only [repairsFrom, hr, herror]
          rfl
        · cases j with
          | zero => exact ⟨r, Option.some.inj hx ▸ hdescribes⟩
          | succ j => exact hoffends.earlier j (Nat.lt_of_succ_lt_succ hj) x hx
    · refine .inr ⟨0, d, ?_, fun j hj => absurd hj (Nat.not_lt_zero j), item, rfl, hunmet⟩
      simp only [repairsFrom, hd]
      rfl

/-- Where each element describes a repair, none offends. -/
theorem Offends.not_forall₂ {items : List Value} {index : Nat} {d : Demand}
    (h : Offends items index d) (rs : List Repair) : ¬ List.Forall₂ Describes items rs := by
  intro hall
  obtain ⟨item, hitem, hnot, -⟩ := h.unmet
  obtain ⟨hlt, rfl⟩ := List.getElem?_eq_some_iff.1 hitem
  exact hnot ((hall.get hlt (hall.length_eq ▸ hlt)).isMet d)

/-! ### Payloads -/

/-- The value is a payload with these repairs: the empty object, or an object whose list of repairs
describes them one by one. -/
def Payload (v : Value) (rs : List Repair) : Prop :=
  (v = .object [] ∧ rs = []) ∨
    ∃ items, field? repairsName v = some (.array items) ∧ List.Forall₂ Describes items rs

/-- What is wrong with a value that is no payload. -/
inductive Refuses (v : Value) : Flaw → Prop
  | notObject (h : ∀ members, v ≠ .object members) : Refuses v .notObject
  | noRepairs {members : Members} (hv : v = .object members) (hne : members ≠ [])
      (h : field? repairsName v = none) : Refuses v .noRepairs
  | notArray {w : Value} (hw : field? repairsName v = some w) (h : ∀ items, w ≠ .array items) :
      Refuses v .repairsNotArray
  | item {items : List Value} {index : Nat} {d : Demand}
      (hitems : field? repairsName v = some (.array items)) (h : Offends items index d) :
      Refuses v (d.flaw index)

/-- A refusal of a payload with a list names an element of it. -/
theorem Refuses.exists_offends {v : Value} {flaw : Flaw} (h : Refuses v flaw) {items : List Value}
    (hitems : field? repairsName v = some (.array items)) :
    ∃ index d, Offends items index d ∧ flaw = Demand.flaw index d := by
  cases h with
  | notObject h =>
    cases v with
    | object members => exact absurd rfl (h members)
    | _ => cases hitems
  | noRepairs _ _ h => rw [h] at hitems; cases hitems
  | notArray hw h =>
    rw [hw] at hitems
    exact absurd (Option.some.inj hitems) (h items)
  | item hitems' h =>
    rw [hitems'] at hitems
    obtain rfl := Value.array.inj (Option.some.inj hitems)
    exact ⟨_, _, h, rfl⟩

/-- What is refused is no payload. -/
theorem Refuses.not_payload {v : Value} {flaw : Flaw} (h : Refuses v flaw) (rs : List Repair) :
    ¬ Payload v rs := by
  rintro (⟨rfl, -⟩ | ⟨items, hitems, hall⟩)
  · -- The empty object has no members at all.
    cases h with
    | notObject h => exact h [] rfl
    | noRepairs hv hne => exact hne (Value.object.inj hv).symm
    | notArray hw => cases hw
    | item hitems => cases hitems
  · obtain ⟨index, d, hoffends, -⟩ := h.exists_offends hitems
    exact hoffends.not_forall₂ rs hall

/-- To judge an object with members is to read its repairs, which must be there. -/
theorem ofValue_object {members : Members} (hne : members ≠ []) :
    ofValue (.object members) = match field? repairsName (.object members) with
      | none => .error .noRepairs
      | some _ => (repairs ⟨members⟩).map fun _ => ⟨members⟩ := by
  rw [ofValue.eq_def]
  split
  · rename_i h
    exact absurd (Value.object.inj h) hne
  · rename_i h
    cases h
    rfl
  · rename_i h
    exact absurd rfl (h members)

/-- What is read of the repairs, if there is something that should list them. -/
theorem repairs_cases {members : Members} {w : Value}
    (hw : field? repairsName (.object members) = some w) :
    (∃ rs, repairs ⟨members⟩ = .ok rs ∧ Payload (.object members) rs) ∨
      ∃ flaw, repairs ⟨members⟩ = .error flaw ∧ Refuses (.object members) flaw := by
  have hmember : Value.member? repairsName members = some w := hw
  unfold repairs
  rw [hmember]
  by_cases harray : ∃ items, w = .array items
  · obtain ⟨items, rfl⟩ := harray
    obtain ⟨rs, hrs, hall⟩ | ⟨index, d, herror, hoffends⟩ := repairsFrom_cases 0 items
    · exact .inl ⟨rs, hrs, .inr ⟨items, hw, hall⟩⟩
    · rw [Nat.zero_add] at herror
      exact .inr ⟨_, herror, .item hw hoffends⟩
  · have hnot : ∀ items, w ≠ .array items := fun items h => harray ⟨items, h⟩
    refine .inr ⟨.repairsNotArray, ?_, .notArray hw hnot⟩
    cases w with
    | array items => exact absurd rfl (hnot items)
    | _ => rfl

/-- If there is something that should list the repairs, it is a list, and each element of it
describes one. -/
def IsWellFormed (s : Statistics) : Prop :=
  ∀ w, field? repairsName s.json = some w →
    ∃ items rs, w = .array items ∧ List.Forall₂ Describes items rs

/-- The repairs can be read just if the statistics are well formed. -/
theorem exists_repairs_iff {s : Statistics} : (∃ rs, s.repairs = .ok rs) ↔ s.IsWellFormed := by
  obtain ⟨members⟩ := s
  cases hw : field? repairsName (.object members) with
  | none =>
    have hmember : Value.member? repairsName members = none := hw
    refine iff_of_true ⟨[], by rw [repairs, hmember]⟩ fun w h => ?_
    rw [show field? repairsName (json ⟨members⟩) = none from hw] at h
    cases h
  | some w =>
    obtain ⟨rs, hrs, hpayload⟩ | ⟨flaw, herror, hrefuses⟩ := repairs_cases hw
    · refine iff_of_true ⟨rs, hrs⟩ fun w' hw' => ?_
      rcases hpayload with ⟨hempty, -⟩ | ⟨items, hitems, hall⟩
      · rw [hempty] at hw
        cases hw
      · exact ⟨items, rs, Option.some.inj (hw'.symm.trans hitems), hall⟩
    · refine iff_of_false ?_ fun h => ?_
      · rintro ⟨rs, hrs⟩
        cases herror.symm.trans hrs
      · obtain ⟨items, rs, rfl, hall⟩ := h w hw
        exact hrefuses.not_payload rs (.inr ⟨items, hw, hall⟩)

/-- **What is made of a value**: statistics that hold the value itself and the repairs of the
payload that it is, or a refusal. -/
theorem ofValue_cases (v : Value) :
    (∃ s rs, ofValue v = .ok s ∧ s.json = v ∧ s.repairs = .ok rs ∧ Payload v rs) ∨
      ∃ flaw, ofValue v = .error flaw ∧ Refuses v flaw := by
  cases v with
  | object members =>
    by_cases hne : members = []
    · subst hne
      exact .inl ⟨empty, [], rfl, rfl, rfl, .inl ⟨rfl, rfl⟩⟩
    have hjudge := ofValue_object hne
    cases hw : field? repairsName (.object members) with
    | none =>
      rw [hw] at hjudge
      exact .inr ⟨_, hjudge, .noRepairs rfl hne hw⟩
    | some w =>
      rw [hw] at hjudge
      obtain ⟨rs, hrs, hpayload⟩ | ⟨flaw, herror, hrefuses⟩ := repairs_cases hw
      · refine .inl ⟨⟨members⟩, rs, ?_, rfl, hrs, hpayload⟩
        rw [hjudge, hrs]
        rfl
      · refine .inr ⟨flaw, ?_, hrefuses⟩
        rw [hjudge, herror]
        rfl
  | _ => exact .inr ⟨_, rfl, .notObject (by rintro _ ⟨⟩)⟩

/-- **Statistics are judged by their shape alone.**  A value is accepted exactly if it is a payload:
the empty object, or an object whose list of repairs describes them one by one.  What is accepted is
kept as it is, and its repairs are those of the payload, in their order.  Everything else is refused
as malformed; and if there is a list of repairs, the refusal names the first element of it that
describes none, with the first thing that is wrong with that element. -/
theorem judging_exact (v : Value) :
    ((∃ s, ofValue v = .ok s) ↔ ∃ rs, Payload v rs) ∧
    (∀ s, ofValue v = .ok s → s.json = v ∧ ∃ rs, s.repairs = .ok rs ∧ Payload v rs) ∧
    ((¬ ∃ rs, Payload v rs) → ∃ reason,
      (ofValue v).mapError (fun flaw => LedgerError.malformedStatistics flaw.message) =
        .error (.malformedStatistics reason) ∧
      ∀ items, field? repairsName v = some (.array items) → ∃ index d, Offends items index d ∧
        reason = "repairs[" ++ Numeral.textOf index ++ "]" ++ d.complaint) := by
  obtain ⟨s, rs, hs, hv, hrs, hpayload⟩ | ⟨flaw, herror, hrefuses⟩ := ofValue_cases v
  · refine ⟨⟨fun _ => ⟨rs, hpayload⟩, fun _ => ⟨s, hs⟩⟩, fun s' hs' => ?_,
      fun hnone => absurd ⟨rs, hpayload⟩ hnone⟩
    obtain rfl := Except.ok.inj (hs.symm.trans hs')
    exact ⟨hv, rs, hrs, hpayload⟩
  · refine ⟨⟨fun ⟨s, hs⟩ => ?_, fun ⟨rs, hrs⟩ => absurd hrs (hrefuses.not_payload rs)⟩,
      fun s hs => ?_, fun _ => ⟨flaw.message, by rw [herror]; rfl, fun items hitems => ?_⟩⟩
    · cases herror.symm.trans hs
    · cases herror.symm.trans hs
    · obtain ⟨index, d, hoffends, rfl⟩ := hrefuses.exists_offends hitems
      exact ⟨index, d, hoffends, Demand.message_flaw index d⟩

/-- A rule given by a text with blanks, a sign and zeros, and more violations afterwards; and,
behind such an element, one with a negative count and without the other one. -/
theorem judging_exact_negative :
    let good : Value := .object [("nbViolationsAfter", .ofUInt64 5),
      ("nbViolationsBefore", .ofUInt64 3), ("ruleKey", .string "\u3000+0117\n")]
    let bad : Value := .object [("nbViolationsBefore", .number (.integer ⟨-1, by decide⟩)),
      ("ruleKey", .ofUInt64 18446744073709551615)]
    let items : List Value := [good, bad, .null]
    (∃ rs, Statistics.repairs ⟨[("repairs", .array [good])]⟩ = .ok rs ∧
      Payload (.object [("repairs", .array [good])]) rs) ∧
    ∃ index d, Offends items index d ∧
      "repairs[1].nbViolationsBefore must be a non-negative integer" =
        "repairs[" ++ Numeral.textOf index ++ "]" ++ d.complaint := by
  intro good bad items
  obtain ⟨-, haccepted, -⟩ := judging_exact (.object [("repairs", .array [good])])
  obtain ⟨hiff, -, hrefused⟩ := judging_exact (.object [("more", .null), ("repairs", .array items)])
  set refused : Value := .object [("more", .null), ("repairs", .array items)]
  have herror : ofValue refused = .error (.badCount 1 beforeName) := by
    rfl
  have hnone : ¬ ∃ rs, Payload refused rs := by
    rw [← hiff, herror]
    rintro ⟨s, ⟨⟩⟩
  obtain ⟨reason, hreason, hnames⟩ := hrefused hnone
  obtain ⟨index, d, hoffends, hsays⟩ := hnames items rfl
  refine ⟨(haccepted ⟨[("repairs", .array [good])]⟩ (eq_ok_of_toOption (by decide +kernel))).2,
    index, d, hoffends, ?_⟩
  rw [herror] at hreason
  rw [← hsays, ← LedgerError.malformedStatistics.inj (Except.error.inj hreason)]
  decide +kernel

end RepairLedger.Statistics
