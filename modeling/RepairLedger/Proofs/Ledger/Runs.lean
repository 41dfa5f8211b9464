import RepairLedger.Ledger.Lifecycle
import RepairLedger.Proofs.Ledger.Lookup

/-!
# Runs of operations

A `Call` is one operation on one pull request at one time.  A ledger performs a call by making the
new record (`Ledger.perform`) and entering it; a call that is refused changes nothing
(`Ledger.after`).  A run performs calls one after the other (`Ledger.run`), and of these calls some
are accepted (`Ledger.accepted`).

What one call can do is said once, in `Ledger.perform_cases`; everything about runs follows from it.
-/

namespace RepairLedger

/-- What is done to a record. -/
inductive Action where
  | create (capture : InitialCapture)
  | finalize (capture : FinalCapture)
  | annotate (edit : ManualEdit)
deriving DecidableEq

/-- The operation that an action belongs to. -/
def Action.operation : Action → Operation
  | create _ => .createInitial
  | finalize _ => .finalize
  | annotate _ => .addManualEdit

/-- An operation on a pull request, and the time that the clock shows. -/
structure Call where
  id : PullId
  action : Action
  now : Instant
deriving DecidableEq

namespace Ledger

/-- The record that a call makes, unless it is refused. -/
def perform (l : Ledger) (c : Call) : Except LedgerError Record :=
  match c.action with
  | .create capture => l.createInitial c.id capture c.now
  | .finalize capture => l.finalize c.id capture c.now
  | .annotate edit => l.appendEdit c.id edit c.now

/-- The ledger after a call. -/
def after (l : Ledger) (c : Call) : Ledger :=
  match l.perform c with
  | .ok record => l.upsert c.id record
  | .error _ => l

/-- The ledger after some calls. -/
def run (l : Ledger) (calls : List Call) : Ledger :=
  calls.foldl after l

/-- The calls that are not refused, in their order. -/
def accepted (l : Ledger) : List Call → List Call
  | [] => []
  | c :: calls =>
    match l.perform c with
    | .ok _ => c :: (l.after c).accepted calls
    | .error _ => (l.after c).accepted calls

variable {l : Ledger} {c : Call} {r : Record}

theorem createInitial_eq_ok {id : PullId} {capture : InitialCapture} {now : Instant} :
    l.createInitial id capture now = .ok r ↔
      l.get? id = none ∧
        r = .begin id.slug capture.state capture.statistics capture.diff now := by
  cases h : l.contains id
  · simp only [createInitial, Operation.check, h, contains_eq_false_iff.1 h, true_and]
    exact ⟨fun he => (Except.ok.inj he).symm, fun he => congrArg Except.ok he.symm⟩
  · obtain ⟨q, hq⟩ := contains_iff.1 h
    simp [createInitial, Operation.check, h, hq, bind, Except.bind]

theorem finalize_eq_ok {id : PullId} {capture : FinalCapture} {now : Instant} :
    l.finalize id capture now = .ok r ↔
      ∃ q, l.get? id = some q ∧ r = q.finish capture.state capture.diff now := by
  unfold finalize
  cases l.get? id with
  | none => simp
  | some q => simp [eq_comm]

theorem appendEdit_eq_ok {id : PullId} {edit : ManualEdit} {now : Instant} :
    l.appendEdit id edit now = .ok r ↔
      ∃ q, l.get? id = some q ∧ Text.isBlankText edit.reason = false ∧ r = q.annotate edit now := by
  unfold appendEdit
  cases l.get? id with
  | none => simp
  | some q => cases Text.isBlankText edit.reason <;> simp [eq_comm]

/-- What an accepted call does: it begins a record where there is none, or finishes or annotates one
that is there. -/
theorem perform_cases (h : l.perform c = .ok r) :
    (∃ capture, c.action = .create capture ∧ l.get? c.id = none ∧
      r = .begin c.id.slug capture.state capture.statistics capture.diff c.now) ∨
    (∃ capture q, c.action = .finalize capture ∧ l.get? c.id = some q ∧
      r = q.finish capture.state capture.diff c.now) ∨
    (∃ edit q, c.action = .annotate edit ∧ l.get? c.id = some q ∧ r = q.annotate edit c.now) := by
  unfold perform at h
  split at h
  · rename_i capture ha
    exact .inl ⟨capture, ha, createInitial_eq_ok.1 h⟩
  · rename_i capture ha
    obtain ⟨q, hq, hr⟩ := finalize_eq_ok.1 h
    exact .inr (.inl ⟨capture, q, ha, hq, hr⟩)
  · rename_i edit ha
    obtain ⟨q, hq, -, hr⟩ := appendEdit_eq_ok.1 h
    exact .inr (.inr ⟨edit, q, ha, hq, hr⟩)

/-! ### One call after the other -/

theorem after_of_ok (h : l.perform c = .ok r) : l.after c = l.upsert c.id r := by
  rw [after, h]

theorem after_of_error {e : LedgerError} (h : l.perform c = .error e) : l.after c = l := by
  rw [after, h]

theorem accepted_of_ok (h : l.perform c = .ok r) (calls : List Call) :
    l.accepted (c :: calls) = c :: (l.after c).accepted calls := by
  rw [accepted, h]

theorem accepted_of_error {e : LedgerError} (h : l.perform c = .error e) (calls : List Call) :
    l.accepted (c :: calls) = (l.after c).accepted calls := by
  rw [accepted, h]

theorem run_cons (calls : List Call) : l.run (c :: calls) = (l.after c).run calls := rfl

/-- A call on another pull request leaves a record alone. -/
theorem get?_after_of_ne {k : PullId} (hk : k ≠ c.id) : (l.after c).get? k = l.get? k := by
  cases h : l.perform c with
  | ok r => rw [after_of_ok h, get?_upsert_of_ne hk]
  | error e => rw [after_of_error h]

end Ledger

end RepairLedger
