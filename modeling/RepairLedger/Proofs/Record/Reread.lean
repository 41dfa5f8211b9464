import RepairLedger.Proofs.Json.Decoding
import RepairLedger.Proofs.Time.Reread
import RepairLedger.Record.Basic

/-!
# Records survive being written

A record is read from its JSON (`Record.reads_json`), provided that the members of its statistics
are in their canonical order and its instants are regular; the rest of it may be anything.  Other
instants are read as those that have their texts (`Record.asRead`).  The JSON of a record is two
containers deep, or one deeper than its statistics (`Record.depth_json_le_iff`).
-/

namespace RepairLedger

open Json

/-! ### Instants -/

theorem Instant.json_asRead (t : Instant) : t.asRead.json = t.json :=
  congrArg Value.string t.text_asRead

theorem Instant.reads_json (t : Instant) : Instant.decoder.Reads t.json t.asRead := by
  refine .of_flat rfl fun depth => ?_
  simp only [Instant.decoder, Instant.json, Value.tree, Quoted.ofText, bind, Except.bind,
    Instant.ofText_text]

namespace PullState

/-- The instants in a state. -/
def instants (s : PullState) : List Instant :=
  s.createdAt :: (s.closedAt.toList ++ s.mergedAt.toList)

/-- Are the instants in the state regular? -/
def IsRegular (s : PullState) : Prop :=
  ∀ t ∈ s.instants, t.IsRegular

instance (s : PullState) : Decidable s.IsRegular :=
  inferInstanceAs (Decidable (∀ t ∈ s.instants, t.IsRegular))

/-- The state that the JSON of `s` is read as. -/
def asRead (s : PullState) : PullState :=
  { s with
    createdAt := s.createdAt.asRead
    closedAt := s.closedAt.map Instant.asRead
    mergedAt := s.mergedAt.map Instant.asRead }

theorem map_asRead_eq_self_iff {t? : Option Instant} :
    t?.map Instant.asRead = t? ↔ ∀ t ∈ t?.toList, t.IsRegular := by
  cases t? <;> simp [Instant.asRead_eq_self_iff]

theorem asRead_eq_self_iff {s : PullState} : s.asRead = s ↔ s.IsRegular := by
  rw [IsRegular, instants, List.forall_mem_cons, List.forall_mem_append, ← map_asRead_eq_self_iff,
    ← map_asRead_eq_self_iff, ← Instant.asRead_eq_self_iff]
  obtain ⟨url, createdAt, closedAt, mergedAt, state, isMerged, number⟩ := s
  simp [asRead]

theorem isRegular_asRead (s : PullState) : s.asRead.IsRegular := by
  rw [← asRead_eq_self_iff]
  simp [asRead, Function.comp_def]

theorem instantJson_asRead (t? : Option Instant) :
    instantJson (t?.map Instant.asRead) = instantJson t? := by
  cases t? with
  | none => rfl
  | some t => exact t.json_asRead

theorem json_asRead (s : PullState) : s.asRead.json = s.json := by
  simp only [json, asRead, Instant.json_asRead, instantJson_asRead]

theorem reads_instantJson (t? : Option Instant) :
    (Decoder.optional Instant.decoder).Reads (instantJson t?) (t?.map Instant.asRead) := by
  rw [← instantJson_asRead]
  refine .optional (by rintro _ ⟨⟩) fun t ht => ?_
  obtain ⟨t, -, rfl⟩ := Option.map_eq_some_iff.1 ht
  have hread := t.asRead.reads_json
  rwa [Instant.asRead_asRead] at hread

theorem reads_json (s : PullState) : PullState.decoder.Reads s.json s.asRead := by
  refine Fields.Hold.decoder (show Fields.Hold _ _
    (s.url, s.createdAt.asRead, s.closedAt.map Instant.asRead, s.mergedAt.map Instant.asRead,
      s.state, s.isMerged, s.number, ()) from ?_) (by decide) _ _
  exact ⟨rfl, Decoder.reads_string _, rfl, s.createdAt.reads_json, rfl,
    reads_instantJson _, rfl, reads_instantJson _, rfl, Decoder.reads_string _, rfl,
    Decoder.reads_bool _, rfl, Decoder.reads_natural _, trivial⟩

end PullState

/-! ### The other parts -/

theorem EditMoment.reads_json (m : EditMoment) : EditMoment.decoder.Reads m.json m :=
  .of_flat rfl fun _ => by cases m <;> rfl

theorem ManualEdit.reads_json (e : ManualEdit) : ManualEdit.decoder.Reads e.json e := by
  refine Fields.Hold.decoder (show Fields.Hold _ _ (e.moment, e.reason, e.diff, ()) from ?_)
    (by decide) _ _
  exact ⟨rfl, e.moment.reads_json, rfl, Decoder.reads_string _, rfl, Decoder.reads_string _,
    trivial⟩

theorem Diffs.reads_json (d : Diffs) : Diffs.decoder.Reads d.json d := by
  refine Fields.Hold.decoder (show Fields.Hold _ _ (d.initial, d.final, ()) from ?_)
    (by decide) _ _
  exact ⟨rfl, Decoder.reads_string _, rfl,
    .optional (by rintro _ ⟨⟩) fun s _ => Decoder.reads_string s, trivial⟩

/-- The times that the JSON of `t` is read as. -/
def RecordTimes.asRead (t : RecordTimes) : RecordTimes :=
  ⟨t.createdAt.asRead, t.lastModified.asRead⟩

theorem RecordTimes.reads_json (t : RecordTimes) : RecordTimes.decoder.Reads t.json t.asRead := by
  refine Fields.Hold.decoder (show Fields.Hold _ _
    (t.createdAt.asRead, t.lastModified.asRead, ()) from ?_) (by decide) _ _
  exact ⟨rfl, t.createdAt.reads_json, rfl, t.lastModified.reads_json, trivial⟩

theorem Statistics.reads_json {s : Statistics} (h : s.json.IsSorted) :
    Statistics.decoder.Reads s.json s := by
  intro depth
  have hm := Decoder.reads_members h depth
  simp only [Statistics.decoder, Statistics.json, hm]
  by_cases hd : (Value.object s.members).depth ≤ depth
  · simp only [hd, if_true, Except.map]
  · simp only [hd, if_false, Except.map]

/-! ### Whole records -/

namespace Record

/-- The instants in a record. -/
def instants (r : Record) : List Instant :=
  r.state.instants ++ [r.times.createdAt, r.times.lastModified]

/-- Are the instants in the record regular? -/
def IsRegular (r : Record) : Prop :=
  ∀ t ∈ r.instants, t.IsRegular

instance (r : Record) : Decidable r.IsRegular :=
  inferInstanceAs (Decidable (∀ t ∈ r.instants, t.IsRegular))

/-- The record that the JSON of `r` is read as. -/
def asRead (r : Record) : Record :=
  { r with state := r.state.asRead, times := r.times.asRead }

theorem isRegular_iff {r : Record} : r.IsRegular ↔
    r.state.IsRegular ∧ r.times.createdAt.IsRegular ∧ r.times.lastModified.IsRegular := by
  rw [IsRegular, instants, List.forall_mem_append, List.forall_mem_cons, List.forall_mem_singleton,
    PullState.IsRegular]

/-- **Records whose instants are regular are those that are read as themselves.** -/
theorem asRead_eq_self_iff {r : Record} : r.asRead = r ↔ r.IsRegular := by
  rw [isRegular_iff, ← PullState.asRead_eq_self_iff, ← Instant.asRead_eq_self_iff,
    ← Instant.asRead_eq_self_iff]
  obtain ⟨slug, state, statistics, diffs, edits, ⟨createdAt, lastModified⟩⟩ := r
  simp [asRead, RecordTimes.asRead]

theorem isRegular_asRead (r : Record) : r.asRead.IsRegular :=
  isRegular_iff.2 ⟨r.state.isRegular_asRead, r.times.createdAt.isRegular_asRead,
    r.times.lastModified.isRegular_asRead⟩

theorem json_asRead (r : Record) : r.asRead.json = r.json := by
  simp only [json, asRead, PullState.json_asRead, RecordTimes.json, RecordTimes.asRead,
    Instant.json_asRead]

/-- **A record is read from its JSON.** -/
theorem reads_json {r : Record} (h : r.statistics.json.IsSorted) :
    Record.decoder.Reads r.json r.asRead := by
  refine Fields.Hold.decoder (show Fields.Hold _ _
    (r.slug, r.state.asRead, r.statistics, r.diffs, r.edits, r.times.asRead, ()) from ?_)
    (by decide) _ _
  exact ⟨rfl, Decoder.reads_string _, rfl, r.state.reads_json, rfl, Statistics.reads_json h, rfl,
    r.diffs.reads_json, rfl, .list fun e _ => e.reads_json, rfl, r.times.reads_json,
    trivial⟩

end Record

/-! ### Depth and numbers -/

theorem PullState.depth_json (s : PullState) : s.json.depth = 1 := by
  obtain ⟨_, _, _ | _, _ | _, _, _, _⟩ := s <;> rfl

theorem Diffs.depth_json (d : Diffs) : d.json.depth = 1 := by
  obtain ⟨_, _ | _⟩ := d <;> rfl

theorem ManualEdit.depthItems_json_le (es : List ManualEdit) :
    Value.depthItems (es.map json) ≤ 1 := by
  induction es with
  | nil => exact Nat.zero_le 1
  | cons e es ih => exact Nat.max_le.2 ⟨Nat.le_refl 1, ih⟩

/-- The JSON of a record has room for its statistics and no less than two containers. -/
theorem Record.depth_json_le_iff {r : Record} {n : Nat} (h : 2 ≤ n) :
    r.json.depth ≤ n + 1 ↔ r.statistics.json.depth ≤ n := by
  -- Apart from the statistics there are only flat objects, and one list of them.
  have he : (Value.array (r.edits.map ManualEdit.json)).depth ≤ n :=
    Nat.le_trans (Nat.succ_le_succ (ManualEdit.depthItems_json_le r.edits)) h
  have hs : r.state.json.depth ≤ n := by rw [PullState.depth_json]; omega
  have hd : r.diffs.json.depth ≤ n := by rw [Diffs.depth_json]; omega
  have ht : r.times.json.depth ≤ n := Nat.le_trans (Nat.le_succ 1) h
  simp only [json, Value.depth, Nat.add_le_add_iff_right, Value.depthMembers, Nat.max_le,
    Nat.zero_le, true_and, and_true]
  constructor
  · intro hr
    exact hr.2.1
  · intro hr
    exact ⟨hs, hr, hd, he, ht⟩

theorem PullState.isExact_json (s : PullState) : s.json.IsExact := by
  obtain ⟨_, _, _ | _, _ | _, _, _, _⟩ := s <;>
    exact ⟨trivial, trivial, trivial, trivial, trivial, trivial, trivial, trivial⟩

theorem Diffs.isExact_json (d : Diffs) : d.json.IsExact := by
  obtain ⟨_, _ | _⟩ := d <;> exact ⟨trivial, trivial, trivial⟩

theorem ManualEdit.isExact_items_json (es : List ManualEdit) :
    (Value.array (es.map json)).IsExact := by
  refine Value.exactItems_iff.2 fun v hv => ?_
  obtain ⟨e, -, rfl⟩ := List.mem_map.1 hv
  exact ⟨trivial, trivial, trivial, trivial⟩

/-- Numbers other than integers can only stand in the statistics of a record. -/
theorem Record.isExact_json {r : Record} (h : r.statistics.json.IsExact) : r.json.IsExact :=
  ⟨trivial, r.state.isExact_json, h, r.diffs.isExact_json, ManualEdit.isExact_items_json r.edits,
    ⟨trivial, trivial, trivial⟩, trivial⟩

/-- **Whatever the statistics are, the rest of a record is read as it was written**, if anything is
read at all. -/
theorem Record.eq_of_readTree {r r' : Record} {depth : Nat}
    (h : decoder depth r.json.readTree = .ok r') :
    ∃ statistics, r' = { r.asRead with statistics := statistics } := by
  obtain ⟨inner, values, htaken, rfl⟩ := Fields.taken_of_decoder rfl (by decide) h
  obtain ⟨slug, state, statistics, diffs, edits, times, ⟨⟩⟩ := values
  obtain ⟨hslug, hstate, -, hdiffs, hedits, htimes, -⟩ := htaken
  obtain rfl := (Decoder.reads_string r.slug).eq_of_readTree trivial inner hslug
  obtain rfl := r.state.reads_json.eq_of_readTree r.state.isExact_json inner hstate
  obtain rfl := r.diffs.reads_json.eq_of_readTree r.diffs.isExact_json inner hdiffs
  have hlist : ManualEdit.decoder.list.Reads (.array (r.edits.map ManualEdit.json)) r.edits :=
    .list fun e _ => e.reads_json
  obtain rfl := hlist.eq_of_readTree (ManualEdit.isExact_items_json r.edits) inner hedits
  obtain rfl := r.times.reads_json.eq_of_readTree ⟨trivial, trivial, trivial⟩ inner htimes
  exact ⟨statistics, rfl⟩

end RepairLedger
