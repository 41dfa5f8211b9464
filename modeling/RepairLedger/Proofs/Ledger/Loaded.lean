import RepairLedger.Proofs.Json.Decoded
import RepairLedger.Proofs.Ledger.RoundTrip
import RepairLedger.Proofs.Text.Utf8

/-!
# Ledgers that have been read

Whatever a ledger was read from, it is fit to be written again and to be read then
(`Ledger.readable_of_ofSymbols`): the instants in it are regular, and the statistics are not nested
too deep.  One more record of regular instants keeps it so unless its statistics are: statistics
alone may be two containers deeper than statistics in a ledger (`Ledger.ofBytes_upsert`).
-/

namespace RepairLedger

open Json

/-! ### Statistics -/

namespace Statistics

variable {s : Statistics}

theorem isSorted_json_empty : empty.json.IsSorted :=
  ⟨.nil, trivial⟩

/-- Statistics are judged and not changed. -/
theorem json_of_ofValue {v : Value} (h : ofValue v = .ok s) : s.json = v := by
  unfold ofValue at h
  split at h
  · cases h
    rfl
  · split at h
    · cases h
    · obtain ⟨_, -, rfl⟩ := map_eq_ok.1 h
      rfl
  · cases h

theorem shape_of_decoder {depth : Nat} {tree : Tree} (h : decoder depth tree = .ok s) :
    s.json.IsSorted ∧ s.json.depth ≤ depth := by
  obtain ⟨members, hm, rfl⟩ := map_eq_ok.1 h
  exact Decoder.members_ok hm

end Statistics

/-- The statistics of a record that is read are in canonical form, and less deep than the record. -/
theorem Record.statistics_of_decoder {depth : Nat} {tree : Tree} {r : Record} (hd : 0 < depth)
    (h : decoder (depth + 1) tree = .ok r) :
    r.statistics.json.IsSorted ∧ r.statistics.json.depth ≤ depth := by
  obtain ⟨inner, values, hinner, hmade, rfl⟩ := Fields.made_of_decoder h
  obtain rfl : depth = inner := Nat.succ.inj hinner
  obtain ⟨slug, state, statistics, diffs, edits, times, ⟨⟩⟩ := values
  obtain ⟨-, -, hs, -⟩ := hmade
  have hempty : Statistics.empty.json.IsSorted ∧ Statistics.empty.json.depth ≤ depth :=
    ⟨Statistics.isSorted_json_empty, hd⟩
  rcases hs with ⟨tree, hs⟩ | hs | hs
  · exact Statistics.shape_of_decoder hs
  · obtain rfl : Statistics.empty = statistics := Option.some.inj hs
    exact hempty
  · obtain rfl : Statistics.empty = statistics := Option.some.inj hs
    exact hempty

/-! ### Instants -/

theorem Instant.yields_decoder : Instant.decoder.Yields Instant.IsRegular := by
  intro depth tree t h
  unfold Instant.decoder at h
  split at h
  · obtain ⟨content, -, h⟩ := bind_eq_ok.1 h
    split at h
    · rename_i hread
      cases h
      exact Instant.isRegular_of_ofText hread
    · cases h
  · cases h

theorem PullState.yields_decoder : PullState.decoder.Yields PullState.IsRegular := by
  intro depth tree s h
  obtain ⟨inner, values, -, hmade, rfl⟩ := Fields.made_of_decoder h
  obtain ⟨_, createdAt, closedAt, mergedAt, _, _, _, ⟨⟩⟩ := values
  have hcreated := hmade.2.head (.required Instant.yields_decoder _)
  have hclosed := hmade.2.2.head (.nullable Instant.yields_decoder _)
  have hmerged := hmade.2.2.2.head (.nullable Instant.yields_decoder _)
  exact List.forall_mem_cons.2 ⟨hcreated, List.forall_mem_append.2 ⟨hclosed, hmerged⟩⟩

theorem RecordTimes.yields_decoder : RecordTimes.decoder.Yields fun t =>
    t.createdAt.IsRegular ∧ t.lastModified.IsRegular := by
  intro depth tree t h
  obtain ⟨inner, values, -, hmade, rfl⟩ := Fields.made_of_decoder h
  exact ⟨hmade.head (.required Instant.yields_decoder _),
    hmade.2.head (.required Instant.yields_decoder _)⟩

/-- The instants in a record that is read are regular. -/
theorem Record.yields_decoder : Record.decoder.Yields Record.IsRegular := by
  intro depth tree r h
  obtain ⟨inner, values, -, hmade, rfl⟩ := Fields.made_of_decoder h
  exact Record.isRegular_iff.2 ⟨hmade.2.head (.required PullState.yields_decoder _),
    hmade.2.2.2.2.2.head (.required RecordTimes.yields_decoder _)⟩

namespace Ledger

variable {l : Ledger} {id : PullId} {record : Record}

/-- What a ledger is like that has been read: it can be written and read again. -/
structure Readable (l : Ledger) : Prop extends WellFormed l where
  shallow : ∀ e ∈ l.entries, e.2.statistics.json.depth ≤ statisticsDepth
  regular : l.IsRegular

theorem readable_empty : empty.Readable where
  nodup := .nil
  valid _ h := absurd h List.not_mem_nil
  sorted _ h := absurd h List.not_mem_nil
  shallow _ h := absurd h List.not_mem_nil
  regular _ h := absurd h List.not_mem_nil

/-- A record of a new id behind the others. -/
theorem Readable.append (h : l.Readable) (hid : l.contains id = false) (hv : id.IsValid)
    (hs : record.statistics.json.IsSorted ∧ record.statistics.json.depth ≤ statisticsDepth)
    (hr : record.IsRegular) :
    Readable ⟨l.entries ++ [(id, record)]⟩ := by
  have hids : ids ⟨l.entries ++ [(id, record)]⟩ = l.ids ++ [id] := List.map_append
  constructor
  · constructor
    · rw [hids]
      refine List.nodup_append.2 ⟨h.nodup, List.pairwise_singleton _ id, ?_⟩
      rintro a ha b hb rfl
      obtain rfl := List.mem_singleton.1 hb
      exact get?_eq_none_iff.1 (contains_eq_false_iff.1 hid) ha
    · rw [hids]
      exact List.forall_mem_append.2 ⟨h.valid, List.forall_mem_singleton.2 hv⟩
    · exact List.forall_mem_append.2 ⟨h.sorted, List.forall_mem_singleton.2 hs.1⟩
  · exact List.forall_mem_append.2 ⟨h.shallow, List.forall_mem_singleton.2 hs.2⟩
  · exact List.forall_mem_append.2 ⟨h.regular, List.forall_mem_singleton.2 hr⟩

theorem readable_of_entriesAfter {depth : Nat} {done : Ledger} {members : List (Quoted × Tree)}
    (hd : depth = statisticsDepth + 1) (hdone : done.Readable)
    (h : entriesAfter depth done members = .ok l) : l.Readable := by
  subst hd
  induction members generalizing done with
  | nil =>
    cases h
    exact hdone
  | cons member members ih =>
    obtain ⟨name, tree⟩ := member
    obtain ⟨content, -, h⟩ := bind_eq_ok.1 h
    obtain ⟨id, hid, h⟩ := bind_eq_ok.1 h
    obtain ⟨record, hrecord, h⟩ := bind_eq_ok.1 h
    split at h
    · cases h
    · rename_i hnew
      refine ih (hdone.append ?_ (PullId.isValid_of_ofContent hid) ?_ ?_) h
      · exact Bool.eq_false_iff.2 hnew
      · exact Record.statistics_of_decoder (by decide) hrecord
      · exact Record.yields_decoder _ _ _ hrecord

/-- **What has been read can be written and read again.** -/
theorem readable_of_ofSymbols {symbols : List Text.Symbol} (h : ofSymbols symbols = .ok l) :
    l.Readable := by
  obtain ⟨tree, h⟩ := Decoder.run_ok h
  unfold decoder at h
  split at h
  · obtain ⟨depth, hdepth, h⟩ := bind_eq_ok.1 h
    obtain ⟨ledger, hledger, h⟩ := bind_eq_ok.1 h
    obtain ⟨_, -, h⟩ := bind_eq_ok.1 h
    cases h
    -- The ledger takes one container, a record in it one more.
    have hinner : statisticsDepth + 1 = depth := Nat.succ.inj (enter_eq_ok.1 hdepth)
    exact readable_of_entriesAfter hinner.symm readable_empty hledger
  · cases h

/-- A ledger that has been read is read again from its own text. -/
theorem Readable.reread (h : l.Readable) (hx : l.IsExact) : ofText l.text = .ok l := by
  rw [ofText_text h.toWellFormed hx h.shallow, asRead_eq_self_iff.2 h.regular]

theorem readable_of_ofBytes {bytes : Bytes} (h : ofBytes bytes = .ok l) : l.Readable :=
  readable_of_ofSymbols h

theorem ofBytes_text (l : Ledger) : ofBytes (Text.encode l.text) = ofText l.text := by
  rw [ofBytes, Text.symbols_encode, ofText]

/-! ### One more record -/

theorem valid_ids_upsert (h : ∀ k ∈ l.ids, k.IsValid) (hv : id.IsValid) :
    ∀ k ∈ (l.upsert id record).ids, k.IsValid := by
  intro k hk
  rw [ids_upsert] at hk
  split at hk
  · exact h k hk
  · rcases List.mem_append.1 hk with hk | hk
    · exact h k hk
    · obtain rfl := List.mem_singleton.1 hk
      exact hv

theorem WellFormed.upsert (h : l.WellFormed) (hv : id.IsValid)
    (hs : record.statistics.json.IsSorted) : (l.upsert id record).WellFormed where
  nodup := nodup_ids_upsert h.nodup
  valid := valid_ids_upsert h.valid hv
  sorted := forall_upsert (P := fun r => r.statistics.json.IsSorted) h.sorted hs

theorem IsRegular.upsert (h : l.IsRegular) (hr : record.IsRegular) :
    (l.upsert id record).IsRegular :=
  forall_upsert h hr

theorem IsExact.upsert (h : l.IsExact) (hx : record.statistics.json.IsExact) :
    (l.upsert id record).IsExact :=
  forall_upsert (P := fun r => r.statistics.json.IsExact) h hx

/-- **A ledger with one more record can be read again if and only if the statistics of the record
are not nested too deep.** -/
theorem ofBytes_upsert (h : l.Readable) (hx : l.IsExact) (hv : id.IsValid)
    (hs : record.statistics.json.IsSorted) (hsx : record.statistics.json.IsExact)
    (hr : record.IsRegular) :
    ofBytes (Text.encode (l.upsert id record).text) =
      if record.statistics.json.depth ≤ statisticsDepth then .ok (l.upsert id record)
      else .error .tooDeep := by
  have hdepth : (l.upsert id record).json.depth ≤ maxDepth ↔
      record.statistics.json.depth ≤ statisticsDepth := by
    rw [depth_json_le_iff]
    constructor
    · intro hall
      exact hall (id, record) (mem_upsertEntry_self l.entries)
    · intro hnew
      exact forall_upsert (P := fun r => r.statistics.json.depth ≤ statisticsDepth) h.shallow hnew
  rw [ofBytes_text, ofText_text_eq_ite (h.toWellFormed.upsert hv hs) (hx.upsert hsx),
    asRead_eq_self_iff.2 (h.regular.upsert hr)]
  by_cases hd : record.statistics.json.depth ≤ statisticsDepth
  · rw [if_pos (hdepth.2 hd), if_pos hd]
  · rw [if_neg (fun hle => hd (hdepth.1 hle)), if_neg hd]

end Ledger

end RepairLedger
