import RepairLedger.Proofs.Command.Reloading
import RepairLedger.Proofs.Json.Canonical

/-!
# Statistics are stored in one form

The text of a statistics file may be spelled in many ways, and its members may come in any order.
None of this is to be seen in the ledger (`Statistics.stored_form_unique`): there the names are in
the order of their bytes, at any depth, and every member of the file has its place.

The reason is that only the canonical form of the value is judged and kept
(`Job.statisticsOf_spelled`).
-/

namespace RepairLedger

open Json

/-- At the place in the text stands a value with the same parts as this one, which has its names in
the order of their bytes. -/
def Json.Value.IsKeptAt (v : Value) (place : List Step) (text : String) : Prop :=
  ∃ whole stored : Value, whole.IsSpelledBy text ∧ whole.at? place = some stored ∧
    v.SameParts stored ∧ stored.InByteOrder

/-- Where the statistics of a pull request stand in a ledger. -/
def Statistics.place (id : PullId) : List Step :=
  [.member id.text, .member "repair_statistics"]

/-! ### A new record -/

theorem Record.part?_json (r : Record) :
    r.json.part? (.member "repair_statistics") = some r.statistics.json := by
  simp [Record.json, Value.part?, Value.member?_cons]

namespace Ledger

variable {l : Ledger} {id : PullId}

theorem at?_json_upsert (h : l.get? id = none) (r : Record) :
    (l.upsert id r).json.at? (Statistics.place id) = some r.statistics.json := by
  have hentry : (l.upsert id r).json.part? (.member id.text) = some r.json := by
    rw [upsert_of_not_contains (contains_eq_false_iff.2 h), json, List.map_append, Value.part?,
      List.reverse_append]
    exact (Value.member?_cons _ _ _ _).trans (if_pos rfl)
  simp [Statistics.place, Value.at?, hentry, r.part?_json]

/-- A new record keeps the value of which its statistics are the canonical form. -/
theorem isKeptAt_upsert (h : l.get? id = none) {r : Record} {v : Value}
    (hv : r.statistics.json = v.canonical) :
    v.IsKeptAt (Statistics.place id) (l.upsert id r).text :=
  ⟨(l.upsert id r).json, v.canonical, Value.isSpelledBy_text _ _, hv ▸ at?_json_upsert h r,
    v.sameParts_canonical, v.inByteOrder_canonical⟩

end Ledger

namespace Statistics

/-- **Statistics have one stored form.**  Two texts that spell one value, up to the order of its
members, are read as the same value, and so both are accepted or neither, as the same statistics.
If they are accepted, a first record of a pull request can be created with either, and the bytes of
the ledger are the same.  There the names in the statistics are in the order of their bytes, and
every part of the value is at its place.  The numbers are integers. -/
theorem stored_form_unique {v v' : Value} {text text' : String} (ht : v.IsSpelledBy text)
    (ht' : v'.IsSpelledBy text') (hx : v.IsExact) (h : Rearranged v v') :
    (∀ value, Decoder.value.run (Text.symbolsOf text) = .ok value ↔
      Decoder.value.run (Text.symbolsOf text') = .ok value) ∧
    (∀ file file' s, Job.statisticsOf file text = .ok s ↔ Job.statisticsOf file' text' = .ok s) ∧
    ∀ file file' s s', Job.statisticsOf file text = .ok s → Job.statisticsOf file' text' = .ok s' →
      ∀ (l : Ledger) (id : PullId) (state : PullState) (diff : String) (now : Instant),
        l.get? id = none → ∃ record record',
          l.createInitial id ⟨state, diff, s⟩ now = .ok record ∧
          l.createInitial id ⟨state, diff, s'⟩ now = .ok record' ∧
          Text.encode (l.upsert id record).text = Text.encode (l.upsert id record').text ∧
          v.IsKeptAt (place id) (l.upsert id record).text ∧
          v'.IsKeptAt (place id) (l.upsert id record).text := by
  have hx' : v'.IsExact := h.isExact hx
  have haccepts : ∀ file file' s,
      Job.statisticsOf file text = .ok s ↔ Job.statisticsOf file' text' = .ok s := by
    intro file file' s
    rw [Job.statisticsOf_spelled ht hx, Job.statisticsOf_spelled ht' hx', h.canonical_eq,
      h.depth_eq]
  refine ⟨fun value => ?_, haccepts, fun file file' s s' hs hs' l id state diff now hnone => ?_⟩
  · rw [Decoder.run_value_spelled ht hx, Decoder.run_value_spelled ht' hx', h.canonical_eq,
      h.depth_eq]
  · obtain rfl : s = s' := Except.ok.inj (((haccepts file file' s).1 hs).symm.trans hs')
    -- What is accepted is the canonical form, which the values share.
    have hjson : s.json = v.canonical :=
      json_of_ofValue ((Job.statisticsOf_spelled ht hx).1 hs).2
    have hcreate : l.createInitial id ⟨state, diff, s⟩ now =
        .ok (.begin id.slug state s diff now) :=
      Ledger.createInitial_eq_ok.2 ⟨hnone, rfl⟩
    exact ⟨_, _, hcreate, hcreate, rfl, Ledger.isKeptAt_upsert hnone hjson,
      Ledger.isKeptAt_upsert hnone (hjson.trans h.canonical_eq)⟩

/-- Two names beyond the first 65536 characters and shortly before, once written as they are and
once escaped, in another order. -/
theorem stored_form_unique_escaped :
    let text := "\x7b\"repairs\":[],\"ﬀ\":1,\"😀\":null\x7d\n"
    let text' := "\x7b \"\\ud83D\\ude00\" :null,\t\"repairs\":[ ],\"\\uFB00\":1\x7d"
    let v : Value := .object [("repairs", .array []), ("ﬀ", .ofUInt64 1), ("😀", .null)]
    let state : PullState := ⟨"url", .epoch, none, none, "open", false, 1⟩
    let id : PullId := ⟨"acme", "widget", 1⟩
    ∃ s, Job.statisticsOf ⟨"a.json"⟩ text = .ok s ∧ Job.statisticsOf ⟨"b.json"⟩ text' = .ok s ∧
      ∃ record record',
        Ledger.empty.createInitial id ⟨state, "diff", s⟩ .epoch = .ok record ∧
        Ledger.empty.createInitial id ⟨state, "diff", s⟩ .epoch = .ok record' ∧
        Text.encode (Ledger.empty.upsert id record).text =
          Text.encode (Ledger.empty.upsert id record').text ∧
        v.IsKeptAt (place id) (Ledger.empty.upsert id record).text := by
  intro text text' v state id
  let v' : Value := .object [("😀", .null), ("repairs", .array []), ("ﬀ", .ofUInt64 1)]
  have hx : v.IsExact := ⟨trivial, trivial, trivial, trivial⟩
  have ht : v.IsSpelledBy text :=
    (by decide +kernel : v.text .compact ++ "\n" = text) ▸ v.isSpelledBy_text .compact
  have ht' : v'.IsSpelledBy text' := by
    have hhigh : SpellsUnit 0xD83D ['\\', 'u', 'd', '8', '3', 'D'] :=
      .digits (p := 13) (q := 8) (r := 3) (s := 13) (by decide) (by decide) (by decide) (by decide)
    have hlow : SpellsUnit 0xDE00 ['\\', 'u', 'd', 'e', '0', '0'] :=
      .digits (p := 13) (q := 14) (r := 0) (s := 0) (by decide) (by decide) (by decide) (by decide)
    have hunit : SpellsChar 'ﬀ' ['\\', 'u', 'F', 'B', '0', '0'] :=
      .unit (.digits (p := 15) (q := 11) (r := 0) (s := 0) (by decide) (by decide) (by decide)
        (by decide))
    have hface : SpellsString "😀" _ := ⟨[_], .cons (.pair (by decide) hhigh hlow) .nil, rfl⟩
    have hletters : SpellsString "ﬀ" _ := ⟨[_], .cons hunit .nil, rfl⟩
    refine ⟨[], _, [], by decide, .object (b := [' ']) (by decide)
      (.member (a := [' ']) (b := []) hface (by decide) (by decide) .null)
      (.more (a := []) (b := ['\t']) (by decide) (by decide)
        (.member (a := []) (b := []) (spellsString_stringChars "repairs") (by decide) (by decide)
          (.emptyArray (b := [' ']) (by decide)))
        (.more (a := []) (b := []) (by decide) (by decide)
          (.member (a := []) (b := []) hletters (by decide) (by decide) (.number _))
          (.close (b := []) (by decide)))), by decide, ?_⟩
    decide +kernel
  have hordered : Rearranged v v' := .of_perm (by decide) (by decide) []
  obtain ⟨-, haccepts, hstored⟩ := stored_form_unique ht ht' hx hordered
  have hs : Job.statisticsOf ⟨"a.json"⟩ text =
      .ok ⟨[("repairs", .array []), ("ﬀ", .ofUInt64 1), ("😀", .null)]⟩ :=
    (Job.statisticsOf_spelled ht hx).2 ⟨by decide, by rfl⟩
  have hs' := (haccepts _ ⟨"b.json"⟩ _).1 hs
  obtain ⟨record, record', hr, hr', hbytes, hkept, -⟩ :=
    hstored _ _ _ _ hs hs' .empty id state "diff" .epoch rfl
  exact ⟨_, hs, hs', record, record', hr, hr', hbytes, hkept⟩

end Statistics

end RepairLedger
