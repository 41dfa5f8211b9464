import RepairLedger.Proofs.Ledger.Lookup
import RepairLedger.Proofs.Pull.Text
import RepairLedger.Proofs.Record.Reread

/-!
# Ledgers survive being written

The text of a ledger is read as a ledger with the same text (`Ledger.reread_text`).  Only the depth
of the statistics decides whether it is read at all: from 126 nested containers on, the whole text
is refused (`Ledger.ofText_text_eq_ite`).

What is read is the ledger that was written if the instants in it are regular
(`Ledger.asRead_eq_self_iff`).  Without that this fails: a leap second that does not end a minute is
not told apart from the second after it (`Ledger.ofText_text_ne_of_leap`).

Every ledger that has been read is fit to be written (`Ledger.WellFormed`): its ids are valid and
pairwise different, and the statistics are in canonical form.
-/

namespace RepairLedger.Ledger

open Json

/-- What readers and writers keep of every ledger. -/
structure WellFormed (l : Ledger) : Prop where
  /-- No id stands twice. -/
  nodup : l.ids.Nodup
  valid : ∀ id ∈ l.ids, id.IsValid
  /-- The members of statistics are kept sorted by name. -/
  sorted : ∀ e ∈ l.entries, e.2.statistics.json.IsSorted

/-- Are all numbers in the statistics integers? -/
def IsExact (l : Ledger) : Prop :=
  ∀ e ∈ l.entries, e.2.statistics.json.IsExact

/-- Are all instants in the records regular? -/
def IsRegular (l : Ledger) : Prop :=
  ∀ e ∈ l.entries, e.2.IsRegular

/-- The ledger that the text of `l` is read as. -/
def asRead (l : Ledger) : Ledger :=
  ⟨l.entries.map fun (id, record) => (id, record.asRead)⟩

/-- The greatest depth of statistics in a ledger that can be read back: the ledger and the record
around them take two containers of those that a text may have. -/
def statisticsDepth : Nat := maxDepth - 2

variable {l : Ledger}

/-! ### Entries -/

/-- An entry as a member of the ledger. -/
def member (e : PullId × Record) : String × Value :=
  (e.1.text, e.2.json)

theorem json_eq (l : Ledger) : l.json = .object (l.entries.map member) := rfl

/-- **Ledgers whose instants are regular are those that are read as themselves.** -/
theorem asRead_eq_self_iff : l.asRead = l ↔ l.IsRegular := by
  have hentry : ∀ e : PullId × Record, (e.1, e.2.asRead) = e ↔ e.2.IsRegular := by
    rintro ⟨id, record⟩
    rw [Prod.mk.injEq, Record.asRead_eq_self_iff, and_iff_right rfl]
  have hmap : l.asRead = l ↔ l.entries.map (fun e => (e.1, e.2.asRead)) = l.entries.map id := by
    rw [List.map_id]
    exact ⟨congrArg entries, congrArg mk⟩
  rw [hmap, List.map_inj_left]
  exact forall_congr' fun e => imp_congr_right fun _ => hentry e

theorem isRegular_asRead (l : Ledger) : l.asRead.IsRegular :=
  List.forall_mem_map.2 fun e _ => e.2.isRegular_asRead

theorem ids_asRead (l : Ledger) : l.asRead.ids = l.ids := by
  rw [ids, ids, asRead, List.map_map]
  rfl

/-- What a ledger is read as has the same statistics. -/
theorem forall_statistics_asRead {P : Statistics → Prop} :
    (∀ e ∈ l.asRead.entries, P e.2.statistics) ↔ ∀ e ∈ l.entries, P e.2.statistics :=
  List.forall_mem_map

/-- What a ledger is read as has the same text. -/
theorem text_asRead (l : Ledger) : l.asRead.text = l.text := by
  have hmember : ∀ e : PullId × Record, member (e.1, e.2.asRead) = member e := fun e =>
    congrArg (Prod.mk e.1.text) e.2.json_asRead
  have hjson : l.asRead.json = l.json := by
    rw [json_eq, json_eq, asRead, List.map_map]
    exact congrArg Value.object (List.map_congr_left fun e _ => hmember e)
  rw [text, text, hjson]

/-- Entries of new ids are read behind those that are there. -/
theorem entriesAfter_memberTrees {done : Ledger} {entries : List (PullId × Record)}
    (hn : (done.ids ++ entries.map Prod.fst).Nodup) (hv : ∀ e ∈ entries, e.1.IsValid)
    (hs : ∀ e ∈ entries, e.2.statistics.json.IsSorted) (depth : Nat) :
    entriesAfter depth done (memberTrees (entries.map member)) =
      if Value.depthMembers (entries.map member) ≤ depth then
        .ok ⟨done.entries ++ (asRead ⟨entries⟩).entries⟩
      else .error .tooDeep := by
  induction entries generalizing done with
  | nil => simp [memberTrees, entriesAfter, Value.depthMembers, asRead]
  | cons e entries ih =>
    obtain ⟨id, record⟩ := e
    -- The id is new, as no id stands twice.
    have hnot : done.contains id = false := by
      rw [contains_eq, decide_eq_false_iff_not]
      intro hid
      exact (List.nodup_append.1 hn).2.2 id hid id List.mem_cons_self rfl
    have hnext :
        (Ledger.ids ⟨done.entries ++ [(id, record.asRead)]⟩ ++ entries.map Prod.fst).Nodup := by
      simpa [ids] using hn
    have hread := Record.reads_json (hs _ List.mem_cons_self) depth
    have hrest := ih hnext (fun e he => hv e (List.mem_cons_of_mem _ he))
      fun e he => hs e (List.mem_cons_of_mem _ he)
    rw [List.append_assoc, List.singleton_append] at hrest
    simp only [List.map_cons, memberTrees, member, entriesAfter, Quoted.ofText, bind,
      Except.bind, PullId.ofContent_text (hv _ List.mem_cons_self), hread, Value.depthMembers,
      Nat.max_le]
    by_cases hd : record.json.depth ≤ depth
    · simp only [hd, if_true, true_and, hnot, Bool.false_eq_true, if_false]
      exact hrest
    · simp only [hd, if_false, false_and]

/-- A ledger is read from its JSON. -/
theorem reads_json (hw : l.WellFormed) : decoder.Reads l.json l.asRead := by
  have hvalid : ∀ e ∈ l.entries, e.1.IsValid := fun e he =>
    hw.valid e.1 (List.mem_map_of_mem he)
  rw [json_eq]
  refine .of_container rfl rfl fun d => ?_
  -- Reading begins with the empty ledger and enters one record after the other.
  have hentries := entriesAfter_memberTrees (show (empty.ids ++ l.ids).Nodup from hw.nodup)
    hvalid hw.sorted d
  simp only [Value.tree, decoder, enter, bind, Except.bind, hentries]
  by_cases hd : Value.depthMembers (l.entries.map member) ≤ d
  · simp only [hd, if_true, Ending.object]
    rfl
  · simp only [hd, if_false]

theorem depth_json_le_iff :
    l.json.depth ≤ maxDepth ↔ ∀ e ∈ l.entries, e.2.statistics.json.depth ≤ statisticsDepth := by
  have hiff : ∀ e : PullId × Record, (member e).2.depth ≤ 126 ↔
      e.2.statistics.json.depth ≤ statisticsDepth := fun e =>
    Record.depth_json_le_iff (n := 125) (by decide)
  have hone : l.json.depth ≤ maxDepth ↔ Value.depthMembers (l.entries.map member) ≤ 126 :=
    Nat.succ_le_succ_iff
  rw [hone, Value.depthMembers_le_iff, List.forall_mem_map]
  exact forall_congr' fun e => imp_congr_right fun _ => hiff e

theorem isExact_json (h : l.IsExact) : l.json.IsExact := by
  rw [json_eq]
  refine Value.exactMembers_iff.2 fun x hx => ?_
  obtain ⟨e, he, rfl⟩ := List.mem_map.1 hx
  exact Record.isExact_json (h e he)

/-! ### The text -/

/-- The text of a ledger is read as the ledger, unless some statistics are nested too deep. -/
theorem ofText_text_eq_ite (hw : l.WellFormed) (hx : l.IsExact) :
    ofText l.text =
      if l.json.depth ≤ maxDepth then .ok l.asRead else .error .tooDeep := by
  rw [ofText, text, ofSymbols, Decoder.run,
    Document.ofSymbols_text_of_isExact (.indented 4) (isExact_json hx)]
  simp only [reads_json hw maxDepth, bind, Except.bind]
  by_cases hd : l.json.depth ≤ maxDepth
  · simp only [hd, if_true, Bool.false_eq_true, if_false]
  · simp only [hd, if_false]

/-- The text of a ledger is read if no statistics are nested too deep. -/
theorem ofText_text (hw : l.WellFormed) (hx : l.IsExact)
    (hd : ∀ e ∈ l.entries, e.2.statistics.json.depth ≤ statisticsDepth) :
    ofText l.text = .ok l.asRead := by
  rw [ofText_text_eq_ite hw hx, if_pos (depth_json_le_iff.2 hd)]

theorem wellFormed_of_ofParts (hn : l.ids.Nodup)
    (hv : ∀ id ∈ l.ids, PullId.ofParts id.owner id.repo id.number = .ok id)
    (hs : ∀ e ∈ l.entries, e.2.statistics.json.IsSorted) : l.WellFormed :=
  ⟨hn, fun id hid => (PullId.ofParts_eq_ok_iff.1 (hv id hid)).2, hs⟩

/-- **A ledger is read from its text, and what was read has the same text.**  The ids are pairwise
different and made of proper parts; strings, times and edits are arbitrary, and the statistics are
any objects, kept in canonical form, of integers and at most 125 containers deep.  What was read is
the ledger itself if and only if the instants in it are regular; any other is read as the one that
has its text. -/
theorem reread_text (hn : l.ids.Nodup)
    (hv : ∀ id ∈ l.ids, PullId.ofParts id.owner id.repo id.number = .ok id)
    (hs : ∀ e ∈ l.entries, e.2.statistics.json.IsSorted)
    (hx : ∀ e ∈ l.entries, e.2.statistics.json.IsExact)
    (hd : ∀ e ∈ l.entries, e.2.statistics.json.depth ≤ 125) :
    ofText l.text = .ok l.asRead ∧ Text.encode l.asRead.text = Text.encode l.text ∧
      (l.asRead = l ↔ ∀ e ∈ l.entries, ∀ t ∈ e.2.instants, t.IsRegular) := by
  refine ⟨ofText_text (wellFormed_of_ofParts hn hv hs) hx hd, ?_, asRead_eq_self_iff⟩
  rw [text_asRead]

/-- A record with a leap second, a year before the first one, text that has to be escaped and
statistics with members that nothing reads. -/
theorem reread_text_escaped :
    let k : PullId := ⟨"acme", "größe", 42⟩
    let leap : Instant := ⟨⟨2016, 12, 31, by decide⟩, 86399, 1500000000, by decide, by decide⟩
    let early : Instant := ⟨⟨-44, 3, 15, by decide⟩, 0, 5000, by decide, by decide⟩
    let state : PullState := ⟨"u\u0001\n\"", leap, some early, none, "closed", false, 42⟩
    let statistics : Statistics :=
      ⟨[("extra", .array [.object [], .bool true]), ("repairs", .array [])]⟩
    let r : Record := ⟨k.slug, state, statistics, ⟨"a\tb", some "\\"⟩,
      [⟨.beforeOpening, "", "😀"⟩], ⟨early, leap⟩⟩
    let l : Ledger := ⟨[(k, r)]⟩
    ofText l.text = .ok l ∧
      ∀ read, ofText l.text = .ok read → Text.encode read.text = Text.encode l.text := by
  intro k leap early state statistics r l
  have hread := reread_text (l := l) (by decide) (fun id hid => ?_) (fun e he => ?_)
    (fun e he => ?_) fun e he => ?_
  · obtain ⟨hok, -, hself⟩ := hread
    have hregular : l.asRead = l := hself.2 fun e he => by
      obtain rfl : e = (k, r) := List.mem_singleton.1 he
      decide
    rw [hregular] at hok
    refine ⟨hok, fun read hread => ?_⟩
    rw [hok] at hread
    cases hread
    rfl
  · obtain rfl : id = k := List.mem_singleton.1 hid
    exact PullId.ofParts_eq_ok_iff.2 ⟨rfl, by decide⟩
  · obtain rfl : e = (k, r) := List.mem_singleton.1 he
    exact ⟨List.pairwise_cons.2 ⟨by decide, List.pairwise_singleton _ _⟩,
      ⟨⟨List.Pairwise.nil, trivial⟩, trivial, trivial⟩, trivial, trivial⟩
  · obtain rfl : e = (k, r) := List.mem_singleton.1 he
    exact ⟨⟨trivial, trivial, trivial⟩, trivial, trivial⟩
  · obtain rfl : e = (k, r) := List.mem_singleton.1 he
    decide

/-- With the leap second of 09:00:00, which is written as the second 09:00:01, a ledger is not read
as itself. -/
theorem ofText_text_ne_of_leap :
    let k : PullId := ⟨"acme", "widget", 42⟩
    let leap : Instant := ⟨⟨2021, 3, 1, by decide⟩, 32400, 1333333333, by decide, by decide⟩
    let r : Record := .begin k.slug ⟨"u", leap, none, none, "open", false, 42⟩ .empty "diff" leap
    let l : Ledger := ⟨[(k, r)]⟩
    l.ids.Nodup ∧ (∀ id ∈ l.ids, PullId.ofParts id.owner id.repo id.number = .ok id) ∧
      (∀ e ∈ l.entries, e.2.statistics.json.IsSorted) ∧
      (∀ e ∈ l.entries, e.2.statistics.json.IsExact) ∧
      (∀ e ∈ l.entries, e.2.statistics.json.depth ≤ 125) ∧
      ofText l.text ≠ .ok l := by
  intro k leap r l
  have hv : ∀ id ∈ l.ids, PullId.ofParts id.owner id.repo id.number = .ok id := fun id hid => by
    obtain rfl : id = k := List.mem_singleton.1 hid
    exact PullId.ofParts_eq_ok_iff.2 ⟨rfl, by decide⟩
  have hempty : ∀ e ∈ l.entries, e.2.statistics = .empty := fun e he => by
    obtain rfl : e = (k, r) := List.mem_singleton.1 he
    rfl
  have hs : ∀ e ∈ l.entries, e.2.statistics.json.IsSorted := fun e he => by
    rw [hempty e he]
    exact ⟨.nil, trivial⟩
  have hx : ∀ e ∈ l.entries, e.2.statistics.json.IsExact := fun e he => by
    rw [hempty e he]
    trivial
  have hd : ∀ e ∈ l.entries, e.2.statistics.json.depth ≤ 125 := fun e he => by
    rw [hempty e he]
    decide
  refine ⟨by decide, hv, hs, hx, hd, fun hsame => ?_⟩
  rw [ofText_text (wellFormed_of_ofParts (by decide) hv hs) hx hd] at hsame
  have hregular := asRead_eq_self_iff.1 (Except.ok.inj hsame) (k, r) List.mem_cons_self
  exact absurd (hregular leap List.mem_cons_self) (by decide)

end RepairLedger.Ledger
