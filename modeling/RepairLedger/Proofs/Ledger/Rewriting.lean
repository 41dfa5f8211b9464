import RepairLedger.Proofs.Json.Writer
import RepairLedger.Proofs.Ledger.Lookup

/-!
# Small differences

Each entry of a ledger has a text of its own, which depends on its id and its record and on nothing
around it (`Ledger.entryText`).  The text of the ledger is made of these, with a comma and a line
end between them and a bracket on a line of its own at either end (`Ledger.text_eq`).

So two texts of which one comes from the other by entering a record differ as little as they can:
the text of one entry is another one, or there is one more behind the others.  This is
`Ledger.upsert_rewrites_one_entry`.
-/

namespace RepairLedger

open Json

/-! ### Joined texts -/

theorem intercalate_cons (separator part : String) (after : List String) :
    separator.intercalate (part :: after) = part ++ String.join (after.map (separator ++ ·)) := by
  induction after generalizing part with
  | nil => simp
  | cons next after ih =>
    rw [String.intercalate_cons_cons, ih next, List.map_cons, String.join_cons]
    simp only [String.append_assoc]

/-- The separators belong to the parts before and after any one of the parts. -/
theorem intercalate_append_cons (separator part : String) (before after : List String) :
    separator.intercalate (before ++ part :: after) =
      String.join (before.map (· ++ separator)) ++ part ++
        String.join (after.map (separator ++ ·)) := by
  induction before with
  | nil => simp [intercalate_cons]
  | cons first before ih =>
    rw [List.cons_append, String.intercalate_cons_of_ne_nil (by simp), ih, List.map_cons,
      String.join_cons]
    simp only [String.append_assoc]

namespace Ledger

variable {l : Ledger} {id : PullId}

/-! ### The text of a ledger -/

/-- The text of an entry, from the blanks at the beginning of its first line to its last
character. -/
def entryText (e : PullId × Record) : String :=
  String.ofList (List.replicate 4 ' ' ++ stringChars e.1.text ++ [':', ' '] ++
    e.2.json.chars (.indented 4) 1)

/-- The text before an entry that stands behind these ones. -/
def textBefore (entries : List (PullId × Record)) : String :=
  "\x7b\n" ++ String.join (entries.map fun e => entryText e ++ ",\n")

/-- The text behind an entry that stands before these ones. -/
def textAfter (entries : List (PullId × Record)) : String :=
  String.join (entries.map fun e => ",\n" ++ entryText e) ++ "\n\x7d\n"

/-- Behind the first member each one gets the separator and the text of its entry. -/
theorem membersChars_map (entries : List (PullId × Record)) :
    membersChars (.indented 4) 1 (entries.map fun (id, record) => (id.text, record.json)) =
      (String.join (entries.map fun e => ",\n" ++ entryText e)).toList := by
  induction entries with
  | nil => rfl
  | cons e rest ih =>
    rw [List.map_cons, membersChars, ih, List.map_cons, String.join_cons]
    simp [Layout.lineStart, Layout.colon, entryText]

/-- **The text of a ledger**: the texts of its entries in their order, with separators between them
and brackets around them. -/
theorem text_eq (l : Ledger) :
    l.text = if l.entries = [] then "\x7b\x7d\n"
      else "\x7b\n" ++ ",\n".intercalate (l.entries.map entryText) ++ "\n\x7d\n" := by
  obtain ⟨entries⟩ := l
  cases entries with
  | nil => rfl
  | cons e rest =>
    rw [if_neg (by simp), List.map_cons, intercalate_cons, List.map_map, ← String.toList_inj]
    simp [text, json, Value.text, Value.chars, membersChars_map, Layout.lineStart, Layout.colon,
      entryText, Function.comp_def]

/-- Around an entry stands what belongs to the other entries. -/
theorem text_append (before : List (PullId × Record)) (e : PullId × Record)
    (after : List (PullId × Record)) :
    (⟨before ++ e :: after⟩ : Ledger).text =
      textBefore before ++ entryText e ++ textAfter after := by
  rw [text_eq, if_neg (by simp), List.map_append, List.map_cons, intercalate_append_cons,
    List.map_map, List.map_map]
  simp [textBefore, textAfter, String.append_assoc, Function.comp_def]

/-! ### Entering a record -/

theorem text_upsert_of_not_contains (h : l.contains id = false) (r : Record) :
    (l.upsert id r).text =
      "\x7b\n" ++ ",\n".intercalate (l.entries.map entryText ++ [entryText (id, r)]) ++
        "\n\x7d\n" := by
  rw [upsert_of_not_contains h, text_eq, if_neg (by simp), List.map_append, List.map_singleton]

/-- **Entering a record rewrites one entry.**  The text of a ledger is what the writer writes, and
it consists of the texts of the entries, each of which depends only on its id and its record.  If
there is a record already, the text of its entry is replaced, and what stands before it and behind
it is kept.  If there is none, a separator and an entry come in before the closing bracket; in an
empty ledger the entry is the only one. -/
theorem upsert_rewrites_one_entry (l : Ledger) (id : PullId) (r : Record) :
    l.text = String.ofList ((Writer.start (.indented 4)).value l.json).written ++ "\n" ∧
    (l.text = if l.entries = [] then "\x7b\x7d\n"
      else "\x7b\n" ++ ",\n".intercalate (l.entries.map entryText) ++ "\n\x7d\n") ∧
    (∀ q, l.get? id = some q → ∃ before after,
      l.entries = before ++ (id, q) :: after ∧
      (l.upsert id r).entries = before ++ (id, r) :: after ∧
      l.text = textBefore before ++ entryText (id, q) ++ textAfter after ∧
      (l.upsert id r).text = textBefore before ++ entryText (id, r) ++ textAfter after) ∧
    (l.get? id = none → l.entries ≠ [] → ∃ front,
      l.text = front ++ "\n\x7d\n" ∧
      (l.upsert id r).text = front ++ (",\n" ++ entryText (id, r)) ++ "\n\x7d\n") ∧
    (l.entries = [] → (l.upsert id r).text = "\x7b\n" ++ entryText (id, r) ++ "\n\x7d\n") := by
  refine ⟨?_, text_eq l, ?_, ?_, ?_⟩
  · rw [Writer.text_value]
    rfl
  · intro q hq
    obtain ⟨before, after, hentries, hupsert⟩ := exists_place hq
    refine ⟨before, after, hentries, by rw [hupsert], ?_, by rw [hupsert, text_append]⟩
    rw [← text_append, ← hentries]
  · intro hnone hne
    refine ⟨"\x7b\n" ++ ",\n".intercalate (l.entries.map entryText), ?_, ?_⟩
    · rw [text_eq, if_neg hne]
    · rw [text_upsert_of_not_contains (contains_eq_false_iff.2 hnone),
        String.intercalate_append_of_ne_nil (by simpa using hne) (by simp),
        String.intercalate_singleton]
      simp only [String.append_assoc]
  · intro hnil
    have hnone : l.get? id = none := by rw [get?, hnil]; rfl
    rw [text_upsert_of_not_contains (contains_eq_false_iff.2 hnone), hnil, List.map_nil,
      List.nil_append, String.intercalate_singleton]

/-- A record of a ledger with two entries is finalized, a third one is entered, and one is entered
into the empty ledger. -/
theorem upsert_rewrites_one_entry_of_two :
    let a : PullId := ⟨"acme", "widget", 1⟩
    let b : PullId := ⟨"acme", "widget", 2⟩
    let c : PullId := ⟨"acme", "widget", 3⟩
    let state : PullState := ⟨"url", .epoch, none, none, "open", false, 1⟩
    let r : Record := .begin "acme/widget" state .empty "diff" .epoch
    let s : Record := r.finish state "final" .epoch
    let l : Ledger := ⟨[(a, r), (b, r)]⟩
    (∃ before after, l.entries = before ++ (b, r) :: after ∧
      l.text = textBefore before ++ entryText (b, r) ++ textAfter after ∧
      (l.upsert b s).text = textBefore before ++ entryText (b, s) ++ textAfter after) ∧
    (∃ front, l.text = front ++ "\n\x7d\n" ∧
      (l.upsert c r).text = front ++ (",\n" ++ entryText (c, r)) ++ "\n\x7d\n") ∧
    (empty.upsert a r).text = "\x7b\n" ++ entryText (a, r) ++ "\n\x7d\n" := by
  intro a b c state r s l
  obtain ⟨-, -, hthere, -, -⟩ := upsert_rewrites_one_entry l b s
  obtain ⟨-, -, -, hnew, -⟩ := upsert_rewrites_one_entry l c r
  obtain ⟨-, -, -, -, hempty⟩ := upsert_rewrites_one_entry empty a r
  obtain ⟨before, after, hentries, -, htext, hupsert⟩ := hthere r rfl
  exact ⟨⟨before, after, hentries, htext, hupsert⟩, hnew rfl (List.cons_ne_nil _ _), hempty rfl⟩

end Ledger

end RepairLedger
