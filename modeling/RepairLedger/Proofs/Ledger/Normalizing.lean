import RepairLedger.Proofs.Ledger.Order

/-!
# What loading makes of a text

Many texts are read as one ledger: members may come in any order and with others between them,
records may be written as arrays, times in any zone, and ids with blanks, signs and zeros.  Yet a
ledger that has been read is as good as one that was written.  It has an entry for each member of
the text, in the order of the text, under the id that the member's name spells
(`Ledger.members_of_ofSymbols`); two members of one id are refused, however they spell it
(`Ledger.exists_error_of_twice`); and it is read again from its own text (`Ledger.Readable.reread`).
`Ledger.loading_normalizes` puts this together.
-/

namespace RepairLedger

open Json

theorem Json.Ending.object_eq_ok {empty : Bool} {ending : Ending} :
    ending.object empty = .ok () ↔ ending = .closed := by
  constructor
  · intro h
    unfold Ending.object at h
    split at h
    · rfl
    all_goals cases h
  · rintro rfl
    rfl

namespace Ledger

variable {l : Ledger} {symbols : List Text.Symbol} {id : PullId}

/-- A member of the text of a ledger. -/
abbrev Member := Quoted × Tree

/-- The pull request that a member is about, in whatever way its name spells the id. -/
def Member.id? (m : Member) : Option PullId :=
  m.1.content.toOption.bind fun name => (PullId.parse name).toOption

/-- The members of a text, of which there are none if it holds no object. -/
def membersOf (symbols : List Text.Symbol) : List Member :=
  match (Document.ofSymbols symbols).tree with
  | .object members _ => members
  | _ => []

/-- The member says this entry, when it is read with at most so many containers around its parts. -/
def Member.Says (depth : Nat) (m : Member) (e : PullId × Record) : Prop :=
  m.id? = some e.1 ∧ Record.decoder depth m.2 = .ok e.2

/-- Members are entered one after the other behind the entries that are there. -/
theorem says_of_entriesAfter {depth : Nat} {done : Ledger} {members : List Member}
    (h : entriesAfter depth done members = .ok l) :
    ∃ later, l.entries = done.entries ++ later ∧
      List.Forall₂ (Member.Says depth) members later := by
  induction members generalizing done with
  | nil =>
    cases h
    exact ⟨[], (List.append_nil _).symm, .nil⟩
  | cons m members ih =>
    obtain ⟨name, tree⟩ := m
    obtain ⟨content, hcontent, h⟩ := bind_eq_ok.1 h
    obtain ⟨id, hid, h⟩ := bind_eq_ok.1 h
    obtain ⟨record, hrecord, h⟩ := bind_eq_ok.1 h
    have hname : Member.id? (name, tree) = some id := by
      unfold PullId.ofContent at hid
      split at hid
      · rename_i hparse
        cases hid
        simp [Member.id?, hcontent, hparse, Except.toOption]
      · cases hid
    split at h
    · cases h
    · obtain ⟨later, hlater, hall⟩ := ih h
      refine ⟨(id, record) :: later, ?_, .cons ⟨hname, hrecord⟩ hall⟩
      rw [hlater, List.append_assoc, List.singleton_append]

/-- **A ledger that is read has one entry for each member of the text**, in the order of the text.
-/
theorem members_of_ofSymbols (h : ofSymbols symbols = .ok l) :
    ∃ members, Document.ofSymbols symbols = ⟨.object members .closed, false⟩ ∧
      List.Forall₂ (Member.Says (maxDepth - 1)) members l.entries := by
  obtain ⟨l', hread, h⟩ := bind_eq_ok.1 h
  rcases hdocument : Document.ofSymbols symbols with ⟨tree, trailing⟩
  rw [hdocument] at hread h
  cases trailing with
  | true => cases h
  | false =>
    cases h
    unfold decoder at hread
    split at hread
    · rename_i members ending htree
      obtain ⟨depth, hdepth, hread⟩ := bind_eq_ok.1 hread
      obtain ⟨l', hentries, hread⟩ := bind_eq_ok.1 hread
      obtain ⟨_, hending, hread⟩ := bind_eq_ok.1 hread
      cases hread
      obtain rfl := Ending.object_eq_ok.1 hending
      obtain rfl : maxDepth - 1 = depth := Nat.succ.inj (enter_eq_ok.1 hdepth)
      obtain ⟨later, hlater, hall⟩ := says_of_entriesAfter hentries
      refine ⟨members, by rw [show tree = _ from htree], ?_⟩
      rw [hlater]
      exact hall
    · cases hread

/-- The ids of the entries are those that the members name. -/
theorem map_ids_of_members {depth : Nat} {members : List Member}
    {entries : List (PullId × Record)} (h : List.Forall₂ (Member.Says depth) members entries) :
    members.map Member.id? = (entries.map Prod.fst).map some := by
  induction h with
  | nil => rfl
  | cons hsays _ ih => rw [List.map_cons, List.map_cons, List.map_cons, hsays.1, ih]

/-- **A text that names a pull request twice is refused**, even if it spells the id in two ways. -/
theorem exists_error_of_twice {members : List Member} {ending : Ending} {m m' : Member}
    (htree : (Document.ofSymbols symbols).tree = .object members ending)
    (htwo : [m, m'].Sublist members) (hm : m.id? = some id) (hm' : m'.id? = some id) :
    ∃ fault, ofSymbols symbols = .error fault := by
  cases h : ofSymbols symbols with
  | error fault => exact ⟨fault, rfl⟩
  | ok l =>
    obtain ⟨members', hdocument, hall⟩ := members_of_ofSymbols h
    rw [hdocument] at htree
    cases htree
    -- The id would stand twice among those of the ledger, where each stands once.
    have hids : (l.ids.map some).Nodup :=
      (readable_of_ofSymbols h).nodup.map (Option.some_injective _)
    have hboth : [some id, some id].Sublist (l.ids.map some) := by
      have hmap := htwo.map Member.id?
      rw [map_ids_of_members hall, List.map_cons, List.map_cons, hm, hm'] at hmap
      exact hmap
    have htwice : [some id, some id].Nodup := hids.sublist hboth
    exact absurd List.mem_cons_self (List.nodup_cons.1 htwice).1

/-- **Loading makes sure of the order of things.**  A text that is read as a ledger is an object
with nothing behind it, and each of its members is one entry, in the order of the text: the name
spells the id of the entry, and the value is read as its record.  The ids are valid, are read from
their own texts, and none stands twice; so a text in which two members name one pull request is
refused, however they spell it.  And if its statistics hold integers only, a ledger that has been
read is read again from its own text, and has the same text then. -/
theorem loading_normalizes (text : String) :
    (∀ l, ofText text = .ok l →
      (∃ members, Document.ofSymbols (Text.symbolsOf text) = ⟨.object members .closed, false⟩ ∧
        List.Forall₂ (Member.Says (maxDepth - 1)) members l.entries) ∧
      (∀ id ∈ l.ids, PullId.ofParts id.owner id.repo id.number = .ok id ∧
        PullId.parse id.text = .ok id) ∧
      l.ids.Nodup ∧
      (l.IsExact → ofText l.text = .ok l ∧
        ∀ read, ofText l.text = .ok read → Text.encode read.text = Text.encode l.text)) ∧
    ∀ members ending m m' id,
      (Document.ofSymbols (Text.symbolsOf text)).tree = .object members ending →
      [m, m'].Sublist members → Member.id? m = some id → Member.id? m' = some id →
      ∃ fault, ofText text = .error fault := by
  refine ⟨fun l h => ?_, fun members ending m m' id htree htwo hm hm' =>
    exists_error_of_twice htree htwo hm hm'⟩
  have hreadable : l.Readable := readable_of_ofSymbols h
  refine ⟨members_of_ofSymbols h, fun id hid => ?_, hreadable.nodup, fun hx => ?_⟩
  · have hvalid := hreadable.valid id hid
    exact ⟨PullId.ofParts_eq_ok_iff.2 ⟨rfl, hvalid⟩, PullId.parse_text hvalid⟩
  · have hok := hreadable.reread hx
    refine ⟨hok, fun read hread => ?_⟩
    rw [hok] at hread
    cases hread
    rfl

/-- A record as an array, with an object of a state that has a member too many, times in another
zone and a member of the statistics that is there twice, under an id with blanks, a sign and a zero.
With another spelling of the id before it, the text is refused. -/
theorem loading_normalizes_spelling :
    let record := "[\"s\",\x7b\"number\":1,\"more\":[],\"is_merged\":true,\"state\":\"\"," ++
      "\"created_at\":\"2021-3-1 9:0:0 +01:00\",\"url\":\"u\"\x7d," ++
      "\x7b\"b\":1,\"b\":2\x7d,[\"d\",null],[]," ++
      "[\"2021-03-01T08:00:00Z\",\"2021-03-01T08:00:60Z\"]]"
    let once := "\x7b \" a/b#+042\\u0020\" : " ++ record ++ " \x7d"
    let twice := "\x7b\"a/b#42\":" ++ record ++ ",\"a/b#042\":" ++ record ++ "\x7d"
    let k : PullId := ⟨"a", "b", 42⟩
    let opened : Instant :=
      ⟨⟨2021, 3, 1, by decide⟩, 28800, 0, by decide, by decide⟩
    let leap : Instant :=
      ⟨⟨2021, 3, 1, by decide⟩, 28859, 1000000000, by decide, by decide⟩
    let two : Value := .number (.integer ⟨2, by decide⟩)
    let l : Ledger := ⟨[(k, ⟨"s", ⟨"u", opened, none, none, "", true, 1⟩, ⟨[("b", two)]⟩,
      ⟨"d", none⟩, [], ⟨opened, leap⟩⟩)]⟩
    ofText once = .ok l ∧ ofText l.text = .ok l ∧ ∃ fault, ofText twice = .error fault := by
  intro record once twice k opened leap two l
  have hread : ofText once = .ok l := by
    -- Taken apart piece by piece: as a whole, a string of this length takes long.
    simp only [once, record, ofText, Text.symbolsOf, String.toList_append]
    exact eq_ok_of_toOption (by decide +kernel)
  obtain ⟨symbols, hsymbols, hids⟩ : ∃ symbols, Text.symbolsOf twice = symbols ∧
      (membersOf symbols).map Member.id? = [some k, some k] := by
    apply Exists.intro
    apply And.intro
    · simp only [twice, record, Text.symbolsOf, String.toList_append]
      rfl
    · decide +kernel
  have hexact : l.IsExact := by
    intro e he
    obtain rfl := List.mem_singleton.1 he
    exact ⟨trivial, trivial⟩
  obtain ⟨-, -, -, hreread⟩ := (loading_normalizes once).1 l hread
  refine ⟨hread, (hreread hexact).1, ?_⟩
  unfold membersOf at hids
  split at hids
  · rename_i members ending htree
    obtain ⟨m, rest, rfl, hm, hrest⟩ := List.map_eq_cons_iff.1 hids
    obtain ⟨m', rest', rfl, hm', hnil⟩ := List.map_eq_cons_iff.1 hrest
    obtain rfl := List.map_eq_nil_iff.1 hnil
    rw [← hsymbols] at htree
    exact (loading_normalizes twice).2 _ _ m m' k htree (.refl _) hm hm'
  · cases hids

end Ledger

end RepairLedger
