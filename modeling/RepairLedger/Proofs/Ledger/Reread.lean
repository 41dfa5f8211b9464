import RepairLedger.Proofs.Ledger.Loaded

/-!
# Ledgers that are read back

Whether a ledger can be read back depends on its statistics, and numbers with fractions in them need
not come back as they were.  But if the text of a ledger can be read at all, the entries are those
that were written, in their order, apart from statistics and from how instants are read
(`Ledger.kept_of_ofBytes_text`).  So every record is found under its id (`Ledger.Kept.get?`).
-/

namespace RepairLedger.Ledger

open Json

/-- The same pull request, and what its record is read as, apart from statistics. -/
def KeptEntry (e e' : PullId × Record) : Prop :=
  e'.1 = e.1 ∧ ∃ statistics, e'.2 = { e.2.asRead with statistics := statistics }

/-- The same entries in the same order, apart from statistics. -/
def Kept (l l' : Ledger) : Prop :=
  List.Forall₂ KeptEntry l.entries l'.entries

variable {l l' : Ledger} {id : PullId} {record : Record}

/-- What is read of a record that was written is kept, and so is the rest of the ledger. -/
theorem forall₂_of_entriesAfter {depth : Nat} {done : Ledger} {entries : List (PullId × Record)}
    (hv : ∀ e ∈ entries, e.1.IsValid)
    (h : entriesAfter depth done (readMemberTrees (entries.map member)) = .ok l') :
    ∃ later, l'.entries = done.entries ++ later ∧ List.Forall₂ KeptEntry entries later := by
  induction entries generalizing done with
  | nil =>
    cases h
    exact ⟨[], (List.append_nil _).symm, .nil⟩
  | cons e entries ih =>
    obtain ⟨k, r⟩ := e
    obtain ⟨hk, hv⟩ := List.forall_mem_cons.1 hv
    obtain ⟨content, hcontent, h⟩ := bind_eq_ok.1 h
    cases hcontent
    obtain ⟨k', hid, h⟩ := bind_eq_ok.1 h
    obtain ⟨r', hrecord, h⟩ := bind_eq_ok.1 h
    -- The id is read from its own text, the record from its own tree.
    rw [PullId.ofContent_text hk] at hid
    cases hid
    have hkept : KeptEntry (k, r) (k, r') := ⟨rfl, Record.eq_of_readTree hrecord⟩
    split at h
    · cases h
    · obtain ⟨later, hlater, hall⟩ := ih hv h
      refine ⟨(k, r') :: later, ?_, .cons hkept hall⟩
      rw [hlater, List.append_assoc, List.singleton_append]

/-- **A ledger that is read back has the entries that were written**, apart from statistics and from
how instants are read. -/
theorem kept_of_ofBytes_text (hv : ∀ id ∈ l.ids, id.IsValid)
    (h : ofBytes (Text.encode l.text) = .ok l') : l.Kept l' := by
  rw [ofBytes_text, ofText, text, ofSymbols, Decoder.run, Document.ofSymbols_text] at h
  obtain ⟨read, hread, h⟩ := bind_eq_ok.1 h
  cases h
  obtain ⟨depth, -, h⟩ := bind_eq_ok.1 hread
  obtain ⟨read, hentries, h⟩ := bind_eq_ok.1 h
  obtain ⟨_, -, h⟩ := bind_eq_ok.1 h
  cases h
  have hvalid : ∀ e ∈ l.entries, e.1.IsValid := fun e he => hv e.1 (List.mem_map_of_mem he)
  obtain ⟨later, hlater, hall⟩ := forall₂_of_entriesAfter hvalid hentries
  rw [Kept, hlater]
  exact hall

theorem lookup_of_forall₂ {entries later : List (PullId × Record)}
    (h : List.Forall₂ KeptEntry entries later) (hr : entries.lookup id = some record) :
    ∃ statistics, later.lookup id = some { record.asRead with statistics := statistics } := by
  induction h with
  | nil => cases hr
  | @cons e e' entries later hkept _ ih =>
    obtain ⟨k, r⟩ := e
    obtain ⟨k', r'⟩ := e'
    obtain ⟨rfl, statistics, hrest⟩ := hkept
    rw [lookup_cons_eq_ite] at hr ⊢
    split at hr
    · rename_i hk
      cases hr
      rw [if_pos hk]
      exact ⟨statistics, congrArg some hrest⟩
    · rename_i hk
      rw [if_neg hk]
      exact ih hr

/-- A record is found again under its id. -/
theorem Kept.get? (h : l.Kept l') (hr : l.get? id = some record) :
    ∃ statistics, l'.get? id = some { record.asRead with statistics := statistics } :=
  lookup_of_forall₂ h hr

end RepairLedger.Ledger
