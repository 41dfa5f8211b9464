import RepairLedger.Proofs.Host.Siblings
import RepairLedger.Proofs.Ledger.Rendering
import RepairLedger.Proofs.Pull.Text

/-!
# What a reader finds in the report

The report is put together from texts that nothing escapes: names of owners and repositories, the
state in the words of the hosting service, numbers and times.  Read line by line it still says what
the ledger says and no more.  A text of ended lines is taken apart piece by piece
(`Report.Consists`), which gives the lines of a page (`Report.linesOf_page`) as long as no field
holds a line feed.

No field of a record that came about by proper calls does (`Ledger.belongs_run`): names cannot hold
a blank, and the state is the one thing that the hosting service words.  Nor are two headings of
different pull requests the same (`Report.headingOf_injective`), so that the lines below a heading
belong to one record: `Ledger.report_lists_ledger`.
-/

namespace RepairLedger

namespace Report

/-! ### Lines -/

/-- The lines of a text: what stands between its line feeds. -/
def linesOf (text : String) : List String :=
  (Text.pieces '\n' text.toList).map String.ofList

/-- Does the line begin with the mark? -/
def begins (mark line : String) : Bool :=
  mark.toList.isPrefixOf line.toList

/-- The lines between a heading and the next one. -/
def under (heading : String) (lines : List String) : List String :=
  ((lines.dropWhile (· ≠ heading)).drop 1).takeWhile fun line => !begins "## " line

/-- The text holds a line feed nowhere. -/
def IsLine (text : String) : Prop :=
  '\n' ∉ text.toList

instance (text : String) : Decidable (IsLine text) :=
  inferInstanceAs (Decidable (¬ _))

/-- The text is made of these lines, each of them ended. -/
def Consists (text : String) (lines : List String) : Prop :=
  ∀ rest, linesOf (text ++ rest) = lines ++ linesOf rest

variable {a b text : String} {ls ms : List String}

theorem isLine_append : IsLine (a ++ b) ↔ IsLine a ∧ IsLine b := by
  simp [IsLine]

namespace Consists

theorem empty : Consists "" [] := fun rest => by simp

theorem line (h : IsLine a) : Consists (line a) [a] := by
  intro rest
  have hpieces := Text.pieces_append h rest.toList
  simp [linesOf, Report.line, hpieces]

theorem append (ha : Consists a ls) (hb : Consists b ms) : Consists (a ++ b) (ls ++ ms) := by
  intro rest
  rw [String.append_assoc, ha, hb, List.append_assoc]

theorem join {α : Type} {f : α → String} {g : α → List String} {xs : List α}
    (h : ∀ x ∈ xs, Consists (f x) (g x)) : Consists (String.join (xs.map f)) (xs.flatMap g) := by
  induction xs with
  | nil => exact empty
  | cons x xs ih =>
    rw [List.map_cons, String.join_cons, List.flatMap_cons]
    exact (h x List.mem_cons_self).append (ih fun y hy => h y (List.mem_cons_of_mem _ hy))

/-- Behind the last line feed there is nothing, which counts as a line. -/
theorem linesOf_eq (h : Consists text ls) : linesOf text = ls ++ [""] := by
  have := h ""
  rwa [String.append_empty] at this

end Consists

/-- Only its first characters decide how a line begins. -/
theorem begins_append {mark : String} (h : mark.toList.length ≤ a.toList.length) :
    begins mark (a ++ b) = begins mark a := by
  rw [Bool.eq_iff_iff]
  simp only [begins, List.isPrefixOf_iff_prefix, String.toList_append]
  constructor
  · intro hp
    exact List.prefix_of_prefix_length_le hp (List.prefix_append _ _) h
  · exact fun hp => hp.trans (List.prefix_append _ _)

/-! ### The lines of a page -/

/-- The heading of the section of a pull request. -/
def headingOf (k : PullId) : String :=
  "## [" ++ k.text ++ "](https://github.com/" ++ k.slug ++ "/pull/" ++ number k.number ++ ")"

/-- The line of a rule. -/
def ruleLine (r : Repair) : String :=
  "* [Rule " ++ number r.rule ++
    "](https://rules.sonarsource.com/java/RSPEC-" ++ number r.rule ++ ")"

/-- The lines of a repair: the rule, the violations before the tool ran, and how many of them it
removed, which is none if there are more of them afterwards. -/
def repairLines (r : Repair) : List String :=
  [ruleLine r,
    "    - Number of violations found: " ++ Numeral.textOf r.before.toNat,
    "    - Number of violations repaired: " ++ Numeral.textOf (r.before.toNat - r.after.toNat : ℕ)]

/-- What is said of the end of a pull request. -/
def clause (s : Summary) : String :=
  match s.endedAt with
  | none => ""
  | some t => " and " ++ s.status ++ " at " ++ t.display

theorem opening_eq (s : Summary) :
    opening s = "This PR was opened at " ++ (s.openedAt.display ++ (clause s ++ ".")) := by
  unfold opening clause
  cases s.endedAt <;> simp only [toString, String.append_assoc]

/-- The lines below a heading. -/
def body (s : Summary) : List String :=
  [opening s, edits s, announcement s] ++ (if s.repairs.isEmpty then [] else [""]) ++
    s.repairs.flatMap repairLines

/-- The lines of a section. -/
def sectionLines (s : Summary) : List String :=
  "" :: heading s :: body s

/-- The lines of the page with the given sections. -/
def pageLines (summaries : List Summary) : List String :=
  ["# Achievements",
    "This document presents an overview of the pull requests performed with Sorald."] ++
    summaries.flatMap sectionLines

theorem isLine_textOf (n : ℕ) : IsLine (Numeral.textOf n) := by
  rw [IsLine, Numeral.toList_textOf]
  exact PullId.not_mem_digits (by decide) n

theorem isLine_number (n : UInt64) : IsLine (number n) :=
  isLine_textOf n.toNat

theorem isLine_display (t : Instant) : IsLine t.display := by
  have hpadded : ∀ width n, '\n' ∉ Numeral.padded width n := fun width n h =>
    absurd (List.all_eq_true.1 (Numeral.all_isDigit_padded width n) _ h) (by decide)
  simp only [IsLine, Instant.display, Instant.dateChars, Instant.yearChars, Instant.clockChars,
    String.toList_ofList, List.mem_append, List.mem_cons, hpadded, not_or]
  split
  · simp [hpadded]
  · split <;> simp [hpadded]

theorem toNat_repaired (r : Repair) :
    r.repaired.toNat = r.before.toNat - r.after.toNat := by
  unfold Repair.repaired
  split
  · rename_i h
    exact UInt64.toNat_sub_of_le _ _ h
  · rename_i h
    rw [UInt64.le_iff_toNat_le] at h
    simp only [UInt64.toNat_zero]
    omega

theorem consists_repair (r : Repair) : Consists (repair r) (repairLines r) := by
  have hrule : IsLine (ruleLine r) := by
    simp only [ruleLine, isLine_append, isLine_number, and_true]
    decide +kernel
  have hfound : IsLine ("    - Number of violations found: " ++ Numeral.textOf r.before.toNat) :=
    isLine_append.2 ⟨by decide +kernel, isLine_textOf _⟩
  have hrepaired : IsLine ("    - Number of violations repaired: " ++
      Numeral.textOf (r.before.toNat - r.after.toNat : ℕ)) :=
    isLine_append.2 ⟨by decide +kernel, isLine_textOf _⟩
  have heq : repair r = line (ruleLine r) ++
      line ("    - Number of violations found: " ++ Numeral.textOf r.before.toNat) ++
      line ("    - Number of violations repaired: " ++
        Numeral.textOf (r.before.toNat - r.after.toNat : ℕ)) := by
    simp only [repair, ruleLine, number, Repair.found, toNat_repaired, toString]
  rw [heq]
  exact ((Consists.line hrule).append (.line hfound)).append (.line hrepaired)

/-- Neither the name of the repository nor the state holds a line feed. -/
def IsPlain (s : Summary) : Prop :=
  IsLine s.slug ∧ IsLine s.status

theorem isLine_opening {s : Summary} (h : IsLine s.status) : IsLine (opening s) := by
  have hclause : IsLine (clause s) := by
    unfold clause
    split
    · decide
    · simp only [isLine_append, isLine_display, h, and_true]
      decide +kernel
  simp only [opening_eq, isLine_append, isLine_display, hclause, true_and]
  decide +kernel

theorem consists_sectionOf {s : Summary} (h : IsPlain s) :
    Consists (sectionOf s) (sectionLines s) := by
  obtain ⟨hslug, hstatus⟩ := h
  have hheading : IsLine (heading s) := by
    simp only [heading, toString, isLine_append, hslug, isLine_number, and_true]
    decide +kernel
  have hedits : IsLine (edits s) := by unfold edits; split <;> decide +kernel
  have hannouncement : IsLine (announcement s) := by
    unfold announcement; split <;> decide +kernel
  have hgap : Consists (if s.repairs.isEmpty then "" else "\n")
      (if s.repairs.isEmpty then [] else [""]) := by
    split
    · exact .empty
    · exact .line (a := "") (by decide)
  have hrepairs : Consists (String.join (s.repairs.map repair)) (s.repairs.flatMap repairLines) :=
    .join fun r _ => consists_repair r
  exact (((((Consists.line (a := "") (by decide)).append (.line hheading)).append
    (.line (isLine_opening hstatus))).append (.line hedits)).append (.line hannouncement)).append
    hgap |>.append hrepairs

theorem linesOf_page {ss : List Summary} (h : ∀ s ∈ ss, IsPlain s) :
    linesOf (page ss) = pageLines ss ++ [""] := by
  refine Consists.linesOf_eq ?_
  have hpreamble : Consists preamble ["# Achievements",
      "This document presents an overview of the pull requests performed with Sorald."] :=
    (Consists.line (by decide +kernel)).append (.line (by decide +kernel))
  exact hpreamble.append (.join fun s hs => consists_sectionOf (h s hs))

/-! ### Marks -/

/-- What no line of a section but its heading begins with. -/
def Unmarked (line : String) : Prop :=
  begins "# " line = false ∧ begins "## " line = false

theorem begins_heading (s : Summary) :
    begins "# " (heading s) = false ∧ begins "## " (heading s) = true := by
  have h : heading s = "## [" ++ (s.slug ++ ("#" ++ number s.number ++ "](https://github.com/" ++
      s.slug ++ "/pull/" ++ number s.number ++ ")")) := by
    simp only [heading, toString, String.append_assoc]
  rw [h, begins_append (by decide), begins_append (by decide)]
  decide

theorem begins_ruleLine (r : Repair) : Unmarked (ruleLine r) ∧ begins "* " (ruleLine r) = true := by
  simp only [Unmarked, ruleLine, String.append_assoc]
  rw [begins_append (by decide), begins_append (by decide), begins_append (by decide)]
  decide

/-- What does not begin with a mark does not if it goes on. -/
theorem unmarked_append (hlen : 3 ≤ a.toList.length)
    (h : Unmarked a ∧ begins "* " a = false) (b : String) :
    Unmarked (a ++ b) ∧ begins "* " (a ++ b) = false := by
  unfold Unmarked at h ⊢
  rwa [begins_append (show "# ".toList.length ≤ _ from le_trans (by decide) hlen),
    begins_append (show "## ".toList.length ≤ _ from le_trans (by decide) hlen),
    begins_append (show "* ".toList.length ≤ _ from le_trans (by decide) hlen)]

instance (line : String) : Decidable (Unmarked line) :=
  inferInstanceAs (Decidable (_ ∧ _))

theorem begins_sentences (s : Summary) :
    ∀ line ∈ [opening s, edits s, announcement s] ++ (if s.repairs.isEmpty then [] else [""]),
      Unmarked line ∧ begins "* " line = false := by
  have hopening : Unmarked (opening s) ∧ begins "* " (opening s) = false := by
    rw [opening_eq]
    exact unmarked_append (by decide +kernel) (by decide +kernel) _
  have hedits : Unmarked (edits s) ∧ begins "* " (edits s) = false := by
    unfold edits; split <;> decide +kernel
  have hannouncement : Unmarked (announcement s) ∧ begins "* " (announcement s) = false := by
    unfold announcement; split <;> decide +kernel
  have hgap : ∀ line ∈ (if s.repairs.isEmpty then [] else [""]),
      Unmarked line ∧ begins "* " line = false := by
    split
    · simp
    · simp only [List.mem_singleton, forall_eq]
      decide
  intro line hline
  simp only [List.mem_append, List.mem_cons, List.not_mem_nil, or_false] at hline
  obtain (rfl | rfl | rfl) | h := hline
  · exact hopening
  · exact hedits
  · exact hannouncement
  · exact hgap line h

theorem filter_repairLines (r : Repair) :
    (∀ line ∈ repairLines r, Unmarked line) ∧
      (repairLines r).filter (begins "* ") = [ruleLine r] := by
  obtain ⟨hrule, hstar⟩ := begins_ruleLine r
  obtain ⟨hfound, hfound'⟩ := unmarked_append (a := "    - Number of violations found: ")
    (by decide +kernel) (by decide +kernel) (Numeral.textOf r.before.toNat)
  obtain ⟨hrepaired, hrepaired'⟩ := unmarked_append (a := "    - Number of violations repaired: ")
    (by decide +kernel) (by decide +kernel)
    (Numeral.textOf (r.before.toNat - r.after.toNat : ℕ))
  constructor
  · simp only [repairLines, List.mem_cons, List.not_mem_nil, or_false]
    rintro line (rfl | rfl | rfl)
    · exact hrule
    · exact hfound
    · exact hrepaired
  · simp only [repairLines, List.filter_cons, hstar, hfound', hrepaired', if_true, List.filter_nil]
    rfl

theorem unmarked_body {s : Summary} {line : String} (h : line ∈ body s) : Unmarked line := by
  rcases List.mem_append.1 h with h | h
  · exact (begins_sentences s line h).1
  · obtain ⟨r, -, hr⟩ := List.mem_flatMap.1 h
    exact (filter_repairLines r).1 line hr

theorem filter_body (s : Summary) : (body s).filter (begins "* ") = s.repairs.map ruleLine := by
  have hnone : ([opening s, edits s, announcement s] ++
      (if s.repairs.isEmpty then [] else [""])).filter (begins "* ") = [] :=
    List.filter_eq_nil_iff.2 fun line hline => by simp [(begins_sentences s line hline).2]
  rw [body, List.filter_append, hnone, List.nil_append, List.filter_flatMap,
    List.map_eq_flatMap]
  exact congrArg (s.repairs.flatMap ·) (funext fun r => (filter_repairLines r).2)

theorem filter_sectionLines (s : Summary) :
    (sectionLines s).filter (begins "# ") = [] ∧
      (sectionLines s).filter (begins "## ") = [heading s] := by
  obtain ⟨hone, htwo⟩ := begins_heading s
  have hbody : (body s).filter (begins "# ") = [] ∧ (body s).filter (begins "## ") = [] :=
    ⟨List.filter_eq_nil_iff.2 fun line h => by simp [(unmarked_body h).1],
      List.filter_eq_nil_iff.2 fun line h => by simp [(unmarked_body h).2]⟩
  have hempty : begins "# " "" = false ∧ begins "## " "" = false := by decide
  simp [sectionLines, hone, htwo, hbody, hempty]

theorem filter_title (ss : List Summary) :
    (pageLines ss ++ [""]).filter (begins "# ") = ["# Achievements"] := by
  have hsections : (ss.flatMap sectionLines).filter (begins "# ") = [] := by
    simp [List.filter_flatMap, (filter_sectionLines _).1]
  rw [pageLines, List.filter_append, List.filter_append, hsections]
  decide +kernel

theorem filter_headings (ss : List Summary) :
    (pageLines ss ++ [""]).filter (begins "## ") = ss.map heading := by
  have hsections : (ss.flatMap sectionLines).filter (begins "## ") = ss.map heading := by
    simp [List.filter_flatMap, (filter_sectionLines _).2, List.map_eq_flatMap]
  have hpreamble : ["# Achievements",
      "This document presents an overview of the pull requests performed with Sorald."].filter
        (begins "## ") = [] := by
    decide +kernel
  have hend : [""].filter (begins "## ") = [] := by decide
  rw [pageLines, List.filter_append, List.filter_append, hpreamble, hsections, hend,
    List.nil_append, List.append_nil]

/-! ### Sections -/

theorem under_eq {heading : String} {before below after : List String} (hb : heading ∉ before)
    (hbelow : ∀ line ∈ below, begins "## " line = false)
    (ha : ∀ line ∈ after.head?, begins "## " line = true) :
    under heading (before ++ heading :: below ++ after) = below := by
  have hdrop : (before ++ (heading :: (below ++ after))).dropWhile (· ≠ heading) =
      heading :: (below ++ after) := by
    rw [List.dropWhile_append_of_pos, List.dropWhile_cons_of_neg (by simp)]
    intro line hline
    simp only [ne_eq, decide_not, Bool.not_eq_true', decide_eq_false_iff_not]
    exact fun h => hb (h ▸ hline)
  unfold under
  rw [List.append_assoc, List.cons_append, hdrop, List.drop_one, List.tail_cons,
    List.takeWhile_append_of_pos fun line hline => by simp [hbelow line hline]]
  cases after with
  | nil => simp
  | cons line rest =>
    rw [List.takeWhile_cons_of_neg, List.append_nil]
    simp [ha line rfl]

/-- The lines below a heading of the page, if no other section has that heading. -/
theorem under_pageLines {before after : List Summary} {s : Summary}
    (h : heading s ∉ before.map heading) :
    under (heading s) (pageLines (before ++ s :: after) ++ [""]) = body s ++ [""] := by
  -- The empty line behind a section belongs to the next one, or stands at the end of the page.
  obtain ⟨rest, hrest, hhead⟩ : ∃ rest, after.flatMap sectionLines ++ [""] = "" :: rest ∧
      ∀ line ∈ rest.head?, begins "## " line = true := by
    cases after with
    | nil => exact ⟨[], rfl, by simp⟩
    | cons s' after =>
      refine ⟨heading s' :: (body s' ++ (after.flatMap sectionLines ++ [""])), ?_, ?_⟩
      · simp [sectionLines]
      · rintro line ⟨⟩
        exact (begins_heading s').2
  have hsplit : pageLines (before ++ s :: after) ++ [""] =
      (pageLines before ++ [""]) ++ heading s :: (body s ++ [""]) ++ rest := by
    calc pageLines (before ++ s :: after) ++ [""]
      _ = pageLines before ++ [""] ++
          heading s :: (body s ++ (after.flatMap sectionLines ++ [""])) := by
        simp [pageLines, sectionLines]
      _ = (pageLines before ++ [""]) ++ heading s :: (body s ++ [""]) ++ rest := by
        rw [hrest]
        simp
  rw [hsplit]
  refine under_eq ?_ ?_ hhead
  · intro hmem
    have hfilter : heading s ∈ (pageLines before ++ [""]).filter (begins "## ") :=
      List.mem_filter.2 ⟨hmem, (begins_heading s).2⟩
    rw [filter_headings] at hfilter
    exact h hfilter
  · intro line hline
    rcases List.mem_append.1 hline with hline | hline
    · exact (unmarked_body hline).2
    · rw [List.mem_singleton.1 hline]
      decide

/-! ### Headings -/

/-- The heading tells a valid id: the owner ends at the first slash, the repository at the first
hash after it, and the number at the bracket. -/
theorem headingOf_injective {k k' : PullId} (hk : k.IsValid) (hk' : k'.IsValid)
    (h : headingOf k = headingOf k') : k = k' := by
  have hslash : ∀ {name : String}, PullId.isName name = true → '/' ∉ name.toList :=
    PullId.not_mem_name (by decide)
  have hhash : ∀ {name : String}, PullId.isName name = true → '#' ∉ name.toList :=
    PullId.not_mem_name (by decide)
  have hbracket : ∀ n, ']' ∉ Numeral.digits n := PullId.not_mem_digits (by decide)
  have hlink : "](https://github.com/".toList = ']' :: "(https://github.com/".toList := by
    decide +kernel
  have h := congrArg String.toList h
  simp only [headingOf, String.toList_append, PullId.toList_text, hlink, List.append_assoc,
    List.append_cancel_left_eq, List.cons_append] at h
  obtain ⟨howner, h⟩ := Text.cut_injective (hslash hk.1) (hslash hk'.1) h
  obtain ⟨hrepo, h⟩ := Text.cut_injective (hhash hk.2.1) (hhash hk'.2.1) h
  obtain ⟨hnumber, -⟩ := Text.cut_injective (hbracket _) (hbracket _) h
  exact PullId.eq_of_toList howner hrepo (UInt64.toNat_inj.1 (Numeral.digits_injective hnumber))

/-- A summary that names the repository and the number of an id has its heading. -/
theorem heading_eq {s : Summary} {k : PullId} (hslug : s.slug = k.slug)
    (hnumber : s.number = k.number) : heading s = headingOf k := by
  simp only [heading, headingOf, hslug, hnumber, PullId.text, PullId.slug, number, toString,
    String.append_assoc]

/-! ### What a section tells -/

/-- What the lines below the heading of a record say: when the pull request was opened and, once it
has ended, when and how it did; whether there were manual edits; and the repairs in the order of
their rules. -/
def Tells (below : List String) (r : Record) : Prop :=
  ∃ (clause tense : String) (repairs sorted : List Repair),
    r.statistics.repairs = .ok repairs ∧ sorted.Perm repairs ∧
    sorted.Pairwise (fun a b => a.rule ≤ b.rule) ∧
    below = ["This PR was opened at " ++ r.state.createdAt.display ++ clause ++ ".",
      if r.edits.isEmpty then "The patch was generated fully automatically with Sorald."
      else "Some manual edits were performed after applying Sorald.",
      "It " ++ tense ++ " the following repairs:"] ++ (if sorted.isEmpty then [] else [""]) ++
      sorted.flatMap repairLines ++ [""] ∧
    below.filter (begins "* ") = sorted.map ruleLine ∧
    (r.state.closedAt = none ∧ r.state.mergedAt = none → clause = "" ∧ tense = "provides") ∧
    ∀ t, r.state.closedAt.or r.state.mergedAt = some t →
      clause = " and " ++ r.state.status ++ " at " ++ t.display ∧ tense = "provided"

/-- The section of a record tells what is in it. -/
theorem tells_body {r : Record} {s : Summary} (hs : Summary.ofRecord r = .ok s) :
    Tells (body s ++ [""]) r := by
  unfold Summary.ofRecord at hs
  split at hs
  · cases hs
  rename_i repairs hrepairs
  obtain rfl := Except.ok.inj hs
  set s : Summary := ⟨r.slug, r.state.number, r.state.createdAt, r.state.endedAt, r.state.status,
    !r.edits.isEmpty, Summary.sortRepairs repairs⟩
  refine ⟨clause s, if s.endedAt.isSome then "provided" else "provides", repairs,
    Summary.sortRepairs repairs, hrepairs, Summary.perm_sortRepairs repairs,
    Summary.pairwise_sortRepairs repairs, ?_, ?_, ?_, ?_⟩
  · have hopening : "This PR was opened at " ++ r.state.createdAt.display ++ clause s ++ "." =
        opening s := by
      rw [opening_eq]
      simp only [String.append_assoc, s]
    have hannouncement : "It " ++ (if s.endedAt.isSome then "provided" else "provides") ++
        " the following repairs:" = announcement s := by
      unfold announcement
      split <;> decide +kernel
    have hedits : (if r.edits.isEmpty
        then "The patch was generated fully automatically with Sorald."
        else "Some manual edits were performed after applying Sorald.") = edits s := by
      unfold edits
      cases h : r.edits.isEmpty <;> simp [s, h]
    rw [hopening, hedits, hannouncement]
    rfl
  · rw [List.filter_append, filter_body, show [""].filter (begins "* ") = [] by decide,
      List.append_nil]
  · rintro ⟨hclosed, hmerged⟩
    have hnone : s.endedAt = none := by simp [s, PullState.endedAt, hclosed, hmerged]
    simp only [clause, hnone]
    exact ⟨trivial, rfl⟩
  · intro t ht
    have hsome : s.endedAt = some t := ht
    simp only [clause, hsome]
    exact ⟨rfl, rfl⟩

end Report

/-! ### Records -/

open Report

/-- What is known of a call: its id is valid, the statistics that it captures are judged, and the
hosting service answers with the number that it was asked for and words the state on one line. -/
structure Call.IsProper (c : Call) : Prop where
  valid : c.id.IsValid
  judged : ∀ capture, c.action = .create capture → capture.statistics.IsJudged
  opened : ∀ capture, c.action = .create capture →
    capture.state.number = c.id.number ∧ IsLine capture.state.state
  closed : ∀ capture, c.action = .finalize capture →
    capture.state.number = c.id.number ∧ IsLine capture.state.state

/-- The record is one of this pull request, and no field of it breaks a line. -/
structure Record.Belongs (k : PullId) (r : Record) : Prop where
  valid : k.IsValid
  slug : r.slug = k.slug
  state : r.state.number = k.number ∧ IsLine r.state.state
  judged : r.statistics.IsJudged

namespace Ledger

variable {l : Ledger} {c : Call} {k : PullId} {r : Record}

/-- What an accepted call makes belongs to its pull request if what was there did. -/
theorem belongs_of_perform (hc : c.IsProper) (hl : ∀ q, l.get? c.id = some q → q.Belongs c.id)
    (h : l.perform c = .ok r) : r.Belongs c.id := by
  obtain ⟨capture, ha, -, rfl⟩ | ⟨capture, q, ha, hq, rfl⟩ | ⟨edit, q, -, hq, rfl⟩ :=
    perform_cases h
  · exact ⟨hc.valid, rfl, hc.opened capture ha, hc.judged capture ha⟩
  · have hbelongs := hl q hq
    exact ⟨hc.valid, hbelongs.slug, hc.closed capture ha, hbelongs.judged⟩
  · have hbelongs := hl q hq
    exact ⟨hc.valid, hbelongs.slug, hbelongs.state, hbelongs.judged⟩

/-- What proper calls make of a ledger whose records belong to their pull requests is another one.
-/
theorem belongs_run {calls : List Call} (hcalls : ∀ c ∈ calls, c.IsProper)
    (hl : ∀ k r, l.get? k = some r → r.Belongs k) (h : (l.run calls).get? k = some r) :
    r.Belongs k := by
  induction calls generalizing l with
  | nil => exact hl k r h
  | cons c calls ih =>
    refine ih (fun d hd => hcalls d (List.mem_cons_of_mem _ hd)) (fun k r hk => ?_) h
    cases hp : l.perform c with
    | error e =>
      rw [after_of_error hp] at hk
      exact hl k r hk
    | ok made =>
      rw [after_of_ok hp] at hk
      by_cases hid : k = c.id
      · subst hid
        rw [get?_upsert_self, Option.some.injEq] at hk
        subst hk
        exact belongs_of_perform (hcalls c List.mem_cons_self) (fun q => hl c.id q) hp
      · rw [get?_upsert_of_ne hid] at hk
        exact hl k r hk

/-- The summary of a record that belongs to a pull request has its heading and breaks no line. -/
theorem heading_of_belongs {s : Summary} (h : r.Belongs k) (hs : Summary.ofRecord r = .ok s) :
    heading s = headingOf k ∧ IsPlain s := by
  obtain ⟨repairs, hrepairs⟩ := h.judged.exists_repairs
  unfold Summary.ofRecord at hs
  rw [hrepairs] at hs
  obtain rfl := Except.ok.inj hs
  refine ⟨heading_eq h.slug h.state.1, ?_, ?_⟩
  · -- A line feed is a blank, and names hold none.
    have hname : ∀ {name : String}, PullId.isName name = true → IsLine name :=
      PullId.not_mem_name (by decide)
    simp only [h.slug, PullId.slug, toString, isLine_append, hname h.valid.1, hname h.valid.2.1,
      and_true, true_and]
    decide
  · show IsLine r.state.status
    unfold PullState.status
    split
    · decide
    · exact h.state.2

/-- Whatever is related to a list item by item has an item in it that is related to each. -/
theorem exists_split_of_forall₂ {α β : Type} {R : α → β → Prop} {as : List α} {bs : List β}
    (h : List.Forall₂ R as bs) {a : α} (ha : a ∈ as) :
    ∃ before b after, bs = before ++ b :: after ∧ R a b := by
  induction h with
  | nil => cases ha
  | @cons x b as bs hx _ ih =>
    rcases List.mem_cons.1 ha with rfl | ha
    · exact ⟨[], b, bs, rfl, hx⟩
    · obtain ⟨before, b', after, rfl, hb⟩ := ih ha
      exact ⟨b :: before, b', after, rfl, hb⟩

/-- The report of records that belong to their pull requests is a page of their summaries, which
have the headings of the ids and break no line. -/
theorem exists_page (h : ∀ e ∈ l.entries, e.2.Belongs e.1) :
    ∃ summaries, l.report = .ok (page summaries) ∧
      List.Forall₂ (fun e s => heading s = headingOf e.1 ∧ IsPlain s ∧
        Summary.ofRecord e.2 = .ok s) l.entries summaries := by
  have hsummary : ∀ e ∈ l.entries, ∃ s, Summary.ofRecord e.2 = .ok s := by
    intro e he
    obtain ⟨s, hs, -⟩ := Summary.exists_ofRecord (h e he).judged
    exact ⟨s, hs⟩
  obtain ⟨summaries, hreport, hall⟩ := exists_report hsummary
  refine ⟨summaries, hreport, ((List.forall₂_and_left _ _).2 ⟨h, hall⟩).imp fun e s hes => ?_⟩
  obtain ⟨hheading, hplain⟩ := heading_of_belongs hes.1 hes.2
  exact ⟨hheading, hplain, hes.2⟩

/-- No two sections have the same heading. -/
theorem nodup_headings (hnodup : l.ids.Nodup) (h : ∀ e ∈ l.entries, e.1.IsValid) :
    (l.ids.map headingOf).Nodup := by
  refine hnodup.map_on fun k hk k' hk' heq => ?_
  obtain ⟨e, he, rfl⟩ := List.mem_map.1 hk
  obtain ⟨e', he', rfl⟩ := List.mem_map.1 hk'
  exact headingOf_injective (h e he) (h e' he') heq

/-- **The report lists exactly the ledger.**  In a ledger that grew from nothing by proper calls,
the lines of the report that begin like a title are the one title, those that begin like the heading
of a section are the headings of the ids in their order, and the lines between the heading of an id
and the next heading tell what is in its record. -/
theorem report_lists_ledger (calls : List Call) (h : ∀ c ∈ calls, c.IsProper) :
    ∃ text, (empty.run calls).report = .ok text ∧
      (linesOf text).filter (begins "# ") = ["# Achievements"] ∧
      (linesOf text).filter (begins "## ") = (empty.run calls).ids.map headingOf ∧
      ∀ k r, (k, r) ∈ (empty.run calls).entries →
        Tells (under (headingOf k) (linesOf text)) r := by
  set l := empty.run calls
  have hnodup : l.ids.Nodup := (Reachable.empty.run calls).nodup
  have hbelongs : ∀ e ∈ l.entries, e.2.Belongs e.1 := fun e he =>
    belongs_run h (fun _ _ hnone => by rw [get?_empty] at hnone; cases hnone)
      ((mem_entries_iff hnodup).1 he)
  obtain ⟨summaries, hreport, hall⟩ := exists_page hbelongs
  have hheadings : summaries.map heading = l.ids.map headingOf := by
    rw [ids, List.map_map, ← List.forall₂_eq_eq_eq, List.forall₂_map_left_iff,
      List.forall₂_map_right_iff]
    exact hall.flip.imp fun s e hes => hes.1
  have hdistinct : (summaries.map heading).Nodup := by
    rw [hheadings]
    exact nodup_headings hnodup fun e he => (hbelongs e he).valid
  have hplain : ∀ s ∈ summaries, IsPlain s := by
    intro s hs
    obtain ⟨_, e, _, -, hes⟩ := exists_split_of_forall₂ hall.flip hs
    exact hes.2.1
  have hlines : linesOf (page summaries) = pageLines summaries ++ [""] := linesOf_page hplain
  refine ⟨page summaries, hreport, ?_, ?_, fun k r hr => ?_⟩
  · rw [hlines, filter_title]
  · rw [hlines, filter_headings, hheadings]
  · obtain ⟨before, s, after, rfl, hheading, -, hs⟩ := exists_split_of_forall₂ hall hr
    have hother : heading s ∉ before.map heading := by
      rw [List.map_append, List.map_cons] at hdistinct
      exact fun hmem => List.disjoint_of_nodup_append hdistinct hmem List.mem_cons_self
    rw [hlines, ← hheading, under_pageLines hother]
    exact tells_body hs

/-- A pull request that was closed, whose repairs are not in the order of their rules and left more
violations of one rule than there were, and another one that is open. -/
theorem report_lists_ledger_closed_and_open :
    let k : PullId := ⟨"acme", "widget", 42⟩
    let other : PullId := ⟨"acme", "widget", 7⟩
    let natural (n : UInt64) : Json.Value := .ofUInt64 n
    let payload : Json.Members := [("repairs", .array [
      .object [("ruleKey", .string "2095"), ("nbViolationsBefore", natural 3),
        ("nbViolationsAfter", natural 1)],
      .object [("ruleKey", natural 117), ("nbViolationsBefore", natural 0),
        ("nbViolationsAfter", natural 2)]])]
    let state (n : UInt64) : PullState := ⟨"url", .epoch, none, none, "open", false, n⟩
    let closed : PullState := ⟨"url", .epoch, some .epoch, none, "closed", false, 42⟩
    let calls : List Call := [⟨k, .create ⟨state 42, "diff", ⟨payload⟩⟩, .epoch⟩,
      ⟨other, .create ⟨state 7, "other", .empty⟩, .epoch⟩, ⟨k, .finalize ⟨closed, "final"⟩, .epoch⟩]
    ∃ text, (empty.run calls).report = .ok text ∧
      (linesOf text).filter (begins "## ") = [headingOf k, headingOf other] ∧
      ∃ sorted : List Repair, sorted.Perm [⟨2095, 3, 1⟩, ⟨117, 0, 2⟩] ∧
        (under (headingOf k) (linesOf text)).filter (begins "* ") = sorted.map ruleLine := by
  intro k other natural payload state closed calls
  have hpayload : (Statistics.ofValue (.object payload)).toOption = some ⟨payload⟩ := by
    decide +kernel
  have hrepairs : (Statistics.repairs ⟨payload⟩).toOption =
      some [⟨2095, 3, 1⟩, ⟨117, 0, 2⟩] := by
    decide +kernel
  have hproper : ∀ c ∈ calls, c.IsProper := by
    intro c hc
    simp only [calls, List.mem_cons, List.not_mem_nil, or_false] at hc
    obtain rfl | rfl | rfl := hc
    · refine ⟨by decide +kernel, ?_, ?_, ?_⟩
      · rintro capture ⟨⟩
        exact .inr ⟨.object payload, eq_ok_of_toOption hpayload⟩
      · rintro capture ⟨⟩
        exact ⟨rfl, by decide +kernel⟩
      · rintro capture ⟨⟩
    · refine ⟨by decide +kernel, ?_, ?_, ?_⟩
      · rintro capture ⟨⟩
        exact .inl rfl
      · rintro capture ⟨⟩
        exact ⟨rfl, by decide +kernel⟩
      · rintro capture ⟨⟩
    · refine ⟨by decide +kernel, ?_, ?_, ?_⟩
      · rintro capture ⟨⟩
      · rintro capture ⟨⟩
      · rintro capture ⟨⟩
        exact ⟨rfl, by decide +kernel⟩
  obtain ⟨text, hreport, -, hheadings, hentries⟩ := report_lists_ledger calls hproper
  obtain ⟨r, hr, hstatistics⟩ : ∃ r, (k, r) ∈ (empty.run calls).entries ∧
      r.statistics = ⟨payload⟩ := ⟨_, List.mem_cons_self, rfl⟩
  obtain ⟨_, _, repairs, sorted, hread, hperm, -, -, hstars, -⟩ := hentries k r hr
  rw [hstatistics, eq_ok_of_toOption hrepairs] at hread
  obtain rfl := Except.ok.inj hread
  exact ⟨text, hreport, hheadings, sorted, hperm, hstars⟩

end Ledger

end RepairLedger
