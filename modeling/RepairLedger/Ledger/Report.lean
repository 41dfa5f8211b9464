import RepairLedger.Ledger.Basic
import RepairLedger.Ledger.Error

/-!
# The report

A page of Markdown with a section for each pull request of the ledger, in its order.  A section
depends only on the summary of its record (`Summary.ofRecord`), and the page is the preamble
followed by the sections.
-/

namespace RepairLedger

/-- What the report says of a pull request. -/
structure Summary where
  slug : String
  number : UInt64
  openedAt : Instant
  endedAt : Option Instant
  status : String
  hasEdits : Bool
  /-- Sorted by the number of the rule; repairs of one rule keep their order. -/
  repairs : List Repair
deriving DecidableEq

namespace Summary

/-- The repairs sorted by the number of their rule. -/
def sortRepairs (repairs : List Repair) : List Repair :=
  repairs.mergeSort fun a b => a.rule ≤ b.rule

/-- The summary of a record, unless its statistics are malformed. -/
def ofRecord (r : Record) : Except LedgerError Summary :=
  match r.statistics.repairs with
  | .error flaw => .error (.malformedStatistics flaw.message)
  | .ok repairs => .ok {
      slug := r.slug
      number := r.state.number
      openedAt := r.state.createdAt
      endedAt := r.state.endedAt
      status := r.state.status
      hasEdits := !r.edits.isEmpty
      repairs := sortRepairs repairs }

end Summary

/-! ### Markdown -/

namespace Report

/-- A number in decimal. -/
def number (n : UInt64) : String :=
  Numeral.textOf n.toNat

/-- A line. -/
def line (text : String) : String :=
  text ++ "\n"

/-- The lines of the repairs of a rule. -/
def repair (r : Repair) : String :=
  let rule := number r.rule
  line s!"* [Rule {rule}](https://rules.sonarsource.com/java/RSPEC-{rule})" ++
    line s!"    - Number of violations found: {number r.found}" ++
    line s!"    - Number of violations repaired: {number r.repaired}"

/-- The sentence about when the pull request was opened and ended. -/
def opening (s : Summary) : String :=
  let ending := match s.endedAt with
    | none => ""
    | some t => s!" and {s.status} at {t.display}"
  s!"This PR was opened at {s.openedAt.display}{ending}."

/-- The sentence about manual edits. -/
def edits (s : Summary) : String :=
  if s.hasEdits then "Some manual edits were performed after applying Sorald."
  else "The patch was generated fully automatically with Sorald."

/-- The sentence before the repairs. -/
def announcement (s : Summary) : String :=
  if s.endedAt.isSome then "It provided the following repairs:"
  else "It provides the following repairs:"

/-- The heading of a section. -/
def heading (s : Summary) : String :=
  let number := number s.number
  s!"## [{s.slug}#{number}](https://github.com/{s.slug}/pull/{number})"

/-- The section of a pull request. -/
def sectionOf (s : Summary) : String :=
  "\n" ++ line (heading s) ++ line (opening s) ++ line (edits s) ++ line (announcement s) ++
    (if s.repairs.isEmpty then "" else "\n") ++ String.join (s.repairs.map repair)

/-- What stands before the first section. -/
def preamble : String :=
  line "# Achievements" ++
    line "This document presents an overview of the pull requests performed with Sorald."

/-- The page with the given sections. -/
def page (summaries : List Summary) : String :=
  preamble ++ String.join (summaries.map sectionOf)

end Report

namespace Ledger

/-- The summaries of the records in the order of the ledger, or the first error. -/
def summaries (l : Ledger) : Except LedgerError (List Summary) :=
  l.entries.mapM fun (_, record) => Summary.ofRecord record

/-- The report. -/
def report (l : Ledger) : Except LedgerError String :=
  l.summaries.map Report.page

end Ledger

end RepairLedger
