import RepairLedger.Time.Stored

/-!
# The state of a pull request

What the hosting service says about a pull request at one moment.
-/

namespace RepairLedger

structure PullState where
  url : String
  createdAt : Instant
  closedAt : Option Instant
  mergedAt : Option Instant
  /-- The state in the words of the hosting service, such as `open` or `closed`. -/
  state : String
  isMerged : Bool
  number : UInt64
deriving DecidableEq

namespace PullState

/-- The state after a newer one has been learned: nothing of the older one is left. -/
def merge (_ newer : PullState) : PullState :=
  newer

/-- When the pull request ceased to be open; closing counts before merging. -/
def endedAt (s : PullState) : Option Instant :=
  s.closedAt.or s.mergedAt

/-- The state in one word. -/
def status (s : PullState) : String :=
  if s.isMerged then "merged" else s.state

/-- An instant or `null`. -/
def instantJson (t : Option Instant) : Json.Value :=
  (t.map Instant.json).getD .null

/-- The state as it stands in JSON. -/
def json (s : PullState) : Json.Value :=
  .object [
    ("url", .string s.url),
    ("created_at", s.createdAt.json),
    ("closed_at", instantJson s.closedAt),
    ("merged_at", instantJson s.mergedAt),
    ("state", .string s.state),
    ("is_merged", .bool s.isMerged),
    ("number", .ofUInt64 s.number)]

open Json in
/-- Reads a state from JSON. -/
def decoder : Decoder PullState :=
  Fields.decoder "PrState"
    (.cons (.required "url" .string) <|
      .cons (.required "created_at" Instant.decoder) <|
      .cons (.nullable "closed_at" Instant.decoder) <|
      .cons (.nullable "merged_at" Instant.decoder) <|
      .cons (.required "state" .string) <|
      .cons (.required "is_merged" .bool) <|
      .cons (.required "number" .natural) .nil)
    fun (url, createdAt, closedAt, mergedAt, state, isMerged, number, ()) =>
      ⟨url, createdAt, closedAt, mergedAt, state, isMerged, number⟩

end PullState

end RepairLedger
