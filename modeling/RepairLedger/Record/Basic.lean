import RepairLedger.Pull.State
import RepairLedger.Record.Edit
import RepairLedger.Record.Statistics

/-!
# Records

The record of a pull request: its state, its diff when it was opened and when it was closed, what
the repair tool reported, and the manual edits.

A record is begun by `Record.begin` and afterwards only changed by `Record.finish` and
`Record.annotate`.  Neither touches what was captured at first, and the time of the last change
never goes back.
-/

namespace RepairLedger

/-- The diff of a pull request when it was opened, and when it was closed. -/
structure Diffs where
  initial : String
  final : Option String
deriving DecidableEq

/-- When a record was begun and last changed. -/
structure RecordTimes where
  createdAt : Instant
  lastModified : Instant
deriving DecidableEq

structure Record where
  /-- The repository of the pull request. -/
  slug : String
  state : PullState
  statistics : Statistics
  diffs : Diffs
  /-- The manual edits in the order in which they were added. -/
  edits : List ManualEdit
  times : RecordTimes
deriving DecidableEq

/-! ### Changes -/

/-- Notes a change; the later of two times is kept. -/
def RecordTimes.touch (times : RecordTimes) (now : Instant) : RecordTimes :=
  { times with lastModified := times.lastModified.later now }

namespace Record

/-- The record of a pull request that has just been opened. -/
def begin (slug : String) (state : PullState) (statistics : Statistics) (diff : String)
    (now : Instant) : Record where
  slug := slug
  state := state
  statistics := statistics
  diffs := ⟨diff, none⟩
  edits := []
  times := ⟨now, now⟩

/-- Enters the state and the diff of a pull request that has been closed. -/
def finish (r : Record) (state : PullState) (diff : String) (now : Instant) : Record :=
  { r with
    state := r.state.merge state
    diffs := { r.diffs with final := some diff }
    times := r.times.touch now }

/-- Adds a manual edit. -/
def annotate (r : Record) (edit : ManualEdit) (now : Instant) : Record :=
  { r with edits := r.edits ++ [edit], times := r.times.touch now }

/-- Has the record the final diff? -/
def isFinalized (r : Record) : Bool :=
  r.diffs.final.isSome

end Record

/-! ### JSON -/

open Json

/-- The diffs as they stand in JSON. -/
def Diffs.json (d : Diffs) : Value :=
  .object [("initial", .string d.initial), ("final", (d.final.map Value.string).getD .null)]

/-- Reads the diffs from JSON. -/
def Diffs.decoder : Decoder Diffs :=
  Fields.decoder "DiffSnapshots"
    (.cons (.required "initial" .string) <| .cons (.nullable "final" .string) .nil)
    fun (initial, final, ()) => ⟨initial, final⟩

/-- The times as they stand in JSON. -/
def RecordTimes.json (t : RecordTimes) : Value :=
  .object [("created_at", t.createdAt.json), ("last_modified", t.lastModified.json)]

/-- Reads the times from JSON. -/
def RecordTimes.decoder : Decoder RecordTimes :=
  Fields.decoder "RecordMetadata"
    (.cons (.required "created_at" Instant.decoder) <|
      .cons (.required "last_modified" Instant.decoder) .nil)
    fun (createdAt, lastModified, ()) => ⟨createdAt, lastModified⟩

namespace Record

/-- The record as it stands in JSON. -/
def json (r : Record) : Value :=
  .object [
    ("repo_slug", .string r.slug),
    ("pr_state", r.state.json),
    ("repair_statistics", r.statistics.json),
    ("diff_snapshots", r.diffs.json),
    ("manual_edits", .array (r.edits.map ManualEdit.json)),
    ("record_metadata", r.times.json)]

/-- Reads a record from JSON. -/
def decoder : Decoder Record :=
  Fields.decoder "PrRecord"
    (.cons (.required "repo_slug" .string) <|
      .cons (.required "pr_state" PullState.decoder) <|
      .cons (.withDefault "repair_statistics" Statistics.decoder .empty) <|
      .cons (.required "diff_snapshots" Diffs.decoder) <|
      .cons (.withDefault "manual_edits" (.list ManualEdit.decoder) []) <|
      .cons (.required "record_metadata" RecordTimes.decoder) .nil)
    fun (slug, state, statistics, diffs, edits, times, ()) =>
      ⟨slug, state, statistics, diffs, edits, times⟩

end Record

end RepairLedger
