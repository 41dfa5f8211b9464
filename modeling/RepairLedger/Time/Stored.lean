import RepairLedger.Json.Decoder
import RepairLedger.Time.Reader

/-!
# Stored instants

An instant is kept in JSON as a string.
-/

namespace RepairLedger.Instant

/-- The instant as it stands in JSON. -/
def json (t : Instant) : Json.Value :=
  .string t.text

/-- Reads an instant from JSON. -/
def decoder : Json.Decoder Instant
  | _, .leaf (.string s) => do
    let content ← s.content
    match ofText content with
    | .ok t => .ok t
    | .error flaw => .error (.mismatch (.refused flaw.message))
  | _, tree => .error (tree.refusal "an RFC 3339 formatted date and time string")

end RepairLedger.Instant
