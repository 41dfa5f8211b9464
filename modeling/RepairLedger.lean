import RepairLedger.Host.World
import RepairLedger.Main
import RepairLedger.Proofs.Ledger.History
import RepairLedger.Proofs.Result
import RepairLedger.Proofs.Json.Shape
import RepairLedger.Proofs.Json.Lexing
import RepairLedger.Proofs.Json.Reals
import RepairLedger.Proofs.Json.Printed
import RepairLedger.Proofs.Json.Decoding
import RepairLedger.Proofs.Time.Reread
import RepairLedger.Proofs.Pull.Text
import RepairLedger.Proofs.Text.Spelling
import RepairLedger.Proofs.Pull.Grammar
import RepairLedger.Proofs.Record.Judging
import RepairLedger.Proofs.Json.Writer
import RepairLedger.Proofs.Ledger.Rewriting
import RepairLedger.Proofs.Ledger.Locality
import RepairLedger.Proofs.Record.Reread
import RepairLedger.Proofs.Ledger.RoundTrip
import RepairLedger.Proofs.Host.Running
import RepairLedger.Proofs.Host.Files
import RepairLedger.Proofs.Host.Siblings
import RepairLedger.Proofs.Ledger.Saving
import RepairLedger.Proofs.Command.Asking
import RepairLedger.Proofs.Ledger.Outcome
import RepairLedger.Proofs.Command.Change
import RepairLedger.Proofs.Command.Atomicity
import RepairLedger.Proofs.Text.Utf8
import RepairLedger.Proofs.Json.Decoded
import RepairLedger.Proofs.Ledger.Loaded
import RepairLedger.Proofs.Command.Reloading
import RepairLedger.Proofs.Ledger.Order
import RepairLedger.Proofs.Host.Directories
import RepairLedger.Proofs.Ledger.Cycles
import RepairLedger.Proofs.Host.Goals
import RepairLedger.Proofs.Sharing.Answers
import RepairLedger.Proofs.Sharing.Protocol
import RepairLedger.Proofs.Sharing.Commits
import RepairLedger.Proofs.Sharing.Following
import RepairLedger.Proofs.Sharing.Updates
import RepairLedger.Proofs.Command.Printing
import RepairLedger.Proofs.Ledger.Rendering
import RepairLedger.Proofs.Command.Reading
import RepairLedger.Proofs.Host.Deeds
import RepairLedger.Proofs.Hosting.Fetching
import RepairLedger.Proofs.Command.Traffic
import RepairLedger.Proofs.Text.Lossy
import RepairLedger.Proofs.Command.Diffs
import RepairLedger.Proofs.Ledger.Reread
import RepairLedger.Proofs.Ledger.Commuting
import RepairLedger.Proofs.Ledger.Normalizing
import RepairLedger.Proofs.Ledger.Reporting
import RepairLedger.Proofs.Command.Secrecy
import RepairLedger.Proofs.Command.Checking
import RepairLedger.Proofs.Command.Showing
import RepairLedger.Proofs.Host.Replies
import RepairLedger.Proofs.Command.Publishing
import RepairLedger.Proofs.Text.ByteOrder
import RepairLedger.Proofs.Json.Canonical
import RepairLedger.Proofs.Command.Capturing
import RepairLedger.Proofs.Hosting.Addressing
