import RecordClient.Connection.Operation
import RecordClient.Connection.Recorder
import RecordClient.Connection.Wire
import RecordClient.Main
import RecordClient.Settings.Registry
import RecordClient.Json.Printer
import RecordClient.Error.Refusal
import RecordClient.Proofs.Wire.Address
import RecordClient.Proofs.Query.Condition
import RecordClient.Proofs.Query.Builder
import RecordClient.Proofs.Query.Statement
import RecordClient.Proofs.Connection.Refusal
import RecordClient.Proofs.Wire.Agreement
import RecordClient.Proofs.Settings.Registry
import RecordClient.Proofs.Wire.Payload
import RecordClient.Proofs.Settings.History
import RecordClient.Proofs.Connection.Failure
import RecordClient.Proofs.Record.Rendering
import RecordClient.Proofs.Connection.Upsert
import RecordClient.Proofs.Wire.Envelope
import RecordClient.Proofs.Record.Merging
import RecordClient.Proofs.Connection.Target
import RecordClient.Proofs.Query.Steps
import RecordClient.Proofs.Connection.Drop
import RecordClient.Proofs.Query.Assignment
import RecordClient.Proofs.Query.Reading
import RecordClient.Proofs.Results
import RecordClient.Proofs.Query.Sending
import RecordClient.Proofs.Connection.Existence
import RecordClient.Proofs.Connection.Rows
import RecordClient.Proofs.Wire.Scope
import RecordClient.Proofs.Shell.Session
import RecordClient.Proofs.Shell.Flags
