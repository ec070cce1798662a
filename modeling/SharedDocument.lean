import SharedDocument.Document
import SharedDocument.Proofs.Document.Refinement
import SharedDocument.Proofs.Document.WellFormed
import SharedDocument.Proofs.Session.Convergence
import SharedDocument.Session
import SharedDocument.Session.ConfigText
import SharedDocument.Value.Fresh
import SharedDocument.Wire.Document
import SharedDocument.Wire.Session
import SharedDocument.Document.InPlace
import SharedDocument.Proofs.Document.InPlace
import SharedDocument.Proofs.Document.Atomicity
import SharedDocument.Proofs.Document.Lifecycle
import SharedDocument.Proofs.Session.Resync
import SharedDocument.Proofs.Session.Accounting
import SharedDocument.Proofs.Document.Listening
import SharedDocument.Proofs.Session.Faults
import SharedDocument.Proofs.Session.Handover
import SharedDocument.Proofs.Wire.Session
import SharedDocument.Proofs.Merge.Text
import SharedDocument.Proofs.Merge.Array
import SharedDocument.Proofs.Merge.Winner
import SharedDocument.Proofs.Document.Cursors
import SharedDocument.Proofs.Session.Grouping
import SharedDocument.Proofs.Session.Retention
import SharedDocument.Proofs.Merge.Cursors
import SharedDocument.Proofs.Transform.Exchange
import SharedDocument.Proofs.Session.History
import SharedDocument.Proofs.Document.Addresses
import SharedDocument.Proofs.Document.Creation
import SharedDocument.Proofs.Wire.Event
import SharedDocument.Proofs.Reference.Table
import SharedDocument.Proofs.Position.Order
