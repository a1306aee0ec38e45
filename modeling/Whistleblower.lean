import Whistleblower.Foundations.Outcome
import Whistleblower.Foundations.FirstOccurrence
import Whistleblower.Foundations.Codec
import Whistleblower.Foundations.WordOrder
import Whistleblower.Foundations.Decimal
import Whistleblower.Foundations.TextBytes
import Whistleblower.Foundations.Lines
import Whistleblower.Foundations.CString
import Whistleblower.Foundations.Base58
import Whistleblower.Foundations.Sha256
import Whistleblower.Foundations.Json.Grammar
import Whistleblower.Foundations.Json.Reader
import Whistleblower.Foundations.Json.Printer
import Whistleblower.Foundations.Json.Dumps
import Whistleblower.Foundations.Process
import Whistleblower.Foundations.Interleaving
import Whistleblower.Foundations.OnceOnly
import Whistleblower.Foundations.Typestate
import Whistleblower.Foundations.CallSyntax
import Whistleblower.Foundations.Paging
import Whistleblower.Foundations.Parallel
import Whistleblower.Registry.State
import Whistleblower.Registry.Library
import Whistleblower.Registry.Program
import Whistleblower.Registry.Reference
import Whistleblower.Registry.Agreement
import Whistleblower.Registry.Ledger
import Whistleblower.Registry.Submissions
import Whistleblower.Registry.Limits
import Whistleblower.Registry.Format
import Whistleblower.Indexer.Envelope
import Whistleblower.Indexer.EnvelopeHash
import Whistleblower.Indexer.Cid
import Whistleblower.Indexer.Wire
import Whistleblower.Indexer.Machine
import Whistleblower.Indexer.Broadcast
import Whistleblower.Indexer.Session
import Whistleblower.Indexer.Dedup
import Whistleblower.Indexer.Upload
import Whistleblower.Indexer.Republish
import Whistleblower.Indexer.Retry
import Whistleblower.Indexer.TempFile
import Whistleblower.Indexer.SharedTemp
import Whistleblower.Indexer.Anchor
import Whistleblower.Indexer.Lookup
import Whistleblower.Indexer.Multihash
import Whistleblower.Indexer.Expressions
import Whistleblower.Indexer.Encoders
import Whistleblower.Indexer.Ffi
import Whistleblower.Indexer.CidBuffer
import Whistleblower.Indexer.Clients
import Whistleblower.BatchAnchor.Machine
import Whistleblower.BatchAnchor.Delivery
import Whistleblower.BatchAnchor.MetadataHash
import Whistleblower.BatchAnchor.Spel
import Whistleblower.BatchAnchor.Run
import Whistleblower.BatchAnchor.WireFormat
import Whistleblower.BatchAnchor.SharedWorld
import Whistleblower.BatchAnchor.CrashSafety
import Whistleblower.BatchAnchor.Session
import Whistleblower.BatchAnchor.DryRun
import Whistleblower.BatchAnchor.Restarts
import Whistleblower.BatchAnchor.BadBroadcast
import Whistleblower.BatchAnchor.Turns
import Whistleblower.BatchAnchor.Streams
import Whistleblower.BatchAnchor.Batches
import Whistleblower.BatchAnchor.QueueFile
import Whistleblower.BatchAnchor.Bridge
import Whistleblower.BatchAnchor.Progress
import Whistleblower.BatchAnchor.Peers
import Whistleblower.BatchAnchor.Status
import Whistleblower.BatchAnchor.Duplicates
import Whistleblower.BatchAnchor.Topic
import Whistleblower.BatchAnchor.Liveness
import Whistleblower.BatchAnchor.Capacity
import Whistleblower.BatchAnchor.Sources
import Whistleblower.BatchAnchor.Outages
import Whistleblower.BatchAnchor.DemoDocs
import Whistleblower.Basecamp.Module
import Whistleblower.Basecamp.Uploads
import Whistleblower.Basecamp.Privacy
import Whistleblower.Basecamp.Published
import Whistleblower.Basecamp.Registered
