import FlagSelect.Cache.Basic
import FlagSelect.Cache.Lookup
import FlagSelect.Cache.Table
import FlagSelect.Descriptor.Basic
import FlagSelect.Descriptor.Column
import FlagSelect.Descriptor.Defect
import FlagSelect.Descriptor.Draft
import FlagSelect.Descriptor.Fragment
import FlagSelect.Directive.Compile
import FlagSelect.Directive.Fault
import FlagSelect.Directive.Machine
import FlagSelect.Directive.Program
import FlagSelect.Directive.Slots
import FlagSelect.Error
import FlagSelect.Host.Schema
import FlagSelect.Number.Binary
import FlagSelect.Number.Shortest
import FlagSelect.Plan
import FlagSelect.Profile
import FlagSelect.Proofs.Alignment
import FlagSelect.Proofs.Cache.Aftermath
import FlagSelect.Proofs.Cache.Bookkeeping
import FlagSelect.Proofs.Cache.Chronicle
import FlagSelect.Proofs.Cache.Closings
import FlagSelect.Proofs.Cache.Conservation
import FlagSelect.Proofs.Cache.Custody
import FlagSelect.Proofs.Cache.Eviction
import FlagSelect.Proofs.Cache.Failure
import FlagSelect.Proofs.Cache.Frame
import FlagSelect.Proofs.Cache.Growth
import FlagSelect.Proofs.Cache.Isolation
import FlagSelect.Proofs.Cache.Layout
import FlagSelect.Proofs.Cache.Lifetime
import FlagSelect.Proofs.Cache.Lookup
import FlagSelect.Proofs.Cache.Moves
import FlagSelect.Proofs.Cache.Order
import FlagSelect.Proofs.Cache.Outstanding
import FlagSelect.Proofs.Cache.Ownership
import FlagSelect.Proofs.Cache.Placement
import FlagSelect.Proofs.Cache.Recency
import FlagSelect.Proofs.Cache.Reclamation
import FlagSelect.Proofs.Cache.Reload
import FlagSelect.Proofs.Cache.Run
import FlagSelect.Proofs.Cache.Safety
import FlagSelect.Proofs.Cache.Served
import FlagSelect.Proofs.Cache.Slots
import FlagSelect.Proofs.Cache.Standing
import FlagSelect.Proofs.Cache.Strays
import FlagSelect.Proofs.Cache.Transparency
import FlagSelect.Proofs.Cache.Upkeep
import FlagSelect.Proofs.Descriptor.Acceptance
import FlagSelect.Proofs.Descriptor.Columns
import FlagSelect.Proofs.Descriptor.Literals
import FlagSelect.Proofs.Descriptor.Placeholders
import FlagSelect.Proofs.Descriptor.Reordering
import FlagSelect.Proofs.Descriptor.Scoping
import FlagSelect.Proofs.Descriptor.Validity
import FlagSelect.Proofs.Directive.Acceptance
import FlagSelect.Proofs.Directive.Attempts
import FlagSelect.Proofs.Directive.Completeness
import FlagSelect.Proofs.Directive.Correctness
import FlagSelect.Proofs.Directive.Exactness
import FlagSelect.Proofs.Directive.Extent
import FlagSelect.Proofs.Directive.Grammar
import FlagSelect.Proofs.Directive.Halting
import FlagSelect.Proofs.Directive.Interpreter
import FlagSelect.Proofs.Directive.Members
import FlagSelect.Proofs.Directive.Positions
import FlagSelect.Proofs.Directive.Reading
import FlagSelect.Proofs.Directive.Recording
import FlagSelect.Proofs.Directive.Sequence
import FlagSelect.Proofs.Directive.Skipping
import FlagSelect.Proofs.Directive.Soundness
import FlagSelect.Proofs.Directive.Storing
import FlagSelect.Proofs.Directive.Supply
import FlagSelect.Proofs.Directive.Typing
import FlagSelect.Proofs.Memoisation
import FlagSelect.Proofs.Plan
import FlagSelect.Proofs.Settings.Documents
import FlagSelect.Proofs.Settings.Files
import FlagSelect.Proofs.Statement.Conduct
import FlagSelect.Proofs.Statement.Contract
import FlagSelect.Proofs.Statement.Course
import FlagSelect.Proofs.Statement.Evaluation
import FlagSelect.Proofs.Statement.Journal
import FlagSelect.Proofs.Statement.Ledger
import FlagSelect.Proofs.Statement.Refusal
import FlagSelect.Proofs.Statement.Transcript
import FlagSelect.Proofs.Storage.Audit
import FlagSelect.Proofs.Storage.Database
import FlagSelect.Proofs.Storage.Parameters
import FlagSelect.Proofs.Storage.Readback
import FlagSelect.Proofs.Toml.Grammar
import FlagSelect.Proofs.Toml.Keys
import FlagSelect.Proofs.Toml.Literals
import FlagSelect.Proofs.Toml.Reading
import FlagSelect.Proofs.Wording
import FlagSelect.Scripted.Connection
import FlagSelect.Scripted.Host
import FlagSelect.Settings.Basic
import FlagSelect.Settings.Document
import FlagSelect.Settings.Files
import FlagSelect.Statement.Connection
import FlagSelect.Statement.Executor
import FlagSelect.Storage.Cell
import FlagSelect.Storage.Database
import FlagSelect.Storage.Echo
import FlagSelect.Storage.Statement
import FlagSelect.Text.Blank
import FlagSelect.Text.Digest
import FlagSelect.Text.Hex
import FlagSelect.Text.Quoted
import FlagSelect.Text.Unprintable
import FlagSelect.Toml.Document
import FlagSelect.Toml.Lexical
import FlagSelect.Toml.Scalar
import FlagSelect.Value.Basic
import FlagSelect.Value.Kind
import FlagSelect.Value.Ty
