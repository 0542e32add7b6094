import Phasegent.Interleaving.Program
import Phasegent.Interleaving.World
import Phasegent.Interleaving.RelyGuarantee
import Phasegent.Record.Store
import Phasegent.Record.Service
import Phasegent.Record.Ownership
import Phasegent.Text.Chars
import Phasegent.Text.Decimal
import Phasegent.Text.Fallible
import Phasegent.Provider.Endpoint
import Phasegent.Task.Canonical
import Phasegent.Lease.Db
import Phasegent.Lease.Evidence
import Phasegent.Lease.Statements
import Phasegent.Lease.Transactions
import Phasegent.Lease.Commands
import Phasegent.Lease.Changes
import Phasegent.Lease.Lifecycle
import Phasegent.Interleaving.History
import Phasegent.Lease.Holder
import Phasegent.Interleaving.Traces
import Phasegent.Ordered.Nearest
import Phasegent.Lease.Checkout
import Phasegent.Lease.Retention
import Phasegent.Lease.Identity
import Phasegent.Sql.Locked
import Phasegent.Timer.Effects
import Phasegent.Timer.Auto
import Phasegent.Timer.Fleet
import Phasegent.Timer.Footprint
import Phasegent.Timer.Integrity
import Phasegent.Timer.ExactlyOnce
import Phasegent.Timer.SingleRunning
import Phasegent.Cleanup.Moves
import Phasegent.Restore.Runs
import Phasegent.Task.Routing
import Phasegent.Task.Runs
import Phasegent.Shell.Identity
import Phasegent.Local.Transitions
import Phasegent.Local.Keys
import Phasegent.Redmine.Separation
import Phasegent.Redmine.Closing
import Phasegent.Redmine.Pairing
import Phasegent.Switch.Runs
import Phasegent.Provider.Credentials
import Phasegent.Switch.Gates
import Phasegent.Switch.Safety
import Phasegent.Command.Options
import Phasegent.Command.Globals
import Phasegent.Ordered.Windows
import Phasegent.Pages.Request
import Phasegent.Redmine.Enumerate
import Phasegent.Branch.Resolution
import Phasegent.Task.Booking
import Phasegent.Restore.Consistency
import Phasegent.Lease.Recovery
import Phasegent.Lease.Absent
import Phasegent.Cleanup.Preview
import Phasegent.Memo.Table
import Phasegent.Closure.Source
import Phasegent.Closure.Transparency
import Phasegent.Sql.Catalog
import Phasegent.Schema.Convergence
import Phasegent.Index.Chunking
import Phasegent.Lease.Minting
import Phasegent.Cleanup.Evidence
import Phasegent.Cleanup.Report
import Phasegent.Binding.Reading
import Phasegent.Hooks.Trailers
import Phasegent.Hooks.Convergence
import Phasegent.Notify.Agreement
import Phasegent.Redmine.Scope
import Phasegent.Auth.Atomicity
import Phasegent.Index.Agreement
import Phasegent.Provider.Preference
import Phasegent.Status.Agreement
import Phasegent.Calendar.Gregorian
import Phasegent.Cleanup.Budget
import Phasegent.Cleanup.Lineage
import Phasegent.Lease.Porcelain
import Phasegent.Output.Lines
import Phasegent.Output.Recovery
import Phasegent.Provider.Remote
import Phasegent.Provider.Spelling
import Phasegent.Record.Compact
import Phasegent.Timer.Dates
import Phasegent.Cleanup.Cache
import Phasegent.Cleanup.Exactness
import Phasegent.Forgejo.Collect
import Phasegent.Notify.Punctual
import Phasegent.Placement.Moves
import Phasegent.Placement.Serialised
import Phasegent.Prune.Evidence
import Phasegent.Prune.Releases
