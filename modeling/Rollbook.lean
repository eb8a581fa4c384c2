import Rollbook.Status
import Rollbook.Role
import Rollbook.Text.Blank
import Rollbook.Text.Digits
import Rollbook.Json
import Rollbook.Instant.Span
import Rollbook.Instant.Written
import Rollbook.Event.Payload
import Rollbook.Record
import Rollbook.Validation
import Rollbook.Directory
import Rollbook.Memory
import Rollbook.Service
import Rollbook.Tables.Delete
import Rollbook.Tables.Log
import Rollbook.Schema.Progress
import Rollbook.Text.Alphanumeric
import Rollbook.Text.Percent
import Rollbook.Text.Quoted
import Rollbook.Locator
import Rollbook.Database.Open
import Rollbook.Startup
import Rollbook.Installer
import Rollbook.Main
import Rollbook.Proofs.Authority
import Rollbook.Proofs.Correction
import Rollbook.Proofs.Service
import Rollbook.Proofs.Ledger
import Rollbook.Proofs.Digits
import Rollbook.Proofs.Instant
import Rollbook.Proofs.Json
import Rollbook.Proofs.Payload
import Rollbook.Proofs.Tables
import Rollbook.Proofs.Store
import Rollbook.Proofs.World
import Rollbook.Proofs.Appends
import Rollbook.Proofs.Audit
import Rollbook.Proofs.Alike
import Rollbook.Proofs.Run
import Rollbook.Proofs.Review
import Rollbook.Proofs.Returned
import Rollbook.Proofs.Rows
import Rollbook.Proofs.Atomic
import Rollbook.Proofs.Outage
import Rollbook.Proofs.Trail
import Rollbook.Proofs.Chronology
import Rollbook.Proofs.Links
import Rollbook.Proofs.Lasting
import Rollbook.Proofs.Approval
import Rollbook.Proofs.Rolls
import Rollbook.Proofs.Indivisible
import Rollbook.Proofs.Announced
import Rollbook.Proofs.Explained
import Rollbook.Proofs.Migrations
import Rollbook.Proofs.Observed
import Rollbook.Proofs.Course
import Rollbook.Proofs.Figures
import Rollbook.Proofs.Filing
import Rollbook.Proofs.Promotion
import Rollbook.Proofs.Collation
import Rollbook.Proofs.Timetable
import Rollbook.Proofs.Folded
import Rollbook.Proofs.Evenhanded
import Rollbook.Proofs.Locator
import Rollbook.Proofs.Opened
import Rollbook.Proofs.Utf8
import Rollbook.Proofs.Tree
import Rollbook.Proofs.Paths
import Rollbook.Proofs.Engine
import Rollbook.Proofs.Applying
import Rollbook.Proofs.Starting
import Rollbook.Proofs.Cleaning
import Rollbook.Proofs.Capabilities
import Rollbook.Proofs.Warned
import Rollbook.Proofs.Spread
import Rollbook.Proofs.Loosened
import Rollbook.Proofs.Tolerance
import Rollbook.Proofs.Findings
