import ReadModel.Binary64
import ReadModel.Bus
import ReadModel.Cancellation
import ReadModel.Config
import ReadModel.Config.Environment
import ReadModel.Context
import ReadModel.Database.Call
import ReadModel.Database.Events
import ReadModel.Database.Handler
import ReadModel.Database.Leases
import ReadModel.Database.Operation
import ReadModel.Database.Schema
import ReadModel.Database.Script
import ReadModel.Database.Select
import ReadModel.Database.Store
import ReadModel.Database.Text
import ReadModel.Dialogue
import ReadModel.Dict
import ReadModel.Error
import ReadModel.Event
import ReadModel.EventLog
import ReadModel.Handler.Call
import ReadModel.Handler.Intake
import ReadModel.Handler.Sweep
import ReadModel.Handler.Trigger
import ReadModel.Handler.Update
import ReadModel.Identifier
import ReadModel.Instant
import ReadModel.Instant.Text
import ReadModel.Json.Document
import ReadModel.Json.Value
import ReadModel.Lease
import ReadModel.Lease.Clock
import ReadModel.LogFormat
import ReadModel.Operation
import ReadModel.Projections.Orgs
import ReadModel.Projections.Raw
import ReadModel.Projections.Users
import ReadModel.Query
import ReadModel.Reduction
import ReadModel.Sequence
import ReadModel.Simulation.Fiber
import ReadModel.Simulation.Run
import ReadModel.Simulation.Scenario
import ReadModel.Simulation.World
import ReadModel.SqlValue
import ReadModel.Store.Call
import ReadModel.Store.Memory
import ReadModel.Store.Tables
import ReadModel.Supervision
import ReadModel.Supervision.Policy
import ReadModel.Text.Blank
import ReadModel.Text.Hidden
import ReadModel.Text.Quoted
import ReadModel.Wire.Config
import ReadModel.Wire.Decoding
import ReadModel.Wire.Error
import ReadModel.Wire.Event
import ReadModel.Wire.Operation
import ReadModel.Wire.Query
import ReadModel.Wire.Report
import ReadModel.Wire.Script
import ReadModel.Word
import ReadModel.Proofs.Awaited
import ReadModel.Proofs.Reliance
import ReadModel.Proofs.Audit
import ReadModel.Proofs.Transaction
import ReadModel.Proofs.Carrying
import ReadModel.Proofs.Applying
import ReadModel.Proofs.CatchUp
import ReadModel.Proofs.Delivery
import ReadModel.Proofs.ExactlyOnce
import ReadModel.Proofs.Overlap
import ReadModel.Proofs.Patience
import ReadModel.Proofs.Poison
import ReadModel.Proofs.Protocol
import ReadModel.Proofs.Transcript
import ReadModel.Proofs.Fleet
import ReadModel.Proofs.Pact
import ReadModel.Proofs.Standing
import ReadModel.Proofs.Reaching
import ReadModel.Proofs.Backlog
import ReadModel.Proofs.Window
import ReadModel.Proofs.Leases
import ReadModel.Proofs.Modesty
import ReadModel.Proofs.FirstRun
import ReadModel.Proofs.Asked
import ReadModel.Proofs.Isolation
import ReadModel.Proofs.UserHistory
import ReadModel.Proofs.OrgDomains
import ReadModel.Proofs.Sessions
import ReadModel.Proofs.Exclusion
import ReadModel.Proofs.Subscriptions
import ReadModel.Proofs.Publishing
import ReadModel.Proofs.PrimaryDomains
import ReadModel.Proofs.Interrupted
import ReadModel.Proofs.Advancing
import ReadModel.Proofs.ReadPoint
import ReadModel.Proofs.Retrying
import ReadModel.Proofs.Gaps
import ReadModel.Proofs.Resuming
import ReadModel.Proofs.Accounting
import ReadModel.Proofs.Views
import ReadModel.Proofs.Neighbors
import ReadModel.Proofs.Siblings
import ReadModel.Proofs.Seclusion
import ReadModel.Proofs.Locked
import ReadModel.Proofs.Underway
import ReadModel.Proofs.Finishing
import ReadModel.Proofs.Paging
import ReadModel.Proofs.Apart
import ReadModel.Proofs.Tokens
import ReadModel.Proofs.Names
import ReadModel.Proofs.Rendering
import ReadModel.Proofs.Selecting
import ReadModel.Proofs.Sources
import ReadModel.Proofs.Settings
import ReadModel.Proofs.LockStages
import ReadModel.Proofs.Holdings
import ReadModel.Proofs.GivenBack
import ReadModel.Proofs.Flattening
import ReadModel.Proofs.Savepoints
import ReadModel.Proofs.Nesting
import ReadModel.Proofs.Bookkeeping
import ReadModel.Proofs.Addressing
import ReadModel.Proofs.Footing
import ReadModel.Proofs.Unfailing
import ReadModel.Proofs.Restarts
import ReadModel.Proofs.Trails
import ReadModel.Proofs.Pages
import ReadModel.Proofs.RoundTrips
