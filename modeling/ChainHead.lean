import ChainHead.Bytes
import ChainHead.Quantity
import ChainHead.Json.Reader
import ChainHead.Json.Record
import ChainHead.Block
import ChainHead.Payload.Status
import ChainHead.Payload.Built
import ChainHead.Request
import ChainHead.Database
import ChainHead.Database.Location
import ChainHead.Resolution
import ChainHead.Keccak
import ChainHead.Text.Quoted
import ChainHead.Build.Table
import ChainHead.Build.Job
import ChainHead.Build.Run
import ChainHead.Release
import ChainHead.Rpc
import ChainHead.Log.Setup
import ChainHead.Log.Terminal
import ChainHead.Settings.Environment
import ChainHead.Settings.Toml.Document
import ChainHead.CommandLine
import ChainHead.Main
import ChainHead.Proofs.Engine.Request
import ChainHead.Proofs.Engine.Resubmission
import ChainHead.Proofs.Engine.Run
import ChainHead.Proofs.Engine.Irrevocable
import ChainHead.Proofs.Engine.AllOrNothing
import ChainHead.Proofs.CommonAncestor
import ChainHead.Proofs.Lasting
import ChainHead.Proofs.Engine.Judgement
import ChainHead.Proofs.Engine.LatestValid
import ChainHead.Proofs.Faultless
import ChainHead.Proofs.Build.Progress
import ChainHead.Proofs.Engine.Overflow
import ChainHead.Proofs.Engine.Syncing
import ChainHead.Proofs.Build.Bookkeeping
import ChainHead.Proofs.Build.Delivery
import ChainHead.Proofs.Engine.Payload
import ChainHead.Build.Loop
import ChainHead.Proofs.Build.Loop
import ChainHead.Proofs.Build.Turns
import ChainHead.Proofs.Build.Interleaving
import ChainHead.Proofs.Engine.Rejected
import ChainHead.Proofs.History
import ChainHead.Proofs.Json.WireFormat
import ChainHead.Proofs.Build.Gauge
import ChainHead.Build.Workshop
import ChainHead.Proofs.Build.Provenance
import ChainHead.Proofs.Build.Serving
import ChainHead.Proofs.Build.Clock
import ChainHead.Proofs.Build.Patience
import ChainHead.Proofs.Build.Reflection
import ChainHead.Proofs.ParentLinks
import ChainHead.Proofs.GreatestCommon
import ChainHead.Proofs.FinalizedSafe
import ChainHead.Proofs.Build.Displacement
import ChainHead.Proofs.Schedule.Overrides
import ChainHead.Proofs.Schedule.Activation
import ChainHead.Proofs.Build.Pace
import ChainHead.Proofs.CheckOrder
import ChainHead.Proofs.Build.Commitment
import ChainHead.Proofs.Engine.Measured
import ChainHead.Proofs.Settings.Precedence
import ChainHead.Proofs.Quantity
import ChainHead.Proofs.Log.Place
