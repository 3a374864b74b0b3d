import ModbusLogger.Lib.Binary64
import ModbusLogger.Lib.CyclicWindow
import ModbusLogger.Lib.FixedWidth
import ModbusLogger.Lib.LowerBound
import ModbusLogger.Lib.Transducer
import ModbusLogger.Reader.Structs
import ModbusLogger.Db.Hasher.HashUnit
import ModbusLogger.Db.Hasher.History
import ModbusLogger.Db.Hasher.Refinement
import ModbusLogger.Db.Hasher.RangeQuery
import ModbusLogger.Db.Hasher.HashMaster
import ModbusLogger.Db.Hasher.Lossless
import ModbusLogger.Db.Hasher.Completeness
import ModbusLogger.Reader.Plugins
import ModbusLogger.Lib.FirstFit
import ModbusLogger.Lib.Runs
import ModbusLogger.Reader.PoolIterator
import ModbusLogger.Reader.Distribution
import ModbusLogger.Reader.PlanCoverage
import ModbusLogger.Reader.Decode
import ModbusLogger.Reader.Device
import ModbusLogger.Reader.ReadProcess
import ModbusLogger.Reader.ReadMaster
import ModbusLogger.Lib.LeastFirst
import ModbusLogger.Reader.NodeLoop
import ModbusLogger.Reader.Polling
import ModbusLogger.Reader.Scheduling
import ModbusLogger.Reader.DataLoss
import ModbusLogger.Db.Hasher.FailureRuns
import ModbusLogger.Db.Hasher.DbMeasureUnit
import ModbusLogger.Reader.IndexSafety
import ModbusLogger.Api.WebSockets.LiveSocketUnit
import ModbusLogger.Api.WebSockets.WebSockCoord
import ModbusLogger.Db.Schemas
import ModbusLogger.Lib.Program
import ModbusLogger.Db.Statements
import ModbusLogger.Db.Worker.NodeWorker
import ModbusLogger.Db.Worker.ValueWorker
import ModbusLogger.Db.Worker.DeviceWorker
import ModbusLogger.Db.Worker.DbMaster
import ModbusLogger.Db.Worker.DeviceTable
import ModbusLogger.Db.Worker.ValueSettings
import ModbusLogger.Lib.RelyGuarantee
import ModbusLogger.Db.Worker.UserWorker
import ModbusLogger.Api.Router.Auth
import ModbusLogger.Api.Router.AccessTokens
import ModbusLogger.Main.Topology
import ModbusLogger.DataMaster.CircularWait
import ModbusLogger.Main.Net
import ModbusLogger.Main.Oneshots
import ModbusLogger.Db.Worker.NodeLife
import ModbusLogger.Reader.OneLoopPerNode
import ModbusLogger.Reader.HotReload
import ModbusLogger.Db.Worker.UserGroupWorker
import ModbusLogger.Lib.PartialUpdate
import ModbusLogger.Db.Worker.PartialUpdates
import ModbusLogger.Db.Hasher.Flush
import ModbusLogger.Db.Worker.References
import ModbusLogger.Db.Hasher.Recording
import ModbusLogger.Db.Worker.NodeDeletion
import ModbusLogger.Db.Hasher.DeviceHistory
import ModbusLogger.Api.Router.Revocation
import ModbusLogger.Api.Router.Sessions
import ModbusLogger.Api.Router.Middlewares
import ModbusLogger.Api.InitAxum
import ModbusLogger.Db.Worker.ValueTags
import ModbusLogger.Api.WebSockets.LiveSocket
import ModbusLogger.Api.Router.UserGroup
import ModbusLogger.Lib.Noninterference
import ModbusLogger.Db.Worker.Assignments
import ModbusLogger.Api.Router.Confinement
import ModbusLogger.Reader.Requests
import ModbusLogger.Reader.Unreadable
import ModbusLogger.Reader.PollReport
import ModbusLogger.Reader.Culprit
import ModbusLogger.Db.Hasher.HiddenFailures
import ModbusLogger.Db.Hasher.FailureMarkers
import ModbusLogger.Db.Hasher.Heartbeat
import ModbusLogger.Lib.Iteration
import ModbusLogger.Reader.OrphanedNode
import ModbusLogger.Reader.Panics
import ModbusLogger.Reader.DecodedNumbers
import ModbusLogger.Db.Worker.DeviceAddresses
import ModbusLogger.Lib.Retry
import ModbusLogger.Reader.DeviceLoading
import ModbusLogger.Db.Worker.GroupPage
import ModbusLogger.CopySafe.CopyCheck
import ModbusLogger.CopySafe.LicenseHex
import ModbusLogger.Reader.BackOff
import ModbusLogger.Lib.Conveyor
import ModbusLogger.Main.Delivery
import ModbusLogger.Db.Hasher.Provenance
import ModbusLogger.Main.Answers
import ModbusLogger.Db.Worker.Integrity
import ModbusLogger.Lib.Families
import ModbusLogger.Db.Worker.WholeDatabase
import ModbusLogger.Db.Worker.LastAssignment
import ModbusLogger.Api.WebSockets.Subscriptions
import ModbusLogger.Main.LiveView
import ModbusLogger.Reader.Announcements
import ModbusLogger.Api.Router.Credentials
import ModbusLogger.Lib.OneFamily
import ModbusLogger.Api.Accountability
import ModbusLogger.Main.NodeAddresses
import ModbusLogger.Lib.Traces
import ModbusLogger.Main.LoopRefinement
