import BellasReef.Support.Machine
import BellasReef.Support.Lists
import BellasReef.Support.Slew
import BellasReef.Support.Retained
import BellasReef.Contracts.Messages
import BellasReef.Contracts.Assignments
import BellasReef.Support.ReadCommitted
import BellasReef.Db.Overrides
import BellasReef.Db.Placing
import BellasReef.Db.Accounts
import BellasReef.HardwareIO.Drivers
import BellasReef.HardwareIO.Supervisor
import BellasReef.HardwareIO.Calls
import BellasReef.HardwareIO.Latch
import BellasReef.HardwareIO.Consumer
import BellasReef.HardwareIO.CommandQueue
import BellasReef.HardwareIO.WireTruth
import BellasReef.HardwareIO.RuntimeCap
import BellasReef.HardwareIO.Startup
import BellasReef.ControlEngine.Scheduler
import BellasReef.ControlEngine.SlewLaw
import BellasReef.ControlEngine.Assignments
import BellasReef.ControlEngine.Forget
import BellasReef.ControlEngine.Redrain
import BellasReef.Api.Devices
import BellasReef.Api.Reconcile
import BellasReef.Api.Interleaving
import BellasReef.Api.Claims
import BellasReef.ControlEngine.HoldClock
import BellasReef.ControlEngine.HoldTrail
import BellasReef.Api.RegistryConsumer
import BellasReef.Api.Pairing
import BellasReef.Support.Tickets
import BellasReef.Api.Grants
import BellasReef.Api.Collecting
import BellasReef.ControlEngine.Alerts
import BellasReef.ControlEngine.Recovery
import BellasReef.ControlEngine.Emissions
import BellasReef.ControlEngine.SnapLaw
import BellasReef.ControlEngine.Arrival
import BellasReef.HardwareIO.Reports
import BellasReef.HardwareIO.Heartbeat
import BellasReef.Api.Cadence
import BellasReef.Api.Backup
import BellasReef.Support.Json
import BellasReef.Support.Except
import BellasReef.Api.StreamBridge
import BellasReef.Api.AuditWriter
import BellasReef.ControlEngine.Ownership
import BellasReef.Support.Binary64
import BellasReef.Support.Trigger
import BellasReef.ControlEngine.Hysteresis
import BellasReef.Api.Bands
import BellasReef.Support.Regex
import BellasReef.Api.ChannelIds
import BellasReef.ControlEngine.Silence
import BellasReef.ControlEngine.SilenceExact
import BellasReef.ControlEngine.SilenceMessages
import BellasReef.ControlEngine.Alerting
import BellasReef.ControlEngine.SilenceFaults
import BellasReef.ControlEngine.SilenceClock
import BellasReef.ControlEngine.AlertEnds
import BellasReef.ControlEngine.SilenceTasks
import BellasReef.ControlEngine.Resync
import BellasReef.HardwareIO.PwmOutputs
import BellasReef.HardwareIO.Sysfs
import BellasReef.Support.SlidingWindow
import BellasReef.Api.Throttle
import BellasReef.Support.Traced
import BellasReef.HardwareIO.Draining
import BellasReef.HardwareIO.Healing
import BellasReef.Support.Interpolant
import BellasReef.ControlEngine.Profiles
import BellasReef.Support.StepSignal
import BellasReef.Api.StepBuckets
import BellasReef.Api.Envelope
import BellasReef.Support.KeyedTable
import BellasReef.Db.Schedules
import BellasReef.Support.JsonText
import BellasReef.Support.Csv
import BellasReef.Support.Lines
import BellasReef.Support.DecimalText
import BellasReef.Support.Calendar
import BellasReef.Support.Timestamp
import BellasReef.Api.Export
import BellasReef.Api.CsvRows
import BellasReef.Support.Awaiting
import BellasReef.Support.Mutex
import BellasReef.Support.IntText
import BellasReef.Support.Pattern
import BellasReef.HardwareIO.Uncancellable
import BellasReef.HardwareIO.Pca9685
import BellasReef.HardwareIO.Factory
import BellasReef.Api.Telemetry
import BellasReef.HardwareIO.W1Slave
import BellasReef.HardwareIO.OneWire
import BellasReef.Api.Sessions
import BellasReef.Api.Subjects
import BellasReef.HardwareIO.Shutdown
import BellasReef.HardwareIO.Discovery
import BellasReef.Support.Mirror
import BellasReef.Api.Capabilities
import BellasReef.Api.FirstBoot
import BellasReef.Support.Checks
import BellasReef.Api.DeviceChecks
import BellasReef.Api.DeviceWrites
import BellasReef.Support.Paced
import BellasReef.HardwareIO.MainLoop
import BellasReef.Api.PairingCodes
import BellasReef.Support.Rerun
import BellasReef.Api.Seeding
