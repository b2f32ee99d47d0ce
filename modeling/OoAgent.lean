import OoAgent.Lib.Clock
import OoAgent.Lib.Dict
import OoAgent.Lib.Fallible
import OoAgent.Lib.Fields
import OoAgent.Lib.Forest
import OoAgent.Lib.Gregorian
import OoAgent.Lib.Increments
import OoAgent.Lib.Json.Numbers
import OoAgent.Lib.Json.RoundTrip
import OoAgent.Lib.Json.Strings
import OoAgent.Lib.Json.Trees
import OoAgent.Lib.Machine
import OoAgent.Lib.Numbering
import OoAgent.Lib.Offers
import OoAgent.Lib.Padded
import OoAgent.Lib.Pipeline
import OoAgent.Lib.Progress
import OoAgent.Lib.Scan
import OoAgent.Lib.Since
import OoAgent.Lib.Sweep
import OoAgent.Lib.Table
import OoAgent.Lib.Traverse
import OoAgent.Lib.Window
import OoAgent.Python.Configparser
import OoAgent.Python.Datetime
import OoAgent.Python.Digits
import OoAgent.Python.Float
import OoAgent.Python.FloatText
import OoAgent.Python.IniText
import OoAgent.Python.Json
import OoAgent.Python.Jsonable
import OoAgent.Python.Literal
import OoAgent.Python.Localtime
import OoAgent.Python.Os
import OoAgent.Python.Posixpath
import OoAgent.Python.Sha256
import OoAgent.Python.Text
import OoAgent.Python.Value
import OoAgent.Buffer.Fifo
import OoAgent.Buffer.Queue
import OoAgent.Transport.Agreement
import OoAgent.Transport.Batches
import OoAgent.Transport.Client
import OoAgent.Transport.Conversation
import OoAgent.Transport.Crash
import OoAgent.Transport.Drain
import OoAgent.Transport.Enroll
import OoAgent.Transport.Http
import OoAgent.Transport.Issued
import OoAgent.Transport.Options
import OoAgent.Transport.Pacing
import OoAgent.Transport.Raising
import OoAgent.Transport.Statements
import OoAgent.Transport.TokenFile
import OoAgent.Transport.Trace
import OoAgent.Core.Assembly
import OoAgent.Core.Backoff
import OoAgent.Core.Cadence
import OoAgent.Core.Channels
import OoAgent.Core.Config
import OoAgent.Core.Delivery
import OoAgent.Core.Discovery
import OoAgent.Core.Endurance
import OoAgent.Core.Guards
import OoAgent.Core.HostInfo
import OoAgent.Core.Isolation
import OoAgent.Core.Merge
import OoAgent.Core.Mirror
import OoAgent.Core.Rates
import OoAgent.Core.Scheduler
import OoAgent.Core.SinkLoop
import OoAgent.Cli.Backlog
import OoAgent.Cli.Bearer
import OoAgent.Cli.Bodies
import OoAgent.Cli.Conservation
import OoAgent.Cli.EndToEnd
import OoAgent.Cli.Enrolling
import OoAgent.Cli.Faults
import OoAgent.Cli.Handover
import OoAgent.Cli.Natural
import OoAgent.Cli.Order
import OoAgent.Cli.Outage
import OoAgent.Cli.Places
import OoAgent.Cli.Recovery
import OoAgent.Cli.Rejections
import OoAgent.Cli.Restart
import OoAgent.Cli.RunDaemon
import OoAgent.Cli.Sink
import OoAgent.Cli.Updates
import OoAgent.Collectors.Amd
import OoAgent.Collectors.Cron.Crontab
import OoAgent.Collectors.Cron.Field
import OoAgent.Collectors.Cron.Future
import OoAgent.Collectors.Cron.Grammar
import OoAgent.Collectors.Cron.Inventory
import OoAgent.Collectors.Cron.Journal
import OoAgent.Collectors.Cron.Language
import OoAgent.Collectors.Cron.LeapDays
import OoAgent.Collectors.Cron.NextRun
import OoAgent.Collectors.Cron.Printing
import OoAgent.Collectors.Cron.TimerJobs
import OoAgent.Collectors.Cron.Timers
import OoAgent.Collectors.Cron.VixieRule
import OoAgent.Collectors.Docker.States
import OoAgent.Collectors.Docker.Times
import OoAgent.Collectors.Hardware.Dmidecode
import OoAgent.Collectors.Hardware.RamModules
import OoAgent.Collectors.Hwmon.Channels
import OoAgent.Collectors.Hwmon.Chips
import OoAgent.Collectors.Hwmon.Power
import OoAgent.Collectors.Lhm
import OoAgent.Collectors.Mixed
import OoAgent.Collectors.Nvidia.Attribution
import OoAgent.Collectors.Nvidia.Devices
import OoAgent.Collectors.Nvidia.Gddr6
import OoAgent.Collectors.Payloads
import OoAgent.Collectors.Rapl
import OoAgent.Collectors.Security.Ports
import OoAgent.Collectors.Security.RemoteAccess
import OoAgent.Collectors.Security.SshLog
import OoAgent.Collectors.Security.SshSources
import OoAgent.Collectors.System
import OoAgent.Lifecycle.Leftovers
import OoAgent.Lifecycle.Release
import OoAgent.Lifecycle.SelfUpdate
import OoAgent.Lifecycle.Uninstall
import OoAgent.Lifecycle.Version
import OoAgent.Lifecycle.VersionOrder
