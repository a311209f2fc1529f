import NotiMapper.Library.Effect
import NotiMapper.Clock
import NotiMapper.Storage
import NotiMapper.Storage.Orphans
import NotiMapper.Storage.Renaming
import NotiMapper.Storage.Timestamps
import NotiMapper.Plugin
import NotiMapper.Rules
import NotiMapper.Reconcile
import NotiMapper.Engine.Outputs
import NotiMapper.Engine.Automaton
import NotiMapper.Engine.Retry
import NotiMapper.Engine.Backoff
import NotiMapper.Engine.Looping
import NotiMapper.Engine.Partition
import NotiMapper.Engine.SetAt
import NotiMapper.Engine.Clearing
import NotiMapper.Engine.Reloading
import NotiMapper.Engine.EventLog
import NotiMapper.Runtime.Shutdown
import NotiMapper.Runtime.EarlyPushes
import NotiMapper.Runtime.Watchdog
import NotiMapper.Runtime.Provenance
import NotiMapper.Runtime.TriggerCount
import NotiMapper.Threads.StaleClear
import NotiMapper.Threads.Agreement
import NotiMapper.Plugins.ImapWatch
import NotiMapper.Plugins.FileRestart
import NotiMapper.Plugins.Construction
import NotiMapper.Plugins.Debounce
import NotiMapper.Threads.CursorRace
import NotiMapper.Threads.Handoff
import NotiMapper.Threads.ImapEpoch
import NotiMapper.Threads.Workers
import NotiMapper.Threads.LatchCache
import NotiMapper.Threads.AbandonedReload
import NotiMapper.Threads.Disturbance
import NotiMapper.Threads.RebuiltOutputs
import NotiMapper.Library.IsoFormat
import NotiMapper.Library.JsonText
import NotiMapper.Config.Loader
import NotiMapper.Config.Collecting
import NotiMapper.Config.Building
import NotiMapper.Config.WellFormed
import NotiMapper.Config.JsonFile
import NotiMapper.Config.Outcome
import NotiMapper.Plugins.HomeKitPairing
import NotiMapper.Plugins.SenderAllowlist
import NotiMapper.Config.Expansion
import NotiMapper.Plugins.StatePath
import NotiMapper.Plugins.PollerHealth
import NotiMapper.Library.Numeral
import NotiMapper.Plugins.WebhookConnection
import NotiMapper.Config.Quoting
import NotiMapper.Config.Reported
import NotiMapper.Config.Masking
import NotiMapper.Config.Layout
import NotiMapper.Threads.Lifetimes
import NotiMapper.Threads.Wiring
import NotiMapper.Config.SecretsFile
import NotiMapper.Cli
import NotiMapper.Threads.LatchHistory
import NotiMapper.Engine.Surviving
import NotiMapper.Threads.Commands
