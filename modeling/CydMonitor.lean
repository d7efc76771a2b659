import CydMonitor.Codec.Framing
import CydMonitor.Codec.SnapshotOrder
import CydMonitor.Control.Connection
import CydMonitor.Control.Slots
import CydMonitor.Daemon.Consent
import CydMonitor.Daemon.Views
import CydMonitor.Device.Authorization
import CydMonitor.Device.IdleDrain
import CydMonitor.Device.TickTiming
import CydMonitor.Device.Unpairing
import CydMonitor.Hci.BleScanner
import CydMonitor.Hci.FlowControl
import CydMonitor.Hci.Parse
import CydMonitor.Hooks.Frame
import CydMonitor.Hooks.Reinstall
import CydMonitor.Hooks.Timestamp
import CydMonitor.Hooks.Writer
import CydMonitor.Metrics.Association
import CydMonitor.Metrics.BatteryExact
import CydMonitor.Metrics.CacheHistory
import CydMonitor.Metrics.Condition
import CydMonitor.Metrics.Counted
import CydMonitor.Metrics.Evidence
import CydMonitor.Metrics.Presence
import CydMonitor.Metrics.Samplers
import CydMonitor.Metrics.Storage
import CydMonitor.Metrics.Totals
import CydMonitor.Observation.Accounting
import CydMonitor.Observation.CleanPass
import CydMonitor.Observation.Exclusive
import CydMonitor.Observation.Resync
import CydMonitor.Observation.RingSemantics
import CydMonitor.Observation.Rotation
import CydMonitor.Observation.Waits
import CydMonitor.Session.Delivery
import CydMonitor.Transport.Refusals
import CydMonitor.Wifi.FlatGrammar
import CydMonitor.Wifi.Gate
import CydMonitor.Wifi.Heard
import CydMonitor.Wifi.Heartbeat
import CydMonitor.Wifi.Session
