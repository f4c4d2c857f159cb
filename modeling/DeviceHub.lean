import DeviceHub.Broker.Login
import DeviceHub.Influx
import DeviceHub.Main
import DeviceHub.Session.Run
import DeviceHub.Store
import DeviceHub.Proofs.Command.Pending
import DeviceHub.Proofs.Command.Course
import DeviceHub.Proofs.Session.History
import DeviceHub.Proofs.Command.Launch
import DeviceHub.Proofs.Dispatcher.Outcome
import DeviceHub.Proofs.Session.Desk
import DeviceHub.Proofs.Session.Steps
import DeviceHub.Proofs.Session.Orderly
import DeviceHub.Proofs.Session.InFlight
import DeviceHub.Proofs.Json.Record
import DeviceHub.Proofs.Message.Agreement
import DeviceHub.Proofs.Session.Addressee
import DeviceHub.Proofs.Session.Alike
import DeviceHub.Proofs.Session.Isolation
import DeviceHub.Proofs.Decimal.Digits
import DeviceHub.Proofs.Point.Reader
import DeviceHub.Proofs.Point.RoundTrip
import DeviceHub.Proofs.Session.Traffic
import DeviceHub.Proofs.Session.Publishing
import DeviceHub.Proofs.Session.Finality
import DeviceHub.Proofs.Influx.Course
import DeviceHub.Proofs.Dispatcher.Conservation
import DeviceHub.Proofs.Dispatcher.Rejection
import DeviceHub.Proofs.Dispatcher.Lines
import DeviceHub.Proofs.Throttle.Decision
import DeviceHub.Proofs.Dispatcher.Redelivery
import DeviceHub.Proofs.Dispatcher.Finite
import DeviceHub.Proofs.Throttle.Ledger
import DeviceHub.Proofs.Throttle.Spacing
import DeviceHub.Proofs.Throttle.Pairs
import DeviceHub.Proofs.Throttle.Tracking
import DeviceHub.Proofs.Service.Devices
import DeviceHub.Proofs.Message.RoundTrip
import DeviceHub.Proofs.Config.RoundTrip
import DeviceHub.Proofs.Config.Layers
import DeviceHub.Proofs.Backoff
import DeviceHub.Proofs.Session.Ownership
import DeviceHub.Proofs.Session.Abandonment
import DeviceHub.Proofs.Session.Reconnecting
import DeviceHub.Proofs.Session.Outcome
import DeviceHub.Proofs.Registry.History
import DeviceHub.Proofs.Topic.Subscriptions
import DeviceHub.Proofs.Command.Destination
import DeviceHub.Proofs.Broker
