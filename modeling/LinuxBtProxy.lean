import LinuxBtProxy.Proto.Safety
import LinuxBtProxy.Proto.Wedge
import LinuxBtProxy.Proto.Exact
import LinuxBtProxy.Proto.Drain
import LinuxBtProxy.Server.Wire
import LinuxBtProxy.Handlers.Effects
import LinuxBtProxy.Server.Trace
import LinuxBtProxy.Server.Arrivals
import LinuxBtProxy.Lib.AdItem
import LinuxBtProxy.RawAdv
import LinuxBtProxy.RawAdv.Framing
import LinuxBtProxy.RawAdv.Exact
import LinuxBtProxy.RawAdv.Items
import LinuxBtProxy.Ble
import LinuxBtProxy.Ble.Isolation
import LinuxBtProxy.Ble.Agreement
import LinuxBtProxy.Ble.Losses
import LinuxBtProxy.Ble.Panics
import LinuxBtProxy.Utils.Mac
import LinuxBtProxy.Ble.Address
import LinuxBtProxy.Lib.Scalar
import LinuxBtProxy.Lib.Schema
import LinuxBtProxy.Server.Sessions
import LinuxBtProxy.Ble.Observed
import LinuxBtProxy.Ble.Discovery
import LinuxBtProxy.Mdns
import LinuxBtProxy.Main
import LinuxBtProxy.Api.Generated
import LinuxBtProxy.Api.Roundtrip
import LinuxBtProxy.Server.Client
import LinuxBtProxy.Server.Failures
import LinuxBtProxy.Server.Delivery
import LinuxBtProxy.Server.Subscribed
import LinuxBtProxy.Server.Disconnect
import LinuxBtProxy.Server.Identity
import LinuxBtProxy.Server.Published
import LinuxBtProxy.Server.Observed
