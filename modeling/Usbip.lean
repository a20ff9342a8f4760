import Usbip.Attach
import Usbip.Attach.Addresses
import Usbip.Attach.Completion
import Usbip.Attach.LifeCycle
import Usbip.Attach.Ownership
import Usbip.Attach.Theorems
import Usbip.Basic
import Usbip.Cli.Filter
import Usbip.Cli.Filter.Theorems
import Usbip.Cli.Port
import Usbip.Cli.Port.Theorems
import Usbip.DescriptorPatch
import Usbip.DescriptorPatch.Frame
import Usbip.DescriptorPatch.Live
import Usbip.DescriptorPatch.Theorems
import Usbip.DescriptorPatch.Walk
import Usbip.DeviceFilter.Check
import Usbip.DeviceFilter.Check.Theorems
import Usbip.DeviceFilter.Parser
import Usbip.DeviceFilter.Parser.Theorems
import Usbip.DeviceFilter.Policy
import Usbip.DeviceFilter.Policy.Loaded
import Usbip.DeviceFilter.Policy.Theorems
import Usbip.DeviceFilter.Whitelist
import Usbip.DeviceFilter.Whitelist.Theorems
import Usbip.EndpointList
import Usbip.EndpointList.Theorems
import Usbip.Filter.Channel
import Usbip.Filter.Channel.Theorems
import Usbip.Filter.LegacyControl
import Usbip.Filter.LegacyControl.Theorems
import Usbip.Filter.Pnp
import Usbip.Filter.Pnp.Theorems
import Usbip.Filter.Request
import Usbip.Filter.Request.Theorems
import Usbip.Filter.SelectWalk
import Usbip.Filter.SelectWalk.Theorems
import Usbip.Filter.Urb
import Usbip.Filter.Urb.Theorems
import Usbip.Isoc
import Usbip.Isoc.Bounds
import Usbip.Isoc.Repack
import Usbip.Isoc.Theorems
import Usbip.Library.Arena
import Usbip.Library.Chain
import Usbip.Library.Comparators
import Usbip.Library.Expand
import Usbip.Library.Heap
import Usbip.Library.Hoare
import Usbip.Library.Keyed
import Usbip.Library.Layout
import Usbip.Library.Ledger
import Usbip.Library.Novelty
import Usbip.Library.Pool
import Usbip.Library.Reader
import Usbip.Library.RecordWalk
import Usbip.Library.Ring
import Usbip.Library.Runs
import Usbip.Library.Selection
import Usbip.Library.Separated
import Usbip.Library.Simulation
import Usbip.Library.Stream
import Usbip.Library.Words
import Usbip.Library.Writes
import Usbip.Libusbip
import Usbip.Libusbip.Attach
import Usbip.Libusbip.Attach.Boot
import Usbip.Libusbip.Attach.Theorems
import Usbip.Libusbip.DeviceFilter
import Usbip.Libusbip.DeviceFilter.Theorems
import Usbip.Libusbip.Events
import Usbip.Libusbip.Events.Theorems
import Usbip.Libusbip.Imported
import Usbip.Libusbip.Imported.Theorems
import Usbip.Libusbip.Persistent
import Usbip.Libusbip.Persistent.Theorems
import Usbip.Libusbip.Remote
import Usbip.Libusbip.Remote.Strings
import Usbip.Libusbip.Remote.Theorems
import Usbip.Libusbip.StopAttach
import Usbip.Libusbip.StopAttach.Theorems
import Usbip.Libusbip.Theorems
import Usbip.Libusbip.UsbIds
import Usbip.Libusbip.UsbIds.Grammar
import Usbip.Libusbip.UsbIds.Theorems
import Usbip.Persistent.BackOff
import Usbip.Persistent.DeviceStr
import Usbip.Persistent.DeviceStr.Theorems
import Usbip.Persistent.Plugin
import Usbip.Persistent.Plugin.Theorems
import Usbip.Persistent.Requests
import Usbip.Persistent.Requests.Ownership
import Usbip.Persistent.Requests.Theorems
import Usbip.Persistent.Schedule
import Usbip.Persistent.Schedule.Theorems
import Usbip.Proto
import Usbip.Proto.Theorems
import Usbip.RequestList
import Usbip.RequestList.Links
import Usbip.RequestList.Links.Theorems
import Usbip.RequestList.Theorems
import Usbip.Send
import Usbip.Send.Commands
import Usbip.Send.Decode
import Usbip.Send.Serial
import Usbip.Send.System
import Usbip.Send.System.Theorems
import Usbip.Send.Theorems
import Usbip.SendContext
import Usbip.SendContext.Theorems
import Usbip.Seqnums
import Usbip.Seqnums.Theorems
import Usbip.Socket
import Usbip.Socket.Assertions
import Usbip.Socket.Theorems
import Usbip.TransferBuffer
import Usbip.TransferBuffer.Theorems
import Usbip.Transfers
import Usbip.Transfers.Frame
import Usbip.Transfers.Invariant
import Usbip.Transfers.Ownership
import Usbip.Transfers.Reuse
import Usbip.Transfers.Window
import Usbip.Transfers.Wire
import Usbip.Urb
import Usbip.Vhci
import Usbip.Vhci.Detach
import Usbip.Vhci.Detach.Theorems
import Usbip.Vhci.DeviceState
import Usbip.Vhci.Events
import Usbip.Vhci.Events.Theorems
import Usbip.Vhci.Ports
import Usbip.Vhci.Ports.Theorems
import Usbip.Vhci.Theorems
import Usbip.VhciIoctl
import Usbip.VhciIoctl.Import
import Usbip.VhciIoctl.Import.Theorems
import Usbip.VhciIoctl.Imported
import Usbip.VhciIoctl.Imported.Theorems
import Usbip.VhciIoctl.StopAttach
import Usbip.VhciIoctl.StopAttach.Theorems
import Usbip.VhciIoctl.Theorems
import Usbip.WskContext
import Usbip.WskContext.Arrays
import Usbip.WskContext.Arrays.Theorems
import Usbip.WskContext.Theorems
import Usbip.WskReceive
import Usbip.WskReceive.Chain
import Usbip.WskReceive.Framing
import Usbip.WskReceive.Isoch
import Usbip.WskReceive.Receive
import Usbip.WskReceive.Rounds
import Usbip.WskReceive.Theorems
import Usbip.Wusbip.DeviceTree
import Usbip.Wusbip.DeviceTree.Theorems
import Usbip.Wusbip.FilterDialog
import Usbip.Wusbip.FilterDialog.Theorems
import Usbip.Wusbip.MainFrame
import Usbip.Wusbip.MainFrame.Saved
import Usbip.Wusbip.MainFrame.Theorems
import Usbip.Wusbip.PreFilter
import Usbip.Wusbip.PreFilter.Theorems
import Usbip.Wusbip.TreeComparator
import Usbip.Wusbip.TreeComparator.Theorems
