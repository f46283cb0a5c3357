import UsbIp.Foundation.Transition
import UsbIp.Foundation.Progress
import UsbIp.Foundation.Bytes
import UsbIp.Foundation.Table
import UsbIp.Foundation.History
import UsbIp.Foundation.Sections
import UsbIp.Foundation.Checked
import UsbIp.Foundation.Leases
import UsbIp.Foundation.Copies
import UsbIp.Foundation.Rescale
import UsbIp.Foundation.Readers
import UsbIp.Foundation.Recursion
import UsbIp.Protocol.Wire
import UsbIp.Protocol.Bounds
import UsbIp.Protocol.Buffers
import UsbIp.Protocol.Isochronous
import UsbIp.Hci.Message
import UsbIp.Hci.HideUas
import UsbIp.Hci.Commands
import UsbIp.Hci.AddressPool
import UsbIp.Hci.Descriptors
import UsbIp.Hci.Bounds
import UsbIp.Hci.Prefixes
import UsbIp.Hci.EndpointWalk
import UsbIp.Client.Shared
import UsbIp.Client.Session
import UsbIp.Client.Devices
import UsbIp.Client.Selection
import UsbIp.Client.Tables
import UsbIp.Client.Allocation
import UsbIp.Client.Resolution
import UsbIp.Client.Framing
import UsbIp.Client.InStep
import UsbIp.Client.Buffers
import UsbIp.Client.Tracking
import UsbIp.Client.Exchange
import UsbIp.Client.LateReplies
import UsbIp.Engine.State
import UsbIp.Engine.Pump
import UsbIp.Engine.System
import UsbIp.Engine.SlotRing
import UsbIp.Engine.Steps
import UsbIp.Engine.Rounds
import UsbIp.Engine.Changes
import UsbIp.Engine.Tokens
import UsbIp.Engine.Orphans
import UsbIp.Engine.Views
import UsbIp.Engine.Window
import UsbIp.Engine.Links
import UsbIp.Engine.Straight
import UsbIp.Engine.OutData
import UsbIp.Engine.Pauses
import UsbIp.Engine.Control
import UsbIp.Engine.Lengths
import UsbIp.Engine.Faults
import UsbIp.Engine.Configurations
import UsbIp.Engine.Reclaimed
import UsbIp.Engine.Disconnect
import UsbIp.Engine.Doorbell
import UsbIp.Engine.Termination
import UsbIp.Engine.Conduct
import UsbIp.Engine.Buffers
import UsbIp.Engine.Origins
import UsbIp.Host.Controller
import UsbIp.Host.Answers
import UsbIp.Host.Tables
import UsbIp.Host.Clock
import UsbIp.Host.IoRing
import UsbIp.Server.Urbs
import UsbIp.Server.Serve
import UsbIp.Server.Listener
import UsbIp.Server.Imports
import UsbIp.Link.Dialogue
import UsbIp.Link.Numbers
import UsbIp.Link.Sound
import UsbIp.Link.Custody
import UsbIp.Link.Agreement
import UsbIp.Link.System
import UsbIp.Link.Streams
import UsbIp.Link.Sides
import UsbIp.Link.Refinement
import UsbIp.Link.Serving
import UsbIp.Link.Runs
import UsbIp.Link.Delivery
import UsbIp.Link.Numbering
import UsbIp.Link.Progress
import UsbIp.Link.Draining
import UsbIp.Link.Detaching
import UsbIp.Link.Hosting
import UsbIp.Link.World
import UsbIp.Link.Transfers
import UsbIp.Link.Network
import UsbIp.Link.Handshake
import UsbIp.Link.Admission
import UsbIp.Link.Attaching
import UsbIp.Link.Manners
import UsbIp.Link.Guarantees
import UsbIp.Link.EndToEnd
