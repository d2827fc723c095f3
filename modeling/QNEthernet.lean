import QNEthernet.Lib.Ring
import QNEthernet.Lib.Fifo
import QNEthernet.Lib.Run
import QNEthernet.Lib.Call
import QNEthernet.Lib.StickyFilter
import QNEthernet.Lib.Handoff
import QNEthernet.Lib.Slots
import QNEthernet.Lib.Chunks
import QNEthernet.Lib.Memory
import QNEthernet.Lib.Rejection
import QNEthernet.Lib.Words
import QNEthernet.Lib.Partial
import QNEthernet.Lib.Limited
import QNEthernet.Lib.Elements
import QNEthernet.Lib.Rows
import QNEthernet.Lib.LastOfEach
import QNEthernet.Lib.Spans
import QNEthernet.Lib.While
import QNEthernet.Lib.Divisors
import QNEthernet.Lib.Crc
import QNEthernet.Lib.OnesSum
import QNEthernet.Lib.Serial
import QNEthernet.Lib.Agenda
import QNEthernet.Internal.CircularBuffer
import QNEthernet.Internal.ByteBuffer
import QNEthernet.Lwip.Pbuf
import QNEthernet.Lwip.Chain
import QNEthernet.Lwip.Chksum
import QNEthernet.Lwip.Icmp
import QNEthernet.Util.SteadyClock
import QNEthernet.Util.PrintUtils
import QNEthernet.Hal.SetTimeOfDay
import QNEthernet.Entropy.Range
import QNEthernet.Entropy.Trng
import QNEthernet.Entropy.TrngPool
import QNEthernet.Entropy.TrngOnce
import QNEthernet.Security.SipHash
import QNEthernet.Internal.Queues
import QNEthernet.Udp.Model
import QNEthernet.Udp.Calls
import QNEthernet.Udp.Mailbox
import QNEthernet.Udp.Receive
import QNEthernet.Udp.Queue
import QNEthernet.RawFrame.Model
import QNEthernet.Udp.Accounting
import QNEthernet.Udp.Owned
import QNEthernet.Udp.Ownership
import QNEthernet.Udp.Multicast
import QNEthernet.Udp.Transmit
import QNEthernet.Drivers.W5500
import QNEthernet.Drivers.W5500Scan
import QNEthernet.Drivers.W5500Framing
import QNEthernet.Drivers.W5500Drain
import QNEthernet.Drivers.W5500Send
import QNEthernet.Drivers.W5500Stage
import QNEthernet.Drivers.Teensy41Filter
import QNEthernet.Drivers.Teensy41Crc
import QNEthernet.Drivers.Teensy41
import QNEthernet.Drivers.Teensy41Tx
import QNEthernet.Drivers.Teensy41TxRing
import QNEthernet.RawFrame.Output
import QNEthernet.RawFrame.Building
import QNEthernet.Drivers.Teensy41Rx
import QNEthernet.Drivers.Teensy41RxOrder
import QNEthernet.Drivers.Teensy41RxWake
import QNEthernet.Drivers.Teensy41Mdio
import QNEthernet.Drivers.Teensy41LinkCheck
import QNEthernet.Drivers.Cyw43Join
import QNEthernet.Drivers.Cyw43Link
import QNEthernet.Drivers.Cyw43Joined
import QNEthernet.Drivers.Cyw43Sequence
import QNEthernet.Drivers.Cyw43Window
import QNEthernet.Drivers.Cyw43Clock
import QNEthernet.Drivers.Cyw43Ioctl
import QNEthernet.Drivers.Cyw43Frames
import QNEthernet.Drivers.Cyw43Fifo
import QNEthernet.Drivers.Cyw43Buffers
import QNEthernet.Drivers.Cyw43Readers
import QNEthernet.Drivers.Cyw43Transmit
import QNEthernet.Drivers.Cyw43Credentials
import QNEthernet.Drivers.Cyw43Upload
import QNEthernet.Drivers.Cyw43Cmd53
import QNEthernet.Drivers.Cyw43Scan
import QNEthernet.Drivers.Cyw43ScanBounds
import QNEthernet.Drivers.Cyw43ScanSecurity
import QNEthernet.Drivers.Cyw43ScanResults
import QNEthernet.Tcp.World
import QNEthernet.Tcp.Callbacks
import QNEthernet.Tcp.Lwip
import QNEthernet.Tcp.Manager
import QNEthernet.Tcp.Client
import QNEthernet.Tcp.Server
import QNEthernet.Tcp.Blocks
import QNEthernet.Tcp.Stream
import QNEthernet.Tcp.Clients
import QNEthernet.Tcp.Reception
import QNEthernet.Tcp.FlowControl
import QNEthernet.Tcp.Change
import QNEthernet.Tcp.Later
import QNEthernet.Tcp.Linked
import QNEthernet.Tcp.LwipChanges
import QNEthernet.Tcp.EventChanges
import QNEthernet.Tcp.Move
import QNEthernet.Tcp.Tidy
import QNEthernet.Tcp.TidyEvents
import QNEthernet.Tcp.TidyMoves
import QNEthernet.Tcp.Waiting
import QNEthernet.Tcp.Calls
import QNEthernet.Tcp.ClientCalls
import QNEthernet.Tcp.Holding
import QNEthernet.Tcp.Sketch
import QNEthernet.Tcp.Queue
import QNEthernet.Tcp.Accept
import QNEthernet.Tcp.Incoming
import QNEthernet.Tcp.WriteFully
import QNEthernet.Tcp.Typestate
import QNEthernet.Tcp.Handover
import QNEthernet.Tcp.Connections
import QNEthernet.Tcp.During
import QNEthernet.Tcp.Attempt
import QNEthernet.Tcp.FailedConnect
import QNEthernet.Tcp.Listeners
import QNEthernet.Tcp.ListenerOwners
import QNEthernet.EthernetClass.Model
import QNEthernet.EthernetClass.Start
import QNEthernet.EthernetClass.Dhcp
import QNEthernet.EthernetClass.MacAddress
import QNEthernet.EthernetClass.Events
import QNEthernet.EthernetClass.EventsOnly
import QNEthernet.EthernetClass.Listeners
import QNEthernet.Igmp.Model
import QNEthernet.Igmp.Members
import QNEthernet.Igmp.Reports
import QNEthernet.Mdns.Model
import QNEthernet.Mdns.Mirror
import QNEthernet.Dns.Model
import QNEthernet.Dns.Lookup
import QNEthernet.Dns.Callbacks
import QNEthernet.Ping.Model
import QNEthernet.Ping.RoundTrip
import QNEthernet.Timers.Model
import QNEthernet.Timers.Tokens
import QNEthernet.Timers.Exact
import QNEthernet.Timers.Order
import QNEthernet.Timers.Prompt
import QNEthernet.Timers.Cyclic
