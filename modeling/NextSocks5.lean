import NextSocks5.Admin.Attach
import NextSocks5.Admin.Client
import NextSocks5.Admin.Feed
import NextSocks5.Admin.Frame
import NextSocks5.Admin.Postcard
import NextSocks5.Admin.Socket
import NextSocks5.Admin.Stats
import NextSocks5.Auth
import NextSocks5.Config
import NextSocks5.Dns
import NextSocks5.Egress
import NextSocks5.Headless
import NextSocks5.Hosts
import NextSocks5.Interactive
import NextSocks5.Library.Broadcast
import NextSocks5.Library.Census
import NextSocks5.Library.Codec
import NextSocks5.Library.Delivery
import NextSocks5.Library.FixedWindow
import NextSocks5.Library.Incremental
import NextSocks5.Library.Machine
import NextSocks5.Library.Prefix
import NextSocks5.Library.Ranked
import NextSocks5.Library.Recent
import NextSocks5.Library.Rotation
import NextSocks5.Library.Tally
import NextSocks5.Library.Window
import NextSocks5.Library.Worklist
import NextSocks5.Metrics
import NextSocks5.Net
import NextSocks5.PortRange
import NextSocks5.Protocol.Address
import NextSocks5.Protocol.Checked
import NextSocks5.Protocol.Handshake
import NextSocks5.Protocol.Reply
import NextSocks5.Protocol.Request
import NextSocks5.Protocol.Udp
import NextSocks5.Server.AcceptLoop
import NextSocks5.Server.Acceptance
import NextSocks5.Server.Accounting
import NextSocks5.Server.Admission
import NextSocks5.Server.Advertise
import NextSocks5.Server.Associate
import NextSocks5.Server.Association
import NextSocks5.Server.Bulletin
import NextSocks5.Server.Connect
import NextSocks5.Server.Connection
import NextSocks5.Server.Conversation
import NextSocks5.Server.Datagrams
import NextSocks5.Server.Dialing
import NextSocks5.Server.EgressPolicy
import NextSocks5.Server.Establish
import NextSocks5.Server.Failures
import NextSocks5.Server.Fairness
import NextSocks5.Server.Handling
import NextSocks5.Server.Handover
import NextSocks5.Server.Handshaking
import NextSocks5.Server.Heard
import NextSocks5.Server.Idle
import NextSocks5.Server.Inbound
import NextSocks5.Server.Integrity
import NextSocks5.Server.Lifecycle
import NextSocks5.Server.Messages
import NextSocks5.Server.Negotiate
import NextSocks5.Server.Outbound
import NextSocks5.Server.PortScan
import NextSocks5.Server.Ports
import NextSocks5.Server.RateCap
import NextSocks5.Server.Reclaim
import NextSocks5.Server.Registry
import NextSocks5.Server.Relay
import NextSocks5.Server.Sampling
import NextSocks5.Server.Service
import NextSocks5.Server.Stream
import NextSocks5.Server.Teardown
import NextSocks5.Server.Traffic
import NextSocks5.Server.Transcript
import NextSocks5.Server.Wire
import NextSocks5.Stdout
import NextSocks5.Tui.Anchor
import NextSocks5.Tui.Attached
import NextSocks5.Tui.Dashboard
import NextSocks5.Tui.Journal
import NextSocks5.Tui.Live
import NextSocks5.Tui.Remote
import NextSocks5.Tui.Scroll
import NextSocks5.Tui.Session
import NextSocks5.Tui.Table
import NextSocks5.Tui.Tail
import NextSocks5.Tui.Widgets
