import SockEtOut.Lib.Table
import SockEtOut.Lib.Run
import SockEtOut.Lib.Vec
import SockEtOut.Lib.Framing
import SockEtOut.Lib.Reactions
import SockEtOut.Lib.Reader
import SockEtOut.Models.Basic
import SockEtOut.Models.Snowflake
import SockEtOut.Wire.Header
import SockEtOut.Wire.Channel
import SockEtOut.Net.Readers
import SockEtOut.Server.Tables
import SockEtOut.Server.Database
import SockEtOut.Server.Registration
import SockEtOut.Server.Handlers
import SockEtOut.Proof.Fragmentation
import SockEtOut.Proof.Steps
import SockEtOut.Proof.Membership
import SockEtOut.Proof.History
import SockEtOut.Proof.Orphans
import SockEtOut.Proof.Cascade
import SockEtOut.Proof.ChannelWire
import SockEtOut.Proof.UsernameRace
import SockEtOut.Proof.Notifications
import SockEtOut.Proof.Serving
import SockEtOut.Proof.Confidentiality
import SockEtOut.Client.Session
import SockEtOut.Lib.Inbox
import SockEtOut.Net.Deployment
import SockEtOut.Proof.Histories
import SockEtOut.Proof.Replica
import SockEtOut.Lib.Word
import SockEtOut.Wire.Models
import SockEtOut.Wire.Requests
import SockEtOut.Wire.Responses
import SockEtOut.Wire.Packets
import SockEtOut.Client.Reader
import SockEtOut.Server.Reader
import SockEtOut.Server.Threads
import SockEtOut.Proof.Generators
import SockEtOut.Proof.RoundTrips
import SockEtOut.Proof.Frames
import SockEtOut.Proof.Lengths
import SockEtOut.Proof.Search
import SockEtOut.Proof.Credentials
import SockEtOut.Proof.Listings
import SockEtOut.Proof.MessageLife
import SockEtOut.Proof.SendAndDelete
import SockEtOut.Proof.ConcurrentSends
import SockEtOut.Proof.LoginDelivery
import SockEtOut.Proof.DeliveredOnce
import SockEtOut.Proof.Uninterrupted
import SockEtOut.Proof.Bounds
import SockEtOut.Proof.Failures
import SockEtOut.Proof.ClientView
import SockEtOut.Server.Logins
import SockEtOut.Proof.LoginTotal
import SockEtOut.Proof.Answers
import SockEtOut.Proof.Authority
import SockEtOut.Proof.Sweep
import SockEtOut.Proof.Accounts
import SockEtOut.Proof.VersionGate
import SockEtOut.Lib.Numerals
import SockEtOut.Lib.Json
import SockEtOut.Wire.Json
import SockEtOut.Proof.JsonRoundTrips
import SockEtOut.Proof.Canonical
import SockEtOut.Proof.UuidParsing
import SockEtOut.Wire.InPlace
import SockEtOut.Proof.Overwrites
import SockEtOut.Wire.Serializable
import SockEtOut.Proof.Sizes
import SockEtOut.Client.Windows
import SockEtOut.Proof.OpenChannel
import SockEtOut.Proof.ChatTexts
import SockEtOut.Net.Connection
import SockEtOut.Proof.Bookkeeping
import SockEtOut.Lib.Simulation
import SockEtOut.Wire.Builds
import SockEtOut.Client.Requests
import SockEtOut.Net.Exchange
import SockEtOut.Net.Network
import SockEtOut.Lib.Carried
import SockEtOut.Proof.Views
import SockEtOut.Proof.ByteLevel
import SockEtOut.Proof.ByteReplica
import SockEtOut.Proof.Following
import SockEtOut.Proof.NothingMissed
import SockEtOut.Client.Application
import SockEtOut.Proof.Screen
import SockEtOut.Proof.Faults
import SockEtOut.Proof.Clicks
import SockEtOut.Net.Desktops
import SockEtOut.Proof.DesktopViews
import SockEtOut.Server.TcpServer
import SockEtOut.Proof.Departures
import SockEtOut.Lib.Records
import SockEtOut.Proof.Said
import SockEtOut.Proof.CanonicalResponses
import SockEtOut.Proof.ByteOrders
import SockEtOut.Net.Parties
import SockEtOut.Proof.Reconnections
import SockEtOut.Lib.Rest
import SockEtOut.Proof.Settling
import SockEtOut.Proof.InTurn
import SockEtOut.Proof.Services
