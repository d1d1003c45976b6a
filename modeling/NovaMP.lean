import NovaMP.Lib.Codec
import NovaMP.Client.VehicleUpdate
import NovaMP.Server.Locks
import NovaMP.Server.Reads
import NovaMP.Server.Registry
import NovaMP.Server.Endpoints
import NovaMP.Server.Requests
import NovaMP.Server.Frames
import NovaMP.Sync.History
import NovaMP.Server.Confidential
import NovaMP.Server.Changes
import NovaMP.Server.Gate
import NovaMP.Server.Roles
import NovaMP.Server.Slots
import NovaMP.Server.OwnPlayer
import NovaMP.Server.Dump
import NovaMP.Server.Whole
import NovaMP.Lib.Replica
import NovaMP.Server.Announcements
import NovaMP.Server.Newcomers
import NovaMP.Lib.Threads
import NovaMP.Server.Logins
import NovaMP.Client.Stream
import NovaMP.Client.Sending
import NovaMP.Sync.Independence
import NovaMP.Sync.Sequences
import NovaMP.Server.Forgery
import NovaMP.Server.Ghosts
import NovaMP.Server.Arrivals
import NovaMP.Server.Scene
import NovaMP.Server.Traffic
import NovaMP.Server.Sessions
import NovaMP.Lib.Outbox
import NovaMP.Server.Writes
import NovaMP.Server.Bans
import NovaMP.Client.RemoteVehicles
import NovaMP.Server.Strangers
import NovaMP.Lib.Scripts
import NovaMP.Server.Broadcasts
import NovaMP.Network.Values
import NovaMP.Network.Members
import NovaMP.Client.BeamMP
import NovaMP.Client.Reassembly
import NovaMP.Client.Handshake
import NovaMP.Client.Lifetime
import NovaMP.Client.Shutdown
import NovaMP.Client.Foreign
import NovaMP.Client.Ending
import NovaMP.Client.VehicleIds
import NovaMP.Server.VehicleNumbers
import NovaMP.Server.Departure
import NovaMP.Lib.Lines
import NovaMP.Server.Rcon
import NovaMP.Server.Plugins
import NovaMP.Client.Auth
import NovaMP.Client.Credentials
import NovaMP.Client.Extension
import NovaMP.Client.VehicleDeletes
import NovaMP.Lib.Runs
import NovaMP.Client.Onlooker
import NovaMP.Client.AiTraffic
import NovaMP.Client.Echo
import NovaMP.Server.Refusals
import NovaMP.Server.PlayerIds
import NovaMP.Sync.Passes
import NovaMP.Server.EndpointMaps
import NovaMP.Client.AiIds
import NovaMP.Lib.Ledger
import NovaMP.Client.Orphans
import NovaMP.Network.Layout
import NovaMP.Client.FrameStream
import NovaMP.Client.SplitBuffer
import NovaMP.Network.Decimal
import NovaMP.Client.TextFormats
import NovaMP.Client.WrittenIds
import NovaMP.Network.FloatText
import NovaMP.Client.EncodeTransform
import NovaMP.Client.LoginErrors
import NovaMP.Server.ChatFilter
import NovaMP.Server.PluginPlayers
import NovaMP.Server.PluginIds
import NovaMP.Server.Config
import NovaMP.Server.Rates
import NovaMP.Server.VehicleLimits
import NovaMP.Lib.Gather
import NovaMP.Client.ServerBrowser
import NovaMP.Lib.Processes
import NovaMP.Server.HeadlessLauncher
import NovaMP.Client.Unready
import NovaMP.Server.Stopping
import NovaMP.Lib.Istream
import NovaMP.Network.Input
import NovaMP.Server.Commands
import NovaMP.Client.BrowserConsole
import NovaMP.Client.Launcher
import NovaMP.Lib.Pacing
import NovaMP.Sync.Freshness
import NovaMP.Client.Agreement
import NovaMP.Lib.Http
import NovaMP.Client.Http
import NovaMP.Server.PluginCalls
import NovaMP.Server.ShippedPlugins
import NovaMP.Client.BeamMPKeys
