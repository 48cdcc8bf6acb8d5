import NextendoMatchmaking.Library.GoMap
import NextendoMatchmaking.Library.Runs
import NextendoMatchmaking.Library.Parsing
import NextendoMatchmaking.Library.Seats
import NextendoMatchmaking.Library.Index
import NextendoMatchmaking.Library.Framing
import NextendoMatchmaking.Library.Deferred
import NextendoMatchmaking.Library.Ordered
import NextendoMatchmaking.Library.TopList
import NextendoMatchmaking.Library.Fields
import NextendoMatchmaking.Library.Slices
import NextendoMatchmaking.Library.Base64
import NextendoMatchmaking.Wire.Stream
import NextendoMatchmaking.Wire.Rmc
import NextendoMatchmaking.Wire.Protocols
import NextendoMatchmaking.Wire.Structures
import NextendoMatchmaking.Wire.RoundTrip
import NextendoMatchmaking.Wire.Sizes
import NextendoMatchmaking.Wire.RmcRoundTrip
import NextendoMatchmaking.Wire.StructureRoundTrip
import NextendoMatchmaking.Wire.DecodeErrors
import NextendoMatchmaking.Wire.Decoding
import NextendoMatchmaking.Wire.Echoes
import NextendoMatchmaking.Wire.Reencoding
import NextendoMatchmaking.Wire.Prudp
import NextendoMatchmaking.Wire.PacketStream
import NextendoMatchmaking.Wire.PacketCodec
import NextendoMatchmaking.Wire.Kerberos
import NextendoMatchmaking.Wire.DateTime
import NextendoMatchmaking.Dedup.Model
import NextendoMatchmaking.Dedup.Table
import NextendoMatchmaking.Dedup.Coalescing
import NextendoMatchmaking.Dedup.Window
import NextendoMatchmaking.Matchmaking.Store
import NextendoMatchmaking.Matchmaking.Handlers
import NextendoMatchmaking.Matchmaking.System
import NextendoMatchmaking.Matchmaking.Changes
import NextendoMatchmaking.Matchmaking.SeatCapacity
import NextendoMatchmaking.Matchmaking.Representation
import NextendoMatchmaking.Matchmaking.Reservations
import NextendoMatchmaking.Matchmaking.Ownership
import NextendoMatchmaking.Matchmaking.Opening
import NextendoMatchmaking.Matchmaking.Seating
import NextendoMatchmaking.Matchmaking.PlayerLookups
import NextendoMatchmaking.Matchmaking.NATMatching
import NextendoMatchmaking.Matchmaking.Mesh
import NextendoMatchmaking.Matchmaking.Outsiders
import NextendoMatchmaking.Matchmaking.ClosedLobby
import NextendoMatchmaking.Matchmaking.Membership
import NextendoMatchmaking.Matchmaking.Consent
import NextendoMatchmaking.Matchmaking.FriendDoors
import NextendoMatchmaking.Matchmaking.RoomLimits
import NextendoMatchmaking.Matchmaking.RoomCodes
import NextendoMatchmaking.Matchmaking.Secrets
import NextendoMatchmaking.Matchmaking.Attributes
import NextendoMatchmaking.Matchmaking.Tournaments
import NextendoMatchmaking.Matchmaking.TournamentIDs
import NextendoMatchmaking.Matchmaking.Stamping
import NextendoMatchmaking.Matchmaking.TournamentFile
import NextendoMatchmaking.Matchmaking.Bounds
import NextendoMatchmaking.Endpoint.Connection
import NextendoMatchmaking.Endpoint.System
import NextendoMatchmaking.Endpoint.Moves
import NextendoMatchmaking.Endpoint.DispatchGate
import NextendoMatchmaking.Endpoint.Registry
import NextendoMatchmaking.Endpoint.Fragments
import NextendoMatchmaking.Endpoint.Session
import NextendoMatchmaking.Endpoint.Reassembly
import NextendoMatchmaking.Endpoint.Isolation
import NextendoMatchmaking.Endpoint.RemoteCalls
import NextendoMatchmaking.Endpoint.AccessKey
import NextendoMatchmaking.Endpoint.Acknowledgements
import NextendoMatchmaking.Endpoint.AckRace
import NextendoMatchmaking.Endpoint.Delivery
import NextendoMatchmaking.Endpoint.StationURL
import NextendoMatchmaking.Endpoint.CallIDs
import NextendoMatchmaking.Ranking.CommonData
import NextendoMatchmaking.Ranking.Board
import NextendoMatchmaking.Ranking.Competition
import NextendoMatchmaking.Ranking.History
import NextendoMatchmaking.Ranking.Restart
import NextendoMatchmaking.Ranking.Profiles
import NextendoMatchmaking.Ranking.Handler
import NextendoMatchmaking.Server.Wiring
import NextendoMatchmaking.Server.StaleConnection
import NextendoMatchmaking.Server.PhantomLobby
import NextendoMatchmaking.Server.Allowlist
import NextendoMatchmaking.Server.MalformedRequests
import NextendoMatchmaking.Server.Timestamps
import NextendoMatchmaking.Login.TicketGranting
import NextendoMatchmaking.Login.Tickets
import NextendoMatchmaking.Login.HandOver
import NextendoMatchmaking.Login.ConsoleSession
import NextendoMatchmaking.Login.Identity
import NextendoMatchmaking.Login.Impersonation
import NextendoMatchmaking.Login.AccountCalls
import NextendoMatchmaking.Login.TokenFormat
import NextendoMatchmaking.Login.Recall
import NextendoMatchmaking.Endpoint.NatBridge
import NextendoMatchmaking.Endpoint.StationParams
import NextendoMatchmaking.Endpoint.Peers
import NextendoMatchmaking.Matchmaking.SessionURLs
import NextendoMatchmaking.Login.LatestLogin
import NextendoMatchmaking.Server.Persistence
import NextendoMatchmaking.Server.Dispatch
import NextendoMatchmaking.Server.Retries
import NextendoMatchmaking.Server.Eviction
import NextendoMatchmaking.Server.GhostPlayers
