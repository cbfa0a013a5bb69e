import StarsGaming.Foundation.Choices
import StarsGaming.Foundation.Loops
import StarsGaming.Foundation.Runs
import StarsGaming.Foundation.Programs
import StarsGaming.Foundation.Base64
import StarsGaming.Foundation.Bytes
import StarsGaming.Foundation.Wire
import StarsGaming.Foundation.Feed
import StarsGaming.Foundation.Circular
import StarsGaming.Foundation.Entries
import StarsGaming.Foundation.Cells
import StarsGaming.Foundation.Numerals
import StarsGaming.Foundation.Whiles
import StarsGaming.Foundation.Pairs
import StarsGaming.Foundation.Ciphers
import StarsGaming.Foundation.Rijndael
import StarsGaming.Foundation.MessageDigest
import StarsGaming.Foundation.Outcomes
import StarsGaming.Cards.Card
import StarsGaming.Cards.Check
import StarsGaming.Cards.Search
import StarsGaming.Cards.Straights
import StarsGaming.Cards.Sets
import StarsGaming.Cards.Levels
import StarsGaming.Cards.AllGroups
import StarsGaming.Cards.Legal
import StarsGaming.Cards.Agreement
import StarsGaming.Cards.Shorter
import StarsGaming.Cards.Discard
import StarsGaming.Cards.Exact
import StarsGaming.Cards.Reported
import StarsGaming.Cards.Least
import StarsGaming.Cards.Suits
import StarsGaming.Cards.Cache
import StarsGaming.Cards.Enumeration
import StarsGaming.Cards.Relations
import StarsGaming.Desk.Seat
import StarsGaming.Desk.Dealer
import StarsGaming.Desk.Shuffle
import StarsGaming.Desk.GameDesk
import StarsGaming.Desk.Table
import StarsGaming.Desk.Sound
import StarsGaming.Desk.Turns
import StarsGaming.Desk.Deal
import StarsGaming.Desk.Requests
import StarsGaming.Desk.Declare
import StarsGaming.Desk.Simulation
import StarsGaming.Desk.Safety
import StarsGaming.Desk.Piles
import StarsGaming.Desk.Settlement
import StarsGaming.Lobby.PlayerManager
import StarsGaming.Lobby.PlayerRooms
import StarsGaming.Desk.Occupants
import StarsGaming.Desk.GameArea
import StarsGaming.Desk.Placement
import StarsGaming.Desk.Hall
import StarsGaming.Lobby.Records
import StarsGaming.Lobby.Dispatch
import StarsGaming.Desk.HandCardFile
import StarsGaming.Lobby.Login
import StarsGaming.Lobby.Identity
import StarsGaming.Lobby.Tokens
import StarsGaming.Tools.Base64
import StarsGaming.Tools.CharSets
import StarsGaming.Tools.AesTables
import StarsGaming.Tools.AesKeys
import StarsGaming.Tools.AesCore
import StarsGaming.Tools.MD5
import StarsGaming.Lobby.AesBt
import StarsGaming.Lobby.TokenCipher
import StarsGaming.Lobby.Accounts
import StarsGaming.Net.Header
import StarsGaming.Net.Buffer
import StarsGaming.Net.Proto
import StarsGaming.Net.TcpSession
import StarsGaming.Net.Framing
import StarsGaming.Net.Bounds
import StarsGaming.Net.SendQueue
import StarsGaming.Net.SessionLife
import StarsGaming.Net.Session
import StarsGaming.Net.AsyncRequest
import StarsGaming.Net.SynRequest
import StarsGaming.Net.Replies
import StarsGaming.Net.SessionManager
import StarsGaming.Net.SessionIds
import StarsGaming.Net.Client
import StarsGaming.Net.MqBindings
import StarsGaming.Net.MqClient
import StarsGaming.Net.MqSession
import StarsGaming.Net.MqBounds
