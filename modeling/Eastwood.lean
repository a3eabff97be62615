import Eastwood.KeyChain
import Eastwood.Sodium
import Eastwood.Ratchet
import Eastwood.RatchetChain
import Eastwood.Session
import Eastwood.HonestRun
import Eastwood.Secrecy
import Eastwood.X3dh
import Eastwood.KeyBundle
import Eastwood.DhStep
import Eastwood.EpochChange
import Eastwood.Backlog
import Eastwood.Hex
import Eastwood.Json
import Eastwood.Endpoints
import Eastwood.Handshake
import Eastwood.SessionManager
import Eastwood.ReceiveAnswers
import Eastwood.MessageFlow
import Eastwood.TwoDevices
import Eastwood.SignedPrekeys
import Eastwood.SendKeys
import Eastwood.StoredSessions
import Eastwood.HandshakePosts
import Eastwood.JsonText
import Eastwood.Signing
import Eastwood.FileAccess
import Eastwood.FileBinding
import Eastwood.Throwing
import Eastwood.Accounts
import Eastwood.OwnStore
import Eastwood.Registration
import Eastwood.KekRows
import Eastwood.PasswordRotation
import Eastwood.AccountSwitch
import Eastwood.StoredKeys
import Eastwood.Batch
import Eastwood.MessageWire
import Eastwood.FileListing
import Eastwood.BadEntries
import Eastwood.AtRest
import Eastwood.SendFileTo
import Eastwood.FileDelivery
import Eastwood.AuthCode
import Eastwood.Runs
import Eastwood.IdentityKeys
import Eastwood.SessionIndependence
import Eastwood.SendWindow
import Eastwood.VerifiedPrekeys
import Eastwood.OnetimePrekeys
import Eastwood.RotatedAccess
import Eastwood.Codec
import Eastwood.FirstBundle
import Eastwood.HttpResponse
import Eastwood.LoginAttempts
import Eastwood.Logout
import Eastwood.Recipients
import Eastwood.SecretAgreement
import Eastwood.Serialise
import Eastwood.Revoking
import Eastwood.Table
import Eastwood.TwoTables
import Eastwood.MessageTables
import Eastwood.KeybundleReply
import Eastwood.StrictHex
import Eastwood.HttpReply
import Eastwood.FilePaths
import Eastwood.HttpRequest
import Eastwood.PublishedPrekeys
import Eastwood.LexicalPath
import Eastwood.PercentEncoding
import Eastwood.DatabaseHandle
import Eastwood.Counters
import Eastwood.Base64
import Eastwood.Base642bin
import Eastwood.ConcatOrdered
import Eastwood.PrevChainLength
import Eastwood.Istream
import Eastwood.RatchetStream
import Eastwood.HeaderBlock
import Eastwood.UrlUtils
import Eastwood.Labelling
import Eastwood.RelayKeys
import Eastwood.RelaySecrecy
import Eastwood.FileSecrecy
import Eastwood.Ownership
import Eastwood.SecureMemory
import Eastwood.Superseding
import Eastwood.MessageLists
import Eastwood.LocalActions
import Eastwood.Connections
import Eastwood.RateLimit
import Eastwood.EnvFile
import Eastwood.WindowManager
import Eastwood.DeviceCode
import Eastwood.DeviceLinking
import Eastwood.Statements
import Eastwood.AccountWindows
