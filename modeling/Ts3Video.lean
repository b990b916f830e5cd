import Ts3Video.Media.BufferContract
import Ts3Video.Media.BufferIndexing
import Ts3Video.Media.ReassemblySoundness
import Ts3Video.Media.PayloadFraming
import Ts3Video.Media.FileCodec
import Ts3Video.Media.MediaPipeline
import Ts3Video.Media.DecodableFrames
import Ts3Video.Media.FrameSplitting
import Ts3Video.Media.DecodingThread
import Ts3Video.Media.EncoderRestart
import Ts3Video.Cor.RoundTrip
import Ts3Video.Cor.SendQueue
import Ts3Video.Cor.Replies
import Ts3Video.Cor.Reconnect
import Ts3Video.Cor.HeaderFields
import Ts3Video.Cor.Progress
import Ts3Video.Server.Authorization
import Ts3Video.Server.Identifiers
import Ts3Video.Server.LookupGrowth
import Ts3Video.Server.RelayTable
import Ts3Video.Server.Staleness
import Ts3Video.Server.Notifications
import Ts3Video.Server.MediaPeers
import Ts3Video.Server.Bans
import Ts3Video.Server.ConnectionLimit
import Ts3Video.Server.ConnectionTimer
import Ts3Video.Server.ChannelPasswords
import Ts3Video.Server.Dangling
import Ts3Video.Server.ChannelList
import Ts3Video.Server.ChannelProtection
import Ts3Video.Client.MediaAgreement
import Ts3Video.Client.ParticipantAgreement
import Ts3Video.TeamSpeak.Authorization
import Ts3Video.TeamSpeak.ItemLists
import Ts3Video.TeamSpeak.DeadServer
import Ts3Video.Base.RingQueue
import Ts3Video.Image.ImageConversion
import Ts3Video.Image.Strides
import Ts3Video.License.LicenseDocuments
import Ts3Video.License.Versions
import Ts3Video.Cor.Session
import Ts3Video.Cor.Matching
import Ts3Video.Cor.RemoteCalls
import Ts3Video.Library.Components
import Ts3Video.Media.SenderIsolation
import Ts3Video.Library.PairedLists
import Ts3Video.Server.WrittenDatagrams
import Ts3Video.Server.VideoRelay
import Ts3Video.Library.Throttle
import Ts3Video.Media.RecoveryRequests
import Ts3Video.Media.LossyDelivery
import Ts3Video.Media.RecoveryLoop
import Ts3Video.Media.EncodingQueue
import Ts3Video.Library.Simulation
import Ts3Video.Server.Conference
import Ts3Video.Server.ConferenceRefinement
import Ts3Video.Server.PasswordSecrecy
import Ts3Video.Cor.SessionSteps
import Ts3Video.Client.WireRefinement
import Ts3Video.Qt.CompactJson
import Ts3Video.Client.WiredRuns
import Ts3Video.Client.TileAgreement
