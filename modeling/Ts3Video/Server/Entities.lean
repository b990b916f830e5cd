import Mathlib.Algebra.Group.Nat.Defs
import Ts3Video.Qt.Json

/-!
# The records and messages of the server

What the server keeps about a client, a channel and itself, what of it clients get to see, and the
documents in which requests and responses are written.
-/

namespace Ts3Video

/-- A host address in text form. The null address is the empty text. -/
abbrev QHostAddress : Type := String

/-- The null address. -/
def QHostAddress.null : QHostAddress := ""

/-- The address is the null address. -/
def QHostAddress.isNull (address : QHostAddress) : Bool := address = QHostAddress.null

/-- What is known about a client. -/
structure ClientEntity where
  id : ℤ := 0
  name : String := ""
  mediaAddress : QHostAddress := QHostAddress.null
  mediaPort : UInt16 := 0
  videoEnabled : Bool := false
  videoWidth : ℤ := 0
  videoHeight : ℤ := 0
  videoBitrate : ℤ := 0
  audioInputEnabled : Bool := false
deriving DecidableEq

/-- The media address is not serialised. -/
def ClientEntity.toQJsonObject (client : ClientEntity) : QJsonObject :=
  [("id", .ofInt client.id), ("name", .string client.name),
    ("videoenabled", .bool client.videoEnabled), ("videowidth", .ofInt client.videoWidth),
    ("videoheight", .ofInt client.videoHeight), ("videobitrate", .ofInt client.videoBitrate),
    ("audioinputenabled", .bool client.audioInputEnabled)]

/-- Read what is known about a client. -/
def ClientEntity.fromQJsonObject (obj : QJsonObject) : ClientEntity where
  id := (obj.value "id").toInt
  name := (obj.value "name").toString
  videoEnabled := (obj.value "videoenabled").toBool
  videoWidth := (obj.value "videowidth").toInt
  videoHeight := (obj.value "videoheight").toInt
  videoBitrate := (obj.value "videobitrate").toInt
  audioInputEnabled := (obj.value "audioinputenabled").toBool

/-- The id of a client is read back as long as it fits into 32 bits. -/
theorem ClientEntity.fromQJsonObject_id (client : ClientEntity) (hlow : -2 ^ 31 ≤ client.id)
    (hhigh : client.id < 2 ^ 31) :
    (ClientEntity.fromQJsonObject client.toQJsonObject).id = client.id :=
  QJsonValue.toInt_ofInt hlow hhigh

/-- Visible to everyone. -/
def ServerClientEntity.VL_Default : ℤ := 0

/-- Visible to administrators. -/
def ServerClientEntity.VL_Admin : ℤ := 100

/-- Not visible to anyone. -/
def ServerClientEntity.VL_NotVisible : ℤ := 999

/-- What only the server knows about a client. Any number can be stored as a visibility level. -/
structure ServerClientEntity extends ClientEntity where
  authenticated : Bool := false
  admin : Bool := false
  visibilityLevel : ℤ := ServerClientEntity.VL_Default
  visibilityLevelAllowed : ℤ := ServerClientEntity.VL_Default
deriving DecidableEq

/-- The client may know about the other client. -/
def ServerClientEntity.isAllowedToSee (client sce : ServerClientEntity) : Bool :=
  client.visibilityLevelAllowed ≥ sce.visibilityLevel

/-- What clients know about a channel. -/
structure ChannelEntity where
  id : ℤ := 0
  name : String := ""
  isPasswordProtected : Bool := false
  isPersistent : Bool := false
deriving DecidableEq

/-- Read a channel. -/
def ChannelEntity.fromQJsonObject (obj : QJsonObject) : ChannelEntity where
  id := (obj.value "id").toInt
  name := (obj.value "name").toString
  isPasswordProtected := (obj.value "ispasswordprotected").toBool
  isPersistent := (obj.value "ispersistent").toBool

/-- Write a channel. -/
def ChannelEntity.toQJsonObject (channel : ChannelEntity) : QJsonObject :=
  [("id", .ofInt channel.id), ("name", .string channel.name),
    ("ispasswordprotected", .bool channel.isPasswordProtected),
    ("ispersistent", .bool channel.isPersistent)]

/-- A channel with its alias and its password, which are not serialised. -/
structure ServerChannelEntity extends ChannelEntity where
  ident : String := ""
  password : String := ""
deriving DecidableEq

/-- Take over all attributes but the id. -/
def ServerChannelEntity.merge (channel : ServerChannelEntity) (other : ChannelEntity) :
    ServerChannelEntity :=
  { channel with
    name := other.name, isPasswordProtected := other.isPasswordProtected,
    isPersistent := other.isPersistent }

/-- The limits that a server announces to its clients. -/
structure VirtualServerConfigEntity where
  maxVideoResolutionWidth : ℤ := 0
  maxVideoResolutionHeight : ℤ := 0
  maxVideoBitrate : ℤ := 0
deriving DecidableEq

/-- Write the limits. -/
def VirtualServerConfigEntity.toQJsonObject (config : VirtualServerConfigEntity) : QJsonObject :=
  [("maxvideoresolutionwidth", .ofInt config.maxVideoResolutionWidth),
    ("maxvideoresolutionheight", .ofInt config.maxVideoResolutionHeight),
    ("maxvideobitrate", .ofInt config.maxVideoBitrate)]

/-- Read the limits. -/
def VirtualServerConfigEntity.fromQJsonObject (obj : QJsonObject) : VirtualServerConfigEntity where
  maxVideoResolutionWidth := (obj.value "maxvideoresolutionwidth").toInt
  maxVideoResolutionHeight := (obj.value "maxvideoresolutionheight").toInt
  maxVideoBitrate := (obj.value "maxvideobitrate").toInt

/-- Neither side of the picture is longer than allowed. -/
def VirtualServerConfigEntity.isResolutionSupported (config : VirtualServerConfigEntity)
    (width height : ℤ) : Bool :=
  ¬(width > config.maxVideoResolutionWidth ∨ height > config.maxVideoResolutionHeight)

/-- The configuration of a server, as far as requests depend on it. -/
structure VirtualServerOptions where
  connectionLimit : ℤ := 2 ^ 31 - 1
  bandwidthReadLimit : ℕ := 2 ^ 64 - 1
  bandwidthWriteLimit : ℕ := 2 ^ 64 - 1
  password : String := ""
  adminPassword : String := ""
  maximumResolutionWidth : ℤ := 1920
  maximumResolutionHeight : ℤ := 1080
  maximumBitrate : ℤ := 1024
  ts3Enabled : Bool := false
deriving DecidableEq

/-- The media traffic of the server in bytes per second. -/
structure NetworkUsageEntity where
  bandwidthRead : ℚ := 0
  bandwidthWrite : ℚ := 0
deriving DecidableEq

namespace JsonProtocolHelper

/-- The document of a request. -/
def createJsonRequest (action : String) (parameters : QJsonObject) : QJsonObject :=
  [("action", .string action), ("parameters", .object parameters)]

/-- The document of a response. -/
def createJsonResponse (data : QJsonObject) : QJsonObject :=
  [("status", .ofInt 0), ("data", .object data)]

/-- The document of a response that reports an error. -/
def createJsonResponseError (status : ℤ) (errorMessage : String) : QJsonObject :=
  [("status", .ofInt status), ("error", .string errorMessage)]

/-- The action and the parameters of a request. A text that is not a JSON document has no value. -/
def fromJsonRequest (document : Option QJsonValue) : Option (String × QJsonObject) :=
  match document with
  | some (.object root) =>
    let root : QJsonObject := root
    if ¬ root.contains "action" ∨ (root.value "action").toString.isEmpty ∨
        ¬ root.contains "parameters" then none
    else some ((root.value "action").toString, (root.value "parameters").toObject)
  | _ => none

/-- The status, the data and the error of a response. -/
def fromJsonResponse (document : Option QJsonValue) : Option (ℤ × QJsonObject × String) :=
  match document with
  | some (.object root) =>
    let root : QJsonObject := root
    if ¬ root.contains "status" then none
    else some ((root.value "status").toInt, (root.value "data").toObject, (root.value "error").toString)
  | _ => none

end JsonProtocolHelper

end Ts3Video
