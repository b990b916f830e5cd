import Ts3Video.Server.Entities

/-!
# The client of the server

A client keeps a list of the members of its channel, which comes from the answer to its join request and
from notifications, and a media socket for the token of its last login. The socket sends its token until
it is authenticated.
-/

namespace Ts3Video

/-- The members of the channel of the client, in the order in which they were added. -/
structure ClientListModel where
  channel : ChannelEntity := {}
  clients : List ClientEntity := []

namespace ClientListModel

/-- The first row with the id of the client. -/
def findIndexOfClient (d : ClientListModel) (c : ClientEntity) : Option ℕ :=
  d.clients.findIdx? fun client => client.id = c.id

/-- Append a row. -/
def addClient (d : ClientListModel) (client : ClientEntity) : ClientListModel :=
  { d with clients := d.clients ++ [client] }

/-- Replace the first row with the id of the client. -/
def updateClient (d : ClientListModel) (client : ClientEntity) : ClientListModel :=
  match d.findIndexOfClient client with
  | some i => { d with clients := d.clients.set i client }
  | none => d

/-- Remove the first row with the id of the client. -/
def removeClient (d : ClientListModel) (client : ClientEntity) : ClientListModel :=
  match d.findIndexOfClient client with
  | some i => { d with clients := d.clients.eraseIdx i }
  | none => d

/-- Take over the channel. -/
def setChannel (d : ClientListModel) (channel : ChannelEntity) : ClientListModel := { d with channel }

/-- The ids of the rows. -/
def ids (d : ClientListModel) : List ℤ := d.clients.map ClientEntity.id

variable (d : ClientListModel)

/-- Adding a client adds its id, whether or not it is there. -/
@[simp] theorem ids_addClient (client : ClientEntity) : (d.addClient client).ids = d.ids ++ [client.id] :=
  List.map_append

/-- An update changes no id. -/
@[simp] theorem ids_updateClient (client : ClientEntity) : (d.updateClient client).ids = d.ids := by
  unfold updateClient
  split
  next i hfound =>
    obtain ⟨hlt, hid, -⟩ := List.findIdx?_eq_some_iff_getElem.mp hfound
    have hbound : i < (d.clients.map ClientEntity.id).length := by rwa [List.length_map]
    have hsame : client.id = (d.clients.map ClientEntity.id)[i] := by
      rw [List.getElem_map]
      exact (of_decide_eq_true hid).symm
    change (d.clients.set i client).map ClientEntity.id = d.clients.map ClientEntity.id
    rw [List.map_set, hsame, List.set_getElem_self]
  next => rfl

/-- Removing a client removes the first occurrence of its id. -/
@[simp] theorem ids_removeClient (client : ClientEntity) :
    (d.removeClient client).ids = d.ids.erase client.id := by
  have hremove : (d.removeClient client).clients =
      d.clients.eraseP fun row => row.id = client.id := by
    rw [removeClient, List.eraseP_eq_eraseIdx, findIndexOfClient]
    split
    next i hfound => rw [hfound]
    next hnone => rw [hnone]
  rw [ids, hremove, ids, List.erase_eq_eraseP', List.eraseP_map]
  rfl

/-- The channel has no id among the rows. -/
@[simp] theorem ids_setChannel (channel : ChannelEntity) : (d.setChannel channel).ids = d.ids := rfl

end ClientListModel

/-- The socket for media. Its timer sends the token. -/
structure NetworkClient.MediaSocket where
  token : String
  authenticated : Bool := false
  authenticationTimer : Bool := true

/-- What a client knows about itself and about the server. -/
structure NetworkClient where
  clientEntity : ClientEntity := {}
  authToken : String := ""
  serverConfig : VirtualServerConfigEntity := {}
  mediaSocket : Option NetworkClient.MediaSocket := none
  clientModel : ClientListModel := {}

namespace NetworkClient

/-- An authenticated socket does not send its token any longer. -/
def MediaSocket.setAuthenticated (d : MediaSocket) (yesno : Bool) : MediaSocket :=
  { d with authenticated := yesno, authenticationTimer := d.authenticationTimer && !yesno }

/-- A new socket for the current token replaces the old one. -/
def initMediaSocket (d : NetworkClient) : NetworkClient :=
  { d with mediaSocket := some { token := d.authToken } }

/-- The response to an authentication arrived. -/
def onAuthFinished (d : NetworkClient) (document : Option QJsonValue) : NetworkClient :=
  match JsonProtocolHelper.fromJsonResponse document with
  | none => d
  | some (status, params, _) =>
    if status ≠ 0 then d
    else
      initMediaSocket { d with
        clientEntity := ClientEntity.fromQJsonObject (params.value "client").toObject
        authToken := (params.value "authtoken").toString
        serverConfig :=
          VirtualServerConfigEntity.fromQJsonObject (params.value "virtualserverconfig").toObject }

/-- The response to a join request arrived: its participants are added to the members. -/
def onJoinChannelFinished (d : NetworkClient) (document : Option QJsonValue) : NetworkClient :=
  match JsonProtocolHelper.fromJsonResponse document with
  | none => d
  | some (status, params, _) =>
    if status ≠ 0 then d
    else
      let channel := ChannelEntity.fromQJsonObject (params.value "channel").toObject
      { d with
        clientModel := (params.value "participants").toArray.foldl
          (fun clientModel v => clientModel.addClient (ClientEntity.fromQJsonObject v.toObject))
          (d.clientModel.setChannel channel) }

/-- The client that a notification is about. -/
def notifiedClient (parameters : QJsonObject) : ClientEntity :=
  ClientEntity.fromQJsonObject (parameters.value "client").toObject

/-- A request of the server arrived: the client after it, and the response. `none` is the dereference of
the null pointer if there is no media socket. -/
def onNewIncomingRequest (d : NetworkClient) (document : Option QJsonValue) :
    Option (NetworkClient × QJsonObject) :=
  let response := JsonProtocolHelper.createJsonResponse []
  match JsonProtocolHelper.fromJsonRequest document with
  | none => some (d, JsonProtocolHelper.createJsonResponseError 500 "Invalid protocol format.")
  | some (action, parameters) =>
    let client := notifiedClient parameters
    if action = "notify.mediaauthsuccess" then
      d.mediaSocket.map fun mediaSocket =>
        ({ d with mediaSocket := some (mediaSocket.setAuthenticated true) }, response)
    else if action = "notify.clientvideoenabled" ∨ action = "notify.clientvideodisabled" then
      some ({ d with clientModel := d.clientModel.updateClient client }, response)
    else if action = "notify.clientjoinedchannel" then
      some ({ d with clientModel := d.clientModel.addClient client }, response)
    else if action = "notify.clientleftchannel" ∨ action = "notify.clientdisconnected" then
      some ({ d with clientModel := d.clientModel.removeClient client }, response)
    else some (d, response)

/-- The user turns the camera on. -/
def enableVideoStream (d : NetworkClient) (width height bitrate : ℤ) : NetworkClient × QJsonObject :=
  let clientEntity := { d.clientEntity with
    videoEnabled := true, videoWidth := width, videoHeight := height, videoBitrate := bitrate }
  ({ d with clientEntity, clientModel := d.clientModel.updateClient clientEntity },
    JsonProtocolHelper.createJsonRequest "clientenablevideo" [("width", .ofInt width),
      ("height", .ofInt height), ("bitrate", .ofInt bitrate), ("fps", .ofInt 15)])

/-- The user turns the camera off. -/
def disableVideoStream (d : NetworkClient) : NetworkClient × QJsonObject :=
  let clientEntity := { d.clientEntity with videoEnabled := false }
  ({ d with clientEntity, clientModel := d.clientModel.updateClient clientEntity },
    JsonProtocolHelper.createJsonRequest "clientdisablevideo" [])

/-- The socket is authenticated or does not send its token any longer. -/
def MediaSocket.HasStopped (d : MediaSocket) : Prop :=
  d.authenticated = true ∨ d.authenticationTimer = false

/-- The token of the media socket. -/
def socketToken (d : NetworkClient) : Option String := d.mediaSocket.map MediaSocket.token

/-- What a request of the server does to the ids of the members. -/
def notifiedIds (ids : List ℤ) (document : Option QJsonValue) : List ℤ :=
  match JsonProtocolHelper.fromJsonRequest document with
  | none => ids
  | some (action, parameters) =>
    if action = "notify.clientjoinedchannel" then ids ++ [(notifiedClient parameters).id]
    else if action = "notify.clientleftchannel" ∨ action = "notify.clientdisconnected" then
      ids.erase (notifiedClient parameters).id
    else ids

/-- What the response to a join request does to the ids of the members. -/
def joinedIds (ids : List ℤ) (document : Option QJsonValue) : List ℤ :=
  match JsonProtocolHelper.fromJsonResponse document with
  | none => ids
  | some (status, params, _) =>
    if status ≠ 0 then ids
    else ids ++ (params.value "participants").toArray.map fun v =>
      (ClientEntity.fromQJsonObject v.toObject).id

/-- What the response to an authentication does to the token of the media socket. -/
def authToken? (token : Option String) (document : Option QJsonValue) : Option String :=
  match JsonProtocolHelper.fromJsonResponse document with
  | none => token
  | some (status, params, _) =>
    if status ≠ 0 then token else some (params.value "authtoken").toString

variable {d d' : NetworkClient} {response : QJsonObject}

/-- A request of the server authenticates the media socket or is about the members of the channel. -/
inductive Notified (d : NetworkClient) (document : Option QJsonValue) (d' : NetworkClient) : Prop
  | authenticated {parameters : QJsonObject} {mediaSocket : MediaSocket}
    (hrequest : JsonProtocolHelper.fromJsonRequest document =
      some ("notify.mediaauthsuccess", parameters))
    (hsocket : d.mediaSocket = some mediaSocket)
    (hstate : d' = { d with mediaSocket := some (mediaSocket.setAuthenticated true) })
  | members (clientModel : ClientListModel)
    (hids : clientModel.ids = notifiedIds d.clientModel.ids document)
    (hstate : d' = { d with clientModel })

/-- What becomes of a request of the server. -/
theorem notified_of_onNewIncomingRequest (document : Option QJsonValue)
    (h : d.onNewIncomingRequest document = some (d', response)) : Notified d document d' := by
  unfold onNewIncomingRequest at h
  cases hrequest : JsonProtocolHelper.fromJsonRequest document with
  | none =>
    rw [hrequest] at h
    obtain ⟨rfl, -⟩ := Prod.mk.inj (Option.some.inj h)
    exact .members d.clientModel (by rw [notifiedIds, hrequest]) rfl
  | some request =>
    obtain ⟨action, parameters⟩ := request
    rw [hrequest] at h
    dsimp only at h
    split at h
    next haction =>
      subst haction
      obtain ⟨mediaSocket, hsocket, hnext⟩ := Option.map_eq_some_iff.mp h
      exact .authenticated hrequest hsocket (Prod.mk.inj hnext).1.symm
    split at h
    next haction =>
      obtain ⟨rfl, -⟩ := Prod.mk.inj (Option.some.inj h)
      refine .members _ ?_ rfl
      rw [ClientListModel.ids_updateClient, notifiedIds, hrequest]
      rcases haction with rfl | rfl
      · rfl
      · rfl
    split at h
    next haction =>
      obtain ⟨rfl, -⟩ := Prod.mk.inj (Option.some.inj h)
      refine .members _ ?_ rfl
      rw [ClientListModel.ids_addClient, notifiedIds, hrequest]
      exact (if_pos haction).symm
    next hjoined =>
      split at h
      next haction =>
        obtain ⟨rfl, -⟩ := Prod.mk.inj (Option.some.inj h)
        refine .members _ ?_ rfl
        rw [ClientListModel.ids_removeClient, notifiedIds, hrequest]
        exact ((if_neg hjoined).trans (if_pos haction)).symm
      next haction =>
        obtain ⟨rfl, -⟩ := Prod.mk.inj (Option.some.inj h)
        refine .members d.clientModel ?_ rfl
        rw [notifiedIds, hrequest]
        exact ((if_neg hjoined).trans (if_neg haction)).symm

/-- Participants are added with their ids. -/
theorem ids_foldl_addClient (participants : List QJsonValue) (model : ClientListModel) :
    (participants.foldl (fun clientModel v =>
      clientModel.addClient (ClientEntity.fromQJsonObject v.toObject)) model).ids =
      model.ids ++ participants.map fun v => (ClientEntity.fromQJsonObject v.toObject).id := by
  induction participants generalizing model with
  | nil => exact (List.append_nil _).symm
  | cons v participants ih =>
    rw [List.foldl_cons, ih, ClientListModel.ids_addClient, List.append_assoc]
    rfl

/-- The response to a join request adds the participants and keeps the socket. -/
theorem onJoinChannelFinished_spec (d : NetworkClient) (document : Option QJsonValue) :
    (d.onJoinChannelFinished document).clientModel.ids = joinedIds d.clientModel.ids document ∧
      (d.onJoinChannelFinished document).mediaSocket = d.mediaSocket := by
  unfold onJoinChannelFinished joinedIds
  cases JsonProtocolHelper.fromJsonResponse document with
  | none => exact ⟨rfl, rfl⟩
  | some response =>
    dsimp only
    split
    · exact ⟨rfl, rfl⟩
    · exact ⟨(ids_foldl_addClient _ _).trans (by rw [ClientListModel.ids_setChannel]), rfl⟩

/-- The response to an authentication keeps the members and the socket, or there is a new socket. -/
theorem onAuthFinished_spec (d : NetworkClient) (document : Option QJsonValue) :
    (d.onAuthFinished document).clientModel = d.clientModel ∧
      (d.onAuthFinished document).socketToken = authToken? d.socketToken document ∧
      ((d.onAuthFinished document).mediaSocket = d.mediaSocket ∨
        ∃ token, (d.onAuthFinished document).mediaSocket = some { token }) := by
  unfold onAuthFinished authToken?
  cases JsonProtocolHelper.fromJsonResponse document with
  | none => exact ⟨rfl, rfl, .inl rfl⟩
  | some response =>
    dsimp only
    split
    · exact ⟨rfl, rfl, .inl rfl⟩
    · exact ⟨rfl, rfl, .inr ⟨_, rfl⟩⟩

end NetworkClient

end Ts3Video
