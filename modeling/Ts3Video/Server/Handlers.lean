import Ts3Video.Server.Transition

/-!
# Every handler is a transition

Each handler of an event is followed through its branches. What it returns is the next state of one
of the transitions.
-/

namespace Ts3Video.VirtualServer

open Std ActionBase

/-- A client is added to a channel that is stored under its id. -/
theorem addClientToChannel_eq {s : VirtualServer} {ch : ℤ} {channel : ServerChannelEntity}
    (hchannel : s.id2channel[ch]? = some channel) (hid : channel.id = ch) (c : ℤ) :
    s.addClientToChannel c ch = s.withMember c ch := by
  subst hid
  rw [addClientToChannel, hchannel]
  rfl

/-- A channel that was created and filled in afterwards. -/
theorem setChannel_createChannel (s : VirtualServer) {channel : ServerChannelEntity}
    (hid : channel.id = s.nextChannelId + 1) :
    (s.createChannel channel.ident).1.setChannel channel = s.withChannel channel := by
  simp only [createChannel, setChannel, withChannel, hid, Table.insert_insert]

/-- A new channel is found under its id. -/
theorem getElem?_withChannel (s : VirtualServer) (channel : ServerChannelEntity) :
    (s.withChannel channel).id2channel[channel.id]? = some channel :=
  ExtTreeMap.getElem?_insert_self

section Actions

variable {s s' : VirtualServer} {e : Event} {c : ℤ} {client : ServerClientEntity}
  {action : ActionBase} {params : QJsonObject} {out : List Effect}

/-- The state that a handler returns. -/
theorem eq_fst {result : ActionResult} (h : some result = some (s', out)) : s' = result.1 := by
  rw [Option.some.inj h]

/-- The request is refused: an error is reported, and nothing else happens. -/
def Refused (s : VirtualServer) (req : ActionData) (result : ActionResult) : Prop :=
  ∃ code message, code ≠ 0 ∧ result = (s, [sendDefaultErrorResponse req code message])

/-- The channels are listed, or the range is out of bounds. -/
theorem run_getChannelList_cases (s : VirtualServer) (req : ActionData) :
    Refused s req (GetChannelListAction.run s req) ∨
      ∃ channels, GetChannelListAction.run s req =
        (s, [sendDefaultOkResponse req [("channels", channels)]]) := by
  unfold GetChannelListAction.run
  dsimp only
  split
  · exact .inl ⟨_, _, by decide, rfl⟩
  · exact .inr ⟨_, rfl⟩

/-- Video is announced, or its resolution is not supported. -/
theorem run_enableVideo_cases (s : VirtualServer) (req : ActionData) (client : ServerClientEntity) :
    Refused s req (EnableVideoAction.run s req client) ∨
      ∃ width height, EnableVideoAction.run s req client = updateMediaState s req
        { client with videoEnabled := true, videoWidth := width, videoHeight := height }
        "notify.clientvideoenabled" := by
  unfold EnableVideoAction.run
  dsimp only
  split
  · exact .inl ⟨_, _, by decide, rfl⟩
  · exact .inr ⟨_, _, rfl⟩

/-- The client becomes an administrator, or its password is wrong. -/
theorem run_adminAuth_cases (s : VirtualServer) (req : ActionData) (client : ServerClientEntity) :
    Refused s req (AdminAuthAction.run s req client) ∨
      AdminAuthAction.run s req client =
        (s.setClient req.clientId { client with admin := true }, [sendDefaultOkResponse req []]) := by
  unfold AdminAuthAction.run
  dsimp only
  split
  · exact .inl ⟨1, _, by decide, rfl⟩
  · exact .inr rfl

/-- A relation between two clients that are there is stored. -/
theorem run_addRelation_cases (s : VirtualServer) (req : ActionData) :
    Refused s req (AddDirectStreamingRelationAction.run s req) ∨
      (req.params.value "senderid").toInt ∈ s.clients ∧
      (req.params.value "receiverid").toInt ∈ s.clients ∧
      AddDirectStreamingRelationAction.run s req =
        ({ s with
            sender2receiver := SetMap.insertAt s.sender2receiver (req.params.value "senderid").toInt
              (req.params.value "receiverid").toInt }.updateMediaRecipients,
          [sendDefaultOkResponse req []]) := by
  unfold AddDirectStreamingRelationAction.run
  dsimp only
  split
  · exact .inl ⟨_, _, by decide, rfl⟩
  next hsender =>
    split
    · exact .inl ⟨_, _, by decide, rfl⟩
    next hreceiver =>
      exact .inr ⟨Decidable.not_not.mp hsender, Decidable.not_not.mp hreceiver, rfl⟩

/-- Kicking a client runs to its end only if the client is connected. -/
theorem of_run_kick {req : ActionData} {peerAddress : QHostAddress}
    (hrun : ActionBase.run s req client peerAddress .KickClientAction = some (s', out)) :
    ∃ kicked, (req.params.value "clientid").toInt ∈ s.connections ∧
      s.clients[(req.params.value "clientid").toInt]? = some kicked ∧
      s' = (if (req.params.value "ban").toBool then s.ban kicked.mediaAddress else s) ∧
      out = [.sendRequest (req.params.value "clientid").toInt
          (JsonProtocolHelper.createJsonRequest "notify.kicked"
            [("client", .object client.toQJsonObject)]),
        .disconnectFromHost (req.params.value "clientid").toInt, sendDefaultOkResponse req []] := by
  simp only [ActionBase.run, KickClientAction.run] at hrun
  split at hrun
  · contradiction
  next hconnected =>
    obtain ⟨kicked, hkicked, hdone⟩ := Option.map_eq_some_iff.mp hrun
    obtain ⟨rfl, rfl⟩ := Prod.mk.inj hdone
    exact ⟨kicked, Decidable.not_not.mp hconnected, hkicked, rfl, rfl⟩

/-- Kicking a client changes nothing but the ban file. -/
theorem eq_of_run_kick {req : ActionData} {peerAddress : QHostAddress}
    (hrun : ActionBase.run s req client peerAddress .KickClientAction = some (s', out)) :
    ∃ bans, s' = { s with bans } := by
  obtain ⟨kicked, -, -, rfl, -⟩ := of_run_kick hrun
  split
  · unfold ban
    split
    · exact ⟨s.bans, rfl⟩
    · exact ⟨_, rfl⟩
  · exact ⟨s.bans, rfl⟩

/-- The authentication request itself does not touch the tables. -/
theorem sameTables_authenticate (s : VirtualServer) (req : ActionData)
    (peerAddress : QHostAddress) :
    SameTables s (AuthenticationAction.run s req peerAddress).1 := by
  unfold AuthenticationAction.run
  dsimp only
  split
  · exact SameTables.refl s
  split
  · exact SameTables.refl s
  split
  · exact SameTables.refl s
  split
  · exact SameTables.refl s
  split
  · exact SameTables.refl s
  · exact .background s _ _ _ _

/-- The answer to an authentication logs the client in or does nothing to the tables. -/
theorem transition_onFinished {pending : PendingAuthentication} {data : Bool} {now : String}
    (authentications : List PendingAuthentication)
    (h : AuthenticationAction.onFinished { s with authentications } pending data now =
      some (s', out)) : Transition s e s' := by
  have hquiet : Transition s e { s with authentications } :=
    .quiet (.background s _ _ _ _)
  unfold AuthenticationAction.onFinished at h
  dsimp only at h
  split at h
  · obtain ⟨rfl, -⟩ := Prod.mk.inj (Option.some.inj h)
    exact hquiet
  · split at h
    · obtain ⟨rfl, -⟩ := Prod.mk.inj (Option.some.inj h)
      exact hquiet
    · obtain ⟨client, hclient, h⟩ := Option.map_eq_some_iff.mp h
      obtain ⟨rfl, -⟩ := Prod.mk.inj h
      exact .login pending.username _ authentications hclient

/-- The channel that a join request creates. -/
def newChannel (s : VirtualServer) (ident password : String) : ServerChannelEntity :=
  { id := s.nextChannelId + 1, ident, isPasswordProtected := ¬ password.isEmpty, password }

/-- A join request with an alias creates the channel that its id does not name, and joins it. -/
theorem run_join_create (correlationId : UInt32) (hid : client.id = c)
    (hnonempty : joinIdent params ≠ "") (hnone : s.id2channel[s.joinId params]? = none) :
    (JoinChannelAction.run s ⟨c, correlationId, params⟩ client).1 =
      ((s.withChannel (s.newChannel (joinIdent params) (params.value "password").toString)).withMember
        c (s.nextChannelId + 1)).updateMediaRecipients := by
  have hisEmpty : (joinIdent params).isEmpty = false := by
    rw [Bool.eq_false_iff, Ne, String.isEmpty_iff]
    exact hnonempty
  generalize hpassword : (params.value "password").toString = password
  have hretrieve : JoinChannelAction.retrieveChannel s (s.joinId params) (joinIdent params) password =
      (s.withChannel (s.newChannel (joinIdent params) password),
        some (s.newChannel (joinIdent params) password)) := by
    rw [JoinChannelAction.retrieveChannel, hnone, ← setChannel_createChannel s rfl]
    simp [hisEmpty, createChannel, newChannel]
  rw [joinId] at hretrieve
  unfold JoinChannelAction.run
  rw [joinIdent] at hisEmpty hretrieve
  simp only [hpassword, hisEmpty, hretrieve]
  rw [if_neg (by simp), if_neg (by simp [newChannel]), JoinChannelAction.join, hid,
    addClientToChannel_eq (getElem?_withChannel s _) rfl]
  rfl

/-- A join request fails, joins an existing channel with its password, or creates a channel. -/
theorem run_join_cases (params : QJsonObject) (hkeyed : s.Keyed) (correlationId : UInt32)
    (hid : client.id = c) :
    (JoinChannelAction.run s ⟨c, correlationId, params⟩ client).1 = s ∨
    (∃ channel, s.id2channel[s.joinId params]? = some channel ∧
      (client.admin = true ∨ channel.password = "" ∨
        channel.password = (params.value "password").toString) ∧
      (JoinChannelAction.run s ⟨c, correlationId, params⟩ client).1 =
        (s.withMember c (s.joinId params)).updateMediaRecipients) ∨
    joinIdent params ≠ "" ∧ s.id2channel[s.joinId params]? = none ∧
      (JoinChannelAction.run s ⟨c, correlationId, params⟩ client).1 =
        ((s.withChannel (s.newChannel (joinIdent params)
          (params.value "password").toString)).withMember c
            (s.nextChannelId + 1)).updateMediaRecipients := by
  cases hchannel : s.id2channel[s.joinId params]? with
  | some channel =>
    have hretrieve : JoinChannelAction.retrieveChannel s (s.joinId params) (joinIdent params)
        (params.value "password").toString = (s, some channel) := by
      rw [JoinChannelAction.retrieveChannel, hchannel]
    have hch := hkeyed.channel hchannel
    rw [← hch] at hchannel
    unfold JoinChannelAction.run
    dsimp only
    split
    · exact .inl rfl
    · rw [joinId, joinIdent] at hretrieve
      rw [hretrieve]
      dsimp only
      split
      · exact .inl rfl
      next hallowed =>
        refine .inr (.inl ⟨channel, rfl, ?_, ?_⟩)
        · rw [← String.isEmpty_iff]
          by_contra hnot
          simp only [not_or] at hnot
          exact hallowed hnot
        · rw [JoinChannelAction.join, addClientToChannel_eq hchannel rfl, hid, hch]
  | none =>
    by_cases hnonempty : joinIdent params = ""
    · have hretrieve : JoinChannelAction.retrieveChannel s (s.joinId params) (joinIdent params)
          (params.value "password").toString = (s, none) := by
        rw [JoinChannelAction.retrieveChannel, hchannel, hnonempty]
        rfl
      unfold JoinChannelAction.run
      dsimp only
      split
      · exact .inl rfl
      · rw [joinId, joinIdent] at hretrieve
        rw [hretrieve]
        exact .inl rfl
    · exact .inr (.inr ⟨hnonempty, rfl, run_join_create correlationId hid hnonempty hchannel⟩)

/-- A join request joins an existing channel, creates a channel, or fails. -/
theorem transition_join (hkeyed : s.Keyed) (hadmits : Admits s e c client action params)
    (haction : IsJoin action) (correlationId : UInt32) :
    Transition s e (JoinChannelAction.run s ⟨c, correlationId, params⟩ client).1 := by
  rcases run_join_cases params hkeyed correlationId (hkeyed.client hadmits.live) with
    hstate | ⟨channel, hchannel, -, hstate⟩ | ⟨hnonempty, hnone, hstate⟩
  · rw [hstate]
    exact .quiet (SameTables.refl s)
  · rw [hstate]
    exact .join hadmits haction hchannel
  · rw [hstate]
    exact .createByIdent hadmits haction rfl rfl hnonempty hnone

/-- The channel that a request creates: what the client asks for, under a new id and without an alias. -/
def requestedChannel (s : VirtualServer) (params : QJsonObject) : ServerChannelEntity :=
  let channel := ChannelEntity.fromQJsonObject (params.value "channel").toObject
  let password := (params.value "password").toString
  { id := s.nextChannelId + 1, name := channel.name, isPersistent := channel.isPersistent
    isPasswordProtected := channel.isPasswordProtected || ¬ password.isEmpty, password }

/-- A request to create a channel creates one without an alias and joins it. -/
theorem run_createChannel (s : VirtualServer) (correlationId : UInt32) (params : QJsonObject)
    (hid : client.id = c) :
    (CreateChannelAction.run s ⟨c, correlationId, params⟩ client).1 =
      ((s.withChannel (s.requestedChannel params)).withMember c
        (s.requestedChannel params).id).updateMediaRecipients := by
  have hsce : (if (params.value "password").toString.isEmpty then
      (s.createChannel "").2.merge
        (ChannelEntity.fromQJsonObject (params.value "channel").toObject)
    else
      { (s.createChannel "").2.merge
          (ChannelEntity.fromQJsonObject (params.value "channel").toObject) with
        isPasswordProtected := true, password := (params.value "password").toString }) =
      s.requestedChannel params := by
    rw [requestedChannel]
    split
    · next hempty =>
      rw [String.isEmpty_iff.mp hempty, createChannel, ServerChannelEntity.merge]
      simp
    · next hnonempty =>
      rw [createChannel, ServerChannelEntity.merge]
      simp [hnonempty]
  have hset := setChannel_createChannel s (rfl : (s.requestedChannel params).id = s.nextChannelId + 1)
  have hrun : (CreateChannelAction.run s ⟨c, correlationId, params⟩ client).1 =
      (((s.createChannel "").1.setChannel (s.requestedChannel params)).addClientToChannel client.id
        (s.requestedChannel params).id).updateMediaRecipients := by
    rw [← hsce]
    rfl
  have hident : (s.requestedChannel params).ident = "" := rfl
  rw [hident] at hset
  rw [hrun, hset, hid, addClientToChannel_eq (getElem?_withChannel s _) rfl]

/-- Creating a channel is one of the transitions. -/
theorem transition_createChannel (hkeyed : s.Keyed)
    (hadmits : Admits s e c client .CreateChannelAction params) (correlationId : UInt32) :
    Transition s e (CreateChannelAction.run s ⟨c, correlationId, params⟩ client).1 := by
  rw [run_createChannel s correlationId params (hkeyed.client hadmits.live)]
  exact .createChannel hadmits rfl rfl

/-- An admitted request changes the tables in the way of its action. -/
theorem transition_run (hkeyed : s.Keyed) (hadmits : Admits s e c client action params)
    {correlationId : UInt32} {peerAddress : QHostAddress}
    (hrun : action.run s ⟨c, correlationId, params⟩ client peerAddress = some (s', out)) :
    Transition s e s' := by
  have hquiet : Transition s e s := .quiet (SameTables.refl s)
  cases action with
  | HeartbeatAction =>
    obtain ⟨rfl, -⟩ := Prod.mk.inj (Option.some.inj hrun)
    exact hquiet
  | GoodbyeAction =>
    obtain ⟨rfl, -⟩ := Prod.mk.inj (Option.some.inj hrun)
    exact hquiet
  | AuthenticationAction =>
    rw [eq_fst hrun]
    exact .quiet (sameTables_authenticate s _ _)
  | GetChannelListAction =>
    rw [eq_fst hrun]
    rcases run_getChannelList_cases s ⟨c, correlationId, params⟩ with
      ⟨_, _, -, hrefused⟩ | ⟨_, hlisted⟩
    · rw [hrefused]
      exact hquiet
    · rw [hlisted]
      exact hquiet
  | CreateChannelAction =>
    rw [eq_fst hrun]
    exact transition_createChannel hkeyed hadmits correlationId
  | JoinChannelAction =>
    rw [eq_fst hrun]
    exact transition_join hkeyed hadmits (.inl rfl) correlationId
  | JoinChannel2Action =>
    rw [eq_fst hrun]
    exact transition_join hkeyed hadmits (.inr rfl) correlationId
  | EnableVideoAction =>
    rw [eq_fst hrun]
    rcases run_enableVideo_cases s ⟨c, correlationId, params⟩ client with
      ⟨_, _, -, hrefused⟩ | ⟨width, height, henabled⟩
    · rw [hrefused]
      exact hquiet
    · rw [henabled]
      exact .sendMedia hadmits (by decide) true width height client.audioInputEnabled
  | DisableVideoAction =>
    obtain ⟨rfl, -⟩ := Prod.mk.inj (Option.some.inj hrun)
    exact .sendMedia hadmits (by decide) false 0 0 client.audioInputEnabled
  | EnableAudioInputAction =>
    obtain ⟨rfl, -⟩ := Prod.mk.inj (Option.some.inj hrun)
    exact .sendMedia hadmits (by decide) client.videoEnabled client.videoWidth client.videoHeight true
  | DisableAudioInputAction =>
    obtain ⟨rfl, -⟩ := Prod.mk.inj (Option.some.inj hrun)
    exact .sendMedia hadmits (by decide) client.videoEnabled client.videoWidth client.videoHeight
      false
  | AdminAuthAction =>
    rw [eq_fst hrun]
    rcases run_adminAuth_cases s ⟨c, correlationId, params⟩ client with
      ⟨_, _, -, hrefused⟩ | hadmin
    · rw [hrefused]
      exact hquiet
    · rw [hadmin]
      exact .becomeAdmin hadmits
  | KickClientAction =>
    obtain ⟨bans, rfl⟩ := eq_of_run_kick hrun
    exact .quiet (.background s _ _ bans _)
  | UpdateVisibilityLevelAction =>
    obtain ⟨rfl, -⟩ := Prod.mk.inj (Option.some.inj hrun)
    exact .changeVisibility hadmits
  | AddDirectStreamingRelationAction =>
    rw [eq_fst hrun]
    rcases run_addRelation_cases s ⟨c, correlationId, params⟩ with
      ⟨_, _, -, hrefused⟩ | ⟨hsender, hreceiver, hadded⟩
    · rw [hrefused]
      exact hquiet
    · rw [hadded]
      exact .addRelation hadmits hsender hreceiver
  | RemoveDirectStreamingRelationAction =>
    rw [eq_fst hrun, RemoveDirectStreamingRelationAction.run]
    dsimp only
    split
    next hsender => exact .removeRelation hadmits hsender
    next => exact .updateRecipients hadmits

/-- A token that arrived is bound to its client, or dropped if the client is gone. -/
theorem transition_token (token : String) (address : QHostAddress) (port : UInt16) :
    Transition s e (s.onMediaSocketTokenAuthentication token address port).1 := by
  unfold onMediaSocketTokenAuthentication
  split
  · exact .quiet (SameTables.refl s)
  next clientId htoken =>
    dsimp only
    split
    next hclient => exact .dropToken htoken hclient
    next client hclient => exact .bindToken address port htoken hclient

/-- A token is answered by a notification or not at all. -/
theorem onMediaSocketTokenAuthentication_effects (s : VirtualServer) (token : String)
    (address : QHostAddress) (port : UInt16) :
    (s.onMediaSocketTokenAuthentication token address port).2 = [] ∨
      ∃ c, (s.onMediaSocketTokenAuthentication token address port).2 =
        [sendMediaAuthSuccessNotify c] := by
  unfold onMediaSocketTokenAuthentication
  split
  · exact .inl rfl
  next c htoken =>
    dsimp only
    split
    · exact .inl rfl
    · dsimp only
      split
      · exact .inr ⟨c, rfl⟩
      · exact .inl rfl

/-- Datagrams that are written do not change the tables. -/
theorem foldl_writeDatagram (s : VirtualServer) (out : List Effect) (data : List UInt8)
    (receivers : List MediaReceiverEntity) :
    ((receivers.map fun r => MediaSocketHandler.Output.writeDatagram data r.address r.port).foldl
      onMediaSocketOutput (s, out)).1 = s := by
  induction receivers generalizing out with
  | nil => rfl
  | cons receiver receivers ih => exact ih _

/-- A video datagram looks up the entry of its sender. -/
theorem onReadyRead_relay (fromUtf8 : List UInt8 → String) {datagram : List UInt8}
    (address : QHostAddress) (port : UInt16)
    (hparse : MediaSocketHandler.parse (datagram.take MediaSocketHandler.bufferSize) = .relay) :
    (s.onReadyRead fromUtf8 datagram address port).1 = s.withRecipients
      (s.recipients.insertSender address port ((s.recipients.sender? address port).getD {})) := by
  simp only [onReadyRead, MediaSocketHandler.onReadyRead, hparse]
  exact foldl_writeDatagram _ _ _ _

/-- A recovery request looks up the entry of the client that it names. -/
theorem onReadyRead_recover (fromUtf8 : List UInt8 → String) {datagram : List UInt8} {sender : ℤ}
    (address : QHostAddress) (port : UInt16)
    (hparse : MediaSocketHandler.parse (datagram.take MediaSocketHandler.bufferSize) =
      .recover sender) :
    (s.onReadyRead fromUtf8 datagram address port).1 = s.withRecipients
      (s.recipients.insertReceiver sender ((s.recipients.clientid2receiver[sender]?).getD {})) := by
  simp only [onReadyRead, MediaSocketHandler.onReadyRead, hparse]
  split
  · rfl
  · rfl

/-- A datagram signals a token or looks up an entry of the table of recipients. -/
theorem transition_readyRead (fromUtf8 : List UInt8 → String) (datagram : List UInt8)
    (address : QHostAddress) (port : UInt16) :
    Transition s (.readyRead datagram address port)
      (s.onReadyRead fromUtf8 datagram address port).1 := by
  cases hparse : MediaSocketHandler.parse (datagram.take MediaSocketHandler.bufferSize) with
  | invalid =>
    simp only [onReadyRead, MediaSocketHandler.onReadyRead, hparse]
    exact .quiet (SameTables.refl s)
  | authenticate token =>
    simp only [onReadyRead, MediaSocketHandler.onReadyRead, hparse]
    exact transition_token (fromUtf8 token) address port
  | relay =>
    rw [onReadyRead_relay fromUtf8 address port hparse]
    exact .lookupSender hparse
  | recover sender =>
    rw [onReadyRead_recover fromUtf8 address port hparse]
    exact .lookupReceiver hparse

/-- An event of a connection is handled with its records, or nothing happens. -/
theorem withConnection_cases
    {handle : ServerClientEntity → ClientConnectionHandler → Option ActionResult}
    (h : s.withConnection c handle = some (s', out)) :
    (s' = s ∧ out = []) ∨ ∃ client conn, s.clients[c]? = some client ∧
      s.connections[c]? = some conn ∧ handle client conn = some (s', out) := by
  unfold withConnection at h
  split at h
  next client conn hclient hconn => exact .inr ⟨client, conn, hclient, hconn, h⟩
  next =>
    obtain ⟨rfl, rfl⟩ := Prod.mk.inj (Option.some.inj h)
    exact .inl ⟨rfl, rfl⟩

end Actions

/-- Every event changes the tables in one of the ways of a transition. -/
theorem transition_of_step {fromUtf8 : List UInt8 → String} {s s' : VirtualServer} {e : Event}
    {out : List Effect} (hkeyed : s.Keyed) (hstep : step fromUtf8 s e = some (s', out)) :
    Transition s e s' := by
  have hquiet : Transition s e s := .quiet (SameTables.refl s)
  cases e with
  | newConnection peerAddress =>
    rw [eq_fst hstep]
    exact .connect peerAddress
  | newIncomingRequest c correlationId document =>
    rcases withConnection_cases hstep with ⟨rfl, -⟩ | ⟨client, conn, hclient, hconn, hhandle⟩
    · exact hquiet
    · unfold ClientConnectionHandler.onNewIncomingRequest at hhandle
      split at hhandle
      · rw [eq_fst hhandle]
        exact hquiet
      next action params hdispatch =>
        have hadmits : Admits s (.newIncomingRequest c correlationId document) c client action params :=
          ⟨hclient, Table.mem_of_getElem? hconn, correlationId, document, rfl, hdispatch⟩
        exact transition_run hkeyed hadmits hhandle
  | authenticationFinished index ts3Allowed now =>
    simp only [step, onAuthenticationFinished] at hstep
    split at hstep
    · rw [eq_fst hstep]
      exact hquiet
    · exact transition_onFinished _ hstep
  | readyRead datagram address port =>
    rw [eq_fst hstep]
    exact transition_readyRead fromUtf8 datagram address port
  | networkUsageUpdated networkUsage =>
    rw [eq_fst hstep]
    exact .quiet (.background s _ _ _ _)
  | unconnected c =>
    rcases withConnection_cases hstep with ⟨rfl, -⟩ | ⟨client, conn, -, -, hhandle⟩
    · exact hquiet
    · rw [eq_fst hhandle]
      exact .quiet (.background s _ _ _ _)
  | destroyed c =>
    rcases withConnection_cases hstep with ⟨rfl, -⟩ | ⟨client, conn, -, -, hhandle⟩
    · exact hquiet
    · split at hhandle
      · obtain ⟨t, hdestroy, h⟩ := Option.map_eq_some_iff.mp hhandle
        obtain ⟨rfl, -⟩ := Prod.mk.inj h
        exact .destroy hdestroy
      · rw [eq_fst hhandle]
        exact hquiet
  | authenticationTimeout c =>
    rcases withConnection_cases hstep with ⟨rfl, -⟩ | ⟨client, conn, -, -, hhandle⟩
    · exact hquiet
    · rw [eq_fst hhandle]
      exact hquiet
  | connectionTimeout c =>
    rcases withConnection_cases hstep with ⟨rfl, -⟩ | ⟨client, conn, -, -, hhandle⟩
    · exact hquiet
    · rw [eq_fst hhandle]
      exact hquiet

end Ts3Video.VirtualServer
