import Ts3Video.Server.Requests

/-!
# Bans

An administrator bans a client by kicking it. What goes into the ban file is the address that the client
sends its media from, and what an authentication is checked against is the address of its connection.
Nothing takes an address out of the file.
-/

namespace Ts3Video.VirtualServer

open Std ActionBase

/-- The request is answered at once with the given status. -/
def AnsweredWith (fromUtf8 : List UInt8 → String) (s : VirtualServer) (c : ℤ) (correlationId : UInt32)
    (document : Option QJsonValue) (code : ℤ) : Prop :=
  ∃ s' out response, step fromUtf8 s (.newIncomingRequest c correlationId document) = some (s', out) ∧
    (c, correlationId, response) ∈ responses out ∧ status response = code

/-- The connection limit or one of the bandwidth limits is exceeded. -/
def LimitExceeded (s : VirtualServer) : Prop :=
  s.connections.size > s.opts.connectionLimit ∨
    s.networkUsageMediaSocket.bandwidthRead > s.opts.bandwidthReadLimit ∨
      s.networkUsageMediaSocket.bandwidthWrite > s.opts.bandwidthWriteLimit

instance (s : VirtualServer) : Decidable s.LimitExceeded := inferInstanceAs (Decidable (_ ∨ _ ∨ _))

/-- The address from which a client sends its media, unless it has not told the server so far. -/
def mediaAddress? (s : VirtualServer) (c : ℤ) : Option QHostAddress :=
  ((s.clients[c]?).map (·.mediaAddress)).filter (¬ ·.isEmpty)

/-- The address of the connection of a client. -/
def peerAddress? (s : VirtualServer) (c : ℤ) : Option QHostAddress :=
  (s.connections[c]?).map (·.peerAddress)

/-- The event is an admitted request to ban a client whose media come from the address. -/
def BansAddress (s : VirtualServer) (e : Event) (address : QHostAddress) : Prop :=
  ∃ kicker client params, Admits s e kicker client .KickClientAction params ∧
    (params.value "ban").toBool = true ∧
      s.mediaAddress? (params.value "clientid").toInt = some address

variable {fromUtf8 : List UInt8 → String} {s s' : VirtualServer} {e : Event} {c : ℤ}
  {client : ServerClientEntity} {action : ActionBase} {req : ActionData} {out : List Effect}
  {correlationId : UInt32} {document : Option QJsonValue}

/-- A request is run as one action of one client. -/
theorem Admits.unique {s : VirtualServer} {e : Event} {c c' : ℤ} {client client' : ServerClientEntity}
    {action action' : ActionBase} {params params' : QJsonObject}
    (h : Admits s e c client action params) (h' : Admits s e c' client' action' params') :
    c' = c ∧ client' = client ∧ action' = action ∧ params' = params := by
  obtain ⟨correlationId, document, rfl, hdispatch⟩ := h.dispatch
  obtain ⟨_, _, hevent, hdispatch'⟩ := h'.dispatch
  obtain ⟨rfl, rfl, rfl⟩ := Event.newIncomingRequest.inj hevent
  obtain rfl := Option.some.inj (h.live.symm.trans h'.live)
  obtain ⟨rfl, rfl⟩ := ClientConnectionHandler.Dispatch.run.inj (hdispatch.symm.trans hdispatch')
  exact ⟨rfl, rfl, rfl, rfl⟩

/-- An address is banned if it was before or has just been put into the ban file. -/
theorem isBanned_ban {banned address : QHostAddress} :
    (s.ban banned).isBanned address = true ↔
      s.isBanned address = true ∨ banned.isEmpty = false ∧ banned = address := by
  unfold ban
  split
  next hempty => simp [hempty]
  next hsome =>
    simp only [isBanned, ExtTreeSet.contains_insert, Bool.or_eq_true, beq_iff_eq,
      Std.compare_eq_iff_eq, hsome, true_and]
    exact or_comm

/-- An authentication does not change the ban file. -/
theorem bans_authenticate (s : VirtualServer) (req : ActionData) (peerAddress : QHostAddress) :
    (AuthenticationAction.run s req peerAddress).1.bans = s.bans := by
  unfold AuthenticationAction.run
  dsimp only
  split
  · rfl
  split
  · rfl
  split
  · rfl
  split
  · rfl
  split
  · rfl
  · rfl

/-- An admitted request changes the ban file only if it kicks a client. -/
theorem bans_of_run {params : QJsonObject} {peerAddress : QHostAddress} (hkeyed : s.Keyed)
    (hadmits : Admits s e c client action params) (haction : action ≠ .KickClientAction)
    (hrun : action.run s ⟨c, correlationId, params⟩ client peerAddress = some (s', out)) :
    s'.bans = s.bans := by
  have hid := hkeyed.client hadmits.live
  have hjoin : (JoinChannelAction.run s ⟨c, correlationId, params⟩ client).1.bans = s.bans := by
    rcases run_join_cases params hkeyed correlationId hid with
      hstate | ⟨_, -, -, hstate⟩ | ⟨-, -, hstate⟩
    · rw [hstate]
    · rw [hstate]
      rfl
    · rw [hstate]
      rfl
  cases action with
  | KickClientAction => contradiction
  | HeartbeatAction => rw [eq_fst hrun, HeartbeatAction.run]
  | GoodbyeAction => rw [eq_fst hrun, GoodbyeAction.run]
  | AuthenticationAction =>
    rw [eq_fst hrun]
    exact bans_authenticate s _ _
  | GetChannelListAction =>
    rw [eq_fst hrun]
    rcases run_getChannelList_cases s ⟨c, correlationId, params⟩ with
      ⟨_, _, -, hrefused⟩ | ⟨_, hlisted⟩
    · rw [hrefused]
    · rw [hlisted]
  | CreateChannelAction =>
    rw [eq_fst hrun, run_createChannel s correlationId params hid]
    rfl
  | JoinChannelAction =>
    rw [eq_fst hrun]
    exact hjoin
  | JoinChannel2Action =>
    rw [eq_fst hrun]
    exact hjoin
  | EnableVideoAction =>
    rw [eq_fst hrun]
    rcases run_enableVideo_cases s ⟨c, correlationId, params⟩ client with
      ⟨_, _, -, hrefused⟩ | ⟨_, _, henabled⟩
    · rw [hrefused]
    · rw [henabled]
      rfl
  | DisableVideoAction =>
    rw [eq_fst hrun]
    rfl
  | EnableAudioInputAction =>
    rw [eq_fst hrun]
    rfl
  | DisableAudioInputAction =>
    rw [eq_fst hrun]
    rfl
  | AdminAuthAction =>
    rw [eq_fst hrun]
    rcases run_adminAuth_cases s ⟨c, correlationId, params⟩ client with
      ⟨_, _, -, hrefused⟩ | hadmin
    · rw [hrefused]
    · rw [hadmin]
      rfl
  | UpdateVisibilityLevelAction =>
    rw [eq_fst hrun]
    rfl
  | AddDirectStreamingRelationAction =>
    rw [eq_fst hrun]
    rcases run_addRelation_cases s ⟨c, correlationId, params⟩ with
      ⟨_, _, -, hrefused⟩ | ⟨-, -, hadded⟩
    · rw [hrefused]
    · rw [hadded]
      rfl
  | RemoveDirectStreamingRelationAction =>
    rw [eq_fst hrun]
    rfl

/-- Kicking a client puts the address of its media into the ban file if that is asked for. -/
theorem isBanned_of_kick {peerAddress address : QHostAddress}
    (hrun : ActionBase.run s req client peerAddress .KickClientAction = some (s', out)) :
    s'.isBanned address = true ↔ s.isBanned address = true ∨
      (req.params.value "ban").toBool = true ∧
        s.mediaAddress? (req.params.value "clientid").toInt = some address := by
  obtain ⟨kicked, -, hkicked, rfl, -⟩ := of_run_kick hrun
  have hmedia : s.mediaAddress? (req.params.value "clientid").toInt = some address ↔
      kicked.mediaAddress.isEmpty = false ∧ kicked.mediaAddress = address := by
    rw [mediaAddress?, hkicked, Option.map_some, Option.filter_eq_some_iff, Option.some.injEq]
    constructor
    · rintro ⟨rfl, hsome⟩
      exact ⟨by simpa using hsome, rfl⟩
    · rintro ⟨hsome, rfl⟩
      exact ⟨rfl, by simpa using hsome⟩
  cases (req.params.value "ban").toBool with
  | false => simp
  | true => simpa [hmedia] using isBanned_ban

/-- A datagram does not change the ban file. -/
theorem bans_onReadyRead (fromUtf8 : List UInt8 → String) (s : VirtualServer) (datagram : List UInt8)
    (address : QHostAddress) (port : UInt16) :
    (s.onReadyRead fromUtf8 datagram address port).1.bans = s.bans := by
  cases hparse : MediaSocketHandler.parse (datagram.take MediaSocketHandler.bufferSize) with
  | invalid =>
    simp only [onReadyRead, MediaSocketHandler.onReadyRead, hparse]
    rfl
  | authenticate token =>
    simp only [onReadyRead, MediaSocketHandler.onReadyRead, hparse, List.foldl_cons, List.foldl_nil,
      onMediaSocketOutput]
    unfold onMediaSocketTokenAuthentication
    split
    · rfl
    · dsimp only
      split
      · rfl
      · rfl
  | relay =>
    rw [onReadyRead_relay fromUtf8 address port hparse]
    rfl
  | recover sender =>
    rw [onReadyRead_recover fromUtf8 address port hparse]
    rfl

/-- The end of a connection does not change the ban file. -/
theorem bans_destroy (hdestroy : ClientConnectionHandler.destroy s c = some s') : s'.bans = s.bans := by
  obtain ⟨t, hleave, rfl⟩ := Option.map_eq_some_iff.mp hdestroy
  refine Runs.foldlM_invariant (P := fun t => t.bans = s.bans) ?_ _ rfl hleave
  intro t channelId t' hbans hone
  unfold removeClientFromChannel at hone
  dsimp only at hone
  split at hone
  · split at hone
    · contradiction
    · obtain rfl := Option.some.inj hone
      exact hbans
  · obtain rfl := Option.some.inj hone
    exact hbans

/-- Only an admitted request to kick a client changes the ban file. -/
theorem bans_step (hkeyed : s.Keyed) (hstep : step fromUtf8 s e = some (s', out))
    (hkick : ¬ ∃ kicker client params, Admits s e kicker client .KickClientAction params) :
    s'.bans = s.bans := by
  cases e with
  | newConnection peerAddress =>
    rw [eq_fst hstep]
    rfl
  | newIncomingRequest c correlationId document =>
    rcases withConnection_cases hstep with ⟨rfl, -⟩ | ⟨client, conn, hclient, hconn, hhandle⟩
    · rfl
    · unfold ClientConnectionHandler.onNewIncomingRequest at hhandle
      split at hhandle
      · rw [eq_fst hhandle]
      next action params hdispatch =>
        have hadmits : Admits s (.newIncomingRequest c correlationId document) c client action params :=
          ⟨hclient, Table.mem_of_getElem? hconn, correlationId, document, rfl, hdispatch⟩
        refine bans_of_run hkeyed hadmits ?_ hhandle
        rintro rfl
        exact hkick ⟨c, client, params, hadmits⟩
  | authenticationFinished index ts3Allowed now =>
    simp only [step, onAuthenticationFinished] at hstep
    split at hstep
    · rw [eq_fst hstep]
    · cases completion_of_onFinished hstep with
      | refused _ hstate => rw [hstate]
      | gone _ hstate => rw [hstate]
      | login _ _ _ hstate =>
        rw [hstate]
        rfl
  | readyRead datagram address port =>
    rw [eq_fst hstep]
    exact bans_onReadyRead fromUtf8 s datagram address port
  | networkUsageUpdated networkUsage =>
    rw [eq_fst hstep]
    rfl
  | unconnected c =>
    rcases withConnection_cases hstep with ⟨rfl, -⟩ | ⟨client, conn, -, -, hhandle⟩
    · rfl
    · rw [eq_fst hhandle]
      rfl
  | destroyed c =>
    rcases withConnection_cases hstep with ⟨rfl, -⟩ | ⟨client, conn, -, -, hhandle⟩
    · rfl
    · split at hhandle
      · obtain ⟨t, hdestroy, h⟩ := Option.map_eq_some_iff.mp hhandle
        obtain ⟨rfl, -⟩ := Prod.mk.inj h
        exact bans_destroy hdestroy
      · rw [eq_fst hhandle]
  | authenticationTimeout c =>
    rcases withConnection_cases hstep with ⟨rfl, -⟩ | ⟨client, conn, -, -, hhandle⟩
    · rfl
    · rw [eq_fst hhandle]
  | connectionTimeout c =>
    rcases withConnection_cases hstep with ⟨rfl, -⟩ | ⟨client, conn, -, -, hhandle⟩
    · rfl
    · rw [eq_fst hhandle]

/-- An event puts an address into the ban file exactly if it is a request to ban it. -/
theorem isBanned_step (hkeyed : s.Keyed) (hstep : step fromUtf8 s e = some (s', out))
    (address : QHostAddress) :
    s'.isBanned address = true ↔ s.isBanned address = true ∨ s.BansAddress e address := by
  by_cases hkick : ∃ kicker client params, Admits s e kicker client .KickClientAction params
  · obtain ⟨kicker, client, params, hadmits⟩ := hkick
    obtain ⟨correlationId, peerAddress, hrun⟩ := hadmits.step_eq fromUtf8
    rw [isBanned_of_kick (hrun.symm.trans hstep)]
    refine or_congr_right ⟨fun h => ⟨kicker, client, params, hadmits, h⟩, ?_⟩
    rintro ⟨_, _, _, hsame, h⟩
    obtain ⟨-, -, -, rfl⟩ := hadmits.unique hsame
    exact h
  · rw [isBanned, bans_step hkeyed hstep hkick]
    refine (or_iff_left ?_).symm
    rintro ⟨kicker, client, params, hadmits, -⟩
    exact hkick ⟨kicker, client, params, hadmits⟩

/-- The banned addresses after a run are those that were banned before and those that a request has
banned. -/
theorem isBanned_run {opts : VirtualServerOptions} {bans : ExtTreeSet String} {events : List Event}
    (hreach : Runs.Reachable (step fromUtf8) (init opts bans) s)
    (hrun : Runs.run (step fromUtf8) s events = some (s', out)) (address : QHostAddress) :
    s'.isBanned address = true ↔ s.isBanned address = true ∨
      ∃ visit ∈ Runs.visited (step fromUtf8) s events, visit.1.BansAddress visit.2 address := by
  induction events generalizing s out with
  | nil =>
    obtain ⟨rfl, -⟩ := Prod.mk.inj (Option.some.inj hrun)
    exact (or_iff_left fun ⟨_, hnone, _⟩ => List.not_mem_nil hnone).symm
  | cons e events ih =>
    obtain ⟨next, first, rest, hone, hrest, -⟩ := (Runs.run_cons_eq_some _).mp hrun
    obtain ⟨hkeyed, -⟩ := sessions_reachable hreach
    rw [ih (hreach.next hone) hrest, isBanned_step hkeyed hone, Runs.visited, hone, or_assoc]
    exact or_congr_right (List.exists_mem_cons_iff
      (fun visit : VirtualServer × Event => visit.1.BansAddress visit.2 address) (s, e) _).symm

/-- Only clients that are logged in can be administrators. -/
theorem testFlag_authentication (h : testFlag action.flags RequiresAdminPrivileges = true) :
    testFlag action.flags RequiresAuthentication = true := by
  cases action with
  | AuthenticationAction => contradiction
  | _ => rfl

/-- A request is run as the action that it names, or it is forbidden. -/
theorem dispatch_of_document (client : ServerClientEntity) {params : QJsonObject}
    (hdocument : JsonProtocolHelper.fromJsonRequest document = some (action.name, params)) :
    ClientConnectionHandler.dispatch client document = .run action params ∨
      testFlag action.flags RequiresAuthentication = true ∧ ∃ message,
        ClientConnectionHandler.dispatch client document = .refuse IFVS_STATUS_FORBIDDEN message := by
  unfold ClientConnectionHandler.dispatch
  rw [hdocument]
  dsimp only
  rw [findHandlerByName_name]
  dsimp only
  split
  next hrefused => exact .inr ⟨hrefused.1, _, rfl⟩
  next =>
    split
    next hrefused => exact .inr ⟨testFlag_authentication hrefused.1, _, rfl⟩
    next => exact .inl rfl

/-- The request to ban the client is answered with success. -/
inductive BanGranted (fromUtf8 : List UInt8 → String) (s : VirtualServer) (c : ℤ) (s' : VirtualServer) :
    Prop
  | ok {kicker : ℤ} {correlationId : UInt32} {document : Option QJsonValue} {params : QJsonObject}
    {out : List Effect} {response : QJsonObject}
    (hdocument : JsonProtocolHelper.fromJsonRequest document =
      some (ActionBase.KickClientAction.name, params))
    (hclient : (params.value "clientid").toInt = c) (hban : (params.value "ban").toBool = true)
    (hstep : step fromUtf8 s (.newIncomingRequest kicker correlationId document) = some (s', out))
    (hresponse : (kicker, correlationId, response) ∈ responses out) (hstatus : status response = 0)

/-- A request to ban a client that is answered with success was admitted. -/
theorem BanGranted.isBanned_iff (h : BanGranted fromUtf8 s c s') (address : QHostAddress) :
    s'.isBanned address = true ↔
      s.isBanned address = true ∨ s.mediaAddress? c = some address := by
  cases h with
  | @ok kicker correlationId document params out response hdocument hclient hban hstep hresponse hstatus =>
    rcases withConnection_cases hstep with ⟨-, rfl⟩ | ⟨client, conn, -, -, hhandle⟩
    · contradiction
    · unfold ClientConnectionHandler.onNewIncomingRequest at hhandle
      rcases dispatch_of_document client hdocument with hrun | ⟨-, message, hrefuse⟩
      · simp only [hrun] at hhandle
        rw [isBanned_of_kick hhandle]
        dsimp only
        rw [hclient, hban, eq_self, true_and]
      · simp only [hrefuse] at hhandle
        obtain ⟨-, rfl⟩ := Prod.mk.inj (Option.some.inj hhandle)
        obtain ⟨-, -, rfl⟩ := Prod.mk.inj (List.mem_singleton.mp hresponse)
        rw [status_createJsonResponseError (by decide) (by decide)] at hstatus
        contradiction

/-- The server goes on after it has granted a ban. -/
theorem BanGranted.reachable {init : VirtualServer} (h : BanGranted fromUtf8 s c s')
    (hreach : Runs.Reachable (step fromUtf8) init s) : Runs.Reachable (step fromUtf8) init s' := by
  cases h with
  | ok _ _ _ hstep => exact hreach.next hstep

/-- An authentication is refused with a status, which is the one of banned addresses exactly if no limit is
exceeded and the address is banned, or it is not answered at once. -/
theorem authenticate_cases (s : VirtualServer) (req : ActionData) (peerAddress : QHostAddress) :
    (∃ code message, -2 ^ 31 ≤ code ∧ code < 2 ^ 31 ∧
      responses (AuthenticationAction.run s req peerAddress).2 = [(req.clientId, req.correlationId,
        JsonProtocolHelper.createJsonResponseError code message)] ∧
      (code = IFVS_STATUS_BANNED ↔ ¬ s.LimitExceeded ∧ s.isBanned peerAddress = true)) ∨
    responses (AuthenticationAction.run s req peerAddress).2 = [] ∧
      ¬ (¬ s.LimitExceeded ∧ s.isBanned peerAddress = true) := by
  unfold AuthenticationAction.run
  dsimp only
  split
  next hconnections =>
    exact .inl ⟨_, _, by decide, by decide, rfl,
      iff_of_false (by decide) fun h => h.1 (.inl hconnections)⟩
  split
  next hbandwidth =>
    exact .inl ⟨_, _, by decide, by decide, rfl,
      iff_of_false (by decide) fun h => h.1 (.inr hbandwidth)⟩
  split
  next hconnections hbandwidth hbanned =>
    exact .inl ⟨_, _, by decide, by decide, rfl,
      iff_of_true rfl ⟨fun h => h.elim hconnections hbandwidth, hbanned⟩⟩
  next hbanned =>
    split
    · exact .inl ⟨_, _, by decide, by decide, rfl, iff_of_false (by decide) fun h => hbanned h.2⟩
    split
    · exact .inl ⟨_, _, by decide, by decide, rfl, iff_of_false (by decide) fun h => hbanned h.2⟩
    · exact .inr ⟨rfl, fun h => hbanned h.2⟩

/-- An authentication is answered with the status of banned addresses exactly if no limit is exceeded and the
address of the connection is banned. -/
theorem answeredBanned_iff {opts : VirtualServerOptions} {bans : ExtTreeSet String}
    {params : QJsonObject} {address : QHostAddress}
    (hreach : Runs.Reachable (step fromUtf8) (init opts bans) s)
    (hdocument : JsonProtocolHelper.fromJsonRequest document =
      some (ActionBase.AuthenticationAction.name, params))
    (hpeer : s.peerAddress? c = some address) :
    AnsweredWith fromUtf8 s c correlationId document IFVS_STATUS_BANNED ↔
      ¬ s.LimitExceeded ∧ s.isBanned address = true := by
  obtain ⟨-, -, hsessions⟩ := sessions_reachable hreach
  obtain ⟨conn, hconn, rfl⟩ := Option.map_eq_some_iff.mp hpeer
  obtain ⟨client, hclient⟩ := Table.mem_iff.mp
    ((hsessions.connected c).mp (Table.mem_of_getElem? hconn))
  have hdispatch : ClientConnectionHandler.dispatch client document =
      .run .AuthenticationAction params :=
    (dispatch_of_document client hdocument).resolve_right fun h => by
      have := h.1
      contradiction
  have hstep : step fromUtf8 s (.newIncomingRequest c correlationId document) =
      some (AuthenticationAction.run s ⟨c, correlationId, params⟩ conn.peerAddress) := by
    rw [step, withConnection, hclient, hconn]
    simp only [ClientConnectionHandler.onNewIncomingRequest, hdispatch]
    rfl
  have hanswer : AnsweredWith fromUtf8 s c correlationId document IFVS_STATUS_BANNED ↔
      ∃ response, (c, correlationId, response) ∈
        responses (AuthenticationAction.run s ⟨c, correlationId, params⟩ conn.peerAddress).2 ∧
          status response = IFVS_STATUS_BANNED := by
    constructor
    · rintro ⟨s', out, response, hsame, hresponse, hstatus⟩
      exact ⟨response, congrArg Prod.snd (Option.some.inj (hstep.symm.trans hsame)) ▸ hresponse, hstatus⟩
    · rintro ⟨response, hresponse, hstatus⟩
      exact ⟨_, _, response, hstep, hresponse, hstatus⟩
  rw [hanswer]
  rcases authenticate_cases s ⟨c, correlationId, params⟩ conn.peerAddress with
    ⟨code, message, hlow, hhigh, hresponses, hcode⟩ | ⟨hresponses, hnot⟩
  · rw [hresponses, ← hcode]
    constructor
    · rintro ⟨response, hresponse, hstatus⟩
      obtain ⟨-, -, rfl⟩ := Prod.mk.inj (List.mem_singleton.mp hresponse)
      rwa [status_createJsonResponseError hlow hhigh] at hstatus
    · rintro rfl
      exact ⟨_, List.mem_singleton_self _, status_createJsonResponseError hlow hhigh message⟩
  · rw [hresponses]
    constructor
    · rintro ⟨response, hnone, -⟩
      exact absurd hnone List.not_mem_nil
    · exact fun h => absurd h hnot

/-- The banned addresses some time after a ban has been granted. -/
theorem isBanned_later {opts : VirtualServerOptions} {bans : ExtTreeSet String} {s s₁ t : VirtualServer}
    {middle : List Event} (hreach : Runs.Reachable (step fromUtf8) (init opts bans) s)
    (hban : BanGranted fromUtf8 s c s₁)
    (hmiddle : Runs.run (step fromUtf8) s₁ middle = some (t, out)) (address : QHostAddress) :
    t.isBanned address = true ↔ s.mediaAddress? c = some address ∨ s.isBanned address = true ∨
      ∃ visit ∈ Runs.visited (step fromUtf8) s₁ middle, visit.1.BansAddress visit.2 address := by
  rw [isBanned_run (hban.reachable hreach) hmiddle, hban.isBanned_iff,
    or_comm (a := s.isBanned _ = true), or_assoc]

/-- After a ban has been granted, an authentication from the address of the connection of the banned client
is answered with the status of banned addresses exactly if no limit is exceeded then, and the client had
sent its media from that address, or the address was banned before or has been banned in between. -/
theorem banTakesEffect_iff {opts : VirtualServerOptions} {bans : ExtTreeSet String} {s s₁ t : VirtualServer}
    {d : ℤ} {address : QHostAddress} {middle : List Event} {params : QJsonObject}
    (hreach : Runs.Reachable (step fromUtf8) (init opts bans) s)
    (hpeer : s.peerAddress? c = some address) (hban : BanGranted fromUtf8 s c s₁)
    (hmiddle : Runs.run (step fromUtf8) s₁ middle = some (t, out))
    (hdocument : JsonProtocolHelper.fromJsonRequest document =
      some (ActionBase.AuthenticationAction.name, params))
    (hlater : t.peerAddress? d = some address) :
    AnsweredWith fromUtf8 t d correlationId document IFVS_STATUS_BANNED ↔
      ¬ t.LimitExceeded ∧ (s.mediaAddress? c = s.peerAddress? c ∨ s.isBanned address = true ∨
        ∃ visit ∈ Runs.visited (step fromUtf8) s₁ middle, visit.1.BansAddress visit.2 address) := by
  have hreached := (hban.reachable hreach).trans ⟨middle, out, hmiddle⟩
  rw [answeredBanned_iff hreached hdocument hlater, isBanned_later hreach hban hmiddle, hpeer]

/-- The request to log in as the third client. -/
def thirdLogIn : Option QJsonValue :=
  some (.object (JsonProtocolHelper.createJsonRequest ActionBase.AuthenticationAction.name
    [("version", .string IFVS_SOFTWARE_VERSION), ("username", .string "bob")]))

/-- The administrator has logged in, and the second client from an address of its own. -/
def secondLoggedIn : List Event :=
  adminLoggedIn ++ [.newConnection "198.51.100.7",
    .request 2 .AuthenticationAction
      [("version", .string IFVS_SOFTWARE_VERSION), ("username", .string "bob")],
    .authenticationFinished 0 true "10:01"]

/-- The second client is banned after some events and comes back from the same address as the third one. -/
def comesBack (before : List Event) :
    Option (VirtualServer × (VirtualServer × List Effect) × VirtualServer × List Effect) := do
  let first ← Runs.run (step QString.fromLatin1) (init { adminPassword := "secret" } ∅) before
  let kicked ← step QString.fromLatin1 first.1
    (.request 1 .KickClientAction [("clientid", .ofInt 2), ("ban", .bool true)])
  let last ← Runs.run (step QString.fromLatin1) kicked.1 [.newConnection "198.51.100.7"]
  return (first.1, kicked, last)

/-- What can be seen of the client that is banned and comes back. -/
theorem exists_banned (before : List Event) (banned : Bool)
    (hfacts : (comesBack before).map (fun visit => (visit.1.peerAddress? 2,
      (responses visit.2.1.2).any (fun r => r.1 = 1 ∧ r.2.1 = 0 ∧ status r.2.2 = 0),
      visit.2.2.1.peerAddress? 3, visit.2.2.1.isBanned "198.51.100.7",
      decide visit.2.2.1.LimitExceeded)) =
        some (some "198.51.100.7", true, some "198.51.100.7", banned, false)) :
    ∃ s s₁ t out, Runs.Reachable (step QString.fromLatin1) (init { adminPassword := "secret" } ∅) s ∧
      s.peerAddress? 2 = some "198.51.100.7" ∧ BanGranted QString.fromLatin1 s 2 s₁ ∧
      Runs.run (step QString.fromLatin1) s₁ [.newConnection "198.51.100.7"] = some (t, out) ∧
      t.peerAddress? 3 = some "198.51.100.7" ∧ t.isBanned "198.51.100.7" = banned ∧
      ¬ t.LimitExceeded := by
  obtain ⟨visit, hvisit, hfacts⟩ := Option.map_eq_some_iff.mp hfacts
  obtain ⟨⟨s, earlier⟩, hrun, hvisit⟩ := Option.bind_eq_some_iff.mp hvisit
  obtain ⟨⟨s₁, kicked⟩, hstep, hvisit⟩ := Option.bind_eq_some_iff.mp hvisit
  obtain ⟨⟨t, out⟩, hmiddle, hvisit⟩ := Option.bind_eq_some_iff.mp hvisit
  obtain rfl := Option.some.inj hvisit
  simp only [Prod.mk.injEq, decide_eq_false_iff_not] at hfacts
  obtain ⟨hpeer, hok, hback, hbanned, hlimit⟩ := hfacts
  obtain ⟨⟨k, correlationId, response⟩, hresponse, hsame⟩ := List.any_eq_true.mp hok
  obtain ⟨rfl, rfl, hstatus⟩ := of_decide_eq_true hsame
  have hclient : (QJsonObject.value [("clientid", .ofInt 2), ("ban", .bool true)] "clientid").toInt = 2 :=
    QJsonValue.toInt_ofInt (by decide) (by decide)
  exact ⟨s, s₁, t, out, ⟨before, earlier, hrun⟩, hpeer,
    .ok (ClientConnectionHandler.fromJsonRequest_createJsonRequest .KickClientAction _) hclient rfl
      hstep hresponse hstatus, hmiddle, hback, hbanned, hlimit⟩

/-- A client that has not told the server where its media come from is banned without effect. It comes back
and gets another answer. -/
theorem banTakesEffect_noMedia : ∃ s s₁ t out,
    Runs.Reachable (step QString.fromLatin1) (init { adminPassword := "secret" } ∅) s ∧
      s.peerAddress? 2 = some "198.51.100.7" ∧ BanGranted QString.fromLatin1 s 2 s₁ ∧
      Runs.run (step QString.fromLatin1) s₁ [.newConnection "198.51.100.7"] = some (t, out) ∧
      t.peerAddress? 3 = some "198.51.100.7" ∧ ¬ t.LimitExceeded ∧
      ¬ AnsweredWith QString.fromLatin1 t 3 0 thirdLogIn IFVS_STATUS_BANNED := by
  obtain ⟨s, s₁, t, out, hreach, hpeer, hban, hmiddle, hback, hbanned, hlimit⟩ :=
    exists_banned secondLoggedIn false (by decide +kernel)
  refine ⟨s, s₁, t, out, hreach, hpeer, hban, hmiddle, hback, hlimit, fun hanswer => ?_⟩
  have hreached := (hban.reachable hreach).trans ⟨_, out, hmiddle⟩
  have hdocument := ClientConnectionHandler.fromJsonRequest_createJsonRequest .AuthenticationAction
    [("version", .string IFVS_SOFTWARE_VERSION), ("username", .string "bob")]
  obtain ⟨-, htrue⟩ := (answeredBanned_iff hreached hdocument hback).mp hanswer
  exact Bool.false_ne_true (hbanned.symm.trans htrue)

/-- A client that sends its media from the address of its connection is banned, and comes back in vain. -/
theorem banTakesEffect_iff_sameAddress : ∃ s s₁ t out,
    Runs.Reachable (step QString.fromLatin1) (init { adminPassword := "secret" } ∅) s ∧
      s.peerAddress? 2 = some "198.51.100.7" ∧ BanGranted QString.fromLatin1 s 2 s₁ ∧
      Runs.run (step QString.fromLatin1) s₁ [.newConnection "198.51.100.7"] = some (t, out) ∧
      t.peerAddress? 3 = some "198.51.100.7" ∧
      AnsweredWith QString.fromLatin1 t 3 0 thirdLogIn IFVS_STATUS_BANNED := by
  obtain ⟨s, s₁, t, out, hreach, hpeer, hban, hmiddle, hback, hbanned, hlimit⟩ :=
    exists_banned (secondLoggedIn ++ [.sendAuthToken "2-10:01" "198.51.100.7" 5001]) true
      (by decide +kernel)
  refine ⟨s, s₁, t, out, hreach, hpeer, hban, hmiddle, hback, ?_⟩
  have hdocument := ClientConnectionHandler.fromJsonRequest_createJsonRequest .AuthenticationAction
    [("version", .string IFVS_SOFTWARE_VERSION), ("username", .string "bob")]
  apply (banTakesEffect_iff hreach hpeer hban hmiddle hdocument hback).mpr
  rw [hpeer]
  exact ⟨hlimit, (isBanned_later hreach hban hmiddle _).mp hbanned⟩

end Ts3Video.VirtualServer
