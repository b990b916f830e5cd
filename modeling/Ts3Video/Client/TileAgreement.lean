import Ts3Video.Client.MemberView
import Ts3Video.Client.ParticipantAgreement
import Ts3Video.Client.StreamTraffic

/-!
# The tiles and the streams of the channel

When no message to a client is in flight, its window has a tile for exactly those other members of its channel
that send video. This takes the orderly runs in which it lists all members, and that nobody turns the camera on
over a lost connection.
-/

namespace Ts3Video

open Std NetworkClient ActionBase

namespace VirtualServer

variable {s s' : VirtualServer} {ch a c : ℤ} {v : MemberView} {messages : List Message}

/-- Whoever is listed is a member, as is the client. -/
theorem Replica.of_mem {ids : List ℤ} (h : Replica ch a s ids) (hnotGone : s.NotGone a) (hc : c ∈ ids) :
    SetMap.Rel s.participants ch a ∧ SetMap.Rel s.participants ch c ∧ (s.Lost c → c = a) := by
  by_cases hmember : SetMap.Rel s.participants ch a
  · exact ⟨hmember, ((h.member hmember).2 c).mp hc⟩
  · rw [h.absent hmember hnotGone] at hc
    exact absurd hc List.not_mem_nil

/-- The rows of other clients say whether they send video, and a client that is logged in knows its id. -/
structure Shown (a : ℤ) (s : VirtualServer) (v : MemberView) : Prop where
  video : s.NotGone a → ∀ {c : ℤ} {video : Bool} {client : ServerClientEntity}, (c, video) ∈ v.rows →
    c ≠ a → s.clients[c]? = some client → video = client.videoEnabled
  self : ∀ {client : ServerClientEntity}, s.clients[a]? = some client → client.authenticated = true →
    v.self = a

/-- The messages of an event fit the list that they meet, and after them it is right again. -/
structure Told (a : ℤ) (s' : VirtualServer) (v : MemberView) (messages : List Message) : Prop where
  accepts : InFlight.EachReceipt (MemberView.update a) (MemberView.Accepts a) v messages
  shown : Shown a s' (InFlight.settled (MemberView.update a) v messages)

/-- A row stays right if its client sends video as before. -/
theorem Shown.row (h : Shown a s v) (hsound : s.Sound) (hreplica : Replica ch a s v.ids)
    (hnotGone : s.NotGone a) {video : Bool} {client' : ServerClientEntity} (hrow : (c, video) ∈ v.rows)
    (hne : c ≠ a)
    (hsame : ∀ {client}, s.clients[c]? = some client → client'.videoEnabled = client.videoEnabled) :
    video = client'.videoEnabled := by
  have hc : c ∈ v.ids := List.mem_map_of_mem hrow
  obtain ⟨client, hclient, -⟩ := hsound.member (hreplica.of_mem hnotGone hc).2.1
  rw [hsame hclient]
  exact h.video hnotGone hrow hne hclient

/-- Without a signal, the rows stay right if nobody turns the camera on or off. -/
theorem Shown.told_silent (h : Shown a s v) (hsound : s.Sound) (hreplica : Replica ch a s v.ids)
    (hnotGone : s'.NotGone a → s.NotGone a) (hstreams : SameStreams s s')
    (hsilent : ∀ message ∈ messages, message.signal? = none) : Told a s' v messages where
  accepts := by
    refine InFlight.eachReceipt_of_forall (fun message hmessage v signal hsignal => ?_) v
    rw [hsilent message hmessage] at hsignal
    contradiction
  shown := by
    rw [InFlight.settled_of_ignored fun message hmessage v => by
      rw [MemberView.update, hsilent message hmessage]]
    constructor
    · intro hnot c video client hrow hne hclient
      exact h.row hsound hreplica (hnotGone hnot) hrow hne fun hbefore =>
        hstreams.video hbefore hclient
    · intro client' hclient' hauthenticated
      obtain ⟨client, hclient, hbefore⟩ := hstreams.login hclient' hauthenticated
      exact h.self hclient hbefore

/-- One message with a signal. -/
theorem told_signal {message : Message} (signal : Signal) (hsignal : message.signal? = some signal)
    (hfits : v.Fits a signal) (hshown : Shown a s' (v.handle a signal)) : Told a s' v [message] where
  accepts := by
    refine ⟨fun other hother => ?_, trivial⟩
    obtain rfl := Option.some.inj (hsignal.symm.trans hother)
    exact hfits
  shown := by
    rw [InFlight.settled_cons, InFlight.settled_nil, MemberView.update, hsignal]
    exact hshown

/-- The data of a successful response. -/
theorem success?_createJsonResponse (data : QJsonObject) :
    success? (JsonProtocolHelper.createJsonResponse data) = some data := by
  change (if (QJsonValue.ofInt 0).toInt ≠ 0 then none else some data) = some data
  rw [QJsonValue.toInt_ofInt (by decide) (by decide), if_neg (not_not.mpr rfl)]

section Step

variable {client client' : ServerClientEntity} {correlationId : UInt32} {params : QJsonObject}
  {out : List Effect}

/-- Whoever is told of a client reads its id. -/
theorem id_told (hid : client.id = c) (hrange : -2 ^ 31 ≤ client.id ∧ client.id < 2 ^ 31) :
    (ClientEntity.fromQJsonObject client.toQJsonObject).id = c := by
  rw [ClientEntity.fromQJsonObject_id _ hrange.1 hrange.2, hid]

/-- Whoever is told of another client reads its row. -/
theorem row_told (hid : client.id = c) (hrange : -2 ^ 31 ≤ client.id ∧ client.id < 2 ^ 31) (hne : c ≠ a) :
    MemberView.row a (ClientEntity.fromQJsonObject client.toQJsonObject) = (c, client.videoEnabled) := by
  have hread := id_told hid hrange
  rw [MemberView.row_of_ne (hread.symm ▸ hne), hread]
  rfl

/-- A client is not told of itself. -/
theorem messagesTo_broadcast_self (s : VirtualServer) (slot : ReplySlot) (text : String)
    (parameters : QJsonObject) : messagesTo c slot (broadcastNotificationToSiblingClients s
      ⟨c, correlationId, params⟩ client text parameters) = [] := by
  refine List.filterMap_eq_nil_iff.mpr fun effect heffect => ?_
  obtain ⟨k, -, rfl, -, -, -, -, hne⟩ := mem_broadcast.mp heffect
  exact if_neg hne

/-- A login tells the client its id. -/
theorem Shown.told_login (h : Shown a s v) (hsound : s.Sound) (hbound : s.nextClientId < 2 ^ 31)
    (hreplica : Replica ch a s v.ids) (hnotGone : s'.NotGone a → s.NotGone a) {data : QJsonObject}
    (hclient : s.clients[c]? = some client) (hclients : s'.clients = s.clients.insert c client')
    (hid : client'.id = client.id) (hvideo : client'.videoEnabled = client.videoEnabled)
    (hdata : data.value "client" = .object client'.toQJsonObject) :
    Told a s' v (messagesTo a .onAuthFinished [sendDefaultOkResponse ⟨c, correlationId, params⟩ data]) := by
  have hlookup : ∀ k : ℤ, s'.clients[k]? = if c = k then some client' else s.clients[k]? := fun k => by
    rw [hclients, Table.getElem?_insert]
  have hrows : s'.NotGone a → ∀ {k : ℤ} {video : Bool} {found : ServerClientEntity},
      (k, video) ∈ v.rows → k ≠ a → s'.clients[k]? = some found → video = found.videoEnabled := by
    intro hnot k video found hrow hne hfound
    refine h.row hsound hreplica (hnotGone hnot) hrow hne fun {before} hbefore => ?_
    rw [hlookup] at hfound
    split at hfound
    next hk =>
      subst hk
      obtain rfl := Option.some.inj hfound
      rw [hvideo, Option.some.inj (hclient.symm.trans hbefore)]
    next => rw [Option.some.inj (hfound.symm.trans hbefore)]
  rw [messagesTo_cons_response]
  by_cases hca : c = a
  · subst hca
    have hself : (ClientEntity.fromQJsonObject client'.toQJsonObject).id = c :=
      id_told (hid.trans (hsound.keyed.client hclient)) (hid.symm ▸ hsound.range hbound hclient)
    have hsignal : (Message.response .onAuthFinished (JsonProtocolHelper.createJsonResponse data)).signal? =
        some (.authFinished (ClientEntity.fromQJsonObject client'.toQJsonObject)) := by
      rw [Message.signal?, success?_createJsonResponse, Option.map_some, hdata]
      rfl
    rw [if_pos rfl]
    exact told_signal _ hsignal hself ⟨hrows, fun _ _ => hself⟩
  · rw [if_neg hca]
    refine ⟨trivial, hrows, fun {found} hfound hauthenticated => ?_⟩
    rw [hlookup, if_neg hca] at hfound
    exact h.self hfound hauthenticated

/-- A client that is seen by default goes on to be seen. -/
theorem DefaultVisibility.insert (h : s.DefaultVisibility) (hclient : s.clients[c]? = some client)
    (hclients : s'.clients = s.clients.insert c client')
    (hlevel : client'.visibilityLevel = client.visibilityLevel) : s'.DefaultVisibility := by
  rintro ⟨k, found⟩ hentry
  rw [ExtTreeMap.mem_toList_iff_getElem?_eq_some, hclients, Table.getElem?_insert] at hentry
  split at hentry
  · obtain rfl := Option.some.inj hentry
    exact hlevel.trans (h (c, client) (ExtTreeMap.mem_toList_iff_getElem?_eq_some.mpr hclient))
  · exact h (k, found) (ExtTreeMap.mem_toList_iff_getElem?_eq_some.mpr hentry)

/-- The siblings of a client are told of it exactly if they are members of the same channel. -/
theorem messagesTo_siblings (hsound : s.Sound) (hvisible : s.DefaultVisibility)
    (honly : ∀ k, SetMap.Rel s.participants k a → k = ch) (hclient : s.clients[c]? = some client)
    (hca : c ≠ a) (slot : ReplySlot) (text : String) (parameters : QJsonObject) :
    messagesTo a slot (broadcastNotificationToSiblingClients s ⟨c, correlationId, params⟩ client text
        parameters) =
      if SetMap.Rel s.participants ch c ∧ SetMap.Rel s.participants ch a then
        [.request (JsonProtocolHelper.createJsonRequest text parameters)]
      else [] := by
  have hsibling : a ∈ s.getSiblingClientIds client.id false ↔
      SetMap.Rel s.participants ch c ∧ SetMap.Rel s.participants ch a := by
    rw [hsound.keyed.client hclient, mem_siblings_iff_sharesChannel]
    exact sharesChannel_iff_of_only honly hsound.membership
  have hsees : a ∈ s.getSiblingClientIds client.id false → ∃ observer,
      s.clients[a]? = some observer ∧ observer.isAllowedToSee client = true ∧ a ∈ s.connections := by
    intro hmem
    obtain ⟨observer, hobserver, hconn⟩ := hsound.member (hsibling.mp hmem).2
    exact ⟨observer, hobserver, hsound.sees hvisible hclient hobserver, hconn⟩
  rw [messagesTo_broadcast slot hsees]
  exact if_congr ((and_iff_left (Ne.symm hca)).trans hsibling) rfl rfl

/-- A client that turns its camera on or off tells the other members. -/
theorem Shown.told_switched (h : Shown a s v) (hsound : s.Sound) (hsound' : s'.Sound)
    (hvisible : s.DefaultVisibility) (hbound : s.nextClientId < 2 ^ 31) (hreplica : Replica ch a s v.ids)
    (hnotGone : s'.NotGone a → s.NotGone a) {text : String} (hclient : s.clients[c]? = some client)
    (hswitch : ¬ s.Lost c ∧ client'.videoEnabled = true ∧ text = "notify.clientvideoenabled" ∨
      client'.videoEnabled = false ∧ text = "notify.clientvideodisabled")
    (hmembers : SameMembers s s') (hclients : s'.clients = s.clients.insert c client')
    (hid : client'.id = client.id) (hlogin : client'.authenticated = client.authenticated)
    (hlevel : client'.visibilityLevel = client.visibilityLevel) :
    Told a s' v (messagesTo a .ignored (sendDefaultOkResponse ⟨c, correlationId, params⟩ [] ::
      broadcastNotificationToSiblingClients s' ⟨c, correlationId, params⟩ client' text
        [("client", .object client'.toQJsonObject)])) := by
  have hlookup : ∀ k : ℤ, s'.clients[k]? = if c = k then some client' else s.clients[k]? := fun k => by
    rw [hclients, Table.getElem?_insert]
  have hother : s'.NotGone a → ∀ {k : ℤ} {video : Bool} {found : ServerClientEntity},
      (k, video) ∈ v.rows → k ≠ a → k ≠ c → s'.clients[k]? = some found →
        video = found.videoEnabled := by
    intro hnot k video found hrow hne hkc hfound
    rw [hlookup, if_neg (Ne.symm hkc)] at hfound
    exact h.video (hnotGone hnot) hrow hne hfound
  have hself : ∀ {found : ServerClientEntity}, s'.clients[a]? = some found → found.authenticated = true →
      v.self = a := by
    intro found hfound hauthenticated
    rw [hlookup] at hfound
    split at hfound
    next hca =>
      subst hca
      obtain rfl := Option.some.inj hfound
      exact h.self hclient (hlogin ▸ hauthenticated)
    next => exact h.self hfound hauthenticated
  rw [messagesTo_cons_response]
  by_cases hca : c = a
  · subst hca
    rw [if_pos rfl, messagesTo_broadcast_self, List.append_nil]
    refine ⟨⟨fun signal hsignal => by contradiction, trivial⟩, ?_⟩
    exact ⟨fun hnot k video found hrow hne hfound => hother hnot hrow hne hne hfound, hself⟩
  · have hclient' : s'.clients[c]? = some client' := by rw [hlookup, if_pos rfl]
    rw [if_neg hca, List.nil_append, messagesTo_siblings hsound' (hvisible.insert hclient hclients hlevel)
      (fun k hrel => hreplica.only k (hmembers.participants ▸ hrel)) hclient' hca, hmembers.participants]
    split
    next hshares =>
      obtain ⟨hc, ha⟩ := hshares
      have hid' : client'.id = c := hid.trans (hsound.keyed.client hclient)
      have hrange : -2 ^ 31 ≤ client'.id ∧ client'.id < 2 ^ 31 := hid.symm ▸ hsound.range hbound hclient
      have hread := id_told hid' hrange
      obtain ⟨hnodup, hids⟩ := hreplica.member ha
      -- the row of the client says what it has turned its camera to, the other ones stay
      have hshown :
          Shown a s' { v with rows := KeyedRows.replace Prod.fst (c, client'.videoEnabled) v.rows } := by
        refine ⟨fun hnot k video found hmem hka hfound => ?_, hself⟩
        rcases (KeyedRows.mem_replace hnodup).mp hmem with ⟨hnew, -⟩ | ⟨hold, hkc⟩
        · obtain ⟨rfl, rfl⟩ := Prod.mk.inj hnew
          rw [Option.some.inj (hfound.symm.trans hclient')]
        · exact hother hnot hold hka hkc hfound
      rw [← row_told hid' hrange hca] at hshown
      rcases hswitch with ⟨hconnected, hvideo, rfl⟩ | ⟨hvideo, rfl⟩
      · refine told_signal (.clientEnabledVideo (.fromQJsonObject client'.toQJsonObject)) rfl
          ⟨hread ▸ hca, ?_, hvideo⟩ hshown
        rw [hread]
        exact (hids c).mpr ⟨hc, fun hlost => absurd hlost hconnected⟩
      · exact told_signal (.clientDisabledVideo (.fromQJsonObject client'.toQJsonObject)) rfl hvideo hshown
    next hshares =>
      refine ⟨trivial, fun hnot k video found hrow hne hfound => hother hnot hrow hne ?_ hfound, hself⟩
      rintro rfl
      obtain ⟨ha, hk, -⟩ := hreplica.of_mem (hnotGone hnot) (List.mem_map_of_mem hrow)
      exact hshares ⟨hk, ha⟩

/-- The rows of the members that are listed. -/
theorem mem_listedRows (hkeyed : s.Keyed)
    (hrange : ∀ {k : ℤ} {found : ServerClientEntity}, s.clients[k]? = some found →
      -2 ^ 31 ≤ found.id ∧ found.id < 2 ^ 31) {video : Bool}
    (hrow : (c, video) ∈ ((s.listedMembers client ch).map fun v =>
      ClientEntity.fromQJsonObject v.toObject).map (MemberView.row a)) (hne : c ≠ a) :
    ∃ member, s.clients[c]? = some member ∧ video = member.videoEnabled := by
  rw [List.map_map] at hrow
  obtain ⟨value, hvalue, hrow⟩ := List.mem_map.mp hrow
  obtain ⟨k, -, hlisted⟩ := List.mem_filterMap.mp hvalue
  split at hlisted
  · contradiction
  next member hmember =>
    split at hlisted
    · contradiction
    · obtain rfl := Option.some.inj hlisted
      have hread := id_told (hkeyed.client hmember) (hrange hmember)
      have hkc : k = c := hread.symm.trans (Prod.mk.inj hrow).1
      subst hkc
      have hsame := hrow.symm.trans (row_told (hkeyed.client hmember) (hrange hmember) hne)
      exact ⟨member, hmember, (Prod.mk.inj hsame).2⟩

/-- A client that joins is told of the members of its channel, and they are told of it. -/
theorem Shown.told_joined (h : Shown a s v) (hsound : s.Sound) (hsound' : s'.Sound)
    (hvisible : s.DefaultVisibility) (hbound : s.nextClientId < 2 ^ 31) (hreplica : Replica ch a s v.ids)
    (hnotGone : s'.NotGone a → s.NotGone a) {k : ℤ} {channel : QJsonObject}
    (hclient : s.clients[c]? = some client) (hlogin : client.authenticated = true)
    (hclients : s'.clients = s.clients) (hmember : SetMap.Rel s'.participants k c)
    (hout : out = sendDefaultOkResponse ⟨c, correlationId, params⟩ [("channel", .object channel),
        ("participants", .array (s'.listedMembers client k))] ::
      broadcastNotificationToSiblingClients s' ⟨c, correlationId, params⟩ client
        "notify.clientjoinedchannel"
        [("channel", .object channel), ("client", .object client.toQJsonObject)])
    (hafter : Replica ch a s' (InFlight.settled Message.updateIds v.ids
      (messagesTo a .onJoinChannelFinished out))) :
    Told a s' v (messagesTo a .onJoinChannelFinished out) := by
  have hclient' : s'.clients[c]? = some client := hclients ▸ hclient
  have hvisible' : s'.DefaultVisibility := by
    rw [DefaultVisibility, hclients]
    exact hvisible
  have hrange : ∀ {k : ℤ} {found : ServerClientEntity}, s'.clients[k]? = some found →
      -2 ^ 31 ≤ found.id ∧ found.id < 2 ^ 31 := fun hfound => hsound.range hbound (hclients ▸ hfound)
  have hself : ∀ {found : ServerClientEntity}, s'.clients[a]? = some found → found.authenticated = true →
      v.self = a :=
    fun hfound => h.self (hclients ▸ hfound)
  have hrows : s'.NotGone a → ∀ {k : ℤ} {video : Bool} {found : ServerClientEntity},
      (k, video) ∈ v.rows → k ≠ a → s'.clients[k]? = some found → video = found.videoEnabled :=
    fun hnot _ _ _ hrow hne hfound => h.video (hnotGone hnot) hrow hne (hclients ▸ hfound)
  rw [hout, messagesTo_cons_response] at hafter ⊢
  by_cases hca : c = a
  · subst hca
    obtain rfl := hafter.only k hmember
    rw [if_pos rfl, messagesTo_broadcast_self, List.append_nil] at hafter ⊢
    rw [InFlight.settled_cons, InFlight.settled_nil, updateIds_participants] at hafter
    have hlisted : ((s'.listedMembers client k).map fun v =>
        (ClientEntity.fromQJsonObject v.toObject).id) = (SetMap.value s'.participants k).toList := by
      refine ids_listedMembers hsound'.keyed fun c' hc' => ?_
      obtain ⟨member, hfound, -⟩ := hsound'.member hc'
      have hbounds := hrange hfound
      rw [hsound'.keyed.client hfound] at hbounds
      exact ⟨member, hfound, hsound'.sees hvisible' hfound hclient', hbounds⟩
    have hparticipants : c ∈ (SetMap.value s'.participants k).toList := ExtTreeSet.mem_toList.mpr hmember
    rw [hlisted] at hafter
    -- the client would be listed twice if it had been a member before
    have hempty : v.ids = [] := by
      refine hreplica.absent (fun hbefore => ?_) (.inl (Table.mem_of_getElem? hclient))
      have hc : c ∈ v.ids := ((hreplica.member hbefore).2 c).mpr ⟨hbefore, fun _ => rfl⟩
      exact List.disjoint_of_nodup_append (hafter.member hmember).1 hc hparticipants
    have hrowsEmpty : v.rows = [] := List.map_eq_nil_iff.mp hempty
    have hsignal : (Message.response .onJoinChannelFinished (JsonProtocolHelper.createJsonResponse
        [("channel", .object channel), ("participants", .array (s'.listedMembers client k))])).signal? =
        some (.joinChannelFinished ((s'.listedMembers client k).map fun v =>
          ClientEntity.fromQJsonObject v.toObject)) := by
      rw [Message.signal?, success?_createJsonResponse, Option.map_some]
      rfl
    refine told_signal _ hsignal ⟨hrowsEmpty, h.self hclient hlogin, ?_, ?_⟩
      ⟨fun _ c' video found hrow hne hfound => ?_, hself⟩
    · rw [List.map_map]
      exact hlisted ▸ SetMap.nodup_toList _
    · rw [List.map_map]
      exact hlisted ▸ hparticipants
    · change (c', video) ∈ v.rows ++ _ at hrow
      rw [hrowsEmpty, List.nil_append] at hrow
      obtain ⟨member, hmember', hvideo⟩ := mem_listedRows hsound'.keyed hrange hrow hne
      rw [hvideo, Option.some.inj (hfound.symm.trans hmember')]
  · rw [if_neg hca, List.nil_append,
      messagesTo_siblings hsound' hvisible' hafter.only hclient' hca] at hafter ⊢
    split at hafter
    next hshares =>
      rw [if_pos hshares]
      obtain ⟨hlow, hhigh⟩ := hrange hclient'
      rw [InFlight.settled_cons, InFlight.settled_nil, updateIds_joined _ _ hlow hhigh] at hafter
      have hread := ClientEntity.fromQJsonObject_id client.toClientEntity hlow hhigh
      have hfresh : (ClientEntity.fromQJsonObject client.toQJsonObject).id ∉ v.ids := fun hc =>
        List.disjoint_of_nodup_append (hafter.member hshares.2).1 (hread ▸ hc) (List.mem_singleton_self _)
      refine told_signal
        (.clientJoinedChannel (.fromQJsonObject client.toQJsonObject) (.fromQJsonObject channel)) rfl hfresh
        ⟨fun hnot c' video found hrow hne hfound => ?_, hself⟩
      rcases List.mem_append.mp hrow with hold | hnew
      · exact hrows hnot hold hne hfound
      · rw [List.mem_singleton, row_told (hsound'.keyed.client hclient') ⟨hlow, hhigh⟩ hca] at hnew
        obtain ⟨rfl, rfl⟩ := Prod.mk.inj hnew
        rw [Option.some.inj (hfound.symm.trans hclient')]
    next hshares =>
      rw [if_neg hshares]
      exact ⟨trivial, hrows, hself⟩

/-- A lost connection removes a row. -/
theorem Shown.told_unconnected (h : Shown a s v) (hsound : s.Sound) (hbound : s.nextClientId < 2 ^ 31)
    (hreplica : Replica ch a s v.ids) (hnotGone : s'.NotGone a → s.NotGone a) (slot : ReplySlot)
    (hclient : s.clients[c]? = some client)
    (hhandle : ClientConnectionHandler.onUnconnected s c client = (s', out)) :
    Told a s' v (messagesTo a slot out) := by
  have hclients : s'.clients = s.clients := by
    obtain ⟨rfl, -⟩ := Prod.mk.inj hhandle
    rfl
  rw [messagesTo_unconnected slot hhandle]
  split
  next htold =>
    have hread := id_told (hsound.keyed.client hclient) (hsound.range hbound hclient)
    have hne : (ClientEntity.fromQJsonObject client.toQJsonObject).id ≠ a := by
      rw [hread]
      exact Ne.symm htold.2.2
    refine told_signal (.clientDisconnected (.fromQJsonObject client.toQJsonObject)) rfl hne
      ⟨fun hnot k video found hrow hne hfound => ?_, fun hfound => h.self (hclients ▸ hfound)⟩
    exact h.video (hnotGone hnot) (List.mem_of_mem_eraseP hrow) hne (hclients ▸ hfound)
  next =>
    exact h.told_silent hsound hreplica hnotGone (sameStreams_of_clients hclients)
      fun _ hmessage => absurd hmessage List.not_mem_nil

end Step

/-- Nobody turns the camera on over a lost connection. -/
def EnablesConnected (s : VirtualServer) (e : Event) : Prop :=
  ∀ request ∈ s.admitted? e, request.2.1 = .EnableVideoAction → ¬ s.Lost request.1.id

instance (s : VirtualServer) (e : Event) : Decidable (EnablesConnected s e) :=
  inferInstanceAs (Decidable (∀ request ∈ s.admitted? e, _))

/-- What an event tells a client fits its list, which is right again after it. -/
theorem told_of_step {fromUtf8 : List UInt8 → String} {e : Event} {out : List Effect} (hsound : s.Sound)
    (hsound' : s'.Sound) (hvisible : s.DefaultVisibility) (hbound : s.nextClientId < 2 ^ 31)
    (hconnected : EnablesConnected s e) (hstep : step fromUtf8 s e = some (s', out))
    (hreplica : Replica ch a s v.ids) (h : Shown a s v)
    (hafter : Replica ch a s' (InFlight.settled Message.updateIds v.ids (messagesTo a e.replySlot out))) :
    Told a s' v (messagesTo a e.replySlot out) := by
  have hnotGone : s'.NotGone a → s.NotGone a := (sessionChange_of_step hstep).notGone
  have hnew : s.clients[s.nextClientId + 1]? = none := by
    refine ExtTreeMap.getElem?_eq_none fun hmem => ?_
    have hle := (hsound.sessions.client _ hmem).2
    omega
  cases showing_of_step hsound.keyed hnew hstep with
  | silent hstreams hsilent =>
    exact h.told_silent hsound hreplica hnotGone hstreams fun _ hmessage => hsilent.messagesTo hmessage
  | login hclient hclients hid hvideo hslot hdata hout =>
    rw [hslot, hout]
    exact h.told_login hsound hbound hreplica hnotGone hclient hclients hid hvideo hdata
  | @switched c client client' action text correlationId params hadmits hswitch hmembers hclients hid hlogin
      hlevel hout =>
    have hslot : e.replySlot = .ignored := by
      rw [hadmits.replySlot]
      rcases hswitch with ⟨rfl, -⟩ | ⟨rfl, -⟩
      · rfl
      · rfl
    rw [hslot, hout]
    refine h.told_switched hsound hsound' hvisible hbound hreplica hnotGone hadmits.live ?_ hmembers
      hclients hid hlogin hlevel
    refine hswitch.imp (fun ⟨haction, hvideo⟩ => ⟨?_, hvideo⟩) And.right
    have hguard := hconnected _ hadmits.admitted? haction
    rwa [hsound.keyed.client hadmits.live] at hguard
  | joined hclient hlogin hclients hslot hmember hout =>
    rw [hslot] at hafter ⊢
    exact h.told_joined hsound hsound' hvisible hbound hreplica hnotGone hclient hlogin hclients hmember
      hout hafter
  | unconnected hclient hhandle =>
    exact h.told_unconnected hsound hbound hreplica hnotGone _ hclient hhandle

end VirtualServer

namespace ViewerSystem

/-- The server is only asked for what keeps the client in one channel and everybody visible. -/
def JoinsOnly (ch a : ℤ) (s : ViewerSystem) : Event → Prop
  | .server event => VirtualServer.JoinsOnly ch a s.server event
  | _ => True

/-- Joins are orderly, nobody turns the camera on over a lost connection, and when the client receives the last
message in flight, no other member of its channel is lost. -/
def Orderly (ch a : ℤ) (s : ViewerSystem) : Event → Prop
  | .server event => s.toClientSystem.Orderly ch a (.server event) ∧ s.server.EnablesConnected event
  | .receive => s.toClientSystem.Orderly ch a .receive
  | _ => True

instance (ch a : ℤ) (s : ViewerSystem) : ∀ e, Decidable (JoinsOnly ch a s e)
  | .server event => inferInstanceAs (Decidable (VirtualServer.JoinsOnly ch a s.server event))
  | .receive => inferInstanceAs (Decidable True)
  | .dialogFinished => inferInstanceAs (Decidable True)
  | .enableVideoStream _ _ _ => inferInstanceAs (Decidable True)
  | .disableVideoStream => inferInstanceAs (Decidable True)
  | .moveBackward _ => inferInstanceAs (Decidable True)
  | .moveForward _ => inferInstanceAs (Decidable True)

instance (ch a : ℤ) (s : ViewerSystem) : ∀ e, Decidable (Orderly ch a s e)
  | .server event => inferInstanceAs (Decidable (s.toClientSystem.Orderly ch a (.server event) ∧
      s.server.EnablesConnected event))
  | .receive => inferInstanceAs (Decidable (s.toClientSystem.Orderly ch a .receive))
  | .dialogFinished => inferInstanceAs (Decidable True)
  | .enableVideoStream _ _ _ => inferInstanceAs (Decidable True)
  | .disableVideoStream => inferInstanceAs (Decidable True)
  | .moveBackward _ => inferInstanceAs (Decidable True)
  | .moveForward _ => inferInstanceAs (Decidable True)

/-- The list and its rows will be right once all messages in flight have been received, each of which fits the
list that it will meet, and the tiles follow the list. -/
structure TileInvariant (fromUtf8 : List UInt8 → String) (opts : VirtualServerOptions)
    (bans : ExtTreeSet String) (ch a : ℤ) (s : ViewerSystem) : Prop where
  list : s.toClientSystem.ListInvariant fromUtf8 opts bans ch a
  accepts : InFlight.EachReceipt (MemberView.update a) (MemberView.Accepts a) (s.client.view a) s.messages
  shown : s.server.Shown a (InFlight.settled (MemberView.update a) (s.client.view a) s.messages)
  inStep : InStep a (s.client.view a) s.dialogs s.window

variable {fromUtf8 : List UInt8 → String} {opts : VirtualServerOptions} {bans : ExtTreeSet String}
  {ch a : ℤ} {s s' : ViewerSystem}

/-- The ids of the rows are those of the list. -/
theorem ids_view (d : NetworkClient) : (d.view a).ids = d.clientModel.ids := by
  rw [MemberView.ids, view, List.map_map]
  rfl

/-- The ids of the rows that there will be are those of the list that there will be. -/
theorem ids_settled (s : ViewerSystem) :
    (InFlight.settled (MemberView.update a) (s.client.view a) s.messages).ids =
      InFlight.settled Message.updateIds s.client.clientModel.ids s.messages := by
  rw [InFlight.map_settled MemberView.ids fun _ _ => MemberView.ids_update, ids_view]

/-- A step of the server keeps the invariant. -/
theorem TileInvariant.server (h : TileInvariant fromUtf8 opts bans ch a s) {event : VirtualServer.Event}
    {server : VirtualServer} {out : List Effect} {accepted : List String}
    (hjoins : JoinsOnly ch a s (.server event)) (horderly : Orderly ch a s (.server event))
    (hstep : VirtualServer.step fromUtf8 s.server event = some (server, out)) :
    TileInvariant fromUtf8 opts bans ch a { s with
      server
      messages := s.messages ++ messagesTo a event.replySlot out
      accepted } := by
  have hlist : ClientSystem.ListInvariant fromUtf8 opts bans ch a { s.toClientSystem with
      server
      messages := s.messages ++ messagesTo a event.replySlot out
      accepted } := h.list.server hjoins horderly.1 hstep
  have hreplica := h.list.replica
  have hafter := hlist.replica
  rw [← ids_settled] at hreplica
  change server.Replica ch a (InFlight.settled _ s.client.clientModel.ids (s.messages ++ _)) at hafter
  rw [InFlight.settled_append, ← ids_settled] at hafter
  have htold := VirtualServer.told_of_step (VirtualServer.sound_reachable h.list.reachable)
    (VirtualServer.sound_reachable hlist.reachable) hjoins.1 horderly.1.1 horderly.2 hstep hreplica h.shown
    hafter
  refine ⟨hlist, InFlight.eachReceipt_append.mpr ⟨h.accepts, htold.accepts⟩, ?_, h.inStep⟩
  change server.Shown a (InFlight.settled _ (s.client.view a) (s.messages ++ _))
  rw [InFlight.settled_append]
  exact htold.shown

/-- A signal changes what is shown, not the client. -/
theorem toClientSystem_notify (s : ViewerSystem) (signal : Option Signal) :
    (s.notify signal).toClientSystem = s.toClientSystem := by
  cases signal with
  | none => rfl
  | some signal =>
    cases signal with
    | _ => rfl

/-- What is shown has changed, and the tiles are in step. -/
theorem tileInvariant_of_client (hclient : s'.toClientSystem = s.toClientSystem)
    (hlist : s.toClientSystem.ListInvariant fromUtf8 opts bans ch a)
    (haccepts : InFlight.EachReceipt (MemberView.update a) (MemberView.Accepts a) (s.client.view a) s.messages)
    (hshown : s.server.Shown a (InFlight.settled (MemberView.update a) (s.client.view a) s.messages))
    (hinStep : InStep a (s.client.view a) s'.dialogs s'.window) :
    TileInvariant fromUtf8 opts bans ch a s' := by
  rw [← hclient] at hlist haccepts hshown hinStep
  exact ⟨hlist, haccepts, hshown, hinStep⟩

/-- A message that is received keeps the invariant. -/
theorem TileInvariant.receive (h : TileInvariant fromUtf8 opts bans ch a s)
    (horderly : Orderly ch a s .receive) {message : Message} {messages : List Message}
    {client : NetworkClient} (hmessages : s.messages = message :: messages)
    (hreceive : s.client.receive message = some client) :
    TileInvariant fromUtf8 opts bans ch a
      (({ s with client, messages } : ViewerSystem).notify message.signal?) := by
  have hview : client.view a = (s.client.view a).update a message := view_receive hreceive
  obtain ⟨hlist, haccepts, hshown, hinStep⟩ := h
  rw [hmessages] at haccepts hshown
  rw [InFlight.settled_cons] at hshown
  obtain ⟨hfits, hrest⟩ := haccepts
  rw [← hview] at hrest hshown
  refine tileInvariant_of_client (toClientSystem_notify _ _) (hlist.receive horderly hmessages hreceive)
    hrest hshown ?_
  have hself : client.clientEntity.id = ((s.client.view a).update a message).self :=
    congrArg MemberView.self hview
  change InStep a (client.view a) _ _
  rw [hview]
  exact InStep.receive (s := { s with client, messages }) hinStep hfits hself

/-- The own camera keeps the invariant. -/
theorem TileInvariant.own (h : TileInvariant fromUtf8 opts bans ch a s) {client : NetworkClient}
    (hview : client.view a = s.client.view a) :
    TileInvariant fromUtf8 opts bans ch a { s with client } := by
  obtain ⟨hlist, haccepts, hshown, hinStep⟩ := h
  have hreplica := hlist.replica
  rw [← ids_view (a := a), ← hview, ids_view] at hreplica
  rw [← hview] at haccepts hshown hinStep
  exact ⟨⟨hlist.reachable, hreplica, hlist.lost⟩, haccepts, hshown, hinStep⟩

/-- Every step keeps the invariant. -/
theorem TileInvariant.next (h : TileInvariant fromUtf8 opts bans ch a s) {e : Event} {out : List Effect}
    (hjoins : JoinsOnly ch a s e) (horderly : Orderly ch a s e)
    (hstep : step fromUtf8 a s e = some (s', out)) : TileInvariant fromUtf8 opts bans ch a s' := by
  have hopened : s.window.isSome = true → s.client.clientEntity.id = a := fun hwindow =>
    (h.inStep.joined (.inr (Option.isSome_iff_ne_none.mp hwindow))).2
  cases e with
  | server event =>
    obtain ⟨⟨t, effects⟩, hclient, hdone⟩ := Option.map_eq_some_iff.mp hstep
    obtain ⟨⟨server, sent⟩, hserver, ht⟩ := Option.map_eq_some_iff.mp hclient
    obtain ⟨rfl, -⟩ := Prod.mk.inj ht
    obtain ⟨rfl, -⟩ := Prod.mk.inj hdone
    exact h.server hjoins horderly hserver
  | receive =>
    obtain ⟨⟨t, sent⟩, hclient, hdone⟩ := Option.map_eq_some_iff.mp hstep
    obtain ⟨rfl, -⟩ := Prod.mk.inj hdone
    obtain ⟨⟨u, effects⟩, hnext, hdone⟩ := Option.map_eq_some_iff.mp hclient
    obtain ⟨rfl, -⟩ := Prod.mk.inj hdone
    simp only [ClientSystem.step] at hnext
    split at hnext
    next hmessages =>
      obtain ⟨rfl, -⟩ := Prod.mk.inj (Option.some.inj hnext)
      rw [hmessages]
      exact h
    next message messages hmessages =>
      obtain ⟨client, hreceive, hdone⟩ := Option.map_eq_some_iff.mp hnext
      obtain ⟨rfl, -⟩ := Prod.mk.inj hdone
      rw [hmessages]
      exact h.receive horderly hmessages hreceive
  | dialogFinished =>
    obtain ⟨t, hstart, hdone⟩ := Option.map_eq_some_iff.mp hstep
    obtain ⟨rfl, -⟩ := Prod.mk.inj hdone
    obtain ⟨hclient, hinStep⟩ := h.inStep.startVideoGui hstart
    exact tileInvariant_of_client hclient h.list h.accepts h.shown hinStep
  | enableVideoStream width height bitrate =>
    simp only [step] at hstep
    split at hstep
    next hwindow =>
      obtain ⟨rfl, -⟩ := Prod.mk.inj (Option.some.inj hstep)
      exact h.own (view_enableVideoStream (hopened hwindow) width height bitrate)
    next =>
      obtain ⟨rfl, -⟩ := Prod.mk.inj (Option.some.inj hstep)
      exact h
  | disableVideoStream =>
    simp only [step] at hstep
    split at hstep
    next hwindow =>
      obtain ⟨rfl, -⟩ := Prod.mk.inj (Option.some.inj hstep)
      exact h.own (view_disableVideoStream (hopened hwindow))
    next =>
      obtain ⟨rfl, -⟩ := Prod.mk.inj (Option.some.inj hstep)
      exact h
  | moveBackward tile =>
    obtain ⟨rfl, -⟩ := Prod.mk.inj (Option.some.inj hstep)
    exact ⟨h.list, h.accepts, h.shown, h.inStep.click fun d htile => d.tilesMap_onTileMoveBackward htile⟩
  | moveForward tile =>
    obtain ⟨rfl, -⟩ := Prod.mk.inj (Option.some.inj hstep)
    exact ⟨h.list, h.accepts, h.shown, h.inStep.click fun d htile => d.tilesMap_onTileMoveForward htile⟩

end ViewerSystem

end Ts3Video
