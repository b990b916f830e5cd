import Ts3Video.Client.ConferenceWindow
import Ts3Video.Library.KeyedRows

/-!
# What the tiles of a client depend on

The tiles follow the signals, and so does the list of members. They stay in step as long as every signal meets
a list that it fits: nobody is added twice, and video is only turned on by a client that is listed.
-/

namespace Ts3Video

open Std NetworkClient

/-- The ids of the listed clients with who of them sends video, and the id of the own client. Of the own client
itself, the video is left out. -/
structure MemberView where
  rows : List (ℤ × Bool)
  self : ℤ

namespace MemberView

/-- The row of a client. -/
def row (a : ℤ) (client : ClientEntity) : ℤ × Bool :=
  (client.id, client.videoEnabled && decide (client.id ≠ a))

/-- The ids of the rows. -/
def ids (v : MemberView) : List ℤ := v.rows.map Prod.fst

/-- What a signal changes. -/
def handle (a : ℤ) (v : MemberView) : Signal → MemberView
  | .clientEnabledVideo client => { v with rows := KeyedRows.replace Prod.fst (row a client) v.rows }
  | .clientDisabledVideo client => { v with rows := KeyedRows.replace Prod.fst (row a client) v.rows }
  | .clientJoinedChannel client _ => { v with rows := v.rows ++ [row a client] }
  | .clientLeftChannel client _ => { v with rows := KeyedRows.remove Prod.fst client.id v.rows }
  | .clientDisconnected client => { v with rows := KeyedRows.remove Prod.fst client.id v.rows }
  | .authFinished client => { v with self := client.id }
  | .joinChannelFinished participants => { v with rows := v.rows ++ participants.map (row a) }

/-- What a message changes. -/
def update (a : ℤ) (v : MemberView) (message : Message) : MemberView :=
  match message.signal? with
  | none => v
  | some signal => v.handle a signal

/-- The signal fits the list that it meets. -/
def Fits (a : ℤ) (v : MemberView) : Signal → Prop
  | .clientEnabledVideo client => client.id ≠ a ∧ client.id ∈ v.ids ∧ client.videoEnabled = true
  | .clientDisabledVideo client => client.videoEnabled = false
  | .clientJoinedChannel client _ => client.id ∉ v.ids
  | .clientLeftChannel client _ => client.id ≠ a
  | .clientDisconnected client => client.id ≠ a
  | .authFinished client => client.id = a
  | .joinChannelFinished participants => v.rows = [] ∧ v.self = a ∧
      (participants.map ClientEntity.id).Nodup ∧ a ∈ participants.map ClientEntity.id

/-- The message fits the list that it meets. -/
def Accepts (a : ℤ) (v : MemberView) (message : Message) : Prop :=
  ∀ signal, message.signal? = some signal → v.Fits a signal

end MemberView

/-- What the tiles depend on. -/
def NetworkClient.view (a : ℤ) (d : NetworkClient) : MemberView where
  rows := d.clientModel.clients.map (MemberView.row a)
  self := d.clientEntity.id

namespace ClientListModel

variable (d : ClientListModel) (a : ℤ)

/-- An update replaces the row of the client. -/
theorem rows_updateClient (client : ClientEntity) : (d.updateClient client).clients.map (MemberView.row a) =
    KeyedRows.replace Prod.fst (MemberView.row a client) (d.clients.map (MemberView.row a)) := by
  have hreplace : (d.updateClient client).clients = KeyedRows.replace ClientEntity.id client d.clients := by
    rw [KeyedRows.replace_eq_set, updateClient, findIndexOfClient]
    cases d.clients.findIdx? fun other => decide (other.id = client.id) with
    | none => rfl
    | some i => rfl
  rw [hreplace]
  exact KeyedRows.map_replace fun _ => rfl

/-- The row of a client is removed. -/
theorem rows_removeClient (client : ClientEntity) : (d.removeClient client).clients.map (MemberView.row a) =
    KeyedRows.remove Prod.fst client.id (d.clients.map (MemberView.row a)) := by
  have hremove : (d.removeClient client).clients = KeyedRows.remove ClientEntity.id client.id d.clients := by
    rw [KeyedRows.remove, removeClient, List.eraseP_eq_eraseIdx, findIndexOfClient]
    cases d.clients.findIdx? fun other => decide (other.id = client.id) with
    | none => rfl
    | some i => rfl
  rw [hremove]
  exact KeyedRows.map_remove fun _ => rfl

/-- The participants of a channel are added. -/
theorem rows_addClients (participants : List ClientEntity) :
    (participants.foldl addClient d).clients.map (MemberView.row a) =
      d.clients.map (MemberView.row a) ++ participants.map (MemberView.row a) := by
  induction participants generalizing d with
  | nil => exact (List.append_nil _).symm
  | cons client participants ih =>
    rw [List.foldl_cons, ih, addClient, List.map_append, List.append_assoc]
    rfl

end ClientListModel

namespace NetworkClient

variable {a : ℤ} {d d' : NetworkClient}

/-- The rows follow the requests of the server. -/
theorem view_notified {document : QJsonObject} (h : d.receive (.request document) = some d') :
    d'.view a = (d.view a).update a (.request document) := by
  obtain ⟨⟨next, response⟩, hrequest, rfl⟩ := Option.map_eq_some_iff.mp h
  rw [MemberView.update, Message.signal?, emitted?]
  unfold onNewIncomingRequest at hrequest
  cases hread : JsonProtocolHelper.fromJsonRequest (some (.object document)) with
  | none =>
    rw [hread] at hrequest
    obtain ⟨rfl, -⟩ := Prod.mk.inj (Option.some.inj hrequest)
    rfl
  | some request =>
    obtain ⟨action, parameters⟩ := request
    rw [hread] at hrequest
    dsimp only at hrequest ⊢
    split at hrequest
    next haction =>
      subst haction
      obtain ⟨mediaSocket, -, hnext⟩ := Option.map_eq_some_iff.mp hrequest
      obtain ⟨rfl, -⟩ := Prod.mk.inj hnext
      rfl
    split at hrequest
    next haction =>
      obtain ⟨rfl, -⟩ := Prod.mk.inj (Option.some.inj hrequest)
      rcases haction with rfl | rfl
      · exact congrArg (MemberView.mk · _) (d.clientModel.rows_updateClient a _)
      · exact congrArg (MemberView.mk · _) (d.clientModel.rows_updateClient a _)
    next hvideo =>
      obtain ⟨henabled, hdisabled⟩ := not_or.mp hvideo
      rw [if_neg henabled, if_neg hdisabled]
      split at hrequest
      next haction =>
        obtain ⟨rfl, -⟩ := Prod.mk.inj (Option.some.inj hrequest)
        rw [if_pos haction]
        exact congrArg (MemberView.mk · _) List.map_append
      next hjoined =>
        rw [if_neg hjoined]
        split at hrequest
        next haction =>
          obtain ⟨rfl, -⟩ := Prod.mk.inj (Option.some.inj hrequest)
          rcases haction with rfl | rfl
          · exact congrArg (MemberView.mk · _) (d.clientModel.rows_removeClient a _)
          · exact congrArg (MemberView.mk · _) (d.clientModel.rows_removeClient a _)
        next haction =>
          obtain ⟨hleft, hdisconnected⟩ := not_or.mp haction
          obtain ⟨rfl, -⟩ := Prod.mk.inj (Option.some.inj hrequest)
          rw [if_neg hleft, if_neg hdisconnected]

/-- The view follows the messages. -/
theorem view_receive {message : Message} (h : d.receive message = some d') :
    d'.view a = (d.view a).update a message := by
  match message with
  | .request document => exact view_notified h
  | .response .onAuthFinished document =>
    obtain rfl := Option.some.inj h
    rw [onAuthFinished, MemberView.update, Message.signal?, success?]
    cases JsonProtocolHelper.fromJsonResponse (some (.object document)) with
    | none => rfl
    | some response =>
      dsimp only
      split
      · rfl
      · rfl
  | .response .onJoinChannelFinished document =>
    obtain rfl := Option.some.inj h
    rw [onJoinChannelFinished, MemberView.update, Message.signal?, success?]
    cases JsonProtocolHelper.fromJsonResponse (some (.object document)) with
    | none => rfl
    | some response =>
      dsimp only
      split
      · rfl
      · have hrows := (d.clientModel.setChannel (ChannelEntity.fromQJsonObject
          (response.2.1.value "channel").toObject)).rows_addClients a (participants response.2.1)
        rw [participants, List.foldl_map] at hrows
        exact congrArg (MemberView.mk · _) hrows
  | .response .ignored document =>
    obtain rfl := Option.some.inj h
    rfl

end NetworkClient

namespace MemberView

variable {a : ℤ} {v : MemberView} {message : Message}

/-- The ids follow the messages. -/
theorem ids_update : (v.update a message).ids = message.updateIds v.ids := by
  match message with
  | .request document =>
    rw [update, Message.signal?, emitted?, Message.updateIds, notifiedIds]
    cases JsonProtocolHelper.fromJsonRequest (some (.object document)) with
    | none => rfl
    | some request =>
      obtain ⟨action, parameters⟩ := request
      by_cases henabled : action = "notify.clientvideoenabled"
      · subst henabled
        exact KeyedRows.map_key_replace
      by_cases hdisabled : action = "notify.clientvideodisabled"
      · subst hdisabled
        exact KeyedRows.map_key_replace
      by_cases hjoined : action = "notify.clientjoinedchannel"
      · subst hjoined
        exact List.map_append
      by_cases hleft : action = "notify.clientleftchannel"
      · subst hleft
        exact KeyedRows.map_key_remove
      by_cases hdisconnected : action = "notify.clientdisconnected"
      · subst hdisconnected
        exact KeyedRows.map_key_remove
      dsimp only
      rw [if_neg henabled, if_neg hdisabled, if_neg hjoined, if_neg hleft, if_neg hdisconnected,
        if_neg hjoined, if_neg (not_or.mpr ⟨hleft, hdisconnected⟩)]
  | .response .onAuthFinished document =>
    rw [update, Message.signal?, success?]
    cases JsonProtocolHelper.fromJsonResponse (some (.object document)) with
    | none => rfl
    | some response =>
      dsimp only
      by_cases hstatus : response.1 ≠ 0
      · rw [if_pos hstatus]
        rfl
      · rw [if_neg hstatus]
        rfl
  | .response .onJoinChannelFinished document =>
    rw [update, Message.signal?, success?, Message.updateIds, joinedIds]
    cases JsonProtocolHelper.fromJsonResponse (some (.object document)) with
    | none => rfl
    | some response =>
      dsimp only
      by_cases hstatus : response.1 ≠ 0
      · rw [if_pos hstatus, if_pos hstatus]
        rfl
      · rw [if_neg hstatus, if_neg hstatus]
        change (v.rows ++ (participants response.2.1).map (row a)).map Prod.fst = _
        rw [List.map_append, participants, List.map_map, List.map_map]
        rfl
  | .response .ignored document => rfl

/-- The row of a client that is not the own one. -/
theorem row_of_ne {client : ClientEntity} (hne : client.id ≠ a) :
    row a client = (client.id, client.videoEnabled) := by
  rw [row, decide_eq_true hne, Bool.and_true]

/-- The row of a client that sends no video. -/
theorem row_of_disabled {client : ClientEntity} (hvideo : client.videoEnabled = false) :
    row a client = (client.id, false) := by
  rw [row, hvideo, Bool.false_and]

end MemberView

namespace NetworkClient

variable {a : ℤ} {d : NetworkClient}

/-- What the client knows about itself is left out of its rows. -/
theorem rows_updateClient_self {client : ClientEntity} (hself : client.id = a) :
    (d.clientModel.updateClient client).clients.map (MemberView.row a) =
      d.clientModel.clients.map (MemberView.row a) := by
  have hnone : ∀ other : ClientEntity, other.id = a → MemberView.row a other = (a, false) := by
    intro other hother
    rw [MemberView.row, decide_eq_false (not_not.mpr hother), Bool.and_false, hother]
  rw [ClientListModel.rows_updateClient]
  refine KeyedRows.replace_eq_self fun old hold hkey => ?_
  obtain ⟨other, -, rfl⟩ := List.mem_map.mp hold
  rw [hnone client hself, hnone other (hkey.trans hself)]

/-- The tiles do not depend on the own camera. -/
theorem view_enableVideoStream (hself : d.clientEntity.id = a) (width height bitrate : ℤ) :
    (d.enableVideoStream width height bitrate).1.view a = d.view a :=
  congrArg (MemberView.mk · _) (rows_updateClient_self hself)

/-- The tiles do not depend on the own camera. -/
theorem view_disableVideoStream (hself : d.clientEntity.id = a) :
    d.disableVideoStream.1.view a = d.view a :=
  congrArg (MemberView.mk · _) (rows_updateClient_self hself)

end NetworkClient

/-- A new window has tiles for the other listed clients that send video. -/
theorem ConferenceVideoWindow.mem_tilesMap_create (d : NetworkClient) (c : ℤ) :
    c ∈ (create d).view.tilesMap ↔ (c, true) ∈ (d.view d.clientEntity.id).rows := by
  have hfoldl : ∀ (clients : List ClientEntity) (w : ConferenceVideoWindow),
      c ∈ (clients.foldl (fun w client => w.onClientJoinedChannel d client) w).view.tilesMap ↔
        c ∈ w.view.tilesMap ∨ (c, true) ∈ clients.map (MemberView.row d.clientEntity.id) := by
    intro clients
    induction clients with
    | nil => simp
    | cons client clients ih =>
      intro w
      rw [List.foldl_cons, ih, List.map_cons, List.mem_cons, ← or_assoc]
      refine or_congr_left ?_
      rw [onClientJoinedChannel]
      split
      next hne =>
        rw [TileViewWidget.mem_tilesMap_addClient, MemberView.row_of_ne hne, Prod.mk.injEq,
          eq_comm (a := true)]
      next hself => simp [MemberView.row, hself]
  refine (hfoldl _ _).trans (or_iff_right ?_)
  exact ExtTreeMap.not_mem_empty

/-- The tiles are those of the listed clients that send video, and the client has logged in and joined before
its user is asked for anything. -/
structure InStep (a : ℤ) (v : MemberView) (dialogs : ℕ) (window : Option ConferenceVideoWindow) : Prop where
  nodup : v.ids.Nodup
  joined : dialogs ≠ 0 ∨ window ≠ none → a ∈ v.ids ∧ v.self = a
  tiles : ∀ w, window = some w → ∀ c, c ∈ w.view.tilesMap ↔ (c, true) ∈ v.rows

namespace InStep

variable {a : ℤ} {v : MemberView} {s : ViewerSystem}

/-- The window opens with the right tiles. -/
theorem startVideoGui {s' : ViewerSystem} (h : InStep a (s.client.view a) s.dialogs s.window)
    (hstart : s.startVideoGui = some s') :
    s'.toClientSystem = s.toClientSystem ∧ InStep a (s.client.view a) s'.dialogs s'.window := by
  unfold ViewerSystem.startVideoGui at hstart
  split at hstart
  · obtain rfl := Option.some.inj hstart
    exact ⟨rfl, h⟩
  next dialogs hdialogs hwindow =>
    obtain rfl := Option.some.inj hstart
    obtain ⟨hmember, hself⟩ := h.joined (.inl (hdialogs ▸ Nat.succ_ne_zero dialogs))
    refine ⟨rfl, h.nodup, fun _ => ⟨hmember, hself⟩, fun w hw c => ?_⟩
    obtain rfl := Option.some.inj hw
    have hcreate := ConferenceVideoWindow.mem_tilesMap_create s.client c
    rwa [show s.client.clientEntity.id = a from hself] at hcreate
  · contradiction

/-- The window reacts. -/
theorem reacts {v' : MemberView} {dialogs : ℕ} {window : Option ConferenceVideoWindow}
    {react : ConferenceVideoWindow → ConferenceVideoWindow} (h : InStep a v dialogs window)
    (hnodup : v'.ids.Nodup) (hjoined : a ∈ v.ids → v.self = a → a ∈ v'.ids ∧ v'.self = a)
    (htiles : ∀ w, a ∈ v.ids → v.self = a → (∀ c, c ∈ w.view.tilesMap ↔ (c, true) ∈ v.rows) →
      ∀ c, c ∈ (react w).view.tilesMap ↔ (c, true) ∈ v'.rows) :
    InStep a v' dialogs (window.map react) := by
  constructor
  · exact hnodup
  · intro hopen
    have hbefore : dialogs ≠ 0 ∨ window ≠ none := by
      refine hopen.imp_right fun hne hnone => hne ?_
      rw [hnone, Option.map_none]
    obtain ⟨hmember, hself⟩ := h.joined hbefore
    exact hjoined hmember hself
  · intro w hw
    obtain ⟨before, hbefore, rfl⟩ := Option.map_eq_some_iff.mp hw
    obtain ⟨hmember, hself⟩ := h.joined (.inr (hbefore ▸ Option.some_ne_none _))
    exact htiles before hmember hself (h.tiles before hbefore)

/-- A tile that is moved stays. -/
theorem click (h : InStep a v s.dialogs s.window) {tile : TileViewTileFrame}
    {slot : (d : TileViewWidget) → tile ∈ d.tilesLayout → TileViewWidget}
    (hslot : ∀ d htile, (slot d htile).tilesMap = d.tilesMap) :
    InStep a v (s.click tile slot).dialogs (s.click tile slot).window := by
  refine h.reacts h.nodup (fun hmember hself => ⟨hmember, hself⟩) fun w _ _ htiles c => ?_
  rw [← htiles]
  split
  next htile => rw [hslot]
  next => exact Iff.rfl

/-- A client is removed from the list, and its tile from the window. -/
theorem remove {dialogs : ℕ} {window : Option ConferenceVideoWindow} (h : InStep a v dialogs window)
    {client : ClientEntity} (hne : client.id ≠ a) :
    InStep a { v with rows := KeyedRows.remove Prod.fst client.id v.rows } dialogs
      (window.map fun w => { w with view := w.view.removeClient client }) := by
  have hids : MemberView.ids { v with rows := KeyedRows.remove Prod.fst client.id v.rows } =
      v.ids.erase client.id := KeyedRows.map_key_remove
  refine h.reacts (hids ▸ h.nodup.erase _)
    (fun hmember hself => ⟨hids ▸ (List.mem_erase_of_ne (Ne.symm hne)).mpr hmember, hself⟩)
    fun w _ _ htiles c => ?_
  rw [TileViewWidget.mem_tilesMap_removeClient, htiles, KeyedRows.mem_remove h.nodup]

/-- A signal that fits the list keeps the tiles in step. -/
theorem notify {signal : Signal} (h : InStep a v s.dialogs s.window) (hfits : v.Fits a signal)
    (hself : s.client.clientEntity.id = (v.handle a signal).self) :
    InStep a (v.handle a signal) (s.notify (some signal)).dialogs (s.notify (some signal)).window := by
  cases signal with
  | clientEnabledVideo client =>
    obtain ⟨hne, hlisted, hvideo⟩ := hfits
    have hids : (v.handle a (.clientEnabledVideo client)).ids = v.ids := KeyedRows.map_key_replace
    refine h.reacts (hids ▸ h.nodup) (fun hmember hself => ⟨hids ▸ hmember, hself⟩)
      fun w _ _ htiles c => ?_
    change c ∈ (w.view.addClient client).tilesMap ↔ _ ∈ KeyedRows.replace Prod.fst _ _
    rw [TileViewWidget.mem_tilesMap_addClient, htiles, KeyedRows.mem_replace h.nodup,
      MemberView.row_of_ne hne, hvideo]
    by_cases hc : c = client.id
    · exact iff_of_true (.inr ⟨hc, rfl⟩) (.inl ⟨by rw [hc], hlisted⟩)
    · exact ⟨fun hmem => .inr ⟨hmem.resolve_right fun hnew => hc hnew.1, hc⟩,
        fun hmem => .inl (hmem.resolve_left fun hnew => hc (Prod.mk.inj hnew.1).1).1⟩
  | clientDisabledVideo client =>
    have hids : (v.handle a (.clientDisabledVideo client)).ids = v.ids := KeyedRows.map_key_replace
    refine h.reacts (hids ▸ h.nodup) (fun hmember hself => ⟨hids ▸ hmember, hself⟩)
      fun w _ _ htiles c => ?_
    change c ∈ (w.view.removeClient client).tilesMap ↔ _ ∈ KeyedRows.replace Prod.fst _ _
    rw [TileViewWidget.mem_tilesMap_removeClient, htiles, KeyedRows.mem_replace h.nodup,
      MemberView.row_of_disabled hfits]
    exact (or_iff_right fun hnew => absurd (Prod.mk.inj hnew.1).2 (by decide)).symm
  | clientJoinedChannel client channel =>
    have hids : (v.handle a (.clientJoinedChannel client channel)).ids = v.ids ++ [client.id] :=
      List.map_append
    refine h.reacts ?_ (fun hmember hself => ⟨hids ▸ List.mem_append_left _ hmember, hself⟩) ?_
    · rw [hids, ← List.concat_eq_append]
      exact h.nodup.concat hfits
    · intro w hmember hown htiles c
      have hne : client.id ≠ a := fun heq => hfits (heq ▸ hmember)
      have hother : client.id ≠ s.client.clientEntity.id := by
        rw [hself]
        exact hown.symm ▸ hne
      change c ∈ (w.onClientJoinedChannel s.client client).view.tilesMap ↔ _ ∈ v.rows ++ [_]
      rw [ConferenceVideoWindow.onClientJoinedChannel, if_pos hother,
        TileViewWidget.mem_tilesMap_addClient, htiles, List.mem_append, List.mem_singleton,
        MemberView.row_of_ne hne, Prod.mk.injEq, eq_comm (a := true)]
  | clientLeftChannel client channel => exact h.remove hfits
  | clientDisconnected client => exact h.remove hfits
  | authFinished client =>
    exact h.reacts h.nodup (fun hmember _ => ⟨hmember, hfits⟩) fun w _ _ htiles => htiles
  | joinChannelFinished participants =>
    obtain ⟨hrows, hown, hnodup, hmember⟩ := hfits
    have hwindow : s.window = none := by
      by_contra hne
      have hlisted := (h.joined (.inr hne)).1
      rw [MemberView.ids, hrows] at hlisted
      exact absurd hlisted List.not_mem_nil
    have hids : (v.handle a (.joinChannelFinished participants)).ids = participants.map ClientEntity.id := by
      change (v.rows ++ participants.map (MemberView.row a)).map Prod.fst = _
      rw [hrows, List.nil_append, List.map_map]
      rfl
    refine ⟨hids ▸ hnodup, fun _ => ⟨hids ▸ hmember, hown⟩, fun w hw => ?_⟩
    change s.window.map _ = some w at hw
    rw [hwindow] at hw
    contradiction

/-- A message that fits the list keeps the tiles in step. -/
theorem receive {message : Message} (h : InStep a v s.dialogs s.window) (haccepts : v.Accepts a message)
    (hself : s.client.clientEntity.id = (v.update a message).self) :
    InStep a (v.update a message) (s.notify message.signal?).dialogs (s.notify message.signal?).window := by
  unfold MemberView.update at hself ⊢
  cases hsignal : message.signal? with
  | none => exact h
  | some signal =>
    rw [hsignal] at hself
    exact h.notify (haccepts signal hsignal) hself

end InStep

end Ts3Video
