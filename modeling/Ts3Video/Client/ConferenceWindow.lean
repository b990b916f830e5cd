import Mathlib.Data.List.InsertIdx
import Ts3Video.Client.ClientSystem
import Ts3Video.Library.Table

/-!
# The window of a conference

When the client has joined its channel, its user is asked for the video settings, and then a window opens. It
has a tile for each other member that sends video, which comes and goes with what the client is told.
-/

namespace Ts3Video

open Std NetworkClient

namespace NetworkClient

/-- What the client tells others when a message arrives: a signal, or the success of its own request. -/
inductive Signal where
  | clientEnabledVideo (client : ClientEntity)
  | clientDisabledVideo (client : ClientEntity)
  | clientJoinedChannel (client : ClientEntity) (channel : ChannelEntity)
  | clientLeftChannel (client : ClientEntity) (channel : ChannelEntity)
  | clientDisconnected (client : ClientEntity)
  | authFinished (client : ClientEntity)
  | joinChannelFinished (participants : List ClientEntity)

/-- The signal of a request of the server. -/
def emitted? (document : Option QJsonValue) : Option Signal :=
  match JsonProtocolHelper.fromJsonRequest document with
  | none => none
  | some (action, parameters) =>
    let client := notifiedClient parameters
    let channel := ChannelEntity.fromQJsonObject (parameters.value "channel").toObject
    if action = "notify.clientvideoenabled" then some (.clientEnabledVideo client)
    else if action = "notify.clientvideodisabled" then some (.clientDisabledVideo client)
    else if action = "notify.clientjoinedchannel" then some (.clientJoinedChannel client channel)
    else if action = "notify.clientleftchannel" then some (.clientLeftChannel client channel)
    else if action = "notify.clientdisconnected" then some (.clientDisconnected client)
    else none

/-- The data of a response that reports success. -/
def success? (document : QJsonObject) : Option QJsonObject :=
  match JsonProtocolHelper.fromJsonResponse (some (.object document)) with
  | none => none
  | some (status, params, _) => if status ≠ 0 then none else some params

/-- The clients that the answer to a join request lists. -/
def participants (params : QJsonObject) : List ClientEntity :=
  (params.value "participants").toArray.map fun v => ClientEntity.fromQJsonObject v.toObject

/-- The signal of a message. -/
def Message.signal? : Message → Option Signal
  | .request document => emitted? (some (.object document))
  | .response .onAuthFinished document => (success? document).map fun params =>
    .authFinished (ClientEntity.fromQJsonObject (params.value "client").toObject)
  | .response .onJoinChannelFinished document => (success? document).map fun params =>
    .joinChannelFinished (participants params)
  | .response .ignored _ => none

end NetworkClient

/-- The tiles of the view: the picture of the own camera, and those of other clients. -/
inductive TileViewTileFrame where
  | camera
  | client (id : ℤ)
deriving DecidableEq

/-- The tiles of clients under their ids, and the order in which all tiles are laid out. Each tile is laid out
once. -/
structure TileViewWidget where
  tilesMap : ExtTreeMap ℤ ClientEntity := ∅
  tilesLayout : List TileViewTileFrame := [.camera]
  nodup : tilesLayout.Nodup
  camera : .camera ∈ tilesLayout
  client : ∀ id, .client id ∈ tilesLayout ↔ id ∈ tilesMap

namespace TileViewWidget

/-- In the beginning, there is only the tile of the camera. -/
def create : TileViewWidget where
  nodup := List.nodup_singleton _
  camera := List.mem_singleton_self _
  client id := iff_of_false (by simp) ExtTreeMap.not_mem_empty

/-- Add a tile for a client that sends video and has none. -/
def addClient (d : TileViewWidget) (client : ClientEntity) : TileViewWidget :=
  if h : client.videoEnabled = true ∧ client.id ∉ d.tilesMap then
    { tilesMap := d.tilesMap.insert client.id client
      tilesLayout := d.tilesLayout ++ [.client client.id]
      nodup := by
        rw [← List.concat_eq_append]
        exact d.nodup.concat (mt (d.client client.id).mp h.2)
      camera := List.mem_append_left _ d.camera
      client := by
        intro id
        rw [List.mem_append, d.client, ExtTreeMap.mem_insert, Std.compare_eq_iff_eq, or_comm]
        simp [eq_comm] }
  else d

/-- Remove the tile of a client, if it has one. -/
def removeClient (d : TileViewWidget) (client : ClientEntity) : TileViewWidget :=
  if client.id ∉ d.tilesMap then d
  else
    { tilesMap := d.tilesMap.erase client.id
      tilesLayout := d.tilesLayout.erase (.client client.id)
      nodup := d.nodup.erase _
      camera := (List.mem_erase_of_ne (by simp)).mpr d.camera
      client := by
        intro id
        rw [d.nodup.mem_erase_iff, d.client, ExtTreeMap.mem_erase, ne_eq, ne_eq, Std.compare_eq_iff_eq,
          TileViewTileFrame.client.injEq, eq_comm] }

/-- The index of a tile, and -1 if it is not laid out. -/
def indexOf (layout : List TileViewTileFrame) (tile : TileViewTileFrame) : ℤ :=
  match layout.idxOf? tile with
  | some i => i
  | none => -1

/-- Lay out a tile at an index, at the end if the index is too large, and nowhere if it is negative. -/
def insertWidget (layout : List TileViewTileFrame) (index : ℤ) (tile : TileViewTileFrame) :
    List TileViewTileFrame :=
  if index > layout.length then layout ++ [tile]
  else if index ≥ 0 then layout.insertIdx index.toNat tile
  else layout

/-- A tile that is taken out and laid out again. -/
def move (d : TileViewWidget) (tile : TileViewTileFrame) (index : ℕ) (htile : tile ∈ d.tilesLayout) :
    TileViewWidget :=
  have hperm : (insertWidget (d.tilesLayout.erase tile) index tile).Perm d.tilesLayout := by
    refine List.Perm.trans ?_ (List.perm_cons_erase htile).symm
    unfold insertWidget
    split
    · exact List.perm_append_singleton _ _
    next hle =>
      rw [if_pos (Int.natCast_nonneg index), Int.toNat_natCast]
      exact List.perm_insertIdx _ _ (by omega)
  { tilesMap := d.tilesMap
    tilesLayout := insertWidget (d.tilesLayout.erase tile) index tile
    nodup := hperm.nodup_iff.mpr d.nodup
    camera := hperm.mem_iff.mpr d.camera
    client := fun id => hperm.mem_iff.trans (d.client id) }

/-- The button of a tile that moves it backward. -/
def onTileMoveBackward (d : TileViewWidget) (tile : TileViewTileFrame) (htile : tile ∈ d.tilesLayout) :
    TileViewWidget :=
  let index := indexOf d.tilesLayout tile
  if index > 0 then d.move tile (index - 1).toNat htile else d

/-- The button of a tile that moves it forward. -/
def onTileMoveForward (d : TileViewWidget) (tile : TileViewTileFrame) (htile : tile ∈ d.tilesLayout) :
    TileViewWidget :=
  let index := indexOf d.tilesLayout tile
  if index < d.tilesLayout.length - 1 then d.move tile (index + 1).toNat htile else d

/-- The tiles after a client has been added. -/
theorem mem_tilesMap_addClient (d : TileViewWidget) (client : ClientEntity) (c : ℤ) :
    c ∈ (d.addClient client).tilesMap ↔
      c ∈ d.tilesMap ∨ c = client.id ∧ client.videoEnabled = true := by
  unfold addClient
  split
  next h =>
    rw [ExtTreeMap.mem_insert, Std.compare_eq_iff_eq, or_comm, eq_comm, and_iff_left h.1]
  next h =>
    refine (or_iff_left_of_imp ?_).symm
    rintro ⟨rfl, hvideo⟩
    by_contra hnone
    exact h ⟨hvideo, hnone⟩

/-- The tiles after a client has been removed. -/
theorem mem_tilesMap_removeClient (d : TileViewWidget) (client : ClientEntity) (c : ℤ) :
    c ∈ (d.removeClient client).tilesMap ↔ c ∈ d.tilesMap ∧ c ≠ client.id := by
  unfold removeClient
  split
  next hnone =>
    refine (and_iff_left_of_imp ?_).symm
    rintro hmem rfl
    exact hnone hmem
  next =>
    rw [ExtTreeMap.mem_erase, ne_eq, Std.compare_eq_iff_eq, and_comm, ne_comm]

/-- A tile that moves backward stays the tile of its client. -/
@[simp] theorem tilesMap_onTileMoveBackward (d : TileViewWidget) {tile : TileViewTileFrame}
    (htile : tile ∈ d.tilesLayout) : (d.onTileMoveBackward tile htile).tilesMap = d.tilesMap := by
  unfold onTileMoveBackward
  dsimp only
  split
  · rfl
  · rfl

/-- A tile that moves forward stays the tile of its client. -/
@[simp] theorem tilesMap_onTileMoveForward (d : TileViewWidget) {tile : TileViewTileFrame}
    (htile : tile ∈ d.tilesLayout) : (d.onTileMoveForward tile htile).tilesMap = d.tilesMap := by
  unfold onTileMoveForward
  dsimp only
  split
  · rfl
  · rfl

end TileViewWidget

/-- The window of a conference. -/
structure ConferenceVideoWindow where
  view : TileViewWidget

namespace ConferenceVideoWindow

/-- A client has joined: the own client gets no tile. -/
def onClientJoinedChannel (w : ConferenceVideoWindow) (networkClient : NetworkClient)
    (client : ClientEntity) : ConferenceVideoWindow :=
  if client.id ≠ networkClient.clientEntity.id then { w with view := w.view.addClient client } else w

/-- A client has left the channel. -/
def onClientLeftChannel (w : ConferenceVideoWindow) (client : ClientEntity) : ConferenceVideoWindow :=
  { w with view := w.view.removeClient client }

/-- A client has disconnected. -/
def onClientDisconnected (w : ConferenceVideoWindow) (client : ClientEntity) : ConferenceVideoWindow :=
  { w with view := w.view.removeClient client }

/-- A client sends video now, which its view is told itself. -/
def onClientEnabledVideo (w : ConferenceVideoWindow) (client : ClientEntity) : ConferenceVideoWindow :=
  { w with view := w.view.addClient client }

/-- A client does not send video any longer, which its view is told itself. -/
def onClientDisabledVideo (w : ConferenceVideoWindow) (client : ClientEntity) : ConferenceVideoWindow :=
  { w with view := w.view.removeClient client }

/-- The slots that signals are connected to. -/
def react (w : ConferenceVideoWindow) (networkClient : NetworkClient) : Signal → ConferenceVideoWindow
  | .clientEnabledVideo client => w.onClientEnabledVideo client
  | .clientDisabledVideo client => w.onClientDisabledVideo client
  | .clientJoinedChannel client _ => w.onClientJoinedChannel networkClient client
  | .clientLeftChannel client _ => w.onClientLeftChannel client
  | .clientDisconnected client => w.onClientDisconnected client
  | .authFinished _ => w
  | .joinChannelFinished _ => w

/-- A new window has tiles for the clients that are listed. -/
def create (networkClient : NetworkClient) : ConferenceVideoWindow :=
  networkClient.clientModel.clients.foldl (fun w client => w.onClientJoinedChannel networkClient client)
    { view := .create }

end ConferenceVideoWindow

/-- A client and the server, the dialogs for the video settings that are open on the side of the client, and
its window. -/
structure ViewerSystem extends ClientSystem where
  dialogs : ℕ := 0
  window : Option ConferenceVideoWindow := none

namespace ViewerSystem

/-- What happens to the server or on the side of the client. -/
inductive Event where
  | server (event : VirtualServer.Event)
  | receive
  | dialogFinished
  | enableVideoStream (width height bitrate : ℤ)
  | disableVideoStream
  | moveBackward (tile : TileViewTileFrame)
  | moveForward (tile : TileViewTileFrame)

/-- The server has just been started. -/
def init (opts : VirtualServerOptions) (bans : ExtTreeSet String) : ViewerSystem where
  toClientSystem := ClientSystem.init opts bans

/-- An event of the client or the server that no window notices. -/
def stepClientSystem (fromUtf8 : List UInt8 → String) (a : ℤ) (s : ViewerSystem) (e : ClientSystem.Event) :
    Option (ViewerSystem × List Effect) :=
  (s.toClientSystem.step fromUtf8 a e).map fun done => ({ s with toClientSystem := done.1 }, done.2)

/-- The client has handled the message of a signal: the startup logic asks for the video settings when the
channel has been joined, and the window reacts. -/
def notify (s : ViewerSystem) : Option Signal → ViewerSystem
  | none => s
  | some (.joinChannelFinished participants) =>
    { s with
      dialogs := s.dialogs + 1
      window := s.window.map fun w => w.react s.client (.joinChannelFinished participants) }
  | some signal => { s with window := s.window.map fun w => w.react s.client signal }

/-- A dialog for the video settings is closed, and the window opens. When it is open already, the startup
logic has let go of its client, and the null pointer is dereferenced. -/
def startVideoGui (s : ViewerSystem) : Option ViewerSystem :=
  match s.dialogs, s.window with
  | 0, _ => some s
  | dialogs + 1, none => some { s with dialogs, window := some (.create s.client) }
  | _ + 1, some _ => none

/-- The button of a tile is clicked. -/
def click (s : ViewerSystem) (tile : TileViewTileFrame)
    (slot : (d : TileViewWidget) → tile ∈ d.tilesLayout → TileViewWidget) : ViewerSystem :=
  { s with
    window := s.window.map fun w =>
      if htile : tile ∈ w.view.tilesLayout then { w with view := slot w.view htile } else w }

/-- Process one event. `none` is a dereference of the null pointer. The buttons for the camera are in the
window. -/
def step (fromUtf8 : List UInt8 → String) (a : ℤ) (s : ViewerSystem) :
    Event → Option (ViewerSystem × List Effect)
  | .server event => s.stepClientSystem fromUtf8 a (.server event)
  | .receive => (s.stepClientSystem fromUtf8 a .receive).map fun done =>
      (done.1.notify (s.messages.head?.bind Message.signal?), done.2)
  | .dialogFinished => s.startVideoGui.map fun s' => (s', [])
  | .enableVideoStream width height bitrate =>
    if s.window.isSome then s.stepClientSystem fromUtf8 a (.enableVideoStream width height bitrate)
    else some (s, [])
  | .disableVideoStream =>
    if s.window.isSome then s.stepClientSystem fromUtf8 a .disableVideoStream else some (s, [])
  | .moveBackward tile => some (s.click tile fun d htile => d.onTileMoveBackward tile htile, [])
  | .moveForward tile => some (s.click tile fun d htile => d.onTileMoveForward tile htile, [])

end ViewerSystem

end Ts3Video
