import Ts3Video.Client.WireRefinement
import Ts3Video.Qt.CompactJson

/-!
# Runs on the wire

A run on the wire is a run of messages, so what is proved of every run of messages holds on the wire as well:
once nothing is on its way to a client any longer, it lists the members of its channel.
-/

namespace Ts3Video

open Std QCorConnection Session SessionEnd NetworkClient

namespace Wire

/-- The bytes of a document, for texts whose characters are bytes. -/
def compactBytes (document : QJsonObject) : List UInt8 :=
  (QJsonValue.object document).toCompact.map fun c => UInt8.ofNat c.toNat

/-- Compact JSON, for a conversation in which only these documents are sent. -/
def compact (documents : List QJsonObject) : Wire where
  toJson := compactBytes
  fromJson bytes := (documents.find? fun document => compactBytes document = bytes).map .object

instance decidableFits (wire : Wire) (document : QJsonObject) : Decidable (wire.Fits document) :=
  decidable_of_iff (wire.fromJson (wire.toJson document) = some (.object document) ∧
      wire.toJson document ≠ [] ∧ (wire.toJson document).length < 2 ^ 31)
    ⟨fun h => ⟨h.1, h.2.1, h.2.2⟩, fun h => ⟨h.readBack, h.nonempty, h.short⟩⟩

end Wire

namespace ClientSystem

variable {fromUtf8 : List UInt8 → String} {opts : VirtualServerOptions} {bans : ExtTreeSet String}
  {ch a : ℤ} {s s' : ClientSystem}

/-- Orderly joins and receipts keep what the list of the client needs. -/
theorem ListInvariant.next (h : ListInvariant fromUtf8 opts bans ch a s) {e : Event} {out : List Effect}
    (hjoins : JoinsOnly ch a s e) (horderly : Orderly ch a s e)
    (hstep : step fromUtf8 a s e = some (s', out)) : ListInvariant fromUtf8 opts bans ch a s' := by
  cases change_of_step hstep with
  | server hserver => exact h.server hjoins horderly hserver
  | receive hmessages hreceive => exact h.receive horderly hmessages hreceive
  | own client hids hsocket =>
    have hreplica := h.replica
    rw [← hids] at hreplica
    exact ⟨h.reachable, hreplica, h.lost⟩

end ClientSystem

namespace WiredSystem

variable {wire : Wire} {fromUtf8 : List UInt8 → String} {opts : VirtualServerOptions}
  {bans : ExtTreeSet String} {ch a : ℤ} {s : WiredSystem}

/-- Nothing is on its way to the client, and it has been told of everything. -/
structure Idle (s : WiredSystem) : Prop where
  idle : ¬ s.session.Busy .client
  told : s.handled .client = (s.session .client).d.delivered.length

/-- Whether the client has been told of everything is seen at once. -/
instance decidableIdle (s : WiredSystem) : Decidable s.Idle :=
  decidable_of_iff (¬ s.session.Busy .client ∧ s.handled .client = (s.session .client).d.delivered.length)
    ⟨fun h => ⟨h.1, h.2⟩, fun h => ⟨h.idle, h.told⟩⟩

instance decidableFits (wire : Wire) (fromUtf8 : List UInt8 → String) (a : ℤ) (s : WiredSystem) (e : Event) :
    Decidable (Fits wire fromUtf8 a s e) :=
  inferInstanceAs (Decidable (∀ outcome ∈ s.outcome wire fromUtf8 a e,
    (∀ outgoing ∈ outcome.sent, wire.Fits outgoing.document) ∧ _ < _))

/-- The first two clients. -/
def alice : ClientEntity := { id := 1, name := "alice" }

def bob : ClientEntity := { id := 2, name := "bob" }

/-- What a client sends to log in. -/
def authParameters (username : String) : QJsonObject :=
  [("version", .string IFVS_SOFTWARE_VERSION), ("username", .string username)]

/-- What a client sends to join the lobby. -/
def lobbyParameters : QJsonObject := [("identifier", .string "lobby")]

/-- The documents that are sent when the first client joins the lobby before the second one. -/
def lobbyDocuments : List QJsonObject :=
  [JsonProtocolHelper.createJsonRequest "auth" (authParameters "alice"),
    JsonProtocolHelper.createJsonResponse [("client", .object alice.toQJsonObject),
      ("authtoken", .string "1-10:00"),
      ("virtualserverconfig", .object (VirtualServerConfigEntity.toQJsonObject
        { maxVideoResolutionWidth := 1920, maxVideoResolutionHeight := 1080, maxVideoBitrate := 1024 }))],
    JsonProtocolHelper.createJsonRequest "joinchannelbyidentifier" lobbyParameters,
    JsonProtocolHelper.createJsonResponse [("channel", .object (ChannelEntity.toQJsonObject { id := 1 })),
      ("participants", .array [.object alice.toQJsonObject])],
    JsonProtocolHelper.createJsonRequest "notify.clientjoinedchannel"
      [("channel", .object (ChannelEntity.toQJsonObject { id := 1 })),
        ("client", .object bob.toQJsonObject)],
    JsonProtocolHelper.createJsonResponse []]

/-- The first client logs in and joins the lobby over the wire, which delivers the frames in pieces. Then the
second client joins, and the first one is told of it and answers. -/
def joinedOverWire : List Event :=
  [.server (.newConnection "192.0.2.1"), .sendRequest "auth" (authParameters "alice"),
    .transport .client .onCurrentSendItemDone, .transport .server (.onSocketReadyRead [10, 200]),
    .serverReceives, .server (.authenticationFinished 0 true "10:00"),
    .transport .server .onCurrentSendItemDone, .transport .client (.onSocketReadyRead [100, 400]),
    .clientReceives, .sendRequest "joinchannelbyidentifier" lobbyParameters,
    .transport .client .onCurrentSendItemDone, .transport .server (.onSocketReadyRead [200]),
    .serverReceives] ++
  (VirtualServer.Event.logIn 2 "bob" "10:01" ++
    [VirtualServer.Event.request 2 .JoinChannel2Action lobbyParameters]).map .server ++
  [.transport .server .onCurrentSendItemDone, .transport .client (.onSocketReadyRead [7, 400]),
    .clientReceives, .transport .server .onCurrentSendItemDone,
    .transport .client (.onSocketReadyRead [400]), .clientReceives]

/-- The documents of this run can be read. -/
theorem fits_joinedOverWire : Runs.EachStep (step (.compact lobbyDocuments) QString.fromLatin1 1)
    (Fits (.compact lobbyDocuments) QString.fromLatin1 1) (init {} ∅) joinedOverWire := by
  decide +kernel

/-- Every run on the wire whose documents can be read is a run of messages, with the same effects, and it is
defined if and only if that one is. -/
theorem run_of_messages (wire : Wire) (fromUtf8 : List UInt8 → String) (opts : VirtualServerOptions)
    (bans : ExtTreeSet String) (a : ℤ) (events : List Event)
    (hfits : Runs.EachStep (step wire fromUtf8 a) (Fits wire fromUtf8 a) (init opts bans) events) :
    Runs.run (ClientSystem.step fromUtf8 a) (ClientSystem.init opts bans)
        (Simulation.mirrored (step wire fromUtf8 a) (mirror wire a) (init opts bans) events) =
      (Runs.run (step wire fromUtf8 a) (init opts bans) events).map fun done =>
        (done.1.toClientSystem wire, done.2) :=
  (mirrors_clientSystem wire fromUtf8 opts bans a).run (linked_init wire fromUtf8 opts bans a) hfits

/-- The client joins over the wire as it does without it. -/
theorem run_of_messages_joinedOverWire : ∃ s out,
    Runs.run (step (.compact lobbyDocuments) QString.fromLatin1 1) (init {} ∅) joinedOverWire =
        some (s, out) ∧
      Runs.run (ClientSystem.step QString.fromLatin1 1) (ClientSystem.init {} ∅)
          (Simulation.mirrored (step (.compact lobbyDocuments) QString.fromLatin1 1)
            (mirror (.compact lobbyDocuments) 1) (init {} ∅) joinedOverWire) =
        some (s.toClientSystem (.compact lobbyDocuments), out) := by
  have hmessages := run_of_messages (.compact lobbyDocuments) QString.fromLatin1 {} ∅ 1 joinedOverWire
    fits_joinedOverWire
  have hdefined : (Runs.run (step (.compact lobbyDocuments) QString.fromLatin1 1) (init {} ∅)
      joinedOverWire).isSome := by decide +kernel
  obtain ⟨⟨s, out⟩, hrun⟩ := Option.isSome_iff_exists.mp hdefined
  rw [hrun] at hmessages
  exact ⟨s, out, hrun, hmessages⟩

/-- What an event stands for without the wire is of a kind. -/
def Seen (wire : Wire) (a : ℤ) (kind : ClientSystem → ClientSystem.Event → Prop) (s : WiredSystem)
    (e : Event) : Prop :=
  ∀ e' ∈ mirror wire a s e, kind (s.toClientSystem wire) e'

instance decidableSeen (wire : Wire) (a : ℤ) (kind : ClientSystem → ClientSystem.Event → Prop)
    [∀ s e, Decidable (kind s e)] (s : WiredSystem) (e : Event) : Decidable (Seen wire a kind s e) :=
  inferInstanceAs (Decidable (∀ e' ∈ mirror wire a s e, kind (s.toClientSystem wire) e'))

end WiredSystem

end Ts3Video
