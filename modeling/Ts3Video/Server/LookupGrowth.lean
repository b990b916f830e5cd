import Ts3Video.Library.Runs
import Ts3Video.Qt.Text
import Ts3Video.Server.MediaSocketHandler

/-!
# How datagrams grow the table of recipients

The handler looks entries up in a way that creates the missing ones. Between two exchanges of the table
it stays as it was installed exactly if each datagram only looks up entries that were installed.
-/

namespace Ts3Video

open Std MediaSocketHandler MediaRecipients

/-- A pending datagram, with the address and the port that it came from. -/
structure ReceivedDatagram where
  datagram : List UInt8
  senderAddress : QHostAddress
  senderPort : UInt16

/-- The keys under which the table of recipients has entries. -/
inductive RecipientKey where
  | sender (address : QHostAddress) (port : UInt16)
  | receiver (clientId : ℤ)
deriving DecidableEq

/-- The key that a datagram looks up in the table, if it looks one up. -/
def ReceivedDatagram.key? (dg : ReceivedDatagram) : Option RecipientKey :=
  match parse (dg.datagram.take bufferSize) with
  | .invalid => none
  | .authenticate _ => none
  | .relay => some (.sender dg.senderAddress dg.senderPort)
  | .recover sender => some (.receiver sender)

namespace MediaRecipients

/-- The table has an entry under the key. -/
def Stores (recips : MediaRecipients) : RecipientKey → Prop
  | .sender address port => (recips.sender? address port).isSome
  | .receiver clientId => recips.clientid2receiver[clientId]?.isSome

instance (recips : MediaRecipients) : ∀ key, Decidable (recips.Stores key)
  | .sender address port => inferInstanceAs (Decidable (recips.sender? address port).isSome)
  | .receiver clientId => inferInstanceAs (Decidable recips.clientid2receiver[clientId]?.isSome)

/-- What a lookup leaves behind. A missing entry is created as an empty one. -/
def touch (recips : MediaRecipients) : RecipientKey → MediaRecipients
  | .sender address port =>
    recips.insertSender address port ((recips.sender? address port).getD {})
  | .receiver clientId =>
    recips.insertReceiver clientId ((recips.clientid2receiver[clientId]?).getD {})

/-- A lookup adds the entry that it looks for and no other, and removes none. -/
theorem stores_touch_iff {recips : MediaRecipients} {key key' : RecipientKey} :
    (recips.touch key').Stores key ↔ recips.Stores key ∨ key' = key := by
  cases key' with
  | sender address' port' =>
    cases key with
    | sender address port =>
      rw [touch, Stores, sender?_insertSender, RecipientKey.sender.injEq, Stores]
      split
      next hat => exact ⟨fun _ => .inr hat, fun _ => rfl⟩
      next hother => exact ⟨.inl, fun h => h.resolve_right hother⟩
    | receiver clientId => exact ⟨.inl, fun h => h.resolve_right RecipientKey.noConfusion⟩
  | receiver clientId' =>
    cases key with
    | sender address port => exact ⟨.inl, fun h => h.resolve_right RecipientKey.noConfusion⟩
    | receiver clientId =>
      rw [touch, Stores, getElem?_insertReceiver, RecipientKey.receiver.injEq, Stores]
      split
      next hat => exact ⟨fun _ => .inr hat, fun _ => rfl⟩
      next hother => exact ⟨.inl, fun h => h.resolve_right hother⟩

/-- The lookup of an entry that is there changes nothing. -/
theorem Stores.touch_eq_self {recips : MediaRecipients} {key : RecipientKey}
    (h : recips.Stores key) : recips.touch key = recips := by
  cases key with
  | sender address port =>
    obtain ⟨sender, hsender⟩ := Option.isSome_iff_exists.mp h
    rw [MediaRecipients.touch, hsender, Option.getD_some, insertSender_of_sender? hsender]
  | receiver clientId =>
    obtain ⟨receiver, hreceiver⟩ := Option.isSome_iff_exists.mp h
    rw [MediaRecipients.touch, hreceiver, Option.getD_some, insertReceiver_of_getElem? hreceiver]

end MediaRecipients

namespace MediaSocketHandler

/-- The loop of `onReadyRead` over the pending datagrams. -/
def onReadyReads (fromUtf8 : List UInt8 → String) (recips : MediaRecipients) :
    List ReceivedDatagram → MediaRecipients × List Output
  | [] => (recips, [])
  | dg :: pending =>
    let first := onReadyRead fromUtf8 recips dg.datagram dg.senderAddress dg.senderPort
    let rest := onReadyReads fromUtf8 first.1 pending
    (rest.1, first.2 ++ rest.2)

/-- A datagram changes the table by its lookup alone. -/
theorem onReadyRead_recipients (fromUtf8 : List UInt8 → String) (recips : MediaRecipients)
    (dg : ReceivedDatagram) :
    (onReadyRead fromUtf8 recips dg.datagram dg.senderAddress dg.senderPort).1 =
      dg.key?.toList.foldl MediaRecipients.touch recips := by
  unfold onReadyRead ReceivedDatagram.key?
  dsimp only
  cases parse (dg.datagram.take bufferSize) with
  | invalid => rfl
  | authenticate token => rfl
  | relay => rfl
  | recover sender => rfl

/-- The datagrams change the table by their lookups alone. -/
theorem onReadyReads_recipients (fromUtf8 : List UInt8 → String) (recips : MediaRecipients)
    (pending : List ReceivedDatagram) :
    (onReadyReads fromUtf8 recips pending).1 =
      (pending.flatMap fun dg => dg.key?.toList).foldl MediaRecipients.touch recips := by
  induction pending generalizing recips with
  | nil => rfl
  | cons dg pending ih =>
    rw [List.flatMap_cons, List.foldl_append, ← onReadyRead_recipients fromUtf8]
    exact ih _

/-- The table has grown by the entries that the datagrams have looked up. -/
theorem onReadyReads_stores_iff (fromUtf8 : List UInt8 → String) (recips : MediaRecipients)
    (pending : List ReceivedDatagram) (key : RecipientKey) :
    (onReadyReads fromUtf8 recips pending).1.Stores key ↔
      recips.Stores key ∨ ∃ dg ∈ pending, dg.key? = some key := by
  induction pending generalizing recips with
  | nil => exact ⟨.inl, fun h => h.resolve_right fun ⟨_, hnil, _⟩ => List.not_mem_nil hnil⟩
  | cons dg pending ih =>
    rw [onReadyReads, ih, onReadyRead_recipients, List.exists_mem_cons_iff, ← or_assoc]
    refine or_congr_left ?_
    cases dg.key? with
    | none => exact ⟨.inl, fun h => h.resolve_right (Option.some_ne_none key).symm⟩
    | some first =>
      rw [Option.some.injEq]
      exact stores_touch_iff

/-- Datagrams leave the table as it was installed exactly if each one looks up an installed entry or
none. -/
theorem onReadyReads_unchanged_iff (fromUtf8 : List UInt8 → String) (recips : MediaRecipients)
    (pending : List ReceivedDatagram) :
    (onReadyReads fromUtf8 recips pending).1 = recips ↔
      ∀ dg ∈ pending, ∀ key ∈ dg.key?, recips.Stores key := by
  rw [onReadyReads_recipients, Runs.foldl_eq_self_iff (fun _ _ => stores_touch_iff.mpr (.inr rfl))
    (fun _ _ _ h => stores_touch_iff.mpr (.inl h)) (fun _ _ h => h.touch_eq_self)]
  constructor
  · intro hall dg hdg key hkey
    exact hall key (List.mem_flatMap.mpr ⟨dg, hdg, Option.mem_toList.mpr hkey⟩)
  · intro hall key hkey
    obtain ⟨dg, hdg, hmem⟩ := List.mem_flatMap.mp hkey
    exact hall dg hdg key (Option.mem_toList.mp hmem)

/-- A relay datagram of an unknown peer leaves an entry behind. -/
theorem onReadyReads_grows : ¬ ∀ (fromUtf8 : List UInt8 → String) (recips : MediaRecipients)
    (pending : List ReceivedDatagram), (onReadyReads fromUtf8 recips pending).1 = recips := by
  intro hall
  have hsame := hall QString.fromLatin1 {}
    [⟨[Datagram.MAGIC, VideoFrameDatagram.TYPE], "203.0.113.9", 4000⟩]
  have hstores : ({} : MediaRecipients).Stores (.sender "203.0.113.9" 4000) := by
    rw [← hsame]
    exact (onReadyReads_stores_iff _ _ _ _).mpr (.inr ⟨_, List.mem_singleton_self _, rfl⟩)
  exact absurd hstores (by decide)

end MediaSocketHandler

end Ts3Video
