import Mathlib.Data.List.Nodup
import Ts3Video.Server.Tables

/-!
# The computed table of recipients

The table has an entry for each address that a sending client uses. The receivers of an entry are
the visible siblings and then the direct receivers of its client.
-/

namespace Ts3Video.VirtualServer

open Std

variable {s : VirtualServer}

/-- The client has an entry as a sender. -/
def IsSender (client : ServerClientEntity) : Prop :=
  client.hasMedia = true ∧ client.isSending = true

instance (client : ServerClientEntity) : Decidable (IsSender client) :=
  inferInstanceAs (Decidable (_ ∧ _))

/-- Inserting the elements of a list that meet a condition. -/
theorem mem_foldl_insert {p : ℤ → Prop} [DecidablePred p] (xs : List ℤ) (set : ExtTreeSet ℤ) (a : ℤ) :
    a ∈ xs.foldl (fun set x => if p x then set else set.insert x) set ↔
      (a ∈ xs ∧ ¬ p a) ∨ a ∈ set := by
  induction xs generalizing set with
  | nil => simp
  | cons x xs ih =>
    rw [List.foldl_cons, ih, List.mem_cons]
    split
    next hx =>
      constructor
      · rintro (⟨hmem, hp⟩ | hset)
        · exact .inl ⟨.inr hmem, hp⟩
        · exact .inr hset
      · rintro (⟨rfl | hmem, hp⟩ | hset)
        · exact absurd hx hp
        · exact .inl ⟨hmem, hp⟩
        · exact .inr hset
    next hx =>
      rw [ExtTreeSet.mem_insert, Std.compare_eq_iff_eq]
      constructor
      · rintro (⟨hmem, hp⟩ | rfl | hset)
        · exact .inl ⟨.inr hmem, hp⟩
        · exact .inl ⟨.inl rfl, hx⟩
        · exact .inr hset
      · rintro (⟨rfl | hmem, hp⟩ | hset)
        · exact .inr (.inl rfl)
        · exact .inl ⟨hmem, hp⟩
        · exact .inr (.inr hset)

/-- The siblings of a client are the members of its channels, filtered by visibility on demand. -/
theorem mem_getSiblingClientIds {c r : ℤ} {filterByVisibilityLevel : Bool} :
    r ∈ s.getSiblingClientIds c filterByVisibilityLevel ↔
      (∃ ch, SetMap.Rel s.client2channels c ch ∧ SetMap.Rel s.participants ch r) ∧
        (filterByVisibilityLevel = true → s.isVisible c r = true) := by
  have houter : ∀ (channelIds : List ℤ) (set : ExtTreeSet ℤ),
      r ∈ channelIds.foldl (fun clientIds channelId =>
        (SetMap.value s.participants channelId).toList.foldl (fun clientIds participantId =>
          if filterByVisibilityLevel ∧ ¬ s.isVisible c participantId then clientIds
          else clientIds.insert participantId) clientIds) set ↔
        ((∃ ch ∈ channelIds, SetMap.Rel s.participants ch r) ∧
          ¬(filterByVisibilityLevel ∧ ¬ s.isVisible c r)) ∨ r ∈ set := by
    intro channelIds
    induction channelIds with
    | nil => simp
    | cons ch channelIds ih =>
      intro set
      rw [List.foldl_cons, ih, mem_foldl_insert, ExtTreeSet.mem_toList, List.exists_mem_cons_iff,
        or_and_right, ← or_assoc, or_comm (a := _ ∧ _) (b := r ∈ _ ∧ _)]
      rfl
  rw [getSiblingClientIds, ExtTreeSet.mem_toList, siblingClientIds, houter]
  simp only [ExtTreeSet.mem_toList, ExtTreeSet.not_mem_empty, or_false, not_and, Decidable.not_not]
  rfl

/-- Siblings are listed once. -/
theorem nodup_getSiblingClientIds (c : ℤ) (filterByVisibilityLevel : Bool) :
    (s.getSiblingClientIds c filterByVisibilityLevel).Nodup :=
  SetMap.nodup_toList _

/-- A client sees the siblings that it is allowed to see. -/
theorem mem_getSiblingClientIds_iff {c r : ℤ} {client other : ServerClientEntity}
    (hclient : s.clients[c]? = some client) (hother : s.clients[r]? = some other) :
    r ∈ s.getSiblingClientIds c true ↔
      (∃ ch, SetMap.Rel s.client2channels c ch ∧ SetMap.Rel s.participants ch r) ∧
        client.isAllowedToSee other = true := by
  rw [mem_getSiblingClientIds, isVisible, hclient, hother]
  simp only [forall_const]

/-- A receiver is another client with media. -/
theorem receiverFor_eq_some {client : ServerClientEntity} {r : ℤ} {receiver : MediaReceiverEntity} :
    s.receiverFor client r = some receiver ↔
      ∃ other, s.clients[r]? = some other ∧ other.hasMedia = true ∧ other.id ≠ client.id ∧
        other.toReceiver = receiver := by
  unfold receiverFor
  cases s.clients[r]? with
  | none => simp
  | some other => simp

/-- The receiver entries of two clients differ. -/
theorem receiverFor_injective (hkeyed : s.Keyed) {client : ServerClientEntity} {r r' : ℤ}
    {receiver : MediaReceiverEntity} (h : s.receiverFor client r = some receiver)
    (h' : s.receiverFor client r' = some receiver) : r = r' := by
  obtain ⟨other, hother, -, -, rfl⟩ := receiverFor_eq_some.mp h
  obtain ⟨other', hother', -, -, hreceiver⟩ := receiverFor_eq_some.mp h'
  rw [← hkeyed.client hother, ← hkeyed.client hother']
  exact (congrArg MediaReceiverEntity.clientId hreceiver).symm

/-- The entry of a client is among those of a list exactly if the client is in the list. -/
theorem mem_filterMap_receiverFor (hkeyed : s.Keyed) {client : ServerClientEntity} {r : ℤ}
    {receiver : MediaReceiverEntity} (hreceiver : s.receiverFor client r = some receiver)
    (clientIds : List ℤ) : receiver ∈ clientIds.filterMap (s.receiverFor client) ↔ r ∈ clientIds := by
  rw [List.mem_filterMap]
  constructor
  · rintro ⟨r', hmem, hreceiver'⟩
    obtain rfl := receiverFor_injective hkeyed hreceiver hreceiver'
    exact hmem
  · intro hmem
    exact ⟨r, hmem, hreceiver⟩

/-- The receivers of a sender are its visible siblings and its direct receivers. -/
theorem mem_receivers {client : ServerClientEntity} {receiver : MediaReceiverEntity} :
    receiver ∈ (s.toSender client).receivers ↔
      ∃ r, (r ∈ s.getSiblingClientIds client.id true ∨
        SetMap.Rel s.sender2receiver client.id r) ∧ s.receiverFor client r = some receiver := by
  simp only [toSender, List.mem_append, List.mem_filterMap, ExtTreeSet.mem_toList, SetMap.Rel,
    or_and_right, exists_or]

/-- The receivers of a sender are listed once unless one is a visible sibling and a direct receiver
at the same time. -/
theorem nodup_receivers_iff (hkeyed : s.Keyed) {client : ServerClientEntity} :
    (s.toSender client).receivers.Nodup ↔
      ∀ r, (s.receiverFor client r).isSome → ¬(r ∈ s.getSiblingClientIds client.id true ∧
        SetMap.Rel s.sender2receiver client.id r) := by
  have hinj : ∀ r r' receiver, receiver ∈ s.receiverFor client r →
      receiver ∈ s.receiverFor client r' → r = r' :=
    fun r r' receiver h h' => receiverFor_injective hkeyed h h'
  have hsiblings := List.Nodup.filterMap hinj
    (nodup_getSiblingClientIds (s := s) client.id true)
  have hdirect := List.Nodup.filterMap hinj
    (SetMap.nodup_toList (SetMap.value s.sender2receiver client.id))
  rw [toSender, List.nodup_append]
  constructor
  · rintro ⟨-, -, hdisjoint⟩ r hr ⟨hsibling, hrelation⟩
    obtain ⟨receiver, hreceiver⟩ := Option.isSome_iff_exists.mp hr
    refine hdisjoint receiver ?_ receiver ?_ rfl
    · exact List.mem_filterMap.mpr ⟨r, hsibling, hreceiver⟩
    · exact List.mem_filterMap.mpr ⟨r, ExtTreeSet.mem_toList.mpr hrelation, hreceiver⟩
  · intro h
    refine ⟨hsiblings, hdirect, ?_⟩
    rintro receiver hfirst receiver' hsecond rfl
    obtain ⟨r, hsibling, hreceiver⟩ := List.mem_filterMap.mp hfirst
    obtain ⟨r', hrelation, hreceiver'⟩ := List.mem_filterMap.mp hsecond
    obtain rfl := hinj r r' receiver hreceiver hreceiver'
    exact h r (Option.isSome_of_eq_some hreceiver) ⟨hsibling, ExtTreeSet.mem_toList.mp hrelation⟩

/-- One client adds at most one sender entry. -/
theorem sender?_addRecipient (recips : MediaRecipients) (client : ServerClientEntity)
    (address : QHostAddress) (port : UInt16) :
    (s.addRecipient recips client).sender? address port =
      if IsSender client ∧ client.mediaAddress = address ∧ client.mediaPort = port then
        some (s.toSender client)
      else recips.sender? address port := by
  unfold addRecipient
  split
  next hmedia => rw [if_neg (fun h => hmedia h.1.1)]
  next hmedia =>
    split
    next hsending => rw [if_neg (fun h => hsending h.1.2)]
    next hsending =>
      have hsender : IsSender client := ⟨by simpa using hmedia, by simpa using hsending⟩
      change (recips.insertSender _ _ _).sender? address port = _
      rw [MediaRecipients.sender?_insertSender]
      simp [hsender]

end Ts3Video.VirtualServer
