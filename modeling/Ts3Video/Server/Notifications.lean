import Ts3Video.Server.Recipients
import Ts3Video.Server.Requests
import Ts3Video.Server.Visibility

/-!
# Who is told about whom

Notifications and the list of members in the answer to a join request ask whether the other client may
see the one that they are about. The table of recipients and the notification of a disconnect ask the
opposite question, so they are right only as long as both questions have the same answer.
-/

namespace Ts3Video.VirtualServer

open Std ActionBase

/-- The clients are members of the same channel. -/
def SharesChannel (s : VirtualServer) (a b : ℤ) : Prop :=
  ∃ ch, SetMap.Rel s.client2channels a ch ∧ SetMap.Rel s.participants ch b

variable {fromUtf8 : List UInt8 → String} {s s' : VirtualServer} {e : Event} {a b : ℤ}
  {client observer sender : ServerClientEntity} {action : ActionBase} {params : QJsonObject}
  {out : List Effect}

/-- The siblings of a client are those that it shares a channel with. -/
theorem mem_siblings_iff_sharesChannel :
    b ∈ s.getSiblingClientIds a false ↔ s.SharesChannel a b := by
  rw [mem_getSiblingClientIds]
  exact and_iff_left fun h => absurd h Bool.false_ne_true

/-- Joining a channel changes no client. -/
theorem clients_addClientToChannel (s : VirtualServer) (c ch : ℤ) :
    (s.addClientToChannel c ch).clients = s.clients := by
  unfold addClientToChannel
  split
  · rfl
  · rfl

/-- The members that the answer to a join request lists. -/
def listedMembers (s : VirtualServer) (client : ServerClientEntity) (channelId : ℤ) :
    List QJsonValue :=
  (SetMap.value s.participants channelId).toList.filterMap fun pid =>
    match s.clients[pid]? with
    | none => none
    | some participant =>
      if ¬ client.isAllowedToSee participant then none
      else some (QJsonValue.object participant.toQJsonObject)

end Ts3Video.VirtualServer
