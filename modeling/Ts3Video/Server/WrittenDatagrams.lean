import Ts3Video.Server.Handlers

/-!
# Which datagrams the server writes

No request and no event of a connection makes the server write a datagram. It does so for datagrams alone,
and writes what its media socket puts out for them.
-/

namespace Ts3Video.VirtualServer

open Std ActionBase

/-- The datagrams that go to an address and port, in order. -/
def written (peer : QHostAddress × UInt16) (effects : List Effect) : List (List UInt8) :=
  effects.filterMap fun
    | .writeDatagram data address port => if (address, port) = peer then some data else none
    | _ => none

/-- No effect is a datagram. -/
def Messages (effects : List Effect) : Prop :=
  ∀ data address port, .writeDatagram data address port ∉ effects

variable {s s' : VirtualServer} {e : Event} {c : ℤ} {client : ServerClientEntity} {req : ActionData}
  {action : ActionBase} {out : List Effect} {fromUtf8 : List UInt8 → String}

/-- What is written in two steps. -/
theorem written_append (peer : QHostAddress × UInt16) (first second : List Effect) :
    written peer (first ++ second) = written peer first ++ written peer second := List.filterMap_append

/-- An answer in front of messages is one of them. -/
theorem Messages.answer (h : Messages out) (req : ActionData) (params : QJsonObject) :
    Messages (sendDefaultOkResponse req params :: out) := by
  intro data address port hmem
  rcases List.mem_cons.mp hmem with heq | hlater
  · exact nomatch heq
  · exact h data address port hlater

/-- An error alone. -/
theorem Refused.messages {result : ActionResult} (h : Refused s req result) : Messages result.2 := by
  obtain ⟨code, message, -, rfl⟩ := h
  intro data address port hmem
  exact nomatch List.mem_singleton.mp hmem

end Ts3Video.VirtualServer
