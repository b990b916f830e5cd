import Ts3Video.Client.Traffic

/-!
# Who believes that the media socket is authenticated

The notification that a token was accepted does not say which one. The client takes it for the token of
its current media socket, which need not be the one that the server has accepted.
-/

namespace Ts3Video.ClientSystem

open NetworkClient

/-- If the media socket of the client is authenticated, or does not send its token any longer, the server
has set the media address of the client for that token. -/
def MediaAgreed (s : ClientSystem) : Prop :=
  ∀ mediaSocket, s.client.mediaSocket = some mediaSocket → mediaSocket.HasStopped →
    mediaSocket.token ∈ s.accepted

/-- The token that was issued to the client last: the one of its media socket when no message is in
flight any longer. -/
def lastToken (s : ClientSystem) : Option String :=
  InFlight.settled Message.updateToken s.client.socketToken s.messages

/-- When the server accepts a token of the client, it has accepted the one that it issued last. -/
def AcceptsLast (fromUtf8 : List UInt8 → String) (a : ℤ) (s : ClientSystem) : Event → Prop
  | .server event => s.server.boundClient? fromUtf8 event = some a →
      ∀ token ∈ s.lastToken, token ∈ s.accepted ++ acceptedTokens fromUtf8 a s.server event
  | _ => True

instance (fromUtf8 : List UInt8 → String) (a : ℤ) (s : ClientSystem) :
    ∀ e, Decidable (AcceptsLast fromUtf8 a s e)
  | .server _ => inferInstanceAs (Decidable (_ = _ → ∀ token ∈ s.lastToken, token ∈ _))
  | .receive => inferInstanceAs (Decidable True)
  | .enableVideoStream _ _ _ => inferInstanceAs (Decidable True)
  | .disableVideoStream => inferInstanceAs (Decidable True)

/-- A notification of success meets a media socket whose token was accepted. -/
def Deserved (accepted : List String) (token : Option String) (message : Message) : Prop :=
  message.IsMediaAuthSuccess → ∀ t, token = some t → t ∈ accepted

/-- The media socket and the notifications in flight are backed by accepted tokens. -/
structure MediaInvariant (fromUtf8 : List UInt8 → String) (opts : VirtualServerOptions)
    (bans : Std.ExtTreeSet String) (s : ClientSystem) : Prop where
  reachable : Runs.Reachable (VirtualServer.step fromUtf8) (VirtualServer.init opts bans) s.server
  agreed : s.MediaAgreed
  deserved : InFlight.EachReceipt Message.updateToken (Deserved s.accepted) s.client.socketToken
    s.messages

variable {fromUtf8 : List UInt8 → String} {opts : VirtualServerOptions}
  {bans : Std.ExtTreeSet String} {a : ℤ} {s s' : ClientSystem} {e : Event}

/-- A notification of success was sent as a request to the client. -/
theorem eq_sendRequest_of_success {slot : ReplySlot} {effect : Effect} {message : Message}
    (hmessage : effect.message? a slot = some message) (hsuccess : message.IsMediaAuthSuccess) :
    ∃ document parameters, effect = .sendRequest a document ∧
      JsonProtocolHelper.fromJsonRequest (some (.object document)) =
        some ("notify.mediaauthsuccess", parameters) := by
  cases effect with
  | sendRequest c document =>
    rw [Effect.message?] at hmessage
    split at hmessage
    next hc =>
      obtain rfl := Option.some.inj hmessage
      obtain ⟨parameters, hread⟩ := hsuccess
      exact ⟨document, parameters, hc ▸ rfl, hread⟩
    next => contradiction
  | sendResponse c correlationId response =>
    rw [Effect.message?] at hmessage
    split at hmessage
    · obtain rfl := Option.some.inj hmessage
      exact hsuccess.elim
    · contradiction
  | _ => contradiction

/-- A notification of success is only sent to a client whose token is accepted, and nothing else with it. -/
theorem success_cases {server : VirtualServer} {event : VirtualServer.Event} {out : List Effect}
    (hreach : Runs.Reachable (VirtualServer.step fromUtf8) (VirtualServer.init opts bans) s.server)
    (hstep : VirtualServer.step fromUtf8 s.server event = some (server, out)) (slot : ReplySlot) :
    (∀ message ∈ messagesTo a slot out, ¬ message.IsMediaAuthSuccess) ∨
      s.server.boundClient? fromUtf8 event = some a ∧ ∃ message, messagesTo a slot out = [message] := by
  obtain ⟨hkeyed, -, hsessions⟩ := VirtualServer.sessions_reachable hreach
  have hothers : (∀ document parameters, Effect.sendRequest a document ∈ out →
      JsonProtocolHelper.fromJsonRequest (some (.object document)) ≠
        some ("notify.mediaauthsuccess", parameters)) →
      ∀ message ∈ messagesTo a slot out, ¬ message.IsMediaAuthSuccess := by
    intro hother message hmessage hsuccess
    obtain ⟨effect, heffect, hsome⟩ := List.mem_filterMap.mp hmessage
    obtain ⟨document, parameters, rfl, hread⟩ := eq_sendRequest_of_success hsome hsuccess
    exact hother document parameters heffect hread
  cases VirtualServer.traffic_of_step hkeyed hsessions hstep with
  | quiet _ hquiet => exact .inl fun message hmessage => (hquiet.messagesTo hmessage).success
  | @accepted c hbound _ hout =>
    rw [hout]
    by_cases hc : c = a
    · refine .inr ⟨hc ▸ hbound,
        .request (JsonProtocolHelper.createJsonRequest "notify.mediaauthsuccess" []), ?_⟩
      simp [messagesTo, Effect.message?, hc, VirtualServer.sendMediaAuthSuccessNotify]
    · refine .inl fun message hmessage => ?_
      simp [messagesTo, Effect.message?, hc, VirtualServer.sendMediaAuthSuccessNotify] at hmessage
  | created _ _ hquiet => exact .inl fun message hmessage => (hquiet.messagesTo hmessage).success
  | joined _ _ _ _ _ hout =>
    refine .inl (hothers fun document parameters heffect hread => ?_)
    rw [hout, List.mem_cons] at heffect
    rcases heffect with hresponse | hbroadcast
    · contradiction
    · obtain ⟨c, -, hrequest, -⟩ := VirtualServer.mem_broadcast.mp hbroadcast
      rw [(Effect.sendRequest.inj hrequest).2] at hread
      exact absurd (eq_of_fromJsonRequest hread).1 (by decide)
  | unconnected _ _ hhandle =>
    refine .inl (hothers fun document parameters heffect hread => ?_)
    obtain ⟨-, rfl⟩ := Prod.mk.inj hhandle
    obtain ⟨c, -, hrequest⟩ := List.mem_map.mp heffect
    rw [← (Effect.sendRequest.inj hrequest).2] at hread
    exact absurd (eq_of_fromJsonRequest hread).1 (by decide)
  | destroyed _ _ _ hout =>
    refine .inl (hothers fun document parameters heffect => ?_)
    rw [hout] at heffect
    contradiction

/-- A notification of success leaves the media socket its token. -/
theorem updateToken_of_success {message : Message} (h : message.IsMediaAuthSuccess)
    (token : Option String) : message.updateToken token = token := by
  cases message with
  | request document => rfl
  | response slot document => exact h.elim

/-- What is deserved remains deserved when more tokens are accepted. -/
theorem Deserved.append {accepted : List String} (more : List String) {token : Option String}
    {message : Message} (h : Deserved accepted token message) :
    Deserved (accepted ++ more) token message :=
  fun hsuccess t ht => List.mem_append_left _ (h hsuccess t ht)

/-- A step of the server keeps the invariant, if it accepts the last token or none of the client. -/
theorem MediaInvariant.server (h : MediaInvariant fromUtf8 opts bans s) {server : VirtualServer}
    {event : VirtualServer.Event} {out : List Effect} (hguard : AcceptsLast fromUtf8 a s (.server event))
    (hstep : VirtualServer.step fromUtf8 s.server event = some (server, out)) :
    MediaInvariant fromUtf8 opts bans { s with
      server
      messages := s.messages ++ messagesTo a event.replySlot out
      accepted := s.accepted ++ acceptedTokens fromUtf8 a s.server event } where
  reachable := h.reachable.next hstep
  agreed mediaSocket hsocket hstopped := List.mem_append_left _ (h.agreed mediaSocket hsocket hstopped)
  deserved := by
    apply InFlight.eachReceipt_append.mpr
    refine ⟨h.deserved.mono fun _ _ => Deserved.append _, ?_⟩
    change InFlight.EachReceipt Message.updateToken _ s.lastToken _
    rcases success_cases (a := a) h.reachable hstep event.replySlot with
      hnone | ⟨hbound, message, hone⟩
    · exact InFlight.eachReceipt_of_forall (fun message hmessage _ hsuccess =>
        absurd hsuccess (hnone message hmessage)) _
    · rw [hone]
      exact ⟨fun _ => hguard hbound, trivial⟩

/-- A message that is received keeps the invariant. -/
theorem MediaInvariant.receive (h : MediaInvariant fromUtf8 opts bans s) {message : Message}
    {messages : List Message} {client : NetworkClient} (hmessages : s.messages = message :: messages)
    (hreceive : s.client.receive message = some client) :
    MediaInvariant fromUtf8 opts bans { s with client, messages } := by
  have hdeserved := h.deserved
  rw [hmessages] at hdeserved
  obtain ⟨hfirst, hlater⟩ := hdeserved
  refine ⟨h.reachable, fun mediaSocket hsocket hstopped => ?_, ?_⟩
  · rcases hasStopped_receive hreceive hsocket hstopped with hsuccess | hsame
    · have htoken : client.socketToken = some mediaSocket.token := by
        rw [socketToken, hsocket, Option.map_some]
      rw [socketToken_receive hreceive, updateToken_of_success hsuccess] at htoken
      exact hfirst hsuccess mediaSocket.token htoken
    · exact h.agreed mediaSocket hsame hstopped
  · rw [← socketToken_receive hreceive] at hlater
    exact hlater

end Ts3Video.ClientSystem
