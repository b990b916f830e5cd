import Ts3Video.Server.ClientConnectionHandler
import Ts3Video.Library.Runs

/-!
# The timer of a connection

A connection is closed when its timer expires. The timer is meant to run for twenty seconds after the last
request of the client, and it is started anew by heartbeats of clients that are logged in, and by no other
request. Times are in milliseconds.
-/

namespace Ts3Video

open Std

/-- The interval of the timer. -/
def connectionTimeoutInterval : ℕ := 20000

/-- A request frame that a connection has received. -/
structure ReceivedFrame where
  clientId : ℤ
  time : ℕ
  heartbeat : Bool

/-- The server at a time, with the times at which the timers of its connections expire next. The frames
are those that were received so far, the last one first. -/
structure TimedServer where
  server : VirtualServer
  now : ℕ := 0
  connectionTimeoutTimers : ExtTreeMap ℤ ℕ := ∅
  frames : List ReceivedFrame := []

/-- An event of the server and the time at which it happens. -/
structure TimedEvent where
  time : ℕ
  event : VirtualServer.Event

/-- The client whose socket is closed. -/
def Effect.closedSocket? : Effect → Option ℤ
  | .closeSocket clientId => some clientId
  | _ => none

/-- The client whose timer has an event. -/
def VirtualServer.Event.timer? : Event → Option ℤ
  | .connectionTimeout clientId => some clientId
  | _ => none

/-- The event of a timer names its client. -/
theorem VirtualServer.Event.eq_of_timer? {e : Event} {clientId : ℤ} (h : clientId ∈ e.timer?) :
    e = .connectionTimeout clientId := by
  cases e with
  | connectionTimeout expired => exact congrArg _ (Option.some.inj h)
  | _ => contradiction

/-- The request is run as a heartbeat. -/
def VirtualServer.runsHeartbeat (s : VirtualServer) (clientId : ℤ) (document : Option QJsonValue) : Bool :=
  match s.clients[clientId]?, s.connections[clientId]? with
  | some client, some _ =>
    match ClientConnectionHandler.dispatch client document with
    | .run .HeartbeatAction _ => true
    | _ => false
  | _, _ => false

namespace TimedServer

/-- The clock does not go back. -/
def clock (s : TimedServer) (e : TimedEvent) : ℕ := max s.now e.time

/-- The timer of a connection that is there expires at this time or has expired before. -/
def isExpired (s : TimedServer) (clientId : ℤ) (now : ℕ) : Bool :=
  match s.server.clients[clientId]?, s.server.connections[clientId]?,
    s.connectionTimeoutTimers[clientId]? with
  | some _, some _, some expiry => expiry ≤ now
  | _, _, _ => false

/-- When a timer that runs periodically expires next. -/
def nextExpiry (expiry now : ℕ) : ℕ :=
  expiry + connectionTimeoutInterval * ((now - expiry) / connectionTimeoutInterval + 1)

/-- What an event does to the timers. -/
def updateTimers (s : TimedServer) (now : ℕ) : VirtualServer.Event → ExtTreeMap ℤ ℕ
  | .newConnection _ =>
    s.connectionTimeoutTimers.insert (s.server.nextClientId + 1) (now + connectionTimeoutInterval)
  | .newIncomingRequest clientId _ document =>
    if s.server.runsHeartbeat clientId document then
      s.connectionTimeoutTimers.insert clientId (now + connectionTimeoutInterval)
    else s.connectionTimeoutTimers
  | .connectionTimeout clientId =>
    s.connectionTimeoutTimers.modify clientId fun expiry => nextExpiry expiry now
  | _ => s.connectionTimeoutTimers

/-- The frame that a connection receives with an event. -/
def receivedFrame? (s : TimedServer) (now : ℕ) : VirtualServer.Event → Option ReceivedFrame
  | .newIncomingRequest clientId _ document =>
    if clientId ∈ s.server.connections then
      some { clientId, time := now, heartbeat := s.server.runsHeartbeat clientId document }
    else none
  | _ => none

/-- A timer has no event before it expires. -/
def happens (s : TimedServer) (e : TimedEvent) : Bool :=
  match e.event with
  | .connectionTimeout clientId => s.isExpired clientId (s.clock e)
  | _ => true

/-- Process an event at its time, or let the time pass. -/
def step (fromUtf8 : List UInt8 → String) (s : TimedServer) (e : TimedEvent) :
    Option (TimedServer × List Effect) :=
  let now := s.clock e
  if s.happens e then
    (VirtualServer.step fromUtf8 s.server e.event).map fun done =>
      ({ server := done.1
         now
         connectionTimeoutTimers := s.updateTimers now e.event
         frames := (s.receivedFrame? now e.event).toList ++ s.frames }, done.2)
  else some ({ s with now }, [])

/-- No request of the client has been received within the interval. -/
def Silent (s : TimedServer) (clientId : ℤ) (now : ℕ) : Prop :=
  ∀ frame ∈ s.frames, frame.clientId = clientId → frame.time + connectionTimeoutInterval ≤ now

/-- A timer that expires closes the connection of a silent client only. -/
def ClosesOnlySilent (fromUtf8 : List UInt8 → String) (s : TimedServer) (e : TimedEvent) : Prop :=
  ∀ clientId ∈ e.event.timer?, ∀ next ∈ step fromUtf8 s e,
    clientId ∈ next.2.filterMap Effect.closedSocket? → s.Silent clientId (s.clock e)

instance (fromUtf8 : List UInt8 → String) (s : TimedServer) (e : TimedEvent) :
    Decidable (ClosesOnlySilent fromUtf8 s e) :=
  inferInstanceAs (Decidable (∀ _ ∈ _, ∀ _ ∈ _, _ → ∀ _ ∈ _, _ → _ ≤ _))

/-- If a timer expires, the client has sent nothing but heartbeats within the interval, and was logged in
when it sent them. -/
def OnlyHeartbeats (s : TimedServer) (e : TimedEvent) : Prop :=
  ∀ clientId ∈ e.event.timer?, s.isExpired clientId (s.clock e) = true → ∀ frame ∈ s.frames,
    frame.clientId = clientId → s.clock e < frame.time + connectionTimeoutInterval →
      frame.heartbeat = true

/-- A frame is received with a request of its client. -/
theorem eq_of_receivedFrame? {s : TimedServer} {now : ℕ} {clientId : ℤ} {correlationId : UInt32}
    {document : Option QJsonValue} {frame : ReceivedFrame}
    (h : frame ∈ s.receivedFrame? now (.newIncomingRequest clientId correlationId document)) :
    frame = ⟨clientId, now, s.server.runsHeartbeat clientId document⟩ := by
  rw [receivedFrame?] at h
  split at h
  · exact (Option.some.inj h).symm
  · contradiction

/-- A frame is received at the time of its event. -/
theorem time_of_receivedFrame? {s : TimedServer} {now : ℕ} {e : VirtualServer.Event}
    {frame : ReceivedFrame} (h : frame ∈ s.receivedFrame? now e) : frame.time = now := by
  cases e with
  | newIncomingRequest => rw [eq_of_receivedFrame? h]
  | _ => contradiction

/-- The server processes an event and the timers are updated, or only the clock has moved. -/
theorem step_cases {fromUtf8 : List UInt8 → String} {s s' : TimedServer} {e : TimedEvent}
    {out : List Effect} (h : step fromUtf8 s e = some (s', out)) :
    (∃ server, VirtualServer.step fromUtf8 s.server e.event = some (server, out) ∧
      s' = { server, now := s.clock e, connectionTimeoutTimers := s.updateTimers (s.clock e) e.event
             frames := (s.receivedFrame? (s.clock e) e.event).toList ++ s.frames }) ∨
      s' = { s with now := s.clock e } ∧ out = [] := by
  unfold step at h
  dsimp only at h
  split at h
  · obtain ⟨⟨server, effects⟩, hserver, hdone⟩ := Option.map_eq_some_iff.mp h
    obtain ⟨rfl, rfl⟩ := Prod.mk.inj hdone
    exact .inl ⟨server, hserver, rfl⟩
  · obtain ⟨rfl, rfl⟩ := Prod.mk.inj (Option.some.inj h)
    exact .inr ⟨rfl, rfl⟩

/-- The timer of a connection does not expire before the interval after its last heartbeat is over. -/
structure TimersStarted (s : TimedServer) : Prop where
  past : ∀ frame ∈ s.frames, frame.time ≤ s.now
  started : ∀ frame ∈ s.frames, frame.heartbeat = true → ∀ expiry : ℕ,
    s.connectionTimeoutTimers[frame.clientId]? = some expiry →
      frame.time + connectionTimeoutInterval ≤ expiry

/-- What becomes of a timer. It has been started just now, or it expires not earlier than before and its client
has not sent a heartbeat. -/
theorem updateTimers_cases {s : TimedServer} {now : ℕ} {e : VirtualServer.Event} {clientId : ℤ} {expiry : ℕ}
    (h : (s.updateTimers now e)[clientId]? = some expiry) :
    expiry = now + connectionTimeoutInterval ∨
      (∃ before, s.connectionTimeoutTimers[clientId]? = some before ∧ before ≤ expiry) ∧
        ∀ frame ∈ s.receivedFrame? now e, frame.clientId = clientId → frame.heartbeat = false := by
  cases e with
  | newConnection peerAddress =>
    rcases Table.of_getElem?_insert h with ⟨-, hstart⟩ | hbefore
    · exact .inl hstart.symm
    · exact .inr ⟨⟨expiry, hbefore, Nat.le_refl _⟩, fun _ hnone => by contradiction⟩
  | newIncomingRequest sender correlationId document =>
    rw [updateTimers] at h
    split at h
    next hheartbeat =>
      rw [Table.getElem?_insert] at h
      split at h
      next => exact .inl (Option.some.inj h).symm
      next hother =>
        refine .inr ⟨⟨expiry, h, Nat.le_refl _⟩, fun frame hframe hclient => ?_⟩
        obtain rfl := eq_of_receivedFrame? hframe
        exact absurd hclient hother
    next hother =>
      refine .inr ⟨⟨expiry, h, Nat.le_refl _⟩, fun frame hframe _ => ?_⟩
      obtain rfl := eq_of_receivedFrame? hframe
      exact Bool.eq_false_iff.mpr hother
  | connectionTimeout expired =>
    rcases Table.of_getElem?_modify h with ⟨before, rfl, hbefore, hnext⟩ | hbefore
    · have hle : before ≤ nextExpiry before now := Nat.le_add_right _ _
      exact .inr ⟨⟨before, hbefore, hnext ▸ hle⟩, fun _ hnone => by contradiction⟩
    · exact .inr ⟨⟨expiry, hbefore, Nat.le_refl _⟩, fun _ hnone => by contradiction⟩
  | _ => exact .inr ⟨⟨expiry, h, Nat.le_refl _⟩, fun _ hnone => by contradiction⟩

/-- Every event keeps the timers running. -/
theorem TimersStarted.step {fromUtf8 : List UInt8 → String} {s s' : TimedServer} {e : TimedEvent}
    {out : List Effect} (h : s.TimersStarted)
    (hstep : TimedServer.step fromUtf8 s e = some (s', out)) : s'.TimersStarted := by
  have hnow : s.now ≤ s.clock e := Nat.le_max_left _ _
  rcases step_cases hstep with ⟨server, -, rfl⟩ | ⟨rfl, -⟩
  · have hreceived : ∀ frame ∈ s.receivedFrame? (s.clock e) e.event, frame.time = s.clock e :=
      fun frame hframe => time_of_receivedFrame? hframe
    have hpast : ∀ frame ∈ (s.receivedFrame? (s.clock e) e.event).toList ++ s.frames,
        frame.time ≤ s.clock e := by
      intro frame hframe
      rcases List.mem_append.mp hframe with hnew | hold
      · exact (hreceived frame (Option.mem_toList.mp hnew)).le
      · exact (h.past frame hold).trans hnow
    refine ⟨hpast, fun frame hframe hheartbeat expiry hexpiry => ?_⟩
    rcases updateTimers_cases hexpiry with rfl | ⟨⟨before, hbefore, hle⟩, hother⟩
    · exact Nat.add_le_add_right (hpast frame hframe) _
    · rcases List.mem_append.mp hframe with hnew | hold
      · rw [hother frame (Option.mem_toList.mp hnew) rfl] at hheartbeat
        contradiction
      · exact (h.started frame hold hheartbeat before hbefore).trans hle
  · exact ⟨fun frame hframe => (h.past frame hframe).trans hnow, h.started⟩

/-- A timer that has expired closes the connection. -/
theorem closes_of_isExpired (fromUtf8 : List UInt8 → String) {s : TimedServer} {e : TimedEvent}
    {clientId : ℤ} (hevent : e.event = .connectionTimeout clientId)
    (hexpired : s.isExpired clientId (s.clock e) = true) : ∃ s' out,
      step fromUtf8 s e = some (s', out) ∧ clientId ∈ out.filterMap Effect.closedSocket? := by
  have hhappens : s.happens e = true := by rwa [happens, hevent]
  unfold isExpired at hexpired
  split at hexpired
  next client conn expiry hclient hconn _ =>
    have hserver : VirtualServer.step fromUtf8 s.server e.event =
        some (s.server, ClientConnectionHandler.onConnectionTimeout clientId) := by
      rw [hevent, VirtualServer.step, VirtualServer.withConnection, hclient, hconn]
    have hstep : step fromUtf8 s e = (VirtualServer.step fromUtf8 s.server e.event).map _ :=
      if_pos hhappens
    rw [hserver] at hstep
    exact ⟨_, _, hstep, List.mem_singleton_self _⟩
  next => contradiction

/-- A connection is closed at the end of the interval for which its timer was started. -/
theorem isExpired_of_closes {fromUtf8 : List UInt8 → String} {s s' : TimedServer} {e : TimedEvent}
    {clientId : ℤ} {out : List Effect} (hevent : e.event = .connectionTimeout clientId)
    (hstep : step fromUtf8 s e = some (s', out))
    (hclosed : clientId ∈ out.filterMap Effect.closedSocket?) :
    s.isExpired clientId (s.clock e) = true ∧
      ∃ expiry : ℕ, s.connectionTimeoutTimers[clientId]? = some expiry ∧ expiry ≤ s.clock e := by
  have hexpired : s.isExpired clientId (s.clock e) = true := by
    by_contra hnot
    have hhappens : ¬ s.happens e = true := by rwa [happens, hevent]
    rw [step, if_neg hhappens] at hstep
    obtain ⟨-, rfl⟩ := Prod.mk.inj (Option.some.inj hstep)
    contradiction
  refine ⟨hexpired, ?_⟩
  unfold isExpired at hexpired
  split at hexpired
  next expiry _ _ hexpiry => exact ⟨expiry, hexpiry, of_decide_eq_true hexpired⟩
  next => contradiction

/-- A timer that expires closes the connection of a silent client only, exactly if the client has sent nothing
but heartbeats within the interval. -/
theorem TimersStarted.closes_iff {s : TimedServer} (h : s.TimersStarted)
    (fromUtf8 : List UInt8 → String) (e : TimedEvent) :
    ClosesOnlySilent fromUtf8 s e ↔ OnlyHeartbeats s e := by
  constructor
  · intro hcloses clientId htimer hexpired frame hframe hclient hrecent
    obtain ⟨s', out, hstep, hclosed⟩ :=
      closes_of_isExpired fromUtf8 (VirtualServer.Event.eq_of_timer? htimer) hexpired
    have hsilent := hcloses clientId htimer (s', out) hstep hclosed frame hframe hclient
    omega
  · rintro honly clientId htimer ⟨s', out⟩ hstep hclosed frame hframe hclient
    obtain ⟨hexpired, expiry, hexpiry, hle⟩ :=
      isExpired_of_closes (VirtualServer.Event.eq_of_timer? htimer) hstep hclosed
    by_contra hrecent
    have hheartbeat := honly clientId htimer hexpired frame hframe hclient (Nat.lt_of_not_le hrecent)
    have hstarted := h.started frame hframe hheartbeat expiry (hclient ▸ hexpiry)
    exact hrecent (hstarted.trans hle)

/-- The server before its first event. -/
def init (opts : VirtualServerOptions) (bans : ExtTreeSet String) : TimedServer :=
  { server := VirtualServer.init opts bans }

/-- In every run, connections are closed by their timers only if no request has been received for twenty
seconds, exactly if within the twenty seconds before an expiry no client sends anything but heartbeats while
it is logged in. -/
theorem closesOnlySilent_iff (fromUtf8 : List UInt8 → String) (opts : VirtualServerOptions)
    (bans : ExtTreeSet String) (events : List TimedEvent) :
    Runs.EachStep (step fromUtf8) (ClosesOnlySilent fromUtf8) (init opts bans) events ↔
      Runs.EachStep (step fromUtf8) OnlyHeartbeats (init opts bans) events :=
  Runs.eachStep_congr (P := TimersStarted) (fun _ _ _ _ h hstep => h.step hstep)
    (fun _ e h => h.closes_iff fromUtf8 e)
    ⟨fun _ hnone => absurd hnone List.not_mem_nil, fun _ hnone => absurd hnone List.not_mem_nil⟩ events

/-- A client that has asked for the channels five seconds ago is closed. -/
theorem closesOnlySilent_activeClient : ¬ Runs.EachStep (step fun _ => "")
    (ClosesOnlySilent fun _ => "") (init {} ∅)
    ((VirtualServer.Event.logIn 1 "alice" "10:00").map (⟨0, ·⟩) ++
      [⟨15000, .request 1 .GetChannelListAction [("limit", .ofInt 10)]⟩,
        ⟨20000, .connectionTimeout 1⟩]) := by
  decide +kernel

end TimedServer

end Ts3Video
