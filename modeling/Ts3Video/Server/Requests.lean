import Ts3Video.Server.Sessions

/-!
# One answer for each request

Every request is answered once on the connection that it came from, except that nobody is told when a
client without a connection is to be kicked. A request that is refused changes nothing.
-/

namespace Ts3Video.VirtualServer

open Std ActionBase

/-- The status of a response. -/
def status (response : QJsonObject) : ℤ := (response.value "status").toInt

variable {fromUtf8 : List UInt8 → String} {s s' : VirtualServer} {c : ℤ} {correlationId : UInt32}
  {document : Option QJsonValue} {out : List Effect}

/-- The first client logs in and becomes an administrator. -/
def adminLoggedIn : List Event :=
  Event.logIn 1 "alice" "10:00" ++ [.request 1 .AdminAuthAction [("password", .string "secret")]]

/-- A response that reports success has no other status. -/
theorem status_createJsonResponse (data : QJsonObject) :
    status (JsonProtocolHelper.createJsonResponse data) = 0 := by
  change (QJsonValue.ofInt 0).toInt = 0
  exact QJsonValue.toInt_ofInt (by decide) (by decide)

/-- A response that reports an error has its status. -/
theorem status_createJsonResponseError {code : ℤ} (hlow : -2 ^ 31 ≤ code) (hhigh : code < 2 ^ 31)
    (message : String) : status (JsonProtocolHelper.createJsonResponseError code message) = code := by
  change (QJsonValue.ofInt code).toInt = code
  exact QJsonValue.toInt_ofInt hlow hhigh

/-- A request that is answered with an error leaves the state as it is. An authentication that is not
answered yet is outstanding, and nothing else has changed. When it fails, it is not outstanding any
longer, and nothing else has changed. -/
theorem refused_unchanged (fromUtf8 : List UInt8 → String) (s s' : VirtualServer)
    (out : List Effect) :
    (∀ c correlationId document,
      step fromUtf8 s (.newIncomingRequest c correlationId document) = some (s', out) →
      ((∃ response ∈ responses out, status response.2.2 ≠ 0) → s' = s) ∧
      (responses out = [] → s' = { s with authentications := s'.authentications })) ∧
    ∀ index ts3Allowed now,
      step fromUtf8 s (.authenticationFinished index ts3Allowed now) = some (s', out) →
      (∃ response ∈ responses out, status response.2.2 ≠ 0) →
        s' = { s with authentications := s.authentications.eraseIdx index } := by
  have hfailed : ∀ {c correlationId data},
      responses out = [(c, correlationId, JsonProtocolHelper.createJsonResponse data)] →
      ¬ ∃ response ∈ responses out, status response.2.2 ≠ 0 := by
    rintro c correlationId data hresponses ⟨response, hresponse, hstatus⟩
    rw [hresponses, List.mem_singleton] at hresponse
    rw [hresponse] at hstatus
    exact hstatus (status_createJsonResponse data)
  constructor
  · intro c correlationId document hstep
    rcases withConnection_cases hstep with ⟨rfl, rfl⟩ | ⟨client, conn, hclient, hconn, -⟩
    · exact ⟨fun _ => rfl, fun _ => rfl⟩
    · obtain ⟨params, hanswer⟩ := answer_of_request hclient (Table.mem_of_getElem? hconn) hstep
      cases hanswer with
      | ok data _ _ hresponses =>
        refine ⟨fun h => absurd h (hfailed hresponses), fun h => ?_⟩
        rw [hresponses] at h
        contradiction
      | refused code message _ hstate => exact ⟨fun _ => hstate, fun _ => by rw [hstate]⟩
      | pending username _ _ hstate hresponses =>
        refine ⟨fun ⟨response, hresponse, _⟩ => ?_, fun _ => by rw [hstate]⟩
        rw [hresponses] at hresponse
        contradiction
  · intro index ts3Allowed now hstep hstatus
    simp only [step, onAuthenticationFinished] at hstep
    split at hstep
    · obtain ⟨rfl, rfl⟩ := Prod.mk.inj (Option.some.inj hstep)
      obtain ⟨response, hresponse, -⟩ := hstatus
      contradiction
    · cases completion_of_onFinished hstep with
      | refused message hstate => exact hstate
      | gone _ hstate => exact hstate
      | login data _ _ _ _ hresponses => exact absurd hstatus (hfailed hresponses)

/-- The first client creates a channel with a password, and the second one logs in. -/
def protectedChannel : List Event :=
  Event.logIn 1 "alice" "10:00" ++ Event.logIn 2 "bob" "10:01" ++
    [.request 1 .JoinChannelAction
      [("identifier", .string "lobby"), ("password", .string "secret")]]

/-- The second client does not get in with another password, and nothing has changed. -/
theorem refused_unchanged_protectedChannel : ∃ s out,
    Runs.Reachable (step fun _ => "") (init {} ∅) s ∧
      step (fun _ => "") s (.request 2 .JoinChannelAction [("identifier", .string "lobby"),
        ("password", .string "sesame")]) = some (s, out) ∧
      (responses out).map (fun response => status response.2.2) = [401] := by
  have hfacts : (Runs.run (step fun _ => "") (init {} ∅) protectedChannel).map (fun done =>
      (step (fun _ => "") done.1 (.request 2 .JoinChannelAction [("identifier", .string "lobby"),
        ("password", .string "sesame")])).map fun next =>
          (responses next.2).map fun response => status response.2.2) = some (some [401]) := by
    decide +kernel
  obtain ⟨⟨s, before⟩, hrun, hfacts⟩ := Option.map_eq_some_iff.mp hfacts
  obtain ⟨⟨s', out⟩, hstep, hstatus⟩ := Option.map_eq_some_iff.mp hfacts
  have hrefused : ∃ response ∈ responses out, status response.2.2 ≠ 0 := by
    have hmem : (401 : ℤ) ∈ (responses out).map fun response => status response.2.2 := by
      rw [hstatus]
      exact List.mem_singleton_self _
    obtain ⟨response, hresponse, hcode⟩ := List.mem_map.mp hmem
    exact ⟨response, hresponse, by rw [hcode]; decide⟩
  have hsame := ((refused_unchanged _ s s' out).1 _ _ _ hstep).1 hrefused
  exact ⟨s, out, ⟨protectedChannel, before, hrun⟩, hsame ▸ hstep, hstatus⟩

end Ts3Video.VirtualServer
