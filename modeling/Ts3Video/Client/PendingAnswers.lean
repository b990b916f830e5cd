import Mathlib.Data.List.Perm.Subperm
import Ts3Video.Client.Traffic

/-!
# Answers that were asked for

Each request is answered no more than once, at once or when its authentication is completed, and what waits
for an answer was asked for.
-/

namespace Ts3Video

open Std ActionBase

namespace VirtualServer

/-- The client and the correlation id of each response. -/
def answered (out : List Effect) : List (ℤ × UInt32) :=
  (responses out).map fun response => (response.1, response.2.1)

/-- The client and the correlation id of each outstanding authentication. -/
def outstanding (s : VirtualServer) : List (ℤ × UInt32) :=
  s.authentications.map fun pending => (pending.clientId, pending.correlationId)

/-- The client and the correlation id of a request. -/
def Event.asked : Event → List (ℤ × UInt32)
  | .newIncomingRequest clientId correlationId _ => [(clientId, correlationId)]
  | _ => []

/-- What is answered or outstanding was outstanding or is asked for now, each as often. What is answered
later waits in the slot for authentications. -/
structure AnswersAsked (s : VirtualServer) (e : Event) (s' : VirtualServer) (out : List Effect) : Prop where
  subperm : (answered out ++ s'.outstanding).Subperm (s.outstanding ++ e.asked)
  answered_slot : ∀ ask ∈ answered out,
    ask ∈ e.asked ∨ ask ∈ s.outstanding ∧ e.replySlot = .onAuthFinished
  outstanding_slot : ∀ ask ∈ s'.outstanding,
    ask ∈ s.outstanding ∨ ask ∈ e.asked ∧ e.replySlot = .onAuthFinished

variable {fromUtf8 : List UInt8 → String} {s s' : VirtualServer} {e : Event} {out : List Effect}

/-- Nothing is answered and nothing becomes outstanding. -/
theorem AnswersAsked.of_nothing (hresponses : responses out = [])
    (hauthentications : s'.authentications = s.authentications) : AnswersAsked s e s' out := by
  have hnone : answered out = [] := by rw [answered, hresponses, List.map_nil]
  have hsame : s'.outstanding = s.outstanding := by rw [outstanding, hauthentications, outstanding]
  refine ⟨?_, fun ask hmem => ?_, fun ask hmem => .inl (hsame ▸ hmem)⟩
  · rw [hnone, hsame, List.nil_append]
    exact (List.sublist_append_left _ _).subperm
  · rw [hnone] at hmem
    exact absurd hmem List.not_mem_nil

/-- A request is answered at once. -/
theorem AnswersAsked.of_answered {c : ℤ} {correlationId : UInt32} {document : Option QJsonValue}
    {response : QJsonObject} (hresponses : responses out = [(c, correlationId, response)])
    (hauthentications : s'.authentications = s.authentications) :
    AnswersAsked s (.newIncomingRequest c correlationId document) s' out := by
  have hone : answered out = [(c, correlationId)] := by
    rw [answered, hresponses, List.map_singleton]
  have hsame : s'.outstanding = s.outstanding := by rw [outstanding, hauthentications, outstanding]
  refine ⟨?_, fun ask hmem => .inl ?_, fun ask hmem => .inl (hsame ▸ hmem)⟩
  · rw [hone, hsame]
    exact List.perm_append_comm.subperm
  · rw [hone] at hmem
    exact hmem

/-- An admitted authentication request waits in its slot. -/
theorem replySlot_of_authenticates (h : Authenticates s e) : e.replySlot = .onAuthFinished := by
  obtain ⟨c, client, params, -, -, correlationId, document, rfl, hdispatch⟩ := h
  obtain ⟨text, hread, rfl⟩ := name_of_dispatch hdispatch
  rw [Event.replySlot, hread]
  rfl

/-- A request is answered at once, or it is outstanding. -/
theorem answersAsked_request {c : ℤ} {correlationId : UInt32} {document : Option QJsonValue}
    (hstep : step fromUtf8 s (.newIncomingRequest c correlationId document) = some (s', out)) :
    AnswersAsked s (.newIncomingRequest c correlationId document) s' out := by
  rcases withConnection_cases hstep with ⟨rfl, rfl⟩ | ⟨client, conn, hclient, hconn, -⟩
  · exact .of_nothing rfl rfl
  · obtain ⟨params, hanswer⟩ := answer_of_request hclient (Table.mem_of_getElem? hconn) hstep
    cases hanswer with
    | ok data _ hsessions hresponses => exact .of_answered hresponses hsessions.authentications
    | refused status message _ hstate hresponses => exact .of_answered hresponses (hstate ▸ rfl)
    | pending username hauthenticates _ hstate hresponses =>
      have hnone : answered out = [] := by rw [answered, hresponses, List.map_nil]
      have hmore : s'.outstanding = s.outstanding ++ [(c, correlationId)] := by
        rw [outstanding, hstate]
        exact List.map_append
      refine ⟨?_, fun ask hmem => ?_, fun ask hmem => ?_⟩
      · rw [hnone, hmore]
        exact List.Subperm.refl _
      · rw [hnone] at hmem
        exact absurd hmem List.not_mem_nil
      · rw [hmore] at hmem
        exact (List.mem_append.mp hmem).imp_right
          fun hask => ⟨hask, replySlot_of_authenticates hauthenticates⟩

/-- The answer of the TeamSpeak server completes one outstanding authentication. -/
theorem answersAsked_finished {index : ℕ} {ts3Allowed : Bool} {now : String}
    (hstep : step fromUtf8 s (.authenticationFinished index ts3Allowed now) = some (s', out)) :
    AnswersAsked s (.authenticationFinished index ts3Allowed now) s' out := by
  simp only [step, onAuthenticationFinished] at hstep
  split at hstep
  · obtain ⟨rfl, rfl⟩ := Prod.mk.inj (Option.some.inj hstep)
    exact .of_nothing rfl rfl
  next pending hpending =>
    obtain ⟨hlt, rfl⟩ := List.getElem?_eq_some_iff.mp hpending
    have hperm : ((s.authentications[index].clientId, s.authentications[index].correlationId) ::
        (s.authentications.eraseIdx index).map fun pending =>
          (pending.clientId, pending.correlationId)).Perm s.outstanding :=
      (List.getElem_cons_eraseIdx_perm hlt).map fun pending : PendingAuthentication =>
        (pending.clientId, pending.correlationId)
    -- whatever the answer is, no more than this one is answered and it is not outstanding any longer
    suffices h : s'.outstanding = ((s.authentications.eraseIdx index).map fun pending =>
        (pending.clientId, pending.correlationId)) ∧ (answered out).Sublist
          [(s.authentications[index].clientId, s.authentications[index].correlationId)] by
      obtain ⟨houtstanding, hanswered⟩ := h
      refine ⟨?_, fun ask hmem => .inr ⟨hperm.subset ?_, rfl⟩, fun ask hmem => .inl (hperm.subset ?_)⟩
      · rw [houtstanding]
        exact (hanswered.append_right _).subperm.trans
          (hperm.subperm.trans (List.sublist_append_left _ _).subperm)
      · exact List.mem_cons.mpr (.inl (List.mem_singleton.mp (hanswered.subset hmem)))
      · exact List.mem_cons_of_mem _ (houtstanding ▸ hmem)
    cases completion_of_onFinished hstep with
    | refused message hstate hresponses =>
      exact ⟨by rw [hstate, outstanding], by rw [answered, hresponses]; exact List.Sublist.refl _⟩
    | gone _ hstate hresponses =>
      exact ⟨by rw [hstate, outstanding], by rw [answered, hresponses]; exact List.nil_sublist _⟩
    | login data _ _ hstate _ hresponses =>
      exact ⟨by rw [hstate, outstanding], by rw [answered, hresponses]; exact List.Sublist.refl _⟩

/-- A datagram completes no authentication. -/
theorem authentications_onReadyRead (fromUtf8 : List UInt8 → String) (s : VirtualServer)
    (datagram : List UInt8) (address : QHostAddress) (port : UInt16) :
    (s.onReadyRead fromUtf8 datagram address port).1.authentications = s.authentications := by
  refine Runs.foldl_frame (fun done : ActionResult => done.1.authentications) (fun done output _ => ?_) _
  cases output with
  | tokenAuthentication token address port =>
    simp only [onMediaSocketOutput, onMediaSocketTokenAuthentication]
    split
    · rfl
    · split
      · rfl
      · rfl
  | writeDatagram data address port => rfl

/-- In every step of the server, no more is answered than was asked for. -/
theorem answersAsked_of_step (hstep : step fromUtf8 s e = some (s', out)) : AnswersAsked s e s' out := by
  cases e with
  | newConnection peerAddress =>
    obtain ⟨rfl, rfl⟩ := Prod.mk.inj (Option.some.inj hstep)
    exact .of_nothing rfl rfl
  | newIncomingRequest c correlationId document => exact answersAsked_request hstep
  | authenticationFinished index ts3Allowed now => exact answersAsked_finished hstep
  | readyRead datagram address port =>
    obtain ⟨rfl, rfl⟩ := Prod.mk.inj (Option.some.inj hstep)
    exact .of_nothing (responses_onReadyRead fromUtf8 s datagram address port)
      (authentications_onReadyRead fromUtf8 s datagram address port)
  | networkUsageUpdated networkUsage =>
    obtain ⟨rfl, rfl⟩ := Prod.mk.inj (Option.some.inj hstep)
    exact .of_nothing rfl rfl
  | unconnected c =>
    rcases withConnection_cases hstep with ⟨rfl, rfl⟩ | ⟨client, conn, -, -, hhandle⟩
    · exact .of_nothing rfl rfl
    · obtain ⟨rfl, rfl⟩ := Prod.mk.inj (Option.some.inj hhandle)
      refine .of_nothing ?_ rfl
      simp only [responses, List.filterMap_map]
      exact List.filterMap_eq_nil_iff.mpr fun _ _ => rfl
  | destroyed c =>
    rcases withConnection_cases hstep with ⟨rfl, rfl⟩ | ⟨client, conn, -, -, hhandle⟩
    · exact .of_nothing rfl rfl
    · split at hhandle
      · obtain ⟨t, hdestroy, h⟩ := Option.map_eq_some_iff.mp hhandle
        obtain ⟨rfl, rfl⟩ := Prod.mk.inj h
        obtain ⟨left, hleave, rfl⟩ := Option.map_eq_some_iff.mp hdestroy
        exact .of_nothing rfl (sameSessions_removeClientFromChannels hleave).authentications
      · obtain ⟨rfl, rfl⟩ := Prod.mk.inj (Option.some.inj hhandle)
        exact .of_nothing rfl rfl
  | authenticationTimeout c =>
    rcases withConnection_cases hstep with ⟨rfl, rfl⟩ | ⟨client, conn, -, -, hhandle⟩
    · exact .of_nothing rfl rfl
    · obtain ⟨rfl, rfl⟩ := Prod.mk.inj (Option.some.inj hhandle)
      refine .of_nothing ?_ rfl
      unfold ClientConnectionHandler.onAuthenticationTimeout
      split
      · rfl
      · rfl
  | connectionTimeout c =>
    rcases withConnection_cases hstep with ⟨rfl, rfl⟩ | ⟨client, conn, -, -, hhandle⟩
    · exact .of_nothing rfl rfl
    · obtain ⟨rfl, rfl⟩ := Prod.mk.inj (Option.some.inj hhandle)
      exact .of_nothing rfl rfl

end VirtualServer

end Ts3Video
