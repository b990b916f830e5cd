import Ts3Video.TeamSpeak.QueryConsole

/-!
# Authorization against the TeamSpeak server

A client may be authenticated only if it is also connected to the TeamSpeak server. It is looked up by its
address, and by its database id if it tells one. The first client that is found must belong to one of the
allowed server groups.
-/

namespace Ts3Video

open TS3ServerQuery QString

/-- The configuration of the TeamSpeak server. -/
structure TS3Options where
  ts3Enabled : Bool := false
  ts3LoginName : String := ""
  ts3LoginPassword : String := ""
  ts3Nickname : String := ""
  ts3VirtualServerPort : UInt16 := 9987
  ts3AllowedServerGroups : List ℕ := []

namespace AuthenticationAction

/-- The database id of a listed client. -/
def databaseId (client : Item) : ℕ := toULongLong (client.value "client_database_id")

/-- Go on if a command was successful. -/
def andThen (result : Option (Bool × TS3QueryConsoleSocketSync))
    (next : TS3QueryConsoleSocketSync → Option (Bool × TS3QueryConsoleSocketSync)) :
    Option (Bool × TS3QueryConsoleSocketSync) := do
  let (successful, qc) ← result
  if successful then next qc else some (false, qc)

/-- Log in to the query console and select the virtual server. The nickname tells the local address. -/
def openConsole (o : TS3Options) (localAddress localPort : String) (qc : TS3QueryConsoleSocketSync) :
    Option (Bool × TS3QueryConsoleSocketSync) :=
  andThen qc.start fun qc =>
  andThen (qc.login o.ts3LoginName o.ts3LoginPassword) fun qc =>
  andThen (qc.useByPort o.ts3VirtualServerPort) fun qc =>
  if o.ts3Nickname.isEmpty then some (true, qc)
  else qc.updateNickname (o.ts3Nickname ++ arg (arg " %1:%2" localAddress) localPort)

/-- The first listed client with the given address, and with the given database id if it is not zero. -/
def findClient (peerAddress : String) (ts3ClientDbId : ℕ) (clientList : List Item) : Option Item :=
  if 0 < ts3ClientDbId then
    clientList.find? fun c => databaseId c = ts3ClientDbId ∧ toInt (c.value "client_type") = 0 ∧
      c.value "connection_client_ip" = peerAddress
  else
    clientList.find? fun c => toInt (c.value "client_type") = 0 ∧
      c.value "connection_client_ip" = peerAddress

/-- One of the server groups is allowed. -/
def hasGroup (allowed : List ℕ) (sgl : List Item) : Bool :=
  sgl.any fun sg => allowed.any fun group => toULongLong (sg.value "sgid") = group

/-- Look for the client and check its server groups, if only some of these are allowed. -/
def checkClient (o : TS3Options) (peerAddress : String) (ts3ClientDbId : ℕ)
    (qc : TS3QueryConsoleSocketSync) : Option (Bool × TS3QueryConsoleSocketSync) := do
  let (clientList, qc) ← qc.clientList
  match findClient peerAddress ts3ClientDbId clientList with
  | none => some (false, qc)
  | some client =>
    if o.ts3AllowedServerGroups.isEmpty then some (true, qc.quit)
    else if databaseId client = 0 then some (false, qc)
    else do
      let (sgl, qc) ← qc.serverGroupsByClientId (databaseId client)
      if hasGroup o.ts3AllowedServerGroups sgl then some (true, qc.quit) else some (false, qc)

/-- Ask the TeamSpeak server, if there is one, whether a client may be authenticated. -/
def askTeamSpeak (o : TS3Options) (localAddress localPort peerAddress : String) (ts3ClientDbId : ℕ)
    (qc : TS3QueryConsoleSocketSync) : Option (Bool × TS3QueryConsoleSocketSync) :=
  if o.ts3Enabled then
    andThen (openConsole o localAddress localPort qc) (checkClient o peerAddress ts3ClientDbId)
  else some (true, qc)

/-- The client is a user with the given address, and with the given database id if it is not zero. -/
def IsCandidate (peerAddress : String) (ts3ClientDbId : ℕ) (client : Item) : Prop :=
  toInt (client.value "client_type") = 0 ∧ client.value "connection_client_ip" = peerAddress ∧
    (0 < ts3ClientDbId → databaseId client = ts3ClientDbId)

/-- The client belongs to an allowed server group. -/
def IsMember (allowed : List ℕ) (groups : ℕ → List Item) (client : Item) : Prop :=
  ∃ sg ∈ groups (databaseId client), toULongLong (sg.value "sgid") ∈ allowed

/-- All commands succeed: these clients are listed, and these are their server groups. -/
def Answers (o : TS3Options) (localAddress localPort : String) (qc : TS3QueryConsoleSocketSync)
    (clients : List Item) (groups : ℕ → List Item) : Prop :=
  ∃ opened listed, openConsole o localAddress localPort qc = some (true, opened) ∧
    opened.clientList = some (clients, listed) ∧
    ∀ client ∈ clients,
      (listed.serverGroupsByClientId (databaseId client)).map Prod.fst = some (groups (databaseId client))

instance (peerAddress : String) (ts3ClientDbId : ℕ) (client : Item) :
    Decidable (IsCandidate peerAddress ts3ClientDbId client) :=
  inferInstanceAs (Decidable (_ ∧ _ ∧ (_ → _)))

/-- The first candidate of the list is found. -/
theorem findClient_eq (peerAddress : String) (ts3ClientDbId : ℕ) (clients : List Item) :
    findClient peerAddress ts3ClientDbId clients =
      clients.find? fun client => decide (IsCandidate peerAddress ts3ClientDbId client) := by
  unfold findClient
  split
  next hpositive =>
    refine congrArg (clients.find? ·) (funext fun client => decide_eq_decide.mpr ?_)
    rw [IsCandidate, forall_prop_of_true hpositive]
    tauto
  next hzero =>
    refine congrArg (clients.find? ·) (funext fun client => decide_eq_decide.mpr ?_)
    rw [IsCandidate, forall_prop_of_false hzero, and_true]

/-- The allowed groups are looked for one by one. -/
theorem hasGroup_iff {allowed : List ℕ} {groups : ℕ → List Item} {client : Item} :
    hasGroup allowed (groups (databaseId client)) = true ↔ IsMember allowed groups client := by
  simp only [hasGroup, IsMember, List.any_eq_true, decide_eq_true_iff, exists_eq_right']

section Answered

variable {o : TS3Options} {localAddress localPort : String} {qc : TS3QueryConsoleSocketSync}
  {clients : List Item} {groups : ℕ → List Item}

/-- The answer is whether the first candidate is a member of an allowed group. -/
theorem askTeamSpeak_eq (henabled : o.ts3Enabled = true) (hallowed : o.ts3AllowedServerGroups ≠ [])
    (h : Answers o localAddress localPort qc clients groups)
    (hpositive : ∀ client ∈ clients, 0 < databaseId client) (peerAddress : String) (ts3ClientDbId : ℕ) :
    (askTeamSpeak o localAddress localPort peerAddress ts3ClientDbId qc).map Prod.fst =
      some ((findClient peerAddress ts3ClientDbId clients).any fun client =>
        hasGroup o.ts3AllowedServerGroups (groups (databaseId client))) := by
  obtain ⟨opened, listed, hopen, hlist, hgroups⟩ := h
  have hcheck : askTeamSpeak o localAddress localPort peerAddress ts3ClientDbId qc =
      checkClient o peerAddress ts3ClientDbId opened := by
    rw [askTeamSpeak, if_pos henabled, hopen]
    rfl
  rw [hcheck, checkClient, hlist, Option.bind_eq_bind, Option.bind_some]
  dsimp only
  cases hfound : findClient peerAddress ts3ClientDbId clients with
  | none => rfl
  | some client =>
    have hmem : client ∈ clients := by
      rw [findClient_eq] at hfound
      exact List.mem_of_find?_eq_some hfound
    have hempty : o.ts3AllowedServerGroups.isEmpty = false := by
      rwa [Bool.eq_false_iff, ne_eq, List.isEmpty_iff]
    obtain ⟨⟨sgl, asked⟩, hasked, hsgl⟩ := Option.map_eq_some_iff.mp (hgroups client hmem)
    dsimp only at hsgl ⊢
    rw [hempty, if_neg Bool.false_ne_true, if_neg (hpositive client hmem).ne', hasked, Option.any_some,
      ← hsgl, Option.bind_some]
    cases hasGroup o.ts3AllowedServerGroups sgl <;> rfl

/-- A client is found only if a candidate is listed. -/
theorem exists_of_findClient {peerAddress : String} {ts3ClientDbId : ℕ} {client : Item}
    (h : findClient peerAddress ts3ClientDbId clients = some client) :
    client ∈ clients ∧ IsCandidate peerAddress ts3ClientDbId client := by
  rw [findClient_eq] at h
  have hcandidate := List.find?_some h
  exact ⟨List.mem_of_find?_eq_some h, of_decide_eq_true hcandidate⟩

/-- A client is authorized as a listed candidate, and by the groups of the first one. -/
theorem askTeamSpeak_iff_findClient (henabled : o.ts3Enabled = true) (hallowed : o.ts3AllowedServerGroups ≠ [])
    (h : Answers o localAddress localPort qc clients groups)
    (hpositive : ∀ client ∈ clients, 0 < databaseId client) (peerAddress : String) (ts3ClientDbId : ℕ) :
    (askTeamSpeak o localAddress localPort peerAddress ts3ClientDbId qc).map Prod.fst = some true ↔
      ∃ client, findClient peerAddress ts3ClientDbId clients = some client ∧
        IsMember o.ts3AllowedServerGroups groups client := by
  rw [askTeamSpeak_eq henabled hallowed h hpositive, Option.some_inj, Option.any_eq_true]
  simp only [hasGroup_iff]

/-- With a database id the answer is exact: some candidate is a member. -/
theorem askTeamSpeak_iff_of_pos (henabled : o.ts3Enabled = true) (hallowed : o.ts3AllowedServerGroups ≠ [])
    (h : Answers o localAddress localPort qc clients groups)
    (hpositive : ∀ client ∈ clients, 0 < databaseId client) (peerAddress : String) {ts3ClientDbId : ℕ}
    (hid : 0 < ts3ClientDbId) :
    (askTeamSpeak o localAddress localPort peerAddress ts3ClientDbId qc).map Prod.fst = some true ↔
      ∃ client ∈ clients, IsCandidate peerAddress ts3ClientDbId client ∧
        IsMember o.ts3AllowedServerGroups groups client := by
  rw [askTeamSpeak_iff_findClient henabled hallowed h hpositive]
  constructor
  · rintro ⟨client, hfound, hmember⟩
    obtain ⟨hmem, hcandidate⟩ := exists_of_findClient hfound
    exact ⟨client, hmem, hcandidate, hmember⟩
  · rintro ⟨client, hmem, hcandidate, hmember⟩
    have hsome : (findClient peerAddress ts3ClientDbId clients).isSome := by
      rw [findClient_eq, List.find?_isSome]
      exact ⟨client, hmem, decide_eq_true hcandidate⟩
    obtain ⟨first, hfirst⟩ := Option.isSome_iff_exists.mp hsome
    -- The first candidate may be another entry, but it has the same database id.
    have hsame : databaseId first = databaseId client :=
      ((exists_of_findClient hfirst).2.2.2 hid).trans (hcandidate.2.2 hid).symm
    refine ⟨first, hfirst, ?_⟩
    rwa [IsMember, hsame]

/-- With a database id the authorization is exact and does not depend on the order of the clients. Without
one the first client that is listed with the address decides. -/
theorem askTeamSpeak_correct (henabled : o.ts3Enabled = true) (hallowed : o.ts3AllowedServerGroups ≠ [])
    (h : Answers o localAddress localPort qc clients groups)
    (hpositive : ∀ client ∈ clients, 0 < databaseId client) (peerAddress : String) (ts3ClientDbId : ℕ) :
    (0 < ts3ClientDbId →
      ((askTeamSpeak o localAddress localPort peerAddress ts3ClientDbId qc).map Prod.fst = some true ↔
        ∃ client ∈ clients, IsCandidate peerAddress ts3ClientDbId client ∧
          IsMember o.ts3AllowedServerGroups groups client) ∧
      ∀ qc' clients', clients'.Perm clients → Answers o localAddress localPort qc' clients' groups →
        (askTeamSpeak o localAddress localPort peerAddress ts3ClientDbId qc').map Prod.fst =
          (askTeamSpeak o localAddress localPort peerAddress ts3ClientDbId qc).map Prod.fst) ∧
    (ts3ClientDbId = 0 →
      ((askTeamSpeak o localAddress localPort peerAddress ts3ClientDbId qc).map Prod.fst = some true ↔
        ∃ front client back, clients = front ++ client :: back ∧
          (∀ earlier ∈ front, ¬ IsCandidate peerAddress ts3ClientDbId earlier) ∧
          IsCandidate peerAddress ts3ClientDbId client ∧
          IsMember o.ts3AllowedServerGroups groups client)) := by
  refine ⟨fun hid => ⟨askTeamSpeak_iff_of_pos henabled hallowed h hpositive peerAddress hid, ?_⟩, fun _ => ?_⟩
  · intro qc' clients' hperm h'
    have hpositive' : ∀ client ∈ clients', 0 < databaseId client := fun client hmem =>
      hpositive client (hperm.mem_iff.mp hmem)
    have hiff := askTeamSpeak_iff_of_pos henabled hallowed h hpositive peerAddress hid
    have hiff' := askTeamSpeak_iff_of_pos henabled hallowed h' hpositive' peerAddress hid
    simp only [hperm.mem_iff, ← hiff] at hiff'
    rw [askTeamSpeak_eq henabled hallowed h hpositive, askTeamSpeak_eq henabled hallowed h' hpositive']
      at hiff' ⊢
    rw [Option.some_inj, Option.some_inj] at hiff'
    rw [Bool.eq_iff_iff.mpr hiff']
  · rw [askTeamSpeak_iff_findClient henabled hallowed h hpositive]
    constructor
    · rintro ⟨client, hfound, hmember⟩
      rw [findClient_eq, List.find?_eq_some_iff_append] at hfound
      obtain ⟨hcandidate, front, back, hclients, hfront⟩ := hfound
      refine ⟨front, client, back, hclients, fun earlier hearlier => ?_, of_decide_eq_true hcandidate, hmember⟩
      simpa using hfront earlier hearlier
    · rintro ⟨front, client, back, hclients, hfront, hcandidate, hmember⟩
      refine ⟨client, ?_, hmember⟩
      rw [findClient_eq, List.find?_eq_some_iff_append]
      refine ⟨decide_eq_true hcandidate, front, back, hclients, fun earlier hearlier => ?_⟩
      simpa using hfront earlier hearlier

end Answered

/-- Two users behind one address. Only the second one belongs to the server group 7. -/
def sharedAddress (written : List String) : List String :=
  match written.getLast? with
  | none => []
  | some cmd =>
    (if cmd = "clientlist -ip\n" then
      ["client_database_id=1 client_type=0 connection_client_ip=10.0.0.1|" ++
        "client_database_id=2 client_type=0 connection_client_ip=10.0.0.1\n"]
    else if cmd = "servergroupsbyclientid cldbid=1\n" then ["sgid=8 cldbid=1\n"]
    else if cmd = "servergroupsbyclientid cldbid=2\n" then ["sgid=7 cldbid=2\n"]
    else []) ++ ["error id=0 msg=ok\n"]

/-- The query console of the server with two users behind one address. -/
def sharedAddressConsole : TS3QueryConsoleSocketSync :=
  { server := sharedAddress, pending := ["TS3\n", "Welcome\n"] }

/-- The two users. -/
def sharedAddressClients : List Item :=
  ["1", "2"].map fun id =>
    [("connection_client_ip", "10.0.0.1"), ("client_type", "0"), ("client_database_id", id)]

/-- The server groups of the two users. -/
def sharedAddressGroups (id : ℕ) : List Item :=
  [[("cldbid", toString id), ("sgid", if id = 2 then "7" else "8")]]

/-- Only members of the server group 7 are allowed. -/
def sharedAddressOptions : TS3Options := { ts3Enabled := true, ts3AllowedServerGroups := [7] }

/-- The commands to the server with two users behind one address succeed. -/
theorem answers_sharedAddress : Answers sharedAddressOptions "127.0.0.1" "40000" sharedAddressConsole
    sharedAddressClients sharedAddressGroups := by
  have hsession : ((openConsole sharedAddressOptions "127.0.0.1" "40000" sharedAddressConsole).bind
      fun opened => opened.2.clientList.map fun listed =>
        decide (opened.1 = true ∧ listed.1 = sharedAddressClients ∧ ∀ client ∈ sharedAddressClients,
          (listed.2.serverGroupsByClientId (databaseId client)).map Prod.fst =
            some (sharedAddressGroups (databaseId client)))) = some true := by decide +kernel
  obtain ⟨⟨opened, qc⟩, hopened, hlisted⟩ := Option.bind_eq_some_iff.mp hsession
  obtain ⟨⟨clients, listed⟩, hlisted, hanswers⟩ := Option.map_eq_some_iff.mp hlisted
  obtain ⟨rfl, rfl, hgroups⟩ := of_decide_eq_true hanswers
  exact ⟨qc, listed, hopened, hlisted, hgroups⟩

/-- The member is authorized by its own database id. -/
theorem askTeamSpeak_correct_sharedAddress :
    (0 < 2 →
      ((askTeamSpeak sharedAddressOptions "127.0.0.1" "40000" "10.0.0.1" 2 sharedAddressConsole).map Prod.fst =
          some true ↔
        ∃ client ∈ sharedAddressClients, IsCandidate "10.0.0.1" 2 client ∧
          IsMember [7] sharedAddressGroups client) ∧
      ∀ qc' clients', clients'.Perm sharedAddressClients →
        Answers sharedAddressOptions "127.0.0.1" "40000" qc' clients' sharedAddressGroups →
        (askTeamSpeak sharedAddressOptions "127.0.0.1" "40000" "10.0.0.1" 2 qc').map Prod.fst =
          (askTeamSpeak sharedAddressOptions "127.0.0.1" "40000" "10.0.0.1" 2 sharedAddressConsole).map
            Prod.fst) ∧
    (2 = 0 →
      ((askTeamSpeak sharedAddressOptions "127.0.0.1" "40000" "10.0.0.1" 2 sharedAddressConsole).map Prod.fst =
          some true ↔
        ∃ front client back, sharedAddressClients = front ++ client :: back ∧
          (∀ earlier ∈ front, ¬ IsCandidate "10.0.0.1" 2 earlier) ∧ IsCandidate "10.0.0.1" 2 client ∧
          IsMember [7] sharedAddressGroups client)) :=
  askTeamSpeak_correct rfl (List.cons_ne_nil 7 []) answers_sharedAddress (by decide +kernel) "10.0.0.1" 2

/-- Without a database id the first user behind the address decides, although the second one is a member. -/
theorem askTeamSpeak_firstDecides :
    Answers sharedAddressOptions "127.0.0.1" "40000" sharedAddressConsole sharedAddressClients
        sharedAddressGroups ∧
      (∀ client ∈ sharedAddressClients, 0 < databaseId client) ∧
      ¬ ((askTeamSpeak sharedAddressOptions "127.0.0.1" "40000" "10.0.0.1" 0 sharedAddressConsole).map
          Prod.fst = some true ↔
        ∃ client ∈ sharedAddressClients, IsCandidate "10.0.0.1" 0 client ∧
          IsMember [7] sharedAddressGroups client) := by
  have hpositive : ∀ client ∈ sharedAddressClients, 0 < databaseId client := by decide +kernel
  refine ⟨answers_sharedAddress, hpositive, fun h => ?_⟩
  have hrefused : (askTeamSpeak sharedAddressOptions "127.0.0.1" "40000" "10.0.0.1" 0
      sharedAddressConsole).map Prod.fst = some false := by
    rw [askTeamSpeak_eq rfl (List.cons_ne_nil 7 []) answers_sharedAddress hpositive]
    decide +kernel
  have hmember : ∃ client ∈ sharedAddressClients, IsCandidate "10.0.0.1" 0 client ∧
      IsMember [7] sharedAddressGroups client := by
    unfold IsMember
    decide +kernel
  rw [h.mpr hmember] at hrefused
  exact absurd hrefused (by decide)

end AuthenticationAction

end Ts3Video
