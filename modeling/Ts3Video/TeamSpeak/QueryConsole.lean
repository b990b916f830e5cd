import Ts3Video.Library.GreedyPattern
import Ts3Video.Qt.Number
import Ts3Video.TeamSpeak.Commands

/-!
# The query console

A command is written to the TeamSpeak server, and its reply is read line by line. The last line of a reply
reports an error, whose number is zero for success. A line of another form counts as an error with number
zero, and so does a number that cannot be read.
-/

namespace Ts3Video

namespace TS3ServerQuery

/-- The values of an item by their keys. Later assignments come first. -/
abbrev Item : Type := List (String × String)

/-- The value of a key, or an empty text. -/
def Item.value (item : Item) (key : String) : String := (item.lookup key).getD ""

/-- Store one key with its value. A word without a value is a key, and a value needs a key. -/
def parseKeyValue (obj : Item) (kv : List Char) : Item :=
  match EscapeCode.splitFirst '=' kv with
  | (key, none) => (String.ofList key, "") :: obj
  | ([], some _) => obj
  | (key, some value) => (String.ofList key, String.ofList value) :: obj

/-- The keys and values of one item. -/
def parseItem (data : List Char) : Item := (data.splitOn ' ').foldl parseKeyValue []

/-- The items of a line. -/
def parseItemList (data : String) : List Item := (data.toList.splitOn '|').map parseItem

/-- The text in front of the number of an error. -/
def errorStart : List Char := ['e', 'r', 'r', 'o', 'r', ' ', 'i', 'd', '=']

/-- The text between the number of an error and its message. -/
def messageStart : List Char := [' ', 'm', 's', 'g', '=']

/-- The expression for an error line: the number and the message are captured. -/
def errorPattern : GreedyPattern Char :=
  .seq (.literal errorStart) (.seq .anyGroup (.seq (.literal messageStart) .anyGroup))

/-- The number and the message of an error line. -/
def parseError (data : String) : ℤ × String :=
  match errorPattern.exactMatch data.toList with
  | none => (0, "")
  | some caps => (QString.toInt (String.ofList (caps.getD 0 [])), String.ofList (caps.getD 1 []))

/-- The line has the form of an error line. -/
def isErrorLine (data : String) : Bool := (errorPattern.exactMatch data.toList).isSome

end TS3ServerQuery

open TS3ServerQuery

/-- A connection to the query console. The server answers each command depending on all commands so far. -/
structure TS3QueryConsoleSocketSync where
  reachable : Bool := true
  server : List String → List String
  written : List String := []
  pending : List String := []

namespace TS3QueryConsoleSocketSync

/-- Send a command. -/
def write (s : TS3QueryConsoleSocketSync) (cmd : String) : TS3QueryConsoleSocketSync :=
  { s with written := s.written ++ [cmd], pending := s.pending ++ s.server (s.written ++ [cmd]) }

/-- The text of a line without the white space around it. -/
def trimmedLine (line : String) : String := String.ofList (QString.trimmed line.toList)

/-- Read one line. The call does not return as long as there is none. -/
def socketReadLineSync (s : TS3QueryConsoleSocketSync) : Option (String × TS3QueryConsoleSocketSync) :=
  match s.pending with
  | [] => none
  | line :: rest => some (trimmedLine line, { s with pending := rest })

/-- Connect to the server and read its two lines of welcome. -/
def start (s : TS3QueryConsoleSocketSync) : Option (Bool × TS3QueryConsoleSocketSync) :=
  if s.reachable then do
    let (line, s) ← s.socketReadLineSync
    if line ≠ "TS3" then some (false, s)
    else do
      let (_, s) ← s.socketReadLineSync
      some (true, s)
  else some (false, s)

/-- Send a command and check the number in its reply. -/
def runCommand (s : TS3QueryConsoleSocketSync) (cmd : String) (parameters : List (String × List String)) :
    Option (Bool × TS3QueryConsoleSocketSync) := do
  let (line, s) ← (s.write (createCommand cmd parameters [])).socketReadLineSync
  if (parseError line).1 ≠ 0 then some (false, s) else some (true, s)

/-- Log in to the query console. -/
def login (s : TS3QueryConsoleSocketSync) (loginName loginPassword : String) :
    Option (Bool × TS3QueryConsoleSocketSync) :=
  s.runCommand "login" [("client_login_name", [loginName]), ("client_login_password", [loginPassword])]

/-- Select a virtual server. -/
def useByPort (s : TS3QueryConsoleSocketSync) (port : UInt16) : Option (Bool × TS3QueryConsoleSocketSync) :=
  s.runCommand "use" [("port", [toString port.toNat])]

/-- Change the own nickname. -/
def updateNickname (s : TS3QueryConsoleSocketSync) (nickname : String) :
    Option (Bool × TS3QueryConsoleSocketSync) :=
  s.runCommand "clientupdate" [("client_nickname", [nickname])]

/-- Send a command and read the items of its reply. -/
def queryItems (s : TS3QueryConsoleSocketSync) (cmd : String) (parameters : List (String × List String))
    (options : List String) : Option (List Item × TS3QueryConsoleSocketSync) := do
  let (line, s) ← (s.write (createCommand cmd parameters options)).socketReadLineSync
  if isErrorLine line then some ([], s)
  else do
    let (_, s) ← s.socketReadLineSync
    some (parseItemList line, s)

/-- The clients on the selected virtual server. -/
def clientList (s : TS3QueryConsoleSocketSync) : Option (List Item × TS3QueryConsoleSocketSync) :=
  s.queryItems "clientlist" [] ["-ip"]

/-- The server groups of a client. -/
def serverGroupsByClientId (s : TS3QueryConsoleSocketSync) (clientDbId : ℕ) :
    Option (List Item × TS3QueryConsoleSocketSync) :=
  s.queryItems "servergroupsbyclientid" [("cldbid", [toString clientDbId])] []

/-- Log out. -/
def quit (s : TS3QueryConsoleSocketSync) : TS3QueryConsoleSocketSync := s.write (createCommand "quit" [] [])

/-- The commands whose reply is only an error line. -/
inductive Command where
  | login (loginName loginPassword : String)
  | useByPort (port : UInt16)
  | updateNickname (nickname : String)

/-- Run one of the commands. -/
def run (s : TS3QueryConsoleSocketSync) : Command → Option (Bool × TS3QueryConsoleSocketSync)
  | .login loginName loginPassword => s.login loginName loginPassword
  | .useByPort port => s.useByPort port
  | .updateNickname nickname => s.updateNickname nickname

/-- The text of a command. -/
def Command.text : Command → String
  | .login loginName loginPassword => createCommand "login"
      [("client_login_name", [loginName]), ("client_login_password", [loginPassword])] []
  | .useByPort port => createCommand "use" [("port", [toString port.toNat])] []
  | .updateNickname nickname => createCommand "clientupdate" [("client_nickname", [nickname])] []

/-- A line is an error line with the given number and message. -/
def IsErrorLine (line id msg : String) : Prop :=
  line.toList = errorStart ++ (id.toList ++ messageStart ++ msg.toList)

/-- A line reports success: it is an error line whose number is zero. -/
def ReportsSuccess (line : String) : Prop :=
  ∃ id msg, IsErrorLine line id msg ∧ QString.toInt? id = some 0

/-- A number has no message in it. -/
theorem not_infix_of_toInt? {id : String} {n : ℤ} (h : QString.toInt? id = some n) :
    ¬ messageStart <:+: id.toList := by
  intro hinfix
  have hm : 'm' ∈ id.toList := hinfix.subset (by decide)
  exact absurd (QString.mem_of_toInt? h hm) (by decide)

/-- Behind its start an error line is split at its last message. -/
theorem exactMatch_errorPattern (rest : List Char) : errorPattern.exactMatch (errorStart ++ rest) =
    (GreedyPattern.split messageStart).exactMatch rest :=
  GreedyPattern.exactMatch_literal_append errorStart _ rest

/-- A line is read as an error with its last message, or as success if it is no error line. -/
theorem parseError_cases (line : String) :
    (∃ id msg, IsErrorLine line id msg ∧ ¬ messageStart <:+: msg.toList ∧
      parseError line = (QString.toInt id, msg)) ∨
    ((∀ id msg, ¬ IsErrorLine line id msg) ∧ parseError line = (0, "")) := by
  by_cases hstart : errorStart <+: line.toList
  · obtain ⟨rest, hrest⟩ := hstart
    by_cases hmessage : messageStart <:+: rest
    · obtain ⟨id, msg, rfl, hlast⟩ := GreedyPattern.exists_last_of_infix (by decide) hmessage
      left
      refine ⟨String.ofList id, String.ofList msg, ?_, ?_, ?_⟩
      · rw [IsErrorLine, String.toList_ofList, String.toList_ofList, hrest]
      · rwa [String.toList_ofList]
      · have hmatch : (GreedyPattern.split messageStart).exactMatch (id ++ messageStart ++ msg) =
            some [id, msg] := GreedyPattern.exactMatch_split (by decide) hlast
        rw [parseError, ← hrest, exactMatch_errorPattern, hmatch]
        rfl
    · right
      constructor
      · intro id msg hline
        rw [IsErrorLine, ← hrest, List.append_cancel_left_eq] at hline
        exact hmessage (hline ▸ ⟨id.toList, msg.toList, rfl⟩)
      · rw [parseError, ← hrest, exactMatch_errorPattern,
          GreedyPattern.exactMatch_split_of_not_infix hmessage]
  · right
    constructor
    · intro id msg hline
      exact hstart (hline ▸ List.prefix_append _ _)
    · rw [parseError, errorPattern, GreedyPattern.exactMatch_literal_of_not hstart]

/-- Two readings of an error line agree, or the longer number has a message in it. -/
theorem IsErrorLine.unique {line id msg id' msg' : String} (h : IsErrorLine line id msg)
    (hlast : ¬ messageStart <:+: msg.toList) (h' : IsErrorLine line id' msg') :
    id = id' ∧ msg = msg' ∨ messageStart <:+: id.toList := by
  have hsplit : ∀ (front : List Char) {back : List Char}, ¬ messageStart <:+: back →
      id.toList ++ messageStart ++ msg.toList = front ++ messageStart ++ back →
      id.toList = front ∧ msg.toList = back := by
    intro front back hback heq
    have hfirst : (GreedyPattern.split messageStart).exactMatch
        (id.toList ++ messageStart ++ msg.toList) = some [id.toList, msg.toList] :=
      GreedyPattern.exactMatch_split (by decide) hlast
    have hsecond : (GreedyPattern.split messageStart).exactMatch (front ++ messageStart ++ back) =
        some [front, back] := GreedyPattern.exactMatch_split (by decide) hback
    rw [heq, hsecond] at hfirst
    simpa [eq_comm] using hfirst
  rw [IsErrorLine] at h h'
  rw [h, List.append_cancel_left_eq] at h'
  by_cases hlast' : messageStart <:+: msg'.toList
  · obtain ⟨front, back, hmsg', hback⟩ := GreedyPattern.exists_last_of_infix (by decide) hlast'
    rw [hmsg'] at h'
    obtain ⟨hid, -⟩ := hsplit (id'.toList ++ messageStart ++ front) hback
      (by rw [h']; simp only [List.append_assoc])
    exact .inr (hid ▸ ⟨id'.toList, front, rfl⟩)
  · obtain ⟨hid, hmsg⟩ := hsplit _ hlast' h'
    exact .inl ⟨String.toList_inj.mp hid, String.toList_inj.mp hmsg⟩

/-- The result of a command is decided by the first line that is read afterwards. -/
theorem run_eq (s : TS3QueryConsoleSocketSync) (command : Command) :
    (s.run command).map Prod.fst =
      (s.write command.text).pending.head?.map fun line => decide ((parseError (trimmedLine line)).1 = 0) := by
  have hcommand : ∀ (cmd : String) (parameters : List (String × List String)),
      (s.runCommand cmd parameters).map Prod.fst =
        (s.write (createCommand cmd parameters [])).pending.head?.map fun line =>
          decide ((parseError (trimmedLine line)).1 = 0) := by
    intro cmd parameters
    simp only [runCommand, socketReadLineSync]
    cases (s.write (createCommand cmd parameters [])).pending with
    | nil => rfl
    | cons line rest =>
      by_cases hzero : (parseError (trimmedLine line)).1 = 0
      · simp [hzero]
      · simp [hzero]
  cases command with
  | login loginName loginPassword => exact hcommand _ _
  | useByPort port => exact hcommand _ _
  | updateNickname nickname => exact hcommand _ _

/-- A command succeeds exactly on the reports of success, for those lines whose number can be read. An error
with a number other than zero must not have a second message. -/
theorem run_iff_reportsSuccess_iff (s : TS3QueryConsoleSocketSync) (command : Command) {line : String}
    {rest : List String} (hreply : (s.write command.text).pending = line :: rest) :
    ((s.run command).map Prod.fst = some true ↔ ReportsSuccess (trimmedLine line)) ↔
      ∃ id msg n, IsErrorLine (trimmedLine line) id msg ∧ QString.toInt? id = some n ∧
        (n = 0 ∨ ¬ messageStart <:+: msg.toList) := by
  rw [run_eq, hreply, List.head?_cons, Option.map_some, Option.some_inj, decide_eq_true_iff]
  obtain ⟨id, msg, hline, hlast, hread⟩ | ⟨hno, hread⟩ := parseError_cases (trimmedLine line)
  · rw [hread, QString.toInt]
    cases hnumber : QString.toInt? id with
    | none =>
      rw [Option.getD_none, eq_self_iff_true, true_iff]
      constructor
      · rintro ⟨id', msg', hline', hzero⟩
        exact ⟨id', msg', 0, hline', hzero, .inl rfl⟩
      · rintro ⟨id', msg', n, hline', hnumber', rfl | hlast'⟩
        · exact ⟨id', msg', hline', hnumber'⟩
        · obtain ⟨rfl, -⟩ | hinfix := hline'.unique hlast' hline
          · exact absurd (hnumber'.symm.trans hnumber) (Option.some_ne_none n)
          · exact absurd hinfix (not_infix_of_toInt? hnumber')
    | some n =>
      have hreports : n = 0 ↔ ReportsSuccess (trimmedLine line) := by
        constructor
        · rintro rfl
          exact ⟨id, msg, hline, hnumber⟩
        · rintro ⟨id', msg', hline', hzero⟩
          obtain ⟨rfl, -⟩ | hinfix := hline.unique hlast hline'
          · rw [hnumber] at hzero
            exact Option.some_inj.mp hzero
          · exact absurd hinfix (not_infix_of_toInt? hnumber)
      exact iff_of_true hreports ⟨id, msg, n, hline, hnumber, .inr hlast⟩
  · rw [hread]
    refine iff_of_false (fun h => ?_) ?_
    · obtain ⟨id, msg, hline, -⟩ := h.mp rfl
      exact hno id msg hline
    · rintro ⟨id, msg, n, hline, -⟩
      exact hno id msg hline

/-- The login is accepted, and the server says so. -/
theorem run_iff_reportsSuccess_ok :
    ((run { server := fun _ => ["error id=0 msg=ok\n"] } (.login "admin" "secret")).map Prod.fst = some true ↔
      ReportsSuccess (trimmedLine "error id=0 msg=ok\n")) := by
  have hline : IsErrorLine (trimmedLine "error id=0 msg=ok\n") "0" "ok" := by
    unfold IsErrorLine
    decide +kernel
  exact (run_iff_reportsSuccess_iff { server := fun _ => ["error id=0 msg=ok\n"] } (.login "admin" "secret")
    (List.nil_append _)).mpr ⟨"0", "ok", 0, hline, by decide +kernel, .inl rfl⟩

/-- An error line without its message counts as success. -/
theorem run_iff_reportsSuccess_truncated :
    ¬ ((run { server := fun _ => ["error id=520\n"] } (.login "admin" "secret")).map Prod.fst = some true ↔
      ReportsSuccess (trimmedLine "error id=520\n")) := by
  intro h
  obtain ⟨id, msg, hline, -⟩ := h.mp (by decide +kernel)
  have hm : 'm' ∈ (trimmedLine "error id=520\n").toList := by
    rw [hline]
    exact List.mem_append_right _ (List.mem_append_left _ (List.mem_append_right _ (by decide)))
  exact absurd hm (by decide)

end TS3QueryConsoleSocketSync

end Ts3Video
