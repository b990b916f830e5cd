import Ts3Video.Library.Fuel
import Ts3Video.Library.LineReader
import Ts3Video.TeamSpeak.QueryConsole

/-!
# Waiting for a dead server

The bytes of the query server arrive in chunks, until it closes the connection. A line is read by waiting for
more bytes as long as the buffer has no complete line; what the wait returns is ignored. A call therefore
returns just if every line it reads arrives.
-/

namespace Ts3Video

open TS3ServerQuery TS3QueryConsoleSocketSync Fuel

/-- The socket below a query console: the bytes received, the chunks that are still to arrive before the peer
closes the connection, or no peer if connecting fails, and the commands written. -/
structure QTcpSocket where
  buffer : List UInt8
  peer : Option (List (List UInt8))
  written : List String

namespace QTcpSocket

/-- The byte that ends a line. -/
def lineFeed : UInt8 := 10

/-- A new socket, which will be connected to the given peer. -/
def connectTo (peer : Option (List (List UInt8))) : QTcpSocket := ⟨[], peer, []⟩

/-- The chunks that are still to arrive. -/
def chunks (s : QTcpSocket) : List (List UInt8) := s.peer.getD []

/-- Send a command. -/
def write (s : QTcpSocket) (cmd : String) : QTcpSocket := { s with written := s.written ++ [cmd] }

/-- Whether the buffer has a complete line. -/
def canReadLine (s : QTcpSocket) : Bool := s.buffer.contains lineFeed

/-- Take the first line of the buffer. -/
def readLine (s : QTcpSocket) : List UInt8 × QTcpSocket :=
  ((LineReader.readLine lineFeed s.buffer).1, { s with buffer := (LineReader.readLine lineFeed s.buffer).2 })

/-- Wait for the next chunk. Without one the wait fails and changes nothing. -/
def waitForReadyRead (s : QTcpSocket) : Bool × QTcpSocket :=
  match s.peer with
  | some (chunk :: rest) => (true, { s with buffer := s.buffer ++ chunk, peer := some rest })
  | _ => (false, s)

section Calls

variable (fromUtf8 : List UInt8 → String)

/-- Read one line, with at most the given number of waits. -/
def socketReadLineSync : ℕ → QTcpSocket → Option (String × QTcpSocket)
  | 0, s =>
    if s.canReadLine then some (trimmedLine (fromUtf8 s.readLine.1), s.readLine.2) else none
  | waits + 1, s =>
    if s.canReadLine then some (trimmedLine (fromUtf8 s.readLine.1), s.readLine.2)
    else socketReadLineSync waits s.waitForReadyRead.2

/-- Connect to the server and read its two lines of welcome. -/
def start (waits : ℕ) (s : QTcpSocket) : Option (Bool × QTcpSocket) :=
  if s.peer.isSome then do
    let (line, s) ← s.socketReadLineSync fromUtf8 waits
    if line ≠ "TS3" then some (false, s)
    else do
      let (_, s) ← s.socketReadLineSync fromUtf8 waits
      some (true, s)
  else some (false, s)

/-- Send a command and check the number in its reply. -/
def runCommand (waits : ℕ) (s : QTcpSocket) (cmd : String) (parameters : List (String × List String)) :
    Option (Bool × QTcpSocket) := do
  let (line, s) ← (s.write (createCommand cmd parameters [])).socketReadLineSync fromUtf8 waits
  if (parseError line).1 ≠ 0 then some (false, s) else some (true, s)

/-- Log in to the query console. -/
def login (waits : ℕ) (s : QTcpSocket) (loginName loginPassword : String) : Option (Bool × QTcpSocket) :=
  s.runCommand fromUtf8 waits "login"
    [("client_login_name", [loginName]), ("client_login_password", [loginPassword])]

/-- Select a virtual server. -/
def useByPort (waits : ℕ) (s : QTcpSocket) (port : UInt16) : Option (Bool × QTcpSocket) :=
  s.runCommand fromUtf8 waits "use" [("port", [toString port.toNat])]

/-- Change the own nickname. -/
def updateNickname (waits : ℕ) (s : QTcpSocket) (nickname : String) : Option (Bool × QTcpSocket) :=
  s.runCommand fromUtf8 waits "clientupdate" [("client_nickname", [nickname])]

/-- Send a command and read the items of its reply. -/
def queryItems (waits : ℕ) (s : QTcpSocket) (cmd : String) (parameters : List (String × List String))
    (options : List String) : Option (List Item × QTcpSocket) := do
  let (line, s) ← (s.write (createCommand cmd parameters options)).socketReadLineSync fromUtf8 waits
  if isErrorLine line then some ([], s)
  else do
    let (_, s) ← s.socketReadLineSync fromUtf8 waits
    some (parseItemList line, s)

/-- The clients on the selected virtual server. -/
def clientList (waits : ℕ) (s : QTcpSocket) : Option (List Item × QTcpSocket) :=
  s.queryItems fromUtf8 waits "clientlist" [] ["-ip"]

/-- The server groups of a client. -/
def serverGroupsByClientId (waits : ℕ) (s : QTcpSocket) (clientDbId : ℕ) :
    Option (List Item × QTcpSocket) :=
  s.queryItems fromUtf8 waits "servergroupsbyclientid" [("cldbid", [toString clientDbId])] []

end Calls

end QTcpSocket

/-- The calls of a query console that read lines. -/
inductive Call where
  | start
  | command (command : Command)
  | clientList
  | serverGroupsByClientId (clientDbId : ℕ)

/-- Run one of the calls. -/
def TS3QueryConsoleSocketSync.call (s : TS3QueryConsoleSocketSync) : Call → Option TS3QueryConsoleSocketSync
  | .start => s.start.map Prod.snd
  | .command command => (s.run command).map Prod.snd
  | .clientList => s.clientList.map Prod.snd
  | .serverGroupsByClientId clientDbId => (s.serverGroupsByClientId clientDbId).map Prod.snd

namespace TS3QueryConsoleSocketSync

/-- How many lines a call reads, given those that arrive. -/
def linesRead (reachable : Bool) (pending : List String) : Call → ℕ
  | .start =>
    if ¬ reachable then 0 else if pending.head?.map trimmedLine = some "TS3" then 2 else 1
  | .command _ => 1
  | .clientList | .serverGroupsByClientId _ =>
    if pending.head?.any fun line => isErrorLine (trimmedLine line) then 1 else 2

/-- Every line that a sequence of calls reads arrives. -/
def LinesSuffice (reachable : Bool) : List String → List Call → Prop
  | _, [] => True
  | pending, c :: calls =>
    linesRead reachable pending c ≤ pending.length ∧
      LinesSuffice reachable (pending.drop (linesRead reachable pending c)) calls

/-- A call takes a number of lines, and does not return if there are fewer. -/
def Takes (s : TS3QueryConsoleSocketSync) (n : ℕ) (x : Option TS3QueryConsoleSocketSync) : Prop :=
  (n ≤ s.pending.length → ∃ written, x = some { s with written, pending := s.pending.drop n }) ∧
    (s.pending.length < n → x = none)

variable {s : TS3QueryConsoleSocketSync}

/-- Connecting takes the lines of welcome. -/
theorem takes_start : s.Takes (linesRead s.reachable s.pending .start) (s.start.map Prod.snd) := by
  obtain ⟨reachable, server, written, pending⟩ := s
  cases reachable with
  | false => simp [Takes, start, linesRead]
  | true =>
    cases pending with
    | nil => simp [Takes, start, socketReadLineSync, linesRead]
    | cons line rest =>
      by_cases hwelcome : trimmedLine line = "TS3"
      · cases rest with
        | nil => simp [Takes, start, socketReadLineSync, linesRead, hwelcome]
        | cons second rest => simp [Takes, start, socketReadLineSync, linesRead, hwelcome]
      · simp [Takes, start, socketReadLineSync, linesRead, hwelcome]

section Silent

variable (hserver : ∀ cmds, s.server cmds = [])

include hserver

/-- A command with a short reply takes one line. -/
theorem takes_runCommand (cmd : String) (parameters : List (String × List String)) :
    s.Takes 1 ((s.runCommand cmd parameters).map Prod.snd) := by
  obtain ⟨reachable, server, written, pending⟩ := s
  obtain rfl : server = fun _ => [] := funext hserver
  cases pending with
  | nil => simp [Takes, runCommand, socketReadLineSync, write]
  | cons line rest =>
    by_cases hzero : (parseError (trimmedLine line)).1 = 0
    · simp [Takes, runCommand, socketReadLineSync, write, hzero]
    · simp [Takes, runCommand, socketReadLineSync, write, hzero]

/-- A command that asks for items takes their line and the error line behind it. -/
theorem takes_queryItems (cmd : String) (parameters : List (String × List String))
    (options : List String) :
    s.Takes (if s.pending.head?.any fun line => isErrorLine (trimmedLine line) then 1 else 2)
      ((s.queryItems cmd parameters options).map Prod.snd) := by
  obtain ⟨reachable, server, written, pending⟩ := s
  obtain rfl : server = fun _ => [] := funext hserver
  cases pending with
  | nil => simp [Takes, queryItems, socketReadLineSync, write]
  | cons line rest =>
    by_cases herror : isErrorLine (trimmedLine line)
    · simp [Takes, queryItems, socketReadLineSync, write, herror]
    · cases rest with
      | nil => simp [Takes, queryItems, socketReadLineSync, write, herror]
      | cons second rest => simp [Takes, queryItems, socketReadLineSync, write, herror]

/-- Each call takes the lines it reads. -/
theorem takes_call (c : Call) : s.Takes (linesRead s.reachable s.pending c) (s.call c) := by
  cases c with
  | start => exact takes_start
  | command command =>
    cases command with
    | login loginName loginPassword => exact takes_runCommand hserver _ _
    | useByPort port => exact takes_runCommand hserver _ _
    | updateNickname nickname => exact takes_runCommand hserver _ _
  | clientList => exact takes_queryItems hserver _ _ _
  | serverGroupsByClientId clientDbId => exact takes_queryItems hserver _ _ _

/-- A sequence of calls returns just if every line it reads arrives. -/
theorem calls_isSome_iff (calls : List Call) :
    (calls.foldlM call s).isSome ↔ LinesSuffice s.reachable s.pending calls := by
  induction calls generalizing s with
  | nil => exact iff_of_true rfl trivial
  | cons c calls ih =>
    obtain ⟨hreturns, hhangs⟩ := takes_call hserver c
    rw [List.foldlM_cons, LinesSuffice]
    by_cases hle : linesRead s.reachable s.pending c ≤ s.pending.length
    · obtain ⟨written, hcall⟩ := hreturns hle
      rw [hcall, and_iff_right hle]
      exact ih (s := { s with written, pending := s.pending.drop _ }) hserver
    · rw [hhangs (Nat.lt_of_not_le hle)]
      exact iff_of_false Bool.false_ne_true fun h => hle h.1

end Silent

end TS3QueryConsoleSocketSync

namespace QTcpSocket

section Runs

variable (fromUtf8 : List UInt8 → String)

/-- Run one of the commands. -/
def run (waits : ℕ) (s : QTcpSocket) : Command → Option (Bool × QTcpSocket)
  | .login loginName loginPassword => s.login fromUtf8 waits loginName loginPassword
  | .useByPort port => s.useByPort fromUtf8 waits port
  | .updateNickname nickname => s.updateNickname fromUtf8 waits nickname

/-- Run one of the calls, with at most the given number of waits for each line. -/
def call (waits : ℕ) (s : QTcpSocket) : Call → Option QTcpSocket
  | .start => (s.start fromUtf8 waits).map Prod.snd
  | .command command => (s.run fromUtf8 waits command).map Prod.snd
  | .clientList => (s.clientList fromUtf8 waits).map Prod.snd
  | .serverGroupsByClientId clientDbId => (s.serverGroupsByClientId fromUtf8 waits clientDbId).map Prod.snd

/-- Connect, read the welcome and run further calls. -/
def session (waits : ℕ) (peer : Option (List (List UInt8))) (calls : List Call) : Option QTcpSocket :=
  (.start :: calls).foldlM (call fromUtf8 waits) (connectTo peer)

/-- The console above a socket: the lines that are complete once everything has arrived. -/
def console (s : QTcpSocket) : TS3QueryConsoleSocketSync where
  reachable := s.peer.isSome
  server := fun _ => []
  written := s.written
  pending := (LineReader.completeLines lineFeed (s.buffer ++ s.chunks.flatten)).map fromUtf8

/-- What a call on a socket returns, seen at the console above. -/
def seen {β : Type} (result : β × QTcpSocket) : β × TS3QueryConsoleSocketSync :=
  (result.1, result.2.console fromUtf8)

/-- The chunks that are left after a call. -/
def left {β : Type} (result : β × QTcpSocket) : ℕ := result.2.chunks.length

variable {fromUtf8} {enough : Prop} {waits : ℕ} {s : QTcpSocket}

/-- A complete line is one whose end is in the buffer. -/
theorem canReadLine_iff : s.canReadLine = true ↔ lineFeed ∈ s.buffer := by
  rw [canReadLine, List.contains_iff_mem]

/-- The lines above the socket are the same before and after a chunk arrives. -/
theorem console_waitForReadyRead : s.waitForReadyRead.2.console fromUtf8 = s.console fromUtf8 := by
  obtain ⟨buffer, _ | _ | ⟨chunk, rest⟩, written⟩ := s
  · rfl
  · rfl
  · rw [console, console, waitForReadyRead, chunks, chunks, Option.getD_some, Option.getD_some,
      List.flatten_cons, List.append_assoc]
    rfl

/-- A wait takes the first chunk. -/
theorem chunks_waitForReadyRead : s.waitForReadyRead.2.chunks = s.chunks.tail := by
  obtain ⟨buffer, _ | _ | ⟨chunk, rest⟩, written⟩ := s
  · rfl
  · rfl
  · rfl

/-- A command that is written brings no lines by itself. -/
theorem console_write (cmd : String) :
    (s.console fromUtf8).write cmd = (s.write cmd).console fromUtf8 := by
  rw [TS3QueryConsoleSocketSync.write, console, List.append_nil]
  rfl

/-- The line in the buffer is the one that the console above reads. -/
theorem console_readLine (h : lineFeed ∈ s.buffer) :
    (s.console fromUtf8).socketReadLineSync =
      some (seen fromUtf8 (trimmedLine (fromUtf8 s.readLine.1), s.readLine.2)) := by
  have hall : lineFeed ∈ s.buffer ++ s.chunks.flatten := List.mem_append_left _ h
  rw [console, TS3QueryConsoleSocketSync.socketReadLineSync, LineReader.completeLines_of_mem hall,
    LineReader.readLine_append h]
  rfl

/-- Nothing is read any more when all has arrived and no line is complete. -/
theorem console_of_not_mem (h : lineFeed ∉ s.buffer) (hnone : s.chunks = []) :
    (s.console fromUtf8).socketReadLineSync = none := by
  rw [console, hnone, List.flatten_nil, List.append_nil, LineReader.completeLines_of_not_mem h]
  rfl

/-- A line is read if it is there or arrives later, and not otherwise. -/
theorem follows_socketReadLineSync (h : enough → s.chunks.length ≤ waits) :
    Follows (seen fromUtf8) left enough waits (s.socketReadLineSync fromUtf8 waits)
      (s.console fromUtf8).socketReadLineSync := by
  induction waits generalizing s with
  | zero =>
    rw [socketReadLineSync]
    split
    · next hline =>
      rw [console_readLine (canReadLine_iff.mp hline)]
      exact .some h
    · next hno =>
      refine ⟨fun a heq => absurd heq.symm (Option.some_ne_none _), fun he hy => absurd ?_ hy⟩
      exact console_of_not_mem (fun hmem => hno (canReadLine_iff.mpr hmem))
        (List.eq_nil_of_length_eq_zero (Nat.le_zero.mp (h he)))
  | succ waits ih =>
    rw [socketReadLineSync]
    split
    · next hline =>
      rw [console_readLine (canReadLine_iff.mp hline)]
      exact .some h
    · rw [← console_waitForReadyRead]
      refine (ih fun he => ?_).succ
      rw [chunks_waitForReadyRead, List.length_tail]
      exact Nat.sub_le_of_le_add (h he)

/-- Connecting follows the console above. -/
theorem follows_start (h : enough → s.chunks.length ≤ waits) :
    Follows (seen fromUtf8) left enough waits (s.start fromUtf8 waits) (s.console fromUtf8).start := by
  rw [start, TS3QueryConsoleSocketSync.start]
  change Follows _ _ _ _ _ (if s.peer.isSome = true then _ else _)
  split
  · refine (follows_socketReadLineSync h).bind fun first hfirst => ?_
    dsimp only [seen]
    split
    · exact .some (a := (false, first.2)) hfirst
    · exact (follows_socketReadLineSync hfirst).bind fun second hsecond => .some (a := (true, second.2)) hsecond
  · exact .some (a := (false, s)) h

/-- A command with a short reply follows the console above. -/
theorem follows_runCommand (h : enough → s.chunks.length ≤ waits) (cmd : String)
    (parameters : List (String × List String)) :
    Follows (seen fromUtf8) left enough waits (s.runCommand fromUtf8 waits cmd parameters)
      ((s.console fromUtf8).runCommand cmd parameters) := by
  rw [runCommand, TS3QueryConsoleSocketSync.runCommand, console_write]
  refine (follows_socketReadLineSync (s := s.write _) h).bind fun reply hreply => ?_
  dsimp only [seen]
  split
  · exact .some (a := (false, reply.2)) hreply
  · exact .some (a := (true, reply.2)) hreply

/-- A command that asks for items follows the console above. -/
theorem follows_queryItems (h : enough → s.chunks.length ≤ waits) (cmd : String)
    (parameters : List (String × List String)) (options : List String) :
    Follows (seen fromUtf8) left enough waits (s.queryItems fromUtf8 waits cmd parameters options)
      ((s.console fromUtf8).queryItems cmd parameters options) := by
  rw [queryItems, TS3QueryConsoleSocketSync.queryItems, console_write]
  refine (follows_socketReadLineSync (s := s.write _) h).bind fun items hitems => ?_
  dsimp only [seen]
  split
  · exact .some (a := ([], items.2)) hitems
  · exact (follows_socketReadLineSync hitems).bind fun error herror =>
      .some (a := (parseItemList items.1, error.2)) herror

/-- Each call follows the console above. -/
theorem follows_call (c : Call) (h : enough → s.chunks.length ≤ waits) :
    Follows (console fromUtf8) (fun s => s.chunks.length) enough waits (s.call fromUtf8 waits c)
      ((s.console fromUtf8).call c) := by
  have hsnd : ∀ {β : Type} {x : Option (β × QTcpSocket)} {y : Option (β × TS3QueryConsoleSocketSync)},
      Follows (seen fromUtf8) left enough waits x y →
      Follows (console fromUtf8) (fun s => s.chunks.length) enough waits (x.map Prod.snd) (y.map Prod.snd) :=
    fun hfollows => hfollows.map (fun _ => rfl) fun _ => Nat.le_refl _
  cases c with
  | start => exact hsnd (follows_start h)
  | command command =>
    cases command with
    | login loginName loginPassword => exact hsnd (follows_runCommand h _ _)
    | useByPort port => exact hsnd (follows_runCommand h _ _)
    | updateNickname nickname => exact hsnd (follows_runCommand h _ _)
  | clientList => exact hsnd (follows_queryItems h _ _ _)
  | serverGroupsByClientId clientDbId => exact hsnd (follows_queryItems h _ _ _)

variable (fromUtf8)

/-- With some number of waits a session returns just if it returns on the console above. -/
theorem session_returns_iff_console (peer : Option (List (List UInt8))) (calls : List Call) :
    (∃ waits, (session fromUtf8 waits peer calls).isSome) ↔
      ((.start :: calls).foldlM TS3QueryConsoleSocketSync.call
        ((connectTo peer).console fromUtf8)).isSome := by
  have hfollows : ∀ waits, Follows (console fromUtf8) (fun s => s.chunks.length)
      ((connectTo peer).chunks.length ≤ waits) waits (session fromUtf8 waits peer calls)
      ((.start :: calls).foldlM TS3QueryConsoleSocketSync.call ((connectTo peer).console fromUtf8)) :=
    fun _ => .foldlM (fun _ c h => follows_call c h) (.start :: calls) id
  exact exists_isSome_iff hfollows

/-- However the bytes of the peer are cut into chunks, a session returns after some number of waits just if
they have all the lines that its calls read. -/
theorem session_returns_iff (peer : Option (List (List UInt8))) (calls : List Call) :
    (∃ waits, (session fromUtf8 waits peer calls).isSome) ↔
      LinesSuffice peer.isSome ((LineReader.completeLines lineFeed (peer.getD []).flatten).map fromUtf8)
        (.start :: calls) := by
  rw [session_returns_iff_console, calls_isSome_iff fun _ => rfl]
  rfl

end Runs

/-- A peer that closes the connection at once is waited for without end. -/
theorem session_hangs :
    ¬ ∃ waits, (session (fun bytes => String.ofList (bytes.map fun b => Char.ofNat b.toNat)) waits
      (some []) []).isSome := by
  rw [session_returns_iff_console]
  decide

end QTcpSocket

end Ts3Video
