import HopToDesk.Kit.Text
import HopToDesk.Kit.MapValues
import HopToDesk.Kit.System

/-!
# Commands for a connection window

A connection window is a child process, and the tools of `src/mcp_server.rs` write it one line a
command, on its standard input. `start_stdin_command_reader` of `src/ui/remote.rs` reads the lines
and keeps what they ask for until the window gets to it.

What is written is the text of the pipe, from its first line to its last.
-/

set_option autoImplicit false

namespace HopToDesk.Client

open Kit Kit.Text

/-! ## The tools -/

namespace ChildCommands

def validButtons : List Text :=
  ["fullscreen".toList, "chat".toList, "action".toList, "display".toList, "keyboard".toList,
    "recording".toList, "securitycode".toList, "transfer-file".toList, "remote-print".toList,
    "screenshot".toList, "switch-sides".toList, "privacy-mode".toList]

def validActionItems : List Text :=
  ["request-elevation".toList, "os-password".toList, "tunnel".toList, "ctrl-alt-del".toList,
    "restart_remote_device".toList, "lock-screen".toList, "block-input".toList,
    "take-screenshot".toList, "refresh".toList]

def validDisplayItems : List Text :=
  ["original".toList, "shrink".toList, "stretch".toList, "adaptive".toList, "best".toList,
    "balanced".toList, "low".toList, "custom".toList, "show-remote-cursor".toList,
    "disable-audio".toList, "disable-clipboard".toList, "lock-after-session-end".toList,
    "privacy-mode".toList, "show-quality-monitor".toList]

def validKeyboardItems : List Text := ["auto".toList, "map".toList, "translate".toList]

/-- A button, or a menu and an item of it behind the first colon. -/
def isValid (buttonId : Text) : Bool :=
  match buttonId.dropWhile (· != ':') with
  | [] => validButtons.contains buttonId
  | _ :: item =>
    let menu := buttonId.takeWhile (· != ':')
    if menu = "action".toList then validActionItems.contains item
    else if menu = "display".toList then validDisplayItems.contains item
    else if menu = "keyboard".toList then validKeyboardItems.contains item
    else false

def invalidButton (buttonId : Text) : Text :=
  "Invalid button_id '".toList ++ buttonId ++
    "'. Use a button ID (e.g. 'chat') or 'menu:item' for submenus ".toList ++
    "(e.g. 'display:shrink', ".toList ++
    "'action:ctrl-alt-del', 'keyboard:map')".toList

end ChildCommands

open ChildCommands

/-- A call of a tool that sends a command. -/
inductive ToolCall
  | dismissDialog
  | queryChildState
  | clickToolbarButton (buttonId : Text)
  | sendChatMessage (text : Text)
deriving DecidableEq, Repr

/-- The command it sends, or the error it returns before that. -/
def ToolCall.cmd : ToolCall → Except Text Text
  | .dismissDialog => .ok "dismiss".toList
  | .queryChildState => .ok "query_state".toList
  | .clickToolbarButton buttonId =>
    if isValid buttonId then .ok ("click_button:".toList ++ buttonId)
    else .error (invalidButton buttonId)
  | .sendChatMessage text => .ok ("chat:".toList ++ text)

/-- `send_to_child` to a window whose pipe is open. -/
def sendToChild (pipe cmd : Text) : Text := pipe ++ (cmd ++ ['\n'])

def ToolCall.run (pipe : Text) (call : ToolCall) : Text :=
  match call.cmd with
  | .ok cmd => sendToChild pipe cmd
  | .error _ => pipe

/-- What calls write, one after the other. -/
def written (calls : List ToolCall) : Text := calls.foldl ToolCall.run []

/-! ## The window -/

/-- What a line may ask for. -/
inductive ChildCommand
  | dismiss
  | queryState
  | clickButton (buttonId : Text)
  | chat (msg : Text)
  | password (pw : Text)
deriving DecidableEq, Repr

/-- The statics `MCP_*` that the reader sets. -/
structure McpRequests where
  dismissFlag : Bool
  queryStateFlag : Bool
  stateResult : Text
  clickButton : Text
  chatMsg : Text
  password : Text
deriving DecidableEq, Repr

def ChildCommand.ofLine (line : Text) : Option ChildCommand :=
  let cmd := trim line
  if cmd = "dismiss".toList then some .dismiss
  else if cmd = "query_state".toList then some .queryState
  else if "click_button:".toList.isPrefixOf cmd then
    some (.clickButton (cmd.drop "click_button:".toList.length))
  else if "chat:".toList.isPrefixOf cmd then some (.chat (cmd.drop "chat:".toList.length))
  else if "password:".toList.isPrefixOf cmd then
    some (.password (cmd.drop "password:".toList.length))
  else none

namespace McpRequests

def store (s : McpRequests) : ChildCommand → McpRequests
  | .dismiss => { s with dismissFlag := true }
  | .queryState => { s with stateResult := [], queryStateFlag := true }
  | .clickButton buttonId => { s with clickButton := buttonId }
  | .chat msg => { s with chatMsg := msg }
  | .password pw => { s with password := pw }

def readLine (s : McpRequests) (line : Text) : McpRequests :=
  match ChildCommand.ofLine line with
  | some command => s.store command
  | none => s

/-- `start_stdin_command_reader`. -/
def startStdinCommandReader (s : McpRequests) (stdin : Text) : McpRequests :=
  (lines stdin).foldl readLine s

end McpRequests

/-- The commands in what is read. -/
def recognised (stdin : Text) : List ChildCommand := (lines stdin).filterMap ChildCommand.ofLine

end HopToDesk.Client

/-!
## The windows that are open

Each connection is shown by a child process. `new_remote` of `src/ui.rs` starts it, and keeps it
under the peer and the kind of connection, but the pipe to its standard input under the peer alone.
`send_to_child` writes to that pipe, `close_remote_connection` kills a child of the peer, and
`list_active_connections` lists the children that are kept.

`windows` is any sequence of these calls and of children that exit by themselves, with all that were
ever started; a child is known by its place among them. A map visits its keys in any order, so which
key of a peer is found first is part of the step, and so is whether a child can be started. Killing
a child that runs succeeds, and writing to one succeeds exactly while it runs.
-/

namespace HopToDesk.Client

open Kit

/-- The peer, and the kind of connection. -/
abbrev WindowKey := Text × Text

structure Child where
  key : WindowKey
  exited : Bool
  stdin : Text
deriving DecidableEq, Repr

/-- What the last step was, where it is a call whose outcome counts. -/
inductive WindowCall
  | other
  | closed (peerId : Text)
  | listed (connections : List (Text × Text × Bool))
deriving DecidableEq, Repr

/-- `CHILDREN` and `CHILD_STDINS`, and the processes. -/
structure Windows where
  procs : List Child
  children : AList fun _ : WindowKey => Nat
  stdins : AList fun _ : Text => Nat
  last : WindowCall

namespace Windows

def new : Windows := ⟨[], ∅, ∅, .other⟩

/-- The child has not exited. -/
def running (s : Windows) (c : Nat) : Bool := s.procs[c]?.any fun child => !child.exited

/-- A child exits, or is killed. -/
def stop (s : Windows) (c : Nat) : Windows :=
  { s with procs := s.procs.modify c fun child => { child with exited := true } }

/-- The end of `new_remote`: the child is started, unless that fails. -/
def spawn (s : Windows) (key : WindowKey) (spawned : Bool) : Windows :=
  if spawned then
    { s with
      procs := s.procs ++ [⟨key, false, []⟩]
      stdins := s.stdins.insert key.1 s.procs.length
      children := s.children.insert key s.procs.length }
  else s

def newRemote (s : Windows) (id remoteType : Text) (spawned : Bool) : Windows :=
  let key := (id, remoteType)
  match s.children.lookup key with
  | none => s.spawn key spawned
  | some c =>
    if !s.running c then { s with children := s.children.erase key }.spawn key spawned
    else if remoteType = "rdp".toList then
      { s.stop c with children := s.children.erase key }.spawn key spawned
    else s

/-- The child that `send_to_child` writes to. -/
def writesTo (s : Windows) (peerId : Text) : Option Nat :=
  (s.stdins.lookup peerId).filter s.running

/-- `send_to_child`; it tells whether the command was written. -/
def sendToChild (s : Windows) (peerId cmd : Text) : Bool × Windows :=
  match s.writesTo peerId with
  | none => (false, s)
  | some c =>
    (true, { s with
      procs := s.procs.modify c fun child =>
        { child with stdin := Client.sendToChild child.stdin cmd } })

/-- `close_remote_connection`, with the key that is found. -/
def closeRemoteConnection (s : Windows) (peerId : Text) (keyToRemove : Option WindowKey) :
    Windows :=
  match keyToRemove with
  | none => s
  | some key =>
    let s := match s.children.lookup key with
      | some c => { s.stop c with children := s.children.erase key }
      | none => s
    { s with stdins := s.stdins.erase peerId }

/-- `list_active_connections`. -/
def listActiveConnections (s : Windows) : List (Text × Text × Bool) :=
  s.children.entries.map fun e => (e.1.1, e.1.2, true)

end Windows

inductive WindowStep
  | newRemote (id remoteType : Text) (spawned : Bool)
  | sendToChild (peerId cmd : Text)
  | closeRemoteConnection (peerId : Text) (keyToRemove : Option WindowKey)
  | listActiveConnections
  | exit (c : Nat)
deriving DecidableEq, Repr

namespace Windows

/-- It is a key of the peer, or there is none. -/
def Finds (s : Windows) (peerId : Text) : Option WindowKey → Prop
  | some key => key ∈ s.children.keys ∧ key.1 = peerId
  | none => ∀ key ∈ s.children.keys, key.1 ≠ peerId

instance (s : Windows) (peerId : Text) (found : Option WindowKey) :
    Decidable (s.Finds peerId found) := by
  cases found <;> unfold Finds <;> infer_instance

def next (s : Windows) : WindowStep → Option Windows
  | .newRemote id remoteType spawned =>
    some { s.newRemote id remoteType spawned with last := .other }
  | .sendToChild peerId cmd => some { (s.sendToChild peerId cmd).2 with last := .other }
  | .closeRemoteConnection peerId keyToRemove =>
    if s.Finds peerId keyToRemove then
      some { s.closeRemoteConnection peerId keyToRemove with last := .closed peerId }
    else none
  | .listActiveConnections => some { s with last := .listed s.listActiveConnections }
  | .exit c => if s.running c then some { s.stop c with last := .other } else none

end Windows

def windows : System Windows WindowStep := System.stepping (· = Windows.new) Windows.next

end HopToDesk.Client
