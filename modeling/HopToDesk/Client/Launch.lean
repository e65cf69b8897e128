import HopToDesk.Kit.Decimal
import HopToDesk.Kit.Unicode

/-!
# The arguments of a connection window

`new_remote` of `src/ui.rs` starts a process for a connection and tells it with a list of arguments
what to connect to; a link that is opened does the same. In the process three readers follow one
another: `core_main` filters the list and takes a link apart, `start` of `src/ui.rs` finds in it
what the session is given, and `io_loop` of `src/ui_session_interface.rs` what ports to forward in
the rest.

The list has a command for a connection in its first place. What `core_main` does for other commands
or on Windows only is left out, and so are the files in which a team and a token are noted. Which
host names are addresses, and what the others resolve to, are parameters.
-/

set_option autoImplicit false

namespace HopToDesk.Client

open Kit Kit.Text

namespace Launch

/-! ## The arguments -/

/-- The arguments of the process that `new_remote` starts. -/
def newRemoteArgs (id remoteType : Text) (forceRelay : Bool)
    (selfIdOpt invitePasswordOpt : Option Text) : List Text :=
  let args :=
    if remoteType = "invite".toList then
      ["--invite".toList, id] ++ selfIdOpt.toList ++ invitePasswordOpt.toList
    else
      let password :=
        match invitePasswordOpt with
        | some pwd => ["--password".toList, pwd]
        | none => []
      ["--".toList ++ remoteType, id] ++ password
  if forceRelay then
    args ++ (if remoteType ≠ "invite".toList then [[]] else []) ++ ["--relay".toList]
  else args

/-! ## `core_main` -/

/-- The arguments that are kept, and what the others said. -/
structure CoreArgs where
  args : List Text
  switchUuid : Option Text
  isElevate : Bool
  isRunAsSystem : Bool
  isQuickSupport : Bool
  noServer : Bool
deriving DecidableEq, Repr

namespace CoreArgs

def new : CoreArgs := ⟨[], none, false, false, false, false⟩

def isSwitchUuid (arg : Text) : Bool :=
  arg = "--switch-uuid".toList || arg = "--switch_uuid".toList

def take (s : CoreArgs) (arg : Text) : CoreArgs :=
  if arg = "--elevate".toList then { s with isElevate := true }
  else if arg = "--run-as-system".toList then { s with isRunAsSystem := true }
  else if arg = "--quick_support".toList then { s with isQuickSupport := true }
  else if arg = "--no-server".toList then { s with noServer := true }
  else { s with args := s.args ++ [arg] }

/-- The loop over the arguments, which looks at the next one for the value of `--switch-uuid`. -/
def readAll : CoreArgs → List Text → CoreArgs
  | s, [] => s
  | s, [arg] => s.take arg
  | s, arg :: value :: rest =>
    if isSwitchUuid arg && !"--".toList.isPrefixOf value then
      readAll { s with switchUuid := some value } rest
    else readAll (s.take arg) (value :: rest)

end CoreArgs

/-- The link of `--connect`, under the scheme of the program. -/
def normalized (arg : Text) : Text :=
  match afterFirst "://".toList arg with
  | some rest => "hoptodesk://".toList ++ rest
  | none => arg

/-- What becomes of a link; with `sync` the process ends. -/
def openLink : List Text → Option (List Text)
  | command :: arg :: rest =>
    if command = "--connect".toList then
      let input := normalized arg
      match stripPrefix "hoptodesk://connect/".toList input with
      | some idWithPassword =>
        let parts := idWithPassword.splitOn '/'
        some (command :: parts.headD [] :: (rest ++ (parts.drop 1).take 1))
      | none =>
        match stripPrefix "hoptodesk://filetransfer/".toList input with
        | some id => some ("--file-transfer".toList :: id :: rest)
        | none =>
          if "hoptodesk://sync/".toList.isPrefixOf input then none
          else some (command :: input :: rest)
    else some (command :: arg :: rest)
  | args => some args

/-- `core_main`, for a command that opens a connection. -/
def coreMain (args : List Text) : Option (List Text) :=
  let args := (CoreArgs.readAll .new args).args
  openLink (if args.contains "--noinstall".toList then [] else args)

/-! ## `start` -/

structure RemoteParams where
  cmd : Text
  id : Text
  pass : Text
  tokenexp : Text
  args : List Text
deriving DecidableEq, Repr

/-- What is known of names: those that are addresses or numbers, and the address of another. -/
structure Resolver where
  isAddress : Text → Bool
  resolveHostname : Text → Option Text

/-- What the loop over the arguments has found. -/
structure StartArgs where
  id : Text
  idFound : Bool
  pass : Text
  tokenexp : Text
  remaining : List Text
deriving DecidableEq, Repr

namespace StartArgs

def new : StartArgs := ⟨[], false, [], [], []⟩

def put (s : StartArgs) (arg : Text) : StartArgs :=
  if !s.idFound && !"--".toList.isPrefixOf arg then { s with id := arg, idFound := true }
  else { s with remaining := s.remaining ++ [arg] }

def readAll : StartArgs → List Text → StartArgs
  | s, [] => s
  | s, [arg] => if arg = "--password".toList ∨ arg = "--tokenex".toList then s else s.put arg
  | s, arg :: value :: rest =>
    if arg = "--password".toList then readAll { s with pass := value } rest
    else if arg = "--tokenex".toList then readAll { s with tokenexp := value } rest
    else readAll (s.put arg) (value :: rest)

/-- The arguments of `--file-transfer --select-for-print`, by their places. -/
def forPrint (rest : List Text) : StartArgs where
  id := rest.headD []
  idFound := true
  pass := (rest.drop 1).headD []
  tokenexp := (rest.drop 3).headD []
  remaining := "--select-for-print".toList :: rest.drop 4

end StartArgs

def connectionCommands : List Text :=
  ["--connect".toList, "--file-transfer".toList, "--port-forward".toList, "--rdp".toList,
    "--view-camera".toList, "--terminal".toList]

/-- What `--connect` finds in its first argument, or else takes for a token in its second. -/
def connectParams (args : List Text) (id pass tokenexp : Text) : Text × Text × Text :=
  let fullArg := args.headD []
  if "hoptodesk://sso-login/".toList.isPrefixOf fullArg ||
      "hoptodesk://file-transfer/".toList.isPrefixOf fullArg then
    let parts := fullArg.splitOn '/'
    if 5 ≤ parts.length then
      match parts.find? fun s => byteLen s = 32 with
      | some token => (parts.getD 3 [], token, token)
      | none => (parts.getD 3 [], pass, tokenexp)
    else (id, pass, tokenexp)
  else (id, pass, (args.drop 1).headD [])

/-- `start`: the parameters of the session, if it opens a connection. -/
def start (r : Resolver) : List Text → Option RemoteParams
  | [] => none
  | cmd :: args =>
    if connectionCommands.contains cmd && !args.isEmpty then
      let s :=
        if cmd = "--file-transfer".toList ∧ args.head? = some "--select-for-print".toList then
          StartArgs.forPrint (args.drop 1)
        else StartArgs.readAll .new args
      let id :=
        if '.' ∈ s.id ∧ ¬ r.isAddress s.id then (r.resolveHostname s.id).getD s.id
        else s.id
      if id = "hoptodesk:///".toList ∨ id = [] then none
      else
        let (id, pass, tokenexp) :=
          if cmd = "--connect".toList then connectParams args id s.pass s.tokenexp
          else (id, s.pass, s.tokenexp)
        some ⟨cmd, id, pass, tokenexp, s.remaining⟩
    else none

/-- From the arguments of the process to the session. -/
def launch (r : Resolver) (args : List Text) : Option RemoteParams :=
  (coreMain args).bind (start r)

/-! ## The session -/

namespace RemoteParams

/-- `force_relay` of `start_remote_session`. -/
def forceRelay (params : RemoteParams) : Bool := params.args.contains "--relay".toList

end RemoteParams

/-- `parse::<i32>`. -/
def parseI32 (t : Text) : Option Int :=
  (Decimal.parseI64 t).filter fun n => decide (-2 ^ 31 ≤ n ∧ n < 2 ^ 31)

/-- What `io_loop` forwards: the ports of the peer, or the one in the arguments, which may be
reported to be invalid. -/
inductive PortForward
  | rdp
  | ofPeer
  | one (port : Int) (remoteHost : Text) (remotePort : Int) (valid : Bool)
deriving DecidableEq, Repr

/-- The arguments of a session for port forwards; an index out of bounds is none. -/
def portForward (params : RemoteParams) : Option PortForward :=
  if params.cmd = "--rdp".toList then some .rdp
  else
    match params.args with
    | [] => some .ofPeer
    | first :: rest => do
      let port := (parseI32 first).getD 0
      let lastPort := ((params.args.drop 2).head?.bind parseI32).getD 0
      let valid := decide (params.args.length = 3 ∧ 0 < lastPort ∧ 0 < port)
      let remoteHost ← rest[0]?
      let remotePort ← rest[1]?
      some (.one port remoteHost ((parseI32 remotePort).getD 0) valid)

end Launch

end HopToDesk.Client
