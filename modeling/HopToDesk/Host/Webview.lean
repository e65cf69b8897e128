import HopToDesk.Kit.Json
import HopToDesk.Kit.ScriptText

/-!
# The scripts that are handed to the pages

The connection manager and the main window are web pages, and what they are told is a script: a call
of `window.onRustResponse` with the name of a method and a literal. The literal is put together
from the texts by hand. Each handler of `src/ui/cm.rs`, and each answer of `handle_ipc_message` in
`src/ui.rs` up to `get_teamid`, is here with the texts it gets; what these functions look up
(options, the peers that are stored or were discovered, a password) is an argument.

Of a client, those fields are here that a script is made of.
-/

set_option autoImplicit false

namespace HopToDesk.Host

open Kit EcmaScript

namespace Webview

/-- The literal a page is called with. -/
inductive Data
  | object (fields : List (Text × Part))
  | text (k : Quoting) (t : Text)
  | word (t : Text)

def Data.write : Data → Text
  | object fields => writeObject fields
  | text k t => (Part.quoted k t).write
  | word t => t

structure Script where
  method : Text
  data : Data

def onRustResponse : Text := "window.onRustResponse".toList

/-- What `send_to_cm_webview` and `send_to_webview` make of the method and the data. -/
def Script.text (s : Script) : Text := writeCall onRustResponse s.method s.data.write

/-! ## Ways to quote -/

/-- In double quotes, as it is. -/
def bare : Quoting := ⟨'"', .inl rfl, false, false⟩

/-- In double quotes, with those in it escaped. -/
def quotesEscaped : Quoting := ⟨'"', .inl rfl, false, true⟩

/-- In double quotes, with those in it escaped, and the backslashes before. -/
def bothEscaped : Quoting := ⟨'"', .inl rfl, true, true⟩

/-- In single quotes, as it is. -/
def single : Quoting := ⟨'\'', .inr rfl, false, false⟩

/-- In single quotes, with those in it escaped. -/
def singleEscaped : Quoting := ⟨'\'', .inr rfl, false, true⟩

def int (n : Int) : Part := .word (Json.writeInt n)

def bool (b : Bool) : Part := .word (Json.writeBool b)

/-! ## The connection manager -/

/-- `Client` of `src/ui_cm_interface.rs`. -/
structure Client where
  id : Int
  authorized : Bool
  isFileTransfer : Bool
  portForward : Text
  name : Text
  peerId : Text
  keyboard : Bool
  clipboard : Bool
  audio : Bool
  file : Bool
  restart : Bool
  recording : Bool
  isInvite : Bool
  incomingLinkDashboard : Bool
  linkDashboardAccountName : Text
  linkDashboardExistingAccountName : Text

def addConnection (client : Client) (securityNumbers : Text) : Script where
  method := "add_connection".toList
  data := .object
    [("id".toList, int client.id), ("peer_id".toList, .quoted quotesEscaped client.peerId),
      ("name".toList, .quoted bothEscaped client.name),
      ("authorized".toList, bool client.authorized), ("keyboard".toList, bool client.keyboard),
      ("clipboard".toList, bool client.clipboard), ("audio".toList, bool client.audio),
      ("file".toList, bool client.file), ("restart".toList, bool client.restart),
      ("recording".toList, bool client.recording),
      ("is_file_transfer".toList, bool client.isFileTransfer),
      ("is_port_forward".toList, bool !client.portForward.isEmpty),
      ("is_invite".toList, bool client.isInvite),
      ("security_numbers".toList, .quoted quotesEscaped securityNumbers)]

def removeConnection (id : Int) (close : Bool) : Script where
  method := "remove_connection".toList
  data := .object [("id".toList, int id), ("close".toList, bool close)]

def newMessage (id : Int) (text : Text) : Script where
  method := "new_message".toList
  data := .object [("id".toList, int id), ("text".toList, .quoted bothEscaped text)]

def changeTheme (dark : Text) : Script := ⟨"change_theme".toList, .text bare dark⟩

def showElevation (show_ : Bool) : Script := ⟨"show_elevation".toList, .word (Json.writeBool show_)⟩

def updateLinkDashboardState (client : Client) : Script where
  method := "update_link_dashboard".toList
  data := .object
    [("id".toList, int client.id), ("incoming".toList, bool client.incomingLinkDashboard),
      ("account_name".toList, .quoted bothEscaped client.linkDashboardAccountName),
      ("existing_account_name".toList,
        .quoted bothEscaped client.linkDashboardExistingAccountName)]

def fileTransferLog (action logMsg : Text) : Script where
  method := "file_transfer_log".toList
  data := .object
    [("action".toList, .quoted quotesEscaped action), ("log".toList, .quoted bothEscaped logMsg)]

def acceptInvite (id : Int) : Script := ⟨"accept_invite".toList, .object [("id".toList, int id)]⟩

def declineInvite (id : Int) : Script := ⟨"decline_invite".toList, .object [("id".toList, int id)]⟩

/-! ## The main window -/

/-- An answer with a text in double quotes. -/
def answerText (method : String) (t : Text) : Script := ⟨method.toList, .text bare t⟩

/-- An answer with the JSON of a value in single quotes. -/
def answerJson (method : String) (x : Json) : Script := ⟨method.toList, .text single x.write⟩

def strings (ts : List Text) : Json := .arr (ts.map .str)

def textMap (m : List (Text × Text)) : Json := .obj (m.map fun x => (x.1, .str x.2))

/-- `PeerInfoSerde`, and the alias of the options. -/
structure PeerInfo where
  username : Text
  hostname : Text
  platform : Text
  alias_ : Text

def PeerInfo.json (id : Text) (p : PeerInfo) : Json :=
  textMap [("id".toList, id), ("username".toList, p.username), ("hostname".toList, p.hostname),
    ("platform".toList, p.platform), ("alias".toList, p.alias_)]

/-- `DiscoveryPeer`, as far as it is passed on. -/
structure DiscoveryPeer where
  id : Text
  username : Text
  hostname : Text
  platform : Text

/-- A hash map gives its fields in any order. -/
def DiscoveryPeer.json (p : DiscoveryPeer) (order : Equiv.Perm (Fin 4)) : Json :=
  let fields : Fin 4 → Text × Text := ![("id".toList, p.id), ("username".toList, p.username),
    ("hostname".toList, p.hostname), ("platform".toList, p.platform)]
  textMap (List.ofFn fun i => fields (order i))

def getId (id : Text) : Script := answerText "get_id" id

def getConnectStatus (statusNum : Int) (keyConfirmed : Bool) (id : Text) : Script :=
  answerJson "get_connect_status" (.obj [("status_num".toList, .num statusNum),
    ("key_confirmed".toList, .bool keyConfirmed), ("id".toList, .str id)])

def temporaryPassword (pw : Text) : Script := answerText "temporary_password" pw

def permanentPassword (pw : Text) : Script := answerText "permanent_password" pw

def getRecentSessions (peers : List (Text × PeerInfo)) : Script :=
  answerJson "get_recent_sessions" (.arr (peers.map fun p => p.2.json p.1))

def getOption (val : Text) : Script := answerText "get_option" val

def getLocalOption (key val : Text) : Script where
  method := "get_local_option".toList
  data := .object [("key".toList, .quoted bothEscaped key), ("value".toList, .quoted bothEscaped val)]

def getPeerOption (val : Text) : Script := answerText "get_peer_option" val

def getOptionsJson (options : List (Text × Text)) : Script :=
  answerJson "get_options_json" (textMap options)

def getPeerJson (id : Text) (p : PeerInfo) : Script := answerJson "get_peer_json" (p.json id)

def getFavJson (fav : List Text) : Script := answerJson "get_fav_json" (strings fav)

def getAb (entry : Json) : Script := ⟨"get_ab".toList, .text singleEscaped entry.write⟩

def getLanPeers (peers : List (DiscoveryPeer × Equiv.Perm (Fin 4))) : Script :=
  answerJson "get_lan_peers" (.arr (peers.map fun p => p.1.json p.2))

def getIcon (icon : Text) : Script := answerText "get_icon" icon

def getVersion (v : Text) : Script := answerText "get_version" v

def getFingerprint (fp : Text) : Script := answerText "get_fingerprint" fp

def getAppName (n : Text) : Script := answerText "get_app_name" n

def isInstalled (v : Bool) : Script := ⟨"is_installed".toList, .word (Json.writeBool v)⟩

def getSoundInputs (inputs : List Text) : Script := answerJson "get_sound_inputs" (strings inputs)

def getUuid (u : Text) : Script := answerText "get_uuid" u

def getLangs (langs : List (Text × Text)) : Script :=
  answerJson "get_langs" (.arr (langs.map fun l => strings [l.1, l.2]))

def translate (result : Text) : Script := ⟨"translate_result".toList, .text bothEscaped result⟩

def translateBatch (map : List (Text × Text)) : Script :=
  ⟨"translate_batch_result".toList, .text singleEscaped (textMap map).write⟩

def getRemoteId (id : Text) : Script := answerText "get_remote_id" id

def getSizeJson (x y w h : Int) : Script :=
  answerJson "get_size_json" (.arr [.num x, .num y, .num w, .num h])

def getAsyncJobStatus (s : Text) : Script := answerText "get_async_job_status" s

def getLoginDeviceInfo (os type name : Text) : Script :=
  answerJson "get_login_device_info"
    (textMap [("os".toList, os), ("type".toList, type), ("name".toList, name)])

def getTeamid (t : Text) : Script := answerText "get_teamid" t

/-- What a page is told, with the texts it is told. -/
inductive Handler
  | addConnection (client : Client) (securityNumbers : Text)
  | removeConnection (id : Int) (close : Bool)
  | newMessage (id : Int) (text : Text)
  | changeTheme (dark : Text)
  | showElevation (show_ : Bool)
  | updateLinkDashboardState (client : Client)
  | fileTransferLog (action logMsg : Text)
  | acceptInvite (id : Int)
  | declineInvite (id : Int)
  | getId (id : Text)
  | getConnectStatus (statusNum : Int) (keyConfirmed : Bool) (id : Text)
  | temporaryPassword (pw : Text)
  | permanentPassword (pw : Text)
  | getRecentSessions (peers : List (Text × PeerInfo))
  | getOption (val : Text)
  | getLocalOption (key val : Text)
  | getPeerOption (val : Text)
  | getOptionsJson (options : List (Text × Text))
  | getPeerJson (id : Text) (p : PeerInfo)
  | getFavJson (fav : List Text)
  | getAb (entry : Json)
  | getLanPeers (peers : List (DiscoveryPeer × Equiv.Perm (Fin 4)))
  | getIcon (icon : Text)
  | getVersion (v : Text)
  | getFingerprint (fp : Text)
  | getAppName (n : Text)
  | isInstalled (v : Bool)
  | getSoundInputs (inputs : List Text)
  | getUuid (u : Text)
  | getLangs (langs : List (Text × Text))
  | translate (result : Text)
  | translateBatch (map : List (Text × Text))
  | getRemoteId (id : Text)
  | getSizeJson (x y w h : Int)
  | getAsyncJobStatus (s : Text)
  | getLoginDeviceInfo (os type name : Text)
  | getTeamid (t : Text)

def Handler.script : Handler → Script
  | .addConnection client securityNumbers => Webview.addConnection client securityNumbers
  | .removeConnection id close => Webview.removeConnection id close
  | .newMessage id text => Webview.newMessage id text
  | .changeTheme dark => Webview.changeTheme dark
  | .showElevation show_ => Webview.showElevation show_
  | .updateLinkDashboardState client => Webview.updateLinkDashboardState client
  | .fileTransferLog action logMsg => Webview.fileTransferLog action logMsg
  | .acceptInvite id => Webview.acceptInvite id
  | .declineInvite id => Webview.declineInvite id
  | .getId id => Webview.getId id
  | .getConnectStatus statusNum keyConfirmed id => Webview.getConnectStatus statusNum keyConfirmed id
  | .temporaryPassword pw => Webview.temporaryPassword pw
  | .permanentPassword pw => Webview.permanentPassword pw
  | .getRecentSessions peers => Webview.getRecentSessions peers
  | .getOption val => Webview.getOption val
  | .getLocalOption key val => Webview.getLocalOption key val
  | .getPeerOption val => Webview.getPeerOption val
  | .getOptionsJson options => Webview.getOptionsJson options
  | .getPeerJson id p => Webview.getPeerJson id p
  | .getFavJson fav => Webview.getFavJson fav
  | .getAb entry => Webview.getAb entry
  | .getLanPeers peers => Webview.getLanPeers peers
  | .getIcon icon => Webview.getIcon icon
  | .getVersion v => Webview.getVersion v
  | .getFingerprint fp => Webview.getFingerprint fp
  | .getAppName n => Webview.getAppName n
  | .isInstalled v => Webview.isInstalled v
  | .getSoundInputs inputs => Webview.getSoundInputs inputs
  | .getUuid u => Webview.getUuid u
  | .getLangs langs => Webview.getLangs langs
  | .translate result => Webview.translate result
  | .translateBatch map => Webview.translateBatch map
  | .getRemoteId id => Webview.getRemoteId id
  | .getSizeJson x y w h => Webview.getSizeJson x y w h
  | .getAsyncJobStatus s => Webview.getAsyncJobStatus s
  | .getLoginDeviceInfo os type name => Webview.getLoginDeviceInfo os type name
  | .getTeamid t => Webview.getTeamid t

/-! ## Where a client comes from -/

/-- `LoginRequest`, as far as the connection manager is told of it. -/
structure LoginRequest where
  myId : Text
  myName : Text

/-- What `try_start_cm` makes of a login, and `Data::Login` of it in the connection manager. -/
def clientOfLogin (connection : Client) (lr : LoginRequest) : Client :=
  { connection with
    peerId := lr.myId
    name := lr.myName
    incomingLinkDashboard := false
    linkDashboardAccountName := []
    linkDashboardExistingAccountName := [] }

end Webview

end HopToDesk.Host
