import HopToDesk.Host.Webview

/-!
# The scripts that are handed to the page of a session

The window of a session is a web page too, and `SciterHandler` of `src/ui/remote.rs` tells it by
scripts what its peer says. Each handler is here that makes a literal of texts and plain words. Those
are left out whose literal has numbers with a fraction, pixels or nested lists: no text of a peer
stands in them as it was sent, but in the listing of a folder, which is written as JSON by a library.
-/

set_option autoImplicit false

namespace HopToDesk.Client

open Kit EcmaScript
open Host.Webview (Data Script bare quotesEscaped bothEscaped int)
open Host.Webview renaming bool → flag

namespace RemoteWebview

def nullData : Data := .word "null".toList

/-- Literal names of methods. -/
def send (method : String) (data : Data) : Script := ⟨method.toList, data⟩

def setDisplay (w h : Int) : Script :=
  send "set_display" (.object [("w".toList, int w), ("h".toList, int h)])

def setPermission (name : Text) (value : Bool) : Script :=
  send "set_permission"
    (.object [("name".toList, .quoted quotesEscaped name), ("value".toList, flag value)])

def closeSuccess : Script := send "cancel_msgbox" nullData

/-- The cursors of a style sheet, by the names of those of a peer. -/
def cssCursors : List (List String × String) :=
  [(["default"], "default"), (["hand", "pointer"], "pointer"), (["text", "ibeam"], "text"),
    (["cross", "crosshair"], "crosshair"), (["move"], "move"), (["not-allowed", "no"], "not-allowed"),
    (["wait", "busy"], "wait"), (["progress", "working"], "progress"), (["help"], "help"),
    (["n-resize", "ns-resize"], "ns-resize"), (["e-resize", "ew-resize"], "ew-resize"),
    (["ne-resize", "nesw-resize"], "nesw-resize"), (["nw-resize", "nwse-resize"], "nwse-resize")]

def cssCursor (id : Text) : Text :=
  match cssCursors.find? fun x => x.1.any fun name => decide (name.toList = id) with
  | some x => x.2.toList
  | none => "default".toList

def setCursorId (id : Text) : Script := send "set_cursor_id" (.text bare (cssCursor id))

def setConnectionType (isSecured direct : Bool) (securityNumbers : Text) : Script :=
  send "set_connection_type"
    (.object [("secured".toList, flag isSecured), ("direct".toList, flag direct),
      ("security_numbers".toList, .quoted bare securityNumbers)])

def jobError (id : Int) (err : Text) (fileNum : Int) : Script :=
  send "job_error"
    (.object [("id".toList, int id), ("err".toList, .quoted bothEscaped err),
      ("file_num".toList, int fileNum)])

def jobDone (id fileNum : Int) : Script :=
  send "job_done" (.object [("id".toList, int id), ("file_num".toList, int fileNum)])

def clearAllJobs : Script := send "clear_all_jobs" nullData

def loadLastJob (cnt : Int) (jobJson : Text) (autoStart : Bool) : Script :=
  send "load_last_job"
    (.object [("cnt".toList, int cnt), ("job".toList, .quoted bothEscaped jobJson),
      ("auto_start".toList, flag autoStart)])

def newMessage (msg : Text) : Script :=
  send "new_message"
    (.object [("name".toList, .quoted bare "Remote".toList),
      ("text".toList, .quoted bothEscaped msg)])

def updateTransferList : Script := send "update_transfer_list" nullData

def confirmDeleteFiles (id cnt : Int) (name : Text) : Script :=
  send "confirm_delete_files"
    (.object [("id".toList, int id), ("cnt".toList, int cnt),
      ("name".toList, .quoted bothEscaped name)])

def overrideFileConfirm (id fileNum : Int) (to_ : Text) (isUpload isIdentical : Bool) : Script :=
  send "override_file_confirm"
    (.object [("id".toList, int id), ("file_num".toList, int fileNum),
      ("to".toList, .quoted bothEscaped to_), ("is_upload".toList, flag isUpload),
      ("is_identical".toList, flag isIdentical)])

def updateBlockInputState (on : Bool) : Script :=
  send "update_block_input_state" (.word (Json.writeBool on))

def newFrame : Script := send "new_frame" (.word "true".toList)

def msgbox (msgtype title text link : Text) (retry : Bool) : Script :=
  send "msgbox"
    (.object [("type".toList, .quoted bothEscaped msgtype),
      ("title".toList, .quoted bothEscaped title), ("text".toList, .quoted bothEscaped text),
      ("link".toList, .quoted bare link), ("retry".toList, flag retry)])

def cancelMsgbox : Script := send "cancel_msgbox" nullData

def switchDisplay (display x y width height : Int) : Script :=
  send "switch_display"
    (.object [("display".toList, int display), ("x".toList, int x), ("y".toList, int y),
      ("width".toList, int width), ("height".toList, int height)])

/-- `PeerInfo`, as far as the page is told of it. -/
structure PeerInfo where
  username : Text
  hostname : Text
  platform : Text
  version : Text
  sasEnabled : Bool
  numDisplays : Nat
  dashboardLinked : Bool

def setPeerInfo (p : PeerInfo) : Script :=
  send "set_peer_info"
    (.object [("username".toList, .quoted bothEscaped p.username),
      ("hostname".toList, .quoted bothEscaped p.hostname),
      ("platform".toList, .quoted bothEscaped p.platform),
      ("version".toList, .quoted bothEscaped p.version),
      ("sas_enabled".toList, flag p.sasEnabled), ("num_displays".toList, int p.numDisplays),
      ("dashboard_linked".toList, flag p.dashboardLinked)])

def onConnected : Script := send "on_connected" nullData

def setCurrentDisplay (dispIdx : Int) : Script :=
  send "set_current_display" (.word (Json.writeInt dispIdx))

def updateRecordStatus (start : Bool) : Script :=
  send "update_record_status" (.word (Json.writeBool start))

def handleScreenshotResp (msg : Text) : Script :=
  send "handle_screenshot_resp" (.text bothEscaped msg)

def terminalOpened (terminalId : Int) (success : Bool) (message : Text) : Script :=
  send "terminalOpened"
    (.object [("id".toList, int terminalId), ("success".toList, flag success),
      ("message".toList, .quoted bothEscaped message)])

def terminalClosed (terminalId exitCode : Int) : Script :=
  send "terminalClosed"
    (.object [("id".toList, int terminalId), ("exit_code".toList, int exitCode)])

def terminalError (terminalId : Int) (message : Text) : Script :=
  send "terminalError"
    (.object [("id".toList, int terminalId), ("message".toList, .quoted bothEscaped message)])

/-! ## A message box of the peer -/

/-- The links that a peer can show, by the name it gives them: there is one, and it is empty. -/
def helperUrl : List (Text × Text) := [([], []), ([], []), ([], [])]

/-- The link of a message box, where a peer names one. -/
def trustedLink (link : Text) : Text := (helperUrl.lookup link).getD []

/-- A message box of the peer, as the session hands it on. -/
def messageBox (msgtype title text link : Text) (retry : Bool) : Script :=
  msgbox msgtype title text (trustedLink link) retry

/-- What the page of a session is told, with the texts it is told. -/
inductive Handler
  | setDisplay (w h : Int)
  | setPermission (name : Text) (value : Bool)
  | closeSuccess
  | setCursorId (id : Text)
  | setConnectionType (isSecured direct : Bool) (securityNumbers : Text)
  | jobError (id : Int) (err : Text) (fileNum : Int)
  | jobDone (id fileNum : Int)
  | clearAllJobs
  | loadLastJob (cnt : Int) (jobJson : Text) (autoStart : Bool)
  | newMessage (msg : Text)
  | updateTransferList
  | confirmDeleteFiles (id cnt : Int) (name : Text)
  | overrideFileConfirm (id fileNum : Int) (to_ : Text) (isUpload isIdentical : Bool)
  | updateBlockInputState (on : Bool)
  | newFrame
  | msgbox (msgtype title text link : Text) (retry : Bool)
  | messageBox (msgtype title text link : Text) (retry : Bool)
  | cancelMsgbox
  | switchDisplay (display x y width height : Int)
  | setPeerInfo (p : PeerInfo)
  | onConnected
  | setCurrentDisplay (dispIdx : Int)
  | updateRecordStatus (start : Bool)
  | handleScreenshotResp (msg : Text)
  | terminalOpened (terminalId : Int) (success : Bool) (message : Text)
  | terminalClosed (terminalId exitCode : Int)
  | terminalError (terminalId : Int) (message : Text)

def Handler.script : Handler → Script
  | .setDisplay w h => RemoteWebview.setDisplay w h
  | .setPermission name value => RemoteWebview.setPermission name value
  | .closeSuccess => RemoteWebview.closeSuccess
  | .setCursorId id => RemoteWebview.setCursorId id
  | .setConnectionType isSecured direct securityNumbers =>
    RemoteWebview.setConnectionType isSecured direct securityNumbers
  | .jobError id err fileNum => RemoteWebview.jobError id err fileNum
  | .jobDone id fileNum => RemoteWebview.jobDone id fileNum
  | .clearAllJobs => RemoteWebview.clearAllJobs
  | .loadLastJob cnt jobJson autoStart => RemoteWebview.loadLastJob cnt jobJson autoStart
  | .newMessage msg => RemoteWebview.newMessage msg
  | .updateTransferList => RemoteWebview.updateTransferList
  | .confirmDeleteFiles id cnt name => RemoteWebview.confirmDeleteFiles id cnt name
  | .overrideFileConfirm id fileNum to_ isUpload isIdentical =>
    RemoteWebview.overrideFileConfirm id fileNum to_ isUpload isIdentical
  | .updateBlockInputState on => RemoteWebview.updateBlockInputState on
  | .newFrame => RemoteWebview.newFrame
  | .msgbox msgtype title text link retry => RemoteWebview.msgbox msgtype title text link retry
  | .messageBox msgtype title text link retry =>
    RemoteWebview.messageBox msgtype title text link retry
  | .cancelMsgbox => RemoteWebview.cancelMsgbox
  | .switchDisplay display x y width height =>
    RemoteWebview.switchDisplay display x y width height
  | .setPeerInfo p => RemoteWebview.setPeerInfo p
  | .onConnected => RemoteWebview.onConnected
  | .setCurrentDisplay dispIdx => RemoteWebview.setCurrentDisplay dispIdx
  | .updateRecordStatus start => RemoteWebview.updateRecordStatus start
  | .handleScreenshotResp msg => RemoteWebview.handleScreenshotResp msg
  | .terminalOpened terminalId success message =>
    RemoteWebview.terminalOpened terminalId success message
  | .terminalClosed terminalId exitCode => RemoteWebview.terminalClosed terminalId exitCode
  | .terminalError terminalId message => RemoteWebview.terminalError terminalId message

end RemoteWebview

end HopToDesk.Client
