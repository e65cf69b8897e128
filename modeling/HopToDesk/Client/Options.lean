import HopToDesk.Host.Connection

/-!
# Options of a session, at the controlling side

`LoginConfigHandler` of `src/client.rs`, as far as it keeps the toggles of a session:
`toggle_option` turns one over in the stored config of the peer and says so to the host,
`get_option_message` gives the host all of them at the login. The quality of the picture, the codec
and the frame rate are left out of the messages.
-/

set_option autoImplicit false

namespace HopToDesk.Client.Options

open Kit HopToDesk.Host

/-- `ConnType`. -/
inductive ConnType
  | defaultConn
  | fileTransfer
  | portForward
  | rdp
  | viewCamera
  | terminal
deriving DecidableEq, Repr

/-- The toggles of `PeerConfig`, and its table of other options. -/
structure PeerConfig where
  showRemoteCursor : Bool
  followRemoteCursor : Bool
  followRemoteWindow : Bool
  disableAudio : Bool
  disableClipboard : Bool
  lockAfterSessionEnd : Bool
  privacyMode : Bool
  enableFileCopyPaste : Bool
  showQualityMonitor : Bool
  allowSwapKey : Bool
  viewOnly : Bool
  showMyCursor : Bool
  options : String → Option String

/-- An `OptionMessage` of the controlling side: what the host's connection acts on, and the rest. -/
structure Message extends OptionMessage where
  privacyMode : Option BoolOption
  blockInput : Option BoolOption
  showMyCursor : Option BoolOption
deriving DecidableEq, Repr

/-- `OptionMessage::default()`. -/
def Message.unset : Message := ⟨.unset, some .notSet, some .notSet, some .notSet⟩

/-- The handler of a session: its copy of the config of the peer, and the config that is stored. -/
structure LoginConfigHandler where
  connType : ConnType
  config : PeerConfig
  file : PeerConfig

/-- `if b { BoolOption::Yes } else { BoolOption::No }`. -/
def boolOption (b : Bool) : Option BoolOption := some (if b then .yes else .no)

/-- `BoolOption::Yes` where it is asked for, else what `OptionMessage::new()` has. -/
def yesIf (b : Bool) : Option BoolOption := some (if b then .yes else .notSet)

namespace LoginConfigHandler

variable (h : LoginConfigHandler)

/-- `load_config`. -/
def loadConfig : PeerConfig := h.file

/-- `save_config`. -/
def saveConfig (config : PeerConfig) : LoginConfigHandler :=
  { h with config := config, file := config }

/-- `get_option`. -/
def getOption (k : String) : String := (h.config.options k).getD ""

/-- `get_toggle_option`. -/
def getToggleOption (name : String) : Bool :=
  if name = "show-remote-cursor" then h.config.showRemoteCursor
  else if name = "lock-after-session-end" then h.config.lockAfterSessionEnd
  else if name = "privacy-mode" then h.config.privacyMode
  else if name = "enable-file-copy-paste" then h.config.enableFileCopyPaste
  else if name = "disable-audio" then h.config.disableAudio
  else if name = "disable-clipboard" then h.config.disableClipboard
  else if name = "show-quality-monitor" then h.config.showQualityMonitor
  else if name = "allow_swap_key" then h.config.allowSwapKey
  else if name = "view-only" then h.config.viewOnly
  else if name = "show-my-cursor" then h.config.showMyCursor
  else if name = "follow-remote-cursor" then h.config.followRemoteCursor
  else if name = "follow-remote-window" then h.config.followRemoteWindow
  else h.getOption name ≠ ""

/-- The `view-only` branch of `toggle_option`, of the stored config already turned over. -/
def viewOnlyMessage (config : PeerConfig) : PeerConfig × Message :=
  if config.viewOnly then
    (config, { Message.unset with
      disableKeyboard := boolOption true
      disableClipboard := boolOption true
      showRemoteCursor := boolOption true
      enableFileTransfer := boolOption false
      lockAfterSessionEnd := boolOption false })
  else
    let option := { Message.unset with
      disableKeyboard := boolOption false
      disableClipboard := boolOption (h.getToggleOption "disable-clipboard")
      showRemoteCursor := boolOption (h.getToggleOption "show-remote-cursor")
      enableFileTransfer := boolOption h.config.enableFileCopyPaste
      lockAfterSessionEnd := boolOption h.config.lockAfterSessionEnd }
    if config.showMyCursor then
      ({ config with showMyCursor := false }, { option with showMyCursor := boolOption false })
    else (config, option)

/-- The options `toggle_option` keeps in the table. Nothing is said to the host. -/
def toggleOther (name : String) : LoginConfigHandler :=
  let isSet := (h.config.options name).any (· ≠ "")
  let options := Function.update h.config.options name (if isSet then none else some "Y")
  h.saveConfig { h.config with options := options }

/-- `toggle_option`. -/
def toggleOption (name : String) : LoginConfigHandler × Option Message :=
  let config := h.loadConfig
  let say (config : PeerConfig) (option : Message) : LoginConfigHandler × Option Message :=
    (h.saveConfig config, some option)
  if name = "show-remote-cursor" then
    let v := !config.showRemoteCursor
    say { config with showRemoteCursor := v }
      { Message.unset with showRemoteCursor := boolOption v }
  else if name = "follow-remote-cursor" then
    let v := !config.followRemoteCursor
    say { config with followRemoteCursor := v }
      { Message.unset with followRemoteCursor := boolOption v }
  else if name = "follow-remote-window" then
    let v := !config.followRemoteWindow
    say { config with followRemoteWindow := v }
      { Message.unset with followRemoteWindow := boolOption v }
  else if name = "disable-audio" then
    let v := !config.disableAudio
    say { config with disableAudio := v } { Message.unset with disableAudio := boolOption v }
  else if name = "disable-clipboard" then
    let v := !config.disableClipboard
    say { config with disableClipboard := v }
      { Message.unset with disableClipboard := boolOption v }
  else if name = "lock-after-session-end" then
    let v := !config.lockAfterSessionEnd
    say { config with lockAfterSessionEnd := v }
      { Message.unset with lockAfterSessionEnd := boolOption v }
  else if name = "privacy-mode" then
    say config { Message.unset with privacyMode := boolOption !config.privacyMode }
  else if name = "enable-file-copy-paste" then
    let v := !config.enableFileCopyPaste
    say { config with enableFileCopyPaste := v }
      { Message.unset with enableFileTransfer := boolOption v }
  else if name = "block-input" then
    (h, some { Message.unset with blockInput := boolOption true })
  else if name = "unblock-input" then
    (h, some { Message.unset with blockInput := boolOption false })
  else if name = "show-quality-monitor" then
    say { config with showQualityMonitor := !config.showQualityMonitor } .unset
  else if name = "allow_swap_key" then
    say { config with allowSwapKey := !config.allowSwapKey } .unset
  else if name = "view-only" then
    let (config, option) := h.viewOnlyMessage { config with viewOnly := !config.viewOnly }
    say config option
  else if name = "show-my-cursor" then
    let v := !config.showMyCursor
    say { config with showMyCursor := v } { Message.unset with showMyCursor := boolOption v }
  else (h.toggleOther name, none)

/-- `update_privacy_mode` of `src/client/io_loop.rs`: what the host said of its privacy mode. -/
def updatePrivacyMode (implKey : String) (on : Bool) : LoginConfigHandler :=
  let config := { h.loadConfig with privacyMode := on }
  if on then
    let implKey := if implKey = "" then "privacy_mode_impl_mag" else implKey
    h.saveConfig { config with
      options := Function.update config.options "privacy-mode-impl-key" (some implKey) }
  else h.saveConfig config

/-- The toggles of `get_option_message`. -/
def optionMessage : Message :=
  let viewOnly := h.getToggleOption "view-only"
  { lockAfterSessionEnd := yesIf (!viewOnly && h.getToggleOption "lock-after-session-end")
    showRemoteCursor := yesIf (viewOnly || h.getToggleOption "show-remote-cursor")
    followRemoteCursor := yesIf (h.getToggleOption "follow-remote-cursor")
    followRemoteWindow := yesIf (h.getToggleOption "follow-remote-window")
    disableAudio := yesIf (h.getToggleOption "disable-audio")
    enableFileTransfer := yesIf (!viewOnly && h.getToggleOption "enable-file-copy-paste")
    disableClipboard := yesIf (viewOnly || h.getToggleOption "disable-clipboard")
    disableKeyboard := yesIf viewOnly
    privacyMode := some .notSet
    blockInput := some .notSet
    showMyCursor := yesIf (viewOnly && h.getToggleOption "show-my-cursor") }

/-- `get_option_message`. -/
def getOptionMessage : Option Message :=
  if h.connType = .portForward ∨ h.connType = .rdp ∨ h.connType = .fileTransfer then none
  else some h.optionMessage

end LoginConfigHandler

end HopToDesk.Client.Options
