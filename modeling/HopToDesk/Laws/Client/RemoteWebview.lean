import HopToDesk.Client.RemoteWebview
import HopToDesk.Laws.Host.Webview

/-!
# Whether a session's page gets what the peer said

The handlers escape backslashes and quotes in what comes from the peer, and nothing else. A text of
one line arrives unchanged; one with a line feed or a carriage return ends the literal before its
quote, and the page cannot read the script. The rows of a terminal, which have an escaping of their
own, are not treated so.
-/

set_option autoImplicit false

namespace HopToDesk.Client

open Kit EcmaScript
open Host.Webview hiding bool

namespace RemoteWebview

/-- The texts of a peer's information are of one line each. -/
structure PeerInfo.OneLine (p : PeerInfo) : Prop where
  username : Host.Webview.OneLine p.username
  hostname : Host.Webview.OneLine p.hostname
  platform : Host.Webview.OneLine p.platform
  version : Host.Webview.OneLine p.version

theorem bare_cssCursor (id : Text) : Bare (cssCursor id) := by
  have hall : ∀ x ∈ cssCursors, Bare x.2.toList := by decide
  unfold cssCursor
  split
  next x hx => exact hall x (List.mem_of_find?_eq_some hx)
  next => decide

theorem trustedLink_eq (link : Text) : trustedLink link = [] := by
  cases link <;> rfl

/-! ## Handlers -/

theorem keeps_setPermission (name : Text) (value : Bool) :
    (setPermission name value).data.Keeps ↔ Straight name := by
  unfold setPermission send Host.Webview.bool
  dsimp only
  rw [keeps_quoted, keeps_word, keeps_quotesEscaped, and_iff_left keeps_nil]

theorem keeps_setConnectionType (isSecured direct : Bool) (securityNumbers : Text) :
    (setConnectionType isSecured direct securityNumbers).data.Keeps ↔ Bare securityNumbers := by
  unfold setConnectionType send Host.Webview.bool
  dsimp only
  rw [keeps_word, keeps_word, keeps_quoted, keeps_bare, and_iff_left keeps_nil]

theorem keeps_jobError (id : Int) (err : Text) (fileNum : Int) :
    (jobError id err fileNum).data.Keeps ↔ OneLine err := by
  unfold jobError send int
  dsimp only
  rw [keeps_word, keeps_quoted, keeps_word, keeps_bothEscaped, and_iff_left keeps_nil]

theorem keeps_loadLastJob (cnt : Int) (jobJson : Text) (autoStart : Bool) :
    (loadLastJob cnt jobJson autoStart).data.Keeps ↔ OneLine jobJson := by
  unfold loadLastJob send int Host.Webview.bool
  dsimp only
  rw [keeps_word, keeps_quoted, keeps_word, keeps_bothEscaped, and_iff_left keeps_nil]

theorem keeps_newMessage (msg : Text) : (newMessage msg).data.Keeps ↔ OneLine msg := by
  have hremote : Bare "Remote".toList := by decide
  unfold newMessage send
  dsimp only
  rw [keeps_quoted, keeps_quoted, keeps_bare, keeps_bothEscaped, and_iff_left keeps_nil,
    and_iff_right hremote]

theorem keeps_confirmDeleteFiles (id cnt : Int) (name : Text) :
    (confirmDeleteFiles id cnt name).data.Keeps ↔ OneLine name := by
  unfold confirmDeleteFiles send int
  dsimp only
  rw [keeps_word, keeps_word, keeps_quoted, keeps_bothEscaped, and_iff_left keeps_nil]

theorem keeps_overrideFileConfirm (id fileNum : Int) (to_ : Text) (isUpload isIdentical : Bool) :
    (overrideFileConfirm id fileNum to_ isUpload isIdentical).data.Keeps ↔ OneLine to_ := by
  unfold overrideFileConfirm send int Host.Webview.bool
  dsimp only
  rw [keeps_word, keeps_word, keeps_quoted, keeps_word, keeps_word, keeps_bothEscaped,
    and_iff_left keeps_nil]

theorem keeps_msgbox (msgtype title text link : Text) (retry : Bool) :
    (msgbox msgtype title text link retry).data.Keeps ↔
      OneLine msgtype ∧ OneLine title ∧ OneLine text ∧ Bare link := by
  unfold msgbox send Host.Webview.bool
  dsimp only
  rw [keeps_quoted, keeps_quoted, keeps_quoted, keeps_quoted, keeps_word, keeps_bothEscaped,
    keeps_bothEscaped, keeps_bothEscaped, keeps_bare, and_iff_left keeps_nil]

theorem keeps_messageBox (msgtype title text link : Text) (retry : Bool) :
    (messageBox msgtype title text link retry).data.Keeps ↔
      OneLine msgtype ∧ OneLine title ∧ OneLine text := by
  have hlink : Bare (trustedLink link) := by
    rw [trustedLink_eq]
    decide
  rw [messageBox, keeps_msgbox, and_iff_left hlink]

theorem keeps_setPeerInfo (p : PeerInfo) : (setPeerInfo p).data.Keeps ↔ p.OneLine := by
  unfold setPeerInfo send int Host.Webview.bool
  dsimp only
  rw [keeps_quoted, keeps_quoted, keeps_quoted, keeps_quoted, keeps_word, keeps_word, keeps_word,
    keeps_bothEscaped, keeps_bothEscaped, keeps_bothEscaped, keeps_bothEscaped,
    and_iff_left keeps_nil]
  constructor
  · rintro ⟨h1, h2, h3, h4⟩
    exact ⟨h1, h2, h3, h4⟩
  · rintro ⟨h1, h2, h3, h4⟩
    exact ⟨h1, h2, h3, h4⟩

theorem keeps_terminalOpened (terminalId : Int) (success : Bool) (message : Text) :
    (terminalOpened terminalId success message).data.Keeps ↔ OneLine message := by
  unfold terminalOpened send int Host.Webview.bool
  dsimp only
  rw [keeps_word, keeps_word, keeps_quoted, keeps_bothEscaped, and_iff_left keeps_nil]

theorem keeps_terminalError (terminalId : Int) (message : Text) :
    (terminalError terminalId message).data.Keeps ↔ OneLine message := by
  unfold terminalError send int
  dsimp only
  rw [keeps_word, keeps_quoted, keeps_bothEscaped, and_iff_left keeps_nil]

namespace Handler

/-- The texts of the peer are of one line each. Of those that are the session's own, a permission's
name has no backslash either, and what is not escaped has no quote. -/
def Readable : Handler → Prop
  | setPermission name _ => Straight name
  | setConnectionType _ _ securityNumbers => Bare securityNumbers
  | jobError _ err _ => OneLine err
  | loadLastJob _ jobJson _ => OneLine jobJson
  | newMessage msg => OneLine msg
  | confirmDeleteFiles _ _ name => OneLine name
  | overrideFileConfirm _ _ to_ _ _ => OneLine to_
  | msgbox msgtype title text link _ =>
    OneLine msgtype ∧ OneLine title ∧ OneLine text ∧ Bare link
  | messageBox msgtype title text _ _ => OneLine msgtype ∧ OneLine title ∧ OneLine text
  | setPeerInfo p => p.OneLine
  | handleScreenshotResp msg => OneLine msg
  | terminalOpened _ _ message => OneLine message
  | terminalError _ message => OneLine message
  | _ => True

theorem plainMethod (h : Handler) : PlainMethod h.script.method := by
  cases h <;> exact of_decide_eq_true rfl

theorem wellFormed (h : Handler) : h.script.data.WellFormed := by
  cases h with
  | setDisplay w h =>
    exact ⟨List.cons_ne_nil _ _,
      .cons (by decide) (int_inObject _) (.cons (by decide) (int_inObject _) .nil)⟩
  | setPermission name value =>
    exact ⟨List.cons_ne_nil _ _, .cons (by decide) rfl (.cons (by decide) (bool_inObject _) .nil)⟩
  | setConnectionType isSecured direct securityNumbers =>
    refine ⟨List.cons_ne_nil _ _, .cons (by decide) (bool_inObject _) ?_⟩
    exact .cons (by decide) (bool_inObject _) (.cons (by decide) rfl .nil)
  | jobError id err fileNum =>
    refine ⟨List.cons_ne_nil _ _, .cons (by decide) (int_inObject _) ?_⟩
    exact .cons (by decide) rfl (.cons (by decide) (int_inObject _) .nil)
  | jobDone id fileNum =>
    exact ⟨List.cons_ne_nil _ _,
      .cons (by decide) (int_inObject _) (.cons (by decide) (int_inObject _) .nil)⟩
  | loadLastJob cnt jobJson autoStart =>
    refine ⟨List.cons_ne_nil _ _, .cons (by decide) (int_inObject _) ?_⟩
    exact .cons (by decide) rfl (.cons (by decide) (bool_inObject _) .nil)
  | newMessage msg =>
    exact ⟨List.cons_ne_nil _ _, .cons (by decide) rfl (.cons (by decide) rfl .nil)⟩
  | confirmDeleteFiles id cnt name =>
    refine ⟨List.cons_ne_nil _ _, .cons (by decide) (int_inObject _) ?_⟩
    exact .cons (by decide) (int_inObject _) (.cons (by decide) rfl .nil)
  | overrideFileConfirm id fileNum to_ isUpload isIdentical =>
    refine ⟨List.cons_ne_nil _ _, .cons (by decide) (int_inObject _) ?_⟩
    refine .cons (by decide) (int_inObject _) (.cons (by decide) rfl ?_)
    exact .cons (by decide) (bool_inObject _) (.cons (by decide) (bool_inObject _) .nil)
  | msgbox msgtype title text link retry =>
    refine ⟨List.cons_ne_nil _ _, .cons (by decide) rfl (.cons (by decide) rfl ?_)⟩
    exact .cons (by decide) rfl (.cons (by decide) rfl (.cons (by decide) (bool_inObject _) .nil))
  | messageBox msgtype title text link retry =>
    refine ⟨List.cons_ne_nil _ _, .cons (by decide) rfl (.cons (by decide) rfl ?_)⟩
    exact .cons (by decide) rfl (.cons (by decide) rfl (.cons (by decide) (bool_inObject _) .nil))
  | switchDisplay display x y width height =>
    refine ⟨List.cons_ne_nil _ _, ?_⟩
    iterate 5 refine .cons (by decide) (int_inObject _) ?_
    exact .nil
  | setPeerInfo p =>
    refine ⟨List.cons_ne_nil _ _, ?_⟩
    iterate 4 refine .cons (by decide) rfl ?_
    refine .cons (by decide) (bool_inObject _) (.cons (by decide) (int_inObject _) ?_)
    exact .cons (by decide) (bool_inObject _) .nil
  | terminalOpened terminalId success message =>
    refine ⟨List.cons_ne_nil _ _, .cons (by decide) (int_inObject _) ?_⟩
    exact .cons (by decide) (bool_inObject _) (.cons (by decide) rfl .nil)
  | terminalClosed terminalId exitCode =>
    exact ⟨List.cons_ne_nil _ _,
      .cons (by decide) (int_inObject _) (.cons (by decide) (int_inObject _) .nil)⟩
  | terminalError terminalId message =>
    exact ⟨List.cons_ne_nil _ _, .cons (by decide) (int_inObject _) (.cons (by decide) rfl .nil)⟩
  | setCursorId id => trivial
  | handleScreenshotResp msg => trivial
  | updateBlockInputState on => exact writeBool_word on
  | updateRecordStatus start => exact writeBool_word start
  | setCurrentDisplay dispIdx => exact writeInt_word dispIdx
  | newFrame => exact writeBool_word true
  | _ => exact ⟨List.cons_ne_nil _ _, List.all_eq_true.mp rfl⟩

theorem keeps_iff (h : Handler) : h.script.data.Keeps ↔ h.Readable := by
  cases h with
  | setPermission name value => exact keeps_setPermission name value
  | setConnectionType isSecured direct securityNumbers =>
    exact keeps_setConnectionType isSecured direct securityNumbers
  | jobError id err fileNum => exact keeps_jobError id err fileNum
  | loadLastJob cnt jobJson autoStart => exact keeps_loadLastJob cnt jobJson autoStart
  | newMessage msg => exact keeps_newMessage msg
  | confirmDeleteFiles id cnt name => exact keeps_confirmDeleteFiles id cnt name
  | overrideFileConfirm id fileNum to_ isUpload isIdentical =>
    exact keeps_overrideFileConfirm id fileNum to_ isUpload isIdentical
  | msgbox msgtype title text link retry => exact keeps_msgbox msgtype title text link retry
  | messageBox msgtype title text link retry =>
    exact keeps_messageBox msgtype title text link retry
  | setPeerInfo p => exact keeps_setPeerInfo p
  | handleScreenshotResp msg => exact keeps_bothEscaped msg
  | terminalOpened terminalId success message =>
    exact keeps_terminalOpened terminalId success message
  | terminalError terminalId message => exact keeps_terminalError terminalId message
  | setCursorId id => exact iff_of_true ((keeps_bare _).mpr (bare_cssCursor id)) trivial
  | setDisplay w h => exact iff_of_true (keeps_word.mpr (keeps_word.mpr keeps_nil)) trivial
  | jobDone id fileNum => exact iff_of_true (keeps_word.mpr (keeps_word.mpr keeps_nil)) trivial
  | terminalClosed terminalId exitCode =>
    exact iff_of_true (keeps_word.mpr (keeps_word.mpr keeps_nil)) trivial
  | switchDisplay display x y width height =>
    refine iff_of_true ?_ trivial
    iterate 5 refine keeps_word.mpr ?_
    exact keeps_nil
  | _ => exact Iff.rfl

/-- **The page gets the texts unchanged, in one call, exactly when they are readable.** -/
theorem intact_iff_readable (h : Handler) : h.script.Intact ↔ h.Readable :=
  (Script.intact_iff_keeps h.plainMethod h.wellFormed).trans h.keeps_iff

end Handler

/-- A chat message of two lines is lost. -/
theorem newMessage_not_intact : ¬ ∀ msg : Text, (Handler.newMessage msg).script.Intact := by
  intro hall
  have hline := (keeps_newMessage _).mp
    ((Script.intact_iff_keeps (Handler.plainMethod _) (Handler.wellFormed _)).mp (hall ['a', '\n', 'b']))
  exact absurd hline (by decide)

end RemoteWebview

end HopToDesk.Client
