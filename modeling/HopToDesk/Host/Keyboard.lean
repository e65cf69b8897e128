import HopToDesk.Kit.System

/-!
# Simulated keys

The controlled side simulates the keys of the peer, through enigo in the legacy mode and through
rdev with raw key codes in the others. `KEYS_DOWN` records the keys that are pressed, so that a key
whose release never comes can be released after a time, or when the process ends.

An event leaves the list of what it did to the keyboard, oldest first; what that means for the keys
is read off the list: a press that is accepted holds a key, a release releases it, a click and a
text hold nothing. The state of a key and whether a press is accepted are chosen by each event. The
clicks that bring the lock keys in line before and after an event are left out.
-/

set_option autoImplicit false

namespace HopToDesk.Host

open Kit

/-! ## Keys -/

inductive ControlKey
  | unknown | alt | backspace | capsLock | control | delete | downArrow | «end» | escape | f1 | f10
  | f11 | f12 | f2 | f3 | f4 | f5 | f6 | f7 | f8 | f9 | home | leftArrow | «meta» | option
  | pageDown | pageUp | «return» | rightArrow | shift | space | tab | upArrow | numpad0 | numpad1
  | numpad2 | numpad3 | numpad4 | numpad5 | numpad6 | numpad7 | numpad8 | numpad9 | cancel
  | clear | menu | pause | kana | hangul | junja | final | hanja | kanji | convert | select
  | print | execute | snapshot | insert | help | sleep | separator | scroll | numLock | rWin
  | apps | multiply | add | subtract | decimal | divide | equals | numpadEnter | rShift
  | rControl | rAlt | volumeMute | volumeUp | volumeDown | power | ctrlAltDel | lockScreen
deriving DecidableEq

/-- The number of a control key in the protocol. -/
def ControlKey.value : ControlKey → Int32
  | .ctrlAltDel => 100
  | .lockScreen => 101
  | ck => Int32.ofNat ck.ctorIdx

/-- `enigo::Key`. -/
inductive Key
  | alt | backspace | capsLock | command | control | delete | downArrow | «end» | escape | f1 | f10
  | f11 | f12 | f2 | f3 | f4 | f5 | f6 | f7 | f8 | f9 | home | leftArrow | «meta» | option
  | pageDown | pageUp | «return» | rightArrow | shift | space | super | tab | upArrow | windows
  | numpad0 | numpad1 | numpad2 | numpad3 | numpad4 | numpad5 | numpad6 | numpad7 | numpad8
  | numpad9 | cancel | clear | pause | kana | hangul | junja | final | hanja | kanji | convert
  | select | print | execute | snapshot | insert | help | sleep | separator | volumeUp
  | volumeDown | mute | scroll | numLock | rWin | apps | multiply | add | subtract | decimal
  | divide | equals | numpadEnter | rightShift | rightControl | rightAlt
  | layout (chr : Char) | raw (code : UInt16)
deriving DecidableEq

/-- The keys that are simulated: those of enigo, and of rdev those with a raw code and two by
name. -/
inductive SimKey
  | enigo (key : Key)
  | rawKey (code : UInt32)
  | shiftLeft
  | shiftRight
deriving DecidableEq

inductive KeysDown
  | rdevKey (rawkey : UInt32)
  | enigoKey (key : UInt64)
deriving DecidableEq

def keyMapEntries : List (ControlKey × Key) :=
  [
    (.alt, .alt), (.backspace, .backspace), (.capsLock, .capsLock), (.control, .control),
    (.delete, .delete), (.downArrow, .downArrow), (.«end», .«end»), (.escape, .escape), (.f1, .f1),
    (.f10, .f10), (.f11, .f11), (.f12, .f12), (.f2, .f2), (.f3, .f3), (.f4, .f4), (.f5, .f5),
    (.f6, .f6), (.f7, .f7), (.f8, .f8), (.f9, .f9), (.home, .home), (.leftArrow, .leftArrow),
    (.«meta», .«meta»), (.option, .option), (.pageDown, .pageDown), (.pageUp, .pageUp),
    (.«return», .«return»), (.rightArrow, .rightArrow), (.shift, .shift), (.space, .space),
    (.tab, .tab), (.upArrow, .upArrow), (.numpad0, .numpad0), (.numpad1, .numpad1),
    (.numpad2, .numpad2), (.numpad3, .numpad3), (.numpad4, .numpad4), (.numpad5, .numpad5),
    (.numpad6, .numpad6), (.numpad7, .numpad7), (.numpad8, .numpad8), (.numpad9, .numpad9),
    (.cancel, .cancel), (.clear, .clear), (.menu, .alt), (.pause, .pause), (.kana, .kana),
    (.hangul, .hangul), (.junja, .junja), (.final, .final), (.hanja, .hanja), (.kanji, .kanji),
    (.convert, .convert), (.select, .select), (.print, .print), (.execute, .execute),
    (.snapshot, .snapshot), (.insert, .insert), (.help, .help), (.sleep, .sleep),
    (.separator, .separator), (.scroll, .scroll), (.numLock, .numLock), (.rWin, .rWin),
    (.apps, .apps), (.multiply, .multiply), (.add, .add), (.subtract, .subtract),
    (.decimal, .decimal), (.divide, .divide), (.equals, .equals), (.numpadEnter, .numpadEnter),
    (.rAlt, .rightAlt), (.rControl, .rightControl), (.rShift, .rightShift)
  ]

/-- `KEY_MAP`, by the value of the control key. -/
def keyMap (value : Int32) : Option Key :=
  (keyMapEntries.find? fun x => x.1.value == value).map Prod.snd

/-- `KEY_CHAR_START`. -/
def keyCharStart : UInt64 := 9999

/-- `x as u64`, of an `i32`. -/
def recordOfControlKey (ck : Int32) : UInt64 := ck.toInt64.toUInt64

/-- `char::from_u32(value).unwrap_or('\0')`. -/
def charValueToKey (value : UInt32) : Key := .layout (Char.ofNat value.toNat)

def recordKeyToKey (recordKey : UInt64) : Option Key :=
  if recordKey < keyCharStart then keyMap recordKey.toUInt32.toInt32
  else some (charValueToKey (recordKey - keyCharStart).toUInt32)

/-! ## Events -/

inductive KeyUnion
  | controlKey (ck : Int32)
  | chr (chr : UInt32)
  | unicode (chr : UInt32)
  | seq (seq : List Char)
  | win2winHotkey (code : UInt32)

inductive KeyboardMode
  | legacy | map | translate | auto
deriving DecidableEq

/-- The fields of a `KeyEvent`; a mode that is not known is none. -/
structure KeyEvent where
  down : Bool
  union : Option KeyUnion
  modifiers : List Int32
  mode : Option KeyboardMode

/-- `evt.chr()`. -/
def KeyEvent.chr (evt : KeyEvent) : UInt32 :=
  match evt.union with
  | some (.chr chr) => chr
  | _ => 0

/-- What is done to the keyboard. A text is typed in upper case or as it is. -/
inductive KeyAction
  | down (key : SimKey) (accepted : Bool)
  | up (key : SimKey)
  | click (key : Key)
  | sequence (text : List Char) (upper : Bool)
deriving DecidableEq

/-- What the keyboard answers, after what has been done in this event. -/
structure KeyIo where
  keyState : List KeyAction → Key → Bool
  accepts : List KeyAction → SimKey → Bool

def KeyAction.apply (held : SimKey → Bool) : KeyAction → SimKey → Bool
  | .down key true => Function.update held key true
  | .down _ false => held
  | .up key => Function.update held key false
  | .click _ | .sequence .. => held

/-- The keys that are held after these actions. -/
def heldAfter (held : SimKey → Bool) (en : List KeyAction) : SimKey → Bool :=
  en.foldl KeyAction.apply held

section

variable (io : KeyIo)

/-- `key_down`: whether it is accepted, and what has been done. -/
def keyDown (key : Key) (en : List KeyAction) : Bool × List KeyAction :=
  (io.accepts en (.enigo key), en ++ [.down (.enigo key) (io.accepts en (.enigo key))])

def getModifierState (key : Key) (en : List KeyAction) : Bool :=
  let x := io.keyState en key
  match key with
  | .shift => x || io.keyState en .rightShift
  | .control => x || io.keyState en .rightControl
  | .alt => x || io.keyState en .rightAlt
  | .«meta» => x || io.keyState en .rWin
  | .rightShift => x || io.keyState en .shift
  | .rightControl => x || io.keyState en .control
  | .rightAlt => x || io.keyState en .alt
  | .rWin => x || io.keyState en .«meta»
  | _ => x

def recordPressedKey (recordKey : KeysDown) (down : Bool) (keysDown : List KeysDown) :
    List KeysDown :=
  if down then keysDown.insert recordKey else keysDown.filter (· ≠ recordKey)

/-! ## Modifiers -/

def fixModifier (modifiers : List Int32) (key0 : ControlKey) (key1 : Key) (en : List KeyAction) :
    List KeyAction :=
  if getModifierState io key1 en ∧ key0.value ∉ modifiers then en ++ [.up (.enigo key1)] else en

/-- The modifiers that `fix_modifiers` looks at, in its order: the control key that is left alone if
the event is about it, the one that stands for it among the modifiers, and the key. -/
def fixedModifiers : List (ControlKey × ControlKey × Key) :=
  [(.shift, .shift, .shift), (.rShift, .shift, .rightShift), (.alt, .alt, .alt),
    (.rAlt, .alt, .rightAlt), (.control, .control, .control),
    (.rControl, .control, .rightControl), (.«meta», .«meta», .«meta»), (.rWin, .«meta», .rWin)]

def fixModifiers (modifiers : List Int32) (ck : Int32) (en : List KeyAction) : List KeyAction :=
  fixedModifiers.foldl
    (fun en x => if ck ≠ x.1.value then fixModifier io modifiers x.2.1 x.2.2 en else en) en

def getControlKeyValue (evt : KeyEvent) : Int32 :=
  match evt.union with
  | some (.controlKey ck) => ck
  | _ => -1

def releaseUnpressedModifiers (evt : KeyEvent) (en : List KeyAction) : List KeyAction :=
  fixModifiers io evt.modifiers (getControlKeyValue evt) en

def isAltgrPressed (keysDown : List KeysDown) : Bool :=
  decide (.rdevKey ControlKey.rAlt.value.toUInt32 ∈ keysDown)

/-- One of the modifiers: it is pressed unless it is, and is to be released. -/
def pressModifier (keysDown : List KeysDown) (x : List KeyAction × List Key) (ck : Int32) :
    List KeyAction × List Key :=
  match keyMap ck with
  | some key =>
    if getModifierState io key x.1 then x
    else if key = .alt ∧ isAltgrPressed keysDown then x
    else ((keyDown io key x.1).2, x.2 ++ [key])
  | none => x

def pressModifiers (keysDown : List KeysDown) (evt : KeyEvent) (en : List KeyAction) :
    List KeyAction × List Key :=
  evt.modifiers.foldl (pressModifier io keysDown) (en, [])

/-- `sync_modifiers`: what has been done, and what is to be released. -/
def syncModifiers (keysDown : List KeysDown) (evt : KeyEvent) : List KeyAction × List Key :=
  if evt.down then pressModifiers io keysDown evt (releaseUnpressedModifiers io evt [])
  else ([], [])

def releaseKeys (toRelease : List Key) (en : List KeyAction) : List KeyAction :=
  en ++ toRelease.map fun key => .up (.enigo key)

/-! ## The modes -/

def processControlKey (ck : Int32) (down : Bool) (en : List KeyAction) : List KeyAction :=
  match keyMap ck with
  | some key => if down then (keyDown io key en).2 else en ++ [.up (.enigo key)]
  | none => en

def needToUppercase (en : List KeyAction) : Bool :=
  getModifierState io .shift en || getModifierState io .capsLock en

def hasHotkeyModifiers (en : List KeyAction) : Bool :=
  getModifierState io .control en || getModifierState io .alt en || getModifierState io .«meta» en

/-- The character of a code, as a text. -/
def typeChr (chr : UInt32) (en : List KeyAction) : List KeyAction :=
  if chr.toNat.isValidChar then en ++ [.sequence [Char.ofNat chr.toNat] (needToUppercase io en)]
  else en

def processChr (chr : UInt32) (down : Bool) (en : List KeyAction) : List KeyAction :=
  let key := charValueToKey chr
  if down then
    if hasHotkeyModifiers io en then
      let (accepted, en) := keyDown io key en
      if accepted then en else typeChr io chr en
    else typeChr io chr en
  else en ++ [.up (.enigo key)]

def processUnicode (chr : UInt32) (en : List KeyAction) : List KeyAction :=
  if chr.toNat.isValidChar then en ++ [.sequence [Char.ofNat chr.toNat] false] else en

/-- `is_function_key`: the two it handles itself. -/
def isFunctionKey (ck : Int32) : Bool :=
  ck == ControlKey.ctrlAltDel.value || ck == ControlKey.lockScreen.value

/-- What a mode does, and the records it leaves. -/
abbrev KeyEffect := List KeyAction × List KeysDown

def legacyKeyboardMode (keysDown : List KeysDown) (evt : KeyEvent) : KeyEffect :=
  let (en, toRelease) := syncModifiers io keysDown evt
  match evt.union with
  | some (.controlKey ck) =>
    -- The modifiers that were pressed are not released.
    if isFunctionKey ck then (en, keysDown)
    else
      (releaseKeys toRelease (processControlKey io ck evt.down en),
        recordPressedKey (.enigoKey (recordOfControlKey ck)) evt.down keysDown)
  | some (.chr chr) =>
    (releaseKeys toRelease (processChr io chr evt.down en),
      recordPressedKey (.enigoKey (chr.toUInt64 + keyCharStart)) evt.down keysDown)
  | some (.unicode chr) => (releaseKeys toRelease (processUnicode chr en), keysDown)
  | some (.seq seq) => (releaseKeys toRelease (en ++ [.sequence seq false]), keysDown)
  | _ => (releaseKeys toRelease en, keysDown)

def simRdevRawkeyPosition (code : UInt32) (down : Bool) (keysDown : List KeysDown) : KeyEffect :=
  ([if down then .down (.rawKey code) (io.accepts [] (.rawKey code)) else .up (.rawKey code)],
    recordPressedKey (.rdevKey code) down keysDown)

/-- On Wayland, which FreeBSD does not have, the key goes through enigo. -/
def mapKeyboardMode (isWayland : Bool) (keysDown : List KeysDown) (evt : KeyEvent) : KeyEffect :=
  if isWayland then
    let code := evt.chr.toUInt16
    if evt.down then ((keyDown io (.raw code) []).2, keysDown)
    else ([.up (.enigo (.raw code))], keysDown)
  else simRdevRawkeyPosition io evt.chr evt.down keysDown

def translateKeyboardMode (keysDown : List KeysDown) (evt : KeyEvent) : KeyEffect :=
  match evt.union with
  | some (.seq seq) =>
    let en := if getModifierState io .shift [] then [KeyAction.up .shiftLeft] else []
    let en := if getModifierState io .rightShift en then en ++ [.up .shiftRight] else en
    (en ++ seq.map fun chr => .click (.layout chr), keysDown)
  | some (.chr _) => simRdevRawkeyPosition io evt.chr evt.down keysDown
  | _ => ([], keysDown)

end

/-! ## The keyboard -/

/-- The keys that are recorded and those that are held, whether the process is about to end, and the
keys that were held before. -/
structure Keyboard where
  keysDown : List KeysDown
  held : SimKey → Bool
  exiting : Bool
  before : SimKey → Bool

namespace Keyboard

variable (isWayland : Bool)

/-- `handle_key_`. -/
def handleKey (io : KeyIo) (evt : KeyEvent) (s : Keyboard) : Keyboard :=
  if s.exiting then s
  else
    let (en, keysDown) :=
      match evt.mode with
      | some .map => mapKeyboardMode io isWayland s.keysDown evt
      | some .translate => translateKeyboardMode io s.keysDown evt
      | _ => legacyKeyboardMode io s.keysDown evt
    { s with keysDown := keysDown, held := heldAfter s.held en }

/-- The key that releasing a record releases. -/
def released : KeysDown → Option SimKey
  | .rdevKey rawkey => some (.rawKey rawkey)
  | .enigoKey key => (recordKeyToKey key).map .enigo

def releaseRecordKey (s : Keyboard) (recordKey : KeysDown) : Keyboard :=
  match released recordKey with
  | some key => { s with held := Function.update s.held key false }
  | none => s

/-- One record of the loop of `fix_key_down_timeout`. -/
def fixRecordKey (s : Keyboard) (recordKey : KeysDown) : Keyboard :=
  releaseRecordKey { s with keysDown := recordPressedKey recordKey false s.keysDown } recordKey

/-- `fix_key_down_timeout`, with the records that are old. -/
def fixKeyDownTimeout (expired : KeysDown → Bool) (force : Bool) (s : Keyboard) : Keyboard :=
  (s.keysDown.filter fun recordKey => force || expired recordKey).foldl fixRecordKey s

/-- A key event, or a turn of the loop that looks for old records. -/
inductive Event
  | key (evt : KeyEvent) (io : KeyIo)
  | timeout (expired : KeysDown → Bool)

def next (s : Keyboard) : Event → Keyboard
  | .key evt io => s.handleKey isWayland io evt
  | .timeout expired => s.fixKeyDownTimeout expired false

/-- Any records, and any keys that are held. -/
def system : System Keyboard Event where
  init s := s.held = s.before
  step s a s' := s.next isWayland a = s'

end Keyboard

end HopToDesk.Host
