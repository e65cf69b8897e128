import HopToDesk.Host.Keyboard

/-!
# The virtual keyboard

The service of `src/server/uinput.rs` holds a virtual keyboard for the process that simulates the
keys: what comes over its connection (`DataKeyboard`) is turned into events of the device. A raw
code is one of X and is 8 above that of the device; the difference has to be a `u16`, as a debug
build checks. Every other key is looked up in `KEY_MAP`, and a character in `KEY_MAP_LAYOUT`, which
also says whether it takes Shift.

The codes of the device's keys are those of evdev, a parameter here. What the device is asked for,
the lamps and the keys that are down, comes with each event. Writing an event succeeds.
-/

set_option autoImplicit false

namespace HopToDesk.Host

namespace Uinput

/-! ## Keys -/

/-- The keys of `evdev::Key` that the maps name. -/
inductive EvdevKey
  | leftAlt | backspace | capsLock | leftCtrl | delete | down | «end» | esc | f1 | f10 | f11 | f12
  | f2 | f3 | f4 | f5 | f6 | f7 | f8 | f9 | home | left | leftMeta | option | pageDown | pageUp
  | enter | right | leftShift | space | tab | up | kp0 | kp1 | kp2 | kp3 | kp4 | kp5 | kp6 | kp7
  | kp8 | kp9 | cancel | clear | pause | katakana | hangeul | hanja | select | print | sysrq
  | insert | help | sleep | scrollLock | numLock | rightMeta | compose | kpAsterisk | kpPlus
  | kpMinus | kpComma | kpSlash | kpEqual | kpEnter | rightAlt | rightCtrl | rightShift | a | b
  | c | d | e | f | g | h | i | j | k | l | m | n | o | p | q | r | s | t | u | v | w | x | y | z
  | key0 | key1 | key2 | key3 | key4 | key5 | key6 | key7 | key8 | key9 | grave | minus | equal
  | leftBrace | rightBrace | backslash | comma | dot | slash | semicolon | apostrophe
deriving DecidableEq

def keyMapEntries : List (Key × EvdevKey) :=
  [
    (.alt, .leftAlt), (.backspace, .backspace), (.capsLock, .capsLock), (.control, .leftCtrl),
    (.delete, .delete), (.downArrow, .down), (.«end», .«end»), (.escape, .esc), (.f1, .f1),
    (.f10, .f10), (.f11, .f11), (.f12, .f12), (.f2, .f2), (.f3, .f3), (.f4, .f4), (.f5, .f5),
    (.f6, .f6), (.f7, .f7), (.f8, .f8), (.f9, .f9), (.home, .home), (.leftArrow, .left),
    (.«meta», .leftMeta), (.option, .option), (.pageDown, .pageDown), (.pageUp, .pageUp),
    (.«return», .enter), (.rightArrow, .right), (.shift, .leftShift), (.space, .space),
    (.tab, .tab), (.upArrow, .up), (.numpad0, .kp0), (.numpad1, .kp1), (.numpad2, .kp2),
    (.numpad3, .kp3), (.numpad4, .kp4), (.numpad5, .kp5), (.numpad6, .kp6), (.numpad7, .kp7),
    (.numpad8, .kp8), (.numpad9, .kp9), (.cancel, .cancel), (.clear, .clear), (.alt, .leftAlt),
    (.pause, .pause), (.kana, .katakana), (.hangul, .hangeul), (.hanja, .hanja),
    (.select, .select), (.print, .print), (.snapshot, .sysrq), (.insert, .insert),
    (.help, .help), (.sleep, .sleep), (.scroll, .scrollLock), (.numLock, .numLock),
    (.rWin, .rightMeta), (.apps, .compose), (.multiply, .kpAsterisk), (.add, .kpPlus),
    (.subtract, .kpMinus), (.decimal, .kpComma), (.divide, .kpSlash), (.equals, .kpEqual),
    (.numpadEnter, .kpEnter), (.rightAlt, .rightAlt), (.rightControl, .rightCtrl),
    (.rightShift, .rightShift)
  ]

def keyMap (key : Key) : Option EvdevKey := keyMapEntries.lookup key

def keyMapLayoutEntries : List (Char × EvdevKey × Bool) :=
  [
    ('a', .a, false), ('b', .b, false), ('c', .c, false), ('d', .d, false), ('e', .e, false),
    ('f', .f, false), ('g', .g, false), ('h', .h, false), ('i', .i, false), ('j', .j, false),
    ('k', .k, false), ('l', .l, false), ('m', .m, false), ('n', .n, false), ('o', .o, false),
    ('p', .p, false), ('q', .q, false), ('r', .r, false), ('s', .s, false), ('t', .t, false),
    ('u', .u, false), ('v', .v, false), ('w', .w, false), ('x', .x, false), ('y', .y, false),
    ('z', .z, false), ('0', .key0, false), ('1', .key1, false), ('2', .key2, false),
    ('3', .key3, false), ('4', .key4, false), ('5', .key5, false), ('6', .key6, false),
    ('7', .key7, false), ('8', .key8, false), ('9', .key9, false),
    (Char.ofNat 96, .grave, false), ('-', .minus, false), ('=', .equal, false),
    ('[', .leftBrace, false), (']', .rightBrace, false), (Char.ofNat 92, .backslash, false),
    (',', .comma, false), ('.', .dot, false), ('/', .slash, false), (';', .semicolon, false),
    (Char.ofNat 39, .apostrophe, false), ('A', .a, true), ('B', .b, true), ('C', .c, true),
    ('D', .d, true), ('E', .e, true), ('F', .f, true), ('G', .g, true), ('H', .h, true),
    ('I', .i, true), ('J', .j, true), ('K', .k, true), ('L', .l, true), ('M', .m, true),
    ('N', .n, true), ('O', .o, true), ('P', .p, true), ('Q', .q, true), ('R', .r, true),
    ('S', .s, true), ('T', .t, true), ('U', .u, true), ('V', .v, true), ('W', .w, true),
    ('X', .x, true), ('Y', .y, true), ('Z', .z, true), (')', .key0, true), ('!', .key1, true),
    ('@', .key2, true), ('#', .key3, true), ('$', .key4, true), ('%', .key5, true),
    ('^', .key6, true), ('&', .key7, true), ('*', .key8, true), ('(', .key9, true),
    ('~', .grave, true), ('_', .minus, true), ('+', .equal, true),
    (Char.ofNat 123, .leftBrace, true), (Char.ofNat 125, .rightBrace, true),
    ('|', .backslash, true), ('<', .comma, true), ('>', .dot, true), ('?', .slash, true),
    (':', .semicolon, true), (Char.ofNat 34, .apostrophe, true)
  ]

def keyMapLayout (c : Char) : Option (EvdevKey × Bool) := keyMapLayoutEntries.lookup c

/-- The key of the device, and whether it takes Shift; none where there is none. -/
def mapKey (key : Key) : Option (EvdevKey × Bool) :=
  match keyMap key with
  | some evdev => some (evdev, false)
  | none =>
    match key with
    | .layout c => keyMapLayout c
    | _ => none

/-! ## Events -/

inductive DataKeyboard
  | sequence (seq : List Char)
  | keyDown (key : Key)
  | keyUp (key : Key)
  | keyClick (key : Key)
  | getKeyState (key : Key)
deriving DecidableEq

/-- An `InputEvent` of type `KEY`: 1 is down, 0 is up. -/
structure InputEvent where
  code : UInt16
  value : Int32
deriving DecidableEq, Repr

structure Leds where
  numl : Bool
  capsl : Bool
deriving DecidableEq, Repr

/-- What the device answers; none where it fails. -/
structure Answers where
  ledState : Option Leds
  keyState : Option (EvdevKey → Bool)

/-- `*code - 8`. -/
def rawCode (code : UInt16) : Option UInt16 := if 8 ≤ code then some (code - 8) else none

/-- What is answered to `GetKeyState`. -/
def getKeyState (device : Answers) (key : Key) : Bool :=
  if key = .capsLock then
    match device.ledState with
    | some leds => leds.capsl
    | none => false
  else if key = .numLock then
    match device.ledState with
    | some leds => leds.numl
    | none => false
  else
    match device.keyState with
    | some keys =>
      match key with
      | .shift => keys .leftShift || keys .rightShift
      | .control => keys .leftCtrl || keys .rightCtrl
      | .alt => keys .leftAlt || keys .rightAlt
      | .«meta» => keys .leftMeta || keys .rightMeta
      | _ => false
    | none => false

section

variable (code : EvdevKey → UInt16)

/-- The events that are emitted, and the answer that is sent; none is an underflow. -/
def handleKeyboard (device : Answers) : DataKeyboard → Option (List InputEvent × Option Bool)
  | .sequence _ => some ([], none)
  | .keyDown (.raw c) => (rawCode c).map fun c => ([⟨c, 1⟩], none)
  | .keyUp (.raw c) => (rawCode c).map fun c => ([⟨c, 0⟩], none)
  | .keyDown key =>
    match mapKey key with
    | some (evdev, isShift) =>
      some ((if isShift then [⟨code .leftShift, 1⟩] else []) ++ [⟨code evdev, 1⟩], none)
    | none => some ([], none)
  | .keyUp key =>
    match mapKey key with
    | some (evdev, _) => some ([⟨code evdev, 0⟩], none)
    | none => some ([], none)
  | .keyClick key =>
    match mapKey key with
    | some (evdev, _) => some ([⟨code evdev, 1⟩, ⟨code evdev, 0⟩], none)
    | none => some ([], none)
  | .getKeyState key => some ([], some (getKeyState device key))

/-- The keys that are held after an event of the device. -/
def InputEvent.apply (held : UInt16 → Bool) (e : InputEvent) : UInt16 → Bool :=
  Function.update held e.code (e.value ≠ 0)

/-- The keys that are held after an event of the connection. -/
def next (held : UInt16 → Bool) (x : Answers × DataKeyboard) : Option (UInt16 → Bool) :=
  (handleKeyboard code x.1 x.2).map fun r => r.1.foldl InputEvent.apply held

/-- The keys that are held after these events. -/
def heldAfter (held : UInt16 → Bool) (xs : List (Answers × DataKeyboard)) :
    Option (UInt16 → Bool) :=
  xs.foldlM (next code) held

/-! ## What the events ask for -/

/-- Each key that goes down goes up later. -/
def Balanced (xs : List (Answers × DataKeyboard)) : Prop :=
  ∀ pre device key post, xs = pre ++ (device, .keyDown key) :: post →
    ∃ device', (device', .keyUp key) ∈ post

/-- The code of the device that a key stands for. -/
def deviceCode : Key → Option UInt16
  | .raw c => rawCode c
  | key => (mapKey key).map fun evdev => code evdev.1

/-- The difference is one: there is no raw code below 8. -/
def DataKeyboard.RawInRange : DataKeyboard → Prop
  | .keyDown (.raw c) | .keyUp (.raw c) => 8 ≤ c
  | _ => True

/-- A character that takes Shift goes down. -/
def DataKeyboard.TypesShifted : DataKeyboard → Prop
  | .keyDown key => ∃ evdev, mapKey key = some (evdev, true)
  | _ => False

/-- The key of the device goes up, by itself or in a click. -/
def DataKeyboard.Releases (d : UInt16) : DataKeyboard → Prop
  | .keyUp key => deviceCode code key = some d
  | .keyClick key => (mapKey key).map (fun evdev => code evdev.1) = some d
  | _ => False

/-- A character that takes Shift goes down, and after it nothing that lets Shift go. -/
def LeavesShift (xs : List (Answers × DataKeyboard)) : Prop :=
  ∃ pre x post, xs = pre ++ x :: post ∧ x.2.TypesShifted ∧
    ∀ y ∈ post, ¬ y.2.Releases code (code .leftShift)

/-- The events leave the keys that are held as they are: the raw codes are in range, no key that
goes up was held before, and Shift was if it is left down. -/
structure KeepsHeld (held : UInt16 → Bool) (xs : List (Answers × DataKeyboard)) : Prop where
  raw : ∀ x ∈ xs, x.2.RawInRange
  released : ∀ d, d ≠ code .leftShift → ∀ x ∈ xs, x.2.Releases code d → held d = false
  shiftLeft : LeavesShift code xs → held (code .leftShift) = true
  shiftReleased : ¬ LeavesShift code xs →
    ∀ x ∈ xs, x.2.Releases code (code .leftShift) → held (code .leftShift) = false

end

end Uinput

end HopToDesk.Host
