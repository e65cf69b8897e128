import HopToDesk.Kit.Json
import HopToDesk.Kit.System

/-!
# The terminal emulator

`src/ui/terminal_emulator.rs` keeps a terminal for the window of a session: the bytes a shell sends
go through the parser of the `vt100` crate, and what has changed on its screen is told to the page
row by row, as HTML in a list written as JSON.

The parser and its screens are those of the crate, so they are a parameter (`Vt100`): a screen is a
grid of cells with a cursor, as it is seen with the scrollback at its offset.
-/

set_option autoImplicit false

namespace HopToDesk.Client

open Kit

namespace Vt100

inductive Color
  | default
  | idx (i : UInt8)
  | rgb (r g b : UInt8)
deriving DecidableEq

structure Cell where
  contents : Text
  isWide : Bool := false
  isWideContinuation : Bool := false
  fgcolor : Color := .default
  bgcolor : Color := .default
  bold : Bool := false
  italic : Bool := false
  underline : Bool := false
  inverse : Bool := false
deriving DecidableEq

structure Screen where
  rows : Nat
  cols : Nat
  cell : Nat → Nat → Option Cell
  cursorRow : Nat
  cursorCol : Nat
  hideCursor : Bool
  applicationCursor : Bool
  applicationKeypad : Bool
  alternateScreen : Bool
  bracketedPaste : Bool
  title : Text

end Vt100

/-- A parser of the crate. -/
class Vt100 (P : Type) where
  new (rows cols scrollbackLen : Nat) : P
  setSize (rows cols : Nat) (p : P) : P
  setScrollback (offset : Nat) (p : P) : P
  process (bytes : List UInt8) (p : P) : P
  screen (p : P) : Vt100.Screen

open Vt100 (Color Cell Screen)

namespace Terminal

/-! ## A row -/

structure Attrs where
  fg : Color := .default
  bg : Color := .default
  bold : Bool := false
  italic : Bool := false
  underline : Bool := false
  inverse : Bool := false
deriving DecidableEq

def Attrs.fromCell (c : Cell) : Attrs :=
  ⟨c.fgcolor, c.bgcolor, c.bold, c.italic, c.underline, c.inverse⟩

def Attrs.isPlain (a : Attrs) : Bool :=
  a.fg = .default && a.bg = .default && !a.bold && !a.italic && !a.underline && !a.inverse

def ansiFg : List String :=
  ["ansi-black", "ansi-red", "ansi-green", "ansi-yellow", "ansi-blue", "ansi-magenta", "ansi-cyan",
    "ansi-white"]

def ansiFgBright : List String :=
  ["ansi-bright-black", "ansi-bright-red", "ansi-bright-green", "ansi-bright-yellow",
    "ansi-bright-blue", "ansi-bright-magenta", "ansi-bright-cyan", "ansi-bright-white"]

def ansiBg : List String :=
  ["ansi-bg-black", "ansi-bg-red", "ansi-bg-green", "ansi-bg-yellow", "ansi-bg-blue",
    "ansi-bg-magenta", "ansi-bg-cyan", "ansi-bg-white"]

def ansiBgBright : List String :=
  ["ansi-bg-bright-black", "ansi-bg-bright-red", "ansi-bg-bright-green", "ansi-bg-bright-yellow",
    "ansi-bg-bright-blue", "ansi-bg-bright-magenta", "ansi-bg-bright-cyan", "ansi-bg-bright-white"]

/-- The first sixteen colours of the palette. -/
def palette16 : List (UInt8 × UInt8 × UInt8) :=
  [(0, 0, 0), (205, 49, 49), (13, 188, 121), (229, 229, 16),
    (36, 114, 200), (188, 63, 188), (17, 168, 205), (229, 229, 229),
    (102, 102, 102), (241, 76, 76), (35, 209, 139), (245, 245, 67),
    (59, 142, 234), (214, 112, 214), (41, 184, 219), (255, 255, 255)]

def palette256 (idx : UInt8) : UInt8 × UInt8 × UInt8 :=
  if idx ≤ 15 then palette16.getD idx.toNat (0, 0, 0)
  else if idx ≤ 231 then
    let i := idx - 16
    let scale (v : UInt8) : UInt8 := if v = 0 then 0 else 55 + v * 40
    (scale (i / 36), scale (i % 36 / 6), scale (i % 6))
  else
    let v := 8 + (idx - 232) * 10
    (v, v, v)

/-- Two hexadecimal digits. -/
def hexByte (b : UInt8) : Text := [Json.hexDigit (b.toNat / 16), Json.hexDigit (b.toNat % 16)]

/-- A colour as a style: `property:#rrggbb;`. -/
def colorStyle (property : String) (r g b : UInt8) : Text :=
  property.toList ++ ":#".toList ++ hexByte r ++ hexByte g ++ hexByte b ++ [';']

/-- The colour of the text, a brighter one when it is bold. -/
def Attrs.fgForClass (a : Attrs) : Color :=
  let fgUse := if a.inverse then a.bg else a.fg
  if a.bold then
    match fgUse with
    | .idx i => if i < 8 then .idx (i + 8) else .idx i
    | .default => if a.inverse then .default else .idx 15
    | other => other
  else fgUse

def Attrs.bgUse (a : Attrs) : Color := if a.inverse then a.fg else a.bg

/-- What a colour adds to the classes. -/
def colorClass (dim bright : List String) : Color → List String
  | .idx i =>
    if i ≤ 7 then [dim.getD i.toNat ""]
    else if i ≤ 15 then [bright.getD (i - 8).toNat ""]
    else []
  | _ => []

/-- What a colour adds to the styles, where `inverted` is the one for the colour of an inverted
cell that has none. -/
def colorStyles (property inverted : String) (inverse : Bool) : Color → List Text
  | .default => if inverse then [property.toList ++ ":".toList ++ inverted.toList ++ [';']] else []
  | .idx i =>
    if i ≤ 15 then []
    else
      let (r, g, b) := palette256 i
      [colorStyle property r g b]
  | .rgb r g b => [colorStyle property r g b]

def Attrs.classes (a : Attrs) : List String :=
  (if a.bold then ["ansi-bold"] else []) ++ colorClass ansiFg ansiFgBright a.fgForClass ++
    colorClass ansiBg ansiBgBright a.bgUse

/-- The styles, each with its semicolon. -/
def Attrs.styles (a : Attrs) : List Text :=
  (if a.underline then ["text-decoration:underline;".toList] else []) ++
    (if a.italic then ["font-style:italic;".toList] else []) ++
    colorStyles "color" "#1e1e1e" a.inverse a.fgForClass ++
    colorStyles "background-color" "#d4d4d4" a.inverse a.bgUse

def escapeHtmlChar (c : Char) : Text :=
  if c = '<' then "&lt;".toList
  else if c = '>' then "&gt;".toList
  else if c = '&' then "&amp;".toList
  else if c = '"' then "&quot;".toList
  else if c = '\'' then "&#39;".toList
  else [c]

def htmlEscape (text : Text) : Text := text.flatMap escapeHtmlChar

/-- An attribute of the tag, when there is something to say. -/
def tagAttribute (name : String) (value : Text) : Text :=
  if value = [] then [] else ' ' :: (name.toList ++ ['=', '"'] ++ value ++ ['"'])

def flushRun (out : Text) (a : Attrs) (text : Text) : Text :=
  if text = [] then out
  else if a.isPlain then out ++ htmlEscape text
  else
    out ++ "<span".toList ++
      tagAttribute "class" ([' '].intercalate (a.classes.map String.toList)) ++
      tagAttribute "style" a.styles.flatten ++ ['>'] ++ htmlEscape text ++ "</span>".toList

/-- A row while it is rendered: what is out, and the run that is not yet, with its attributes. -/
structure RowText where
  out : Text := []
  runAttrs : Option Attrs := none
  runText : Text := []

def RowText.flush (r : RowText) : Text :=
  match r.runAttrs with
  | some a => flushRun r.out a r.runText
  | none => r.out

def RowText.push (r : RowText) (a : Attrs) (glyph : Text) : RowText :=
  if r.runAttrs = some a then { r with runText := r.runText ++ glyph }
  else ⟨r.flush, some a, glyph⟩

def glyph (c : Cell) : Text := if c.contents = [] then [' '] else c.contents

/-- The attributes of a cell, which the cursor inverts. -/
def cellAttrs (c : Cell) (cursor : Bool) : Attrs :=
  let a := Attrs.fromCell c
  if cursor then { a with inverse := !a.inverse } else a

/-- The cells at these columns, up to the first that is not on the screen. -/
def renderCells (screen : Screen) (row : Nat) (cursorCol : Option Nat) :
    List Nat → RowText → RowText
  | [], r => r
  | c :: cs, r =>
    match screen.cell row c with
    | none => r
    | some cell =>
      if cell.isWideContinuation then renderCells screen row cursorCol cs r
      else
        renderCells screen row cursorCol cs
          (r.push (cellAttrs cell (cursorCol = some c)) (glyph cell))

/-- A cursor behind the last column is a space of its own. -/
def renderCursor (cols : Nat) (cursorCol : Option Nat) (r : RowText) : RowText :=
  match cursorCol with
  | some cc =>
    if cols ≤ cc then { out := flushRun r.flush { inverse := true } [' '] } else r
  | none => r

def renderRow (screen : Screen) (row cols : Nat) (cursorCol : Option Nat) : Text :=
  let r := renderCursor cols cursorCol
    (renderCells screen row cursorCol (List.range cols) {})
  if r.flush = [] then "&nbsp;".toList else r.flush

/-! ## The updates -/

structure FrameUpdate where
  dirtyRows : List (Nat × Text)
  cursorRow : Nat
  cursorCol : Nat
  cursorVisible : Bool
  appCursorKeys : Bool
  appKeypad : Bool
  altScreen : Bool
  bracketedPaste : Bool
  title : Option Text
  fullRepaint : Bool

def frameUpdate (screen : Screen) (dirtyRows : List (Nat × Text))
    (cursorVisible fullRepaint : Bool) : FrameUpdate where
  dirtyRows := dirtyRows
  cursorRow := screen.cursorRow
  cursorCol := screen.cursorCol
  cursorVisible := cursorVisible
  appCursorKeys := screen.applicationCursor
  appKeypad := screen.applicationKeypad
  altScreen := screen.alternateScreen
  bracketedPaste := screen.bracketedPaste
  title := if screen.title = [] then none else some screen.title
  fullRepaint := fullRepaint

/-- The same cells in the columns of a row. -/
def rowEqual (a b : Screen) (row cols : Nat) : Bool :=
  (List.range cols).all fun c => a.cell row c = b.cell row c

/-- The column of the cursor, in the row where it is seen. -/
def cursorForRow (screen : Screen) (r : Nat) : Option Nat :=
  if !screen.hideCursor && r = screen.cursorRow then some screen.cursorCol else none

/-- The rows a feed has to tell, after the screen that was told last. -/
def dirty (prev : Option Screen) (screen : Screen) (r : Nat) : Bool :=
  match prev with
  | none => true
  | some p =>
    p.rows ≠ screen.rows || p.cols ≠ screen.cols || (cursorForRow screen r).isSome ||
      p.cursorRow = r || !rowEqual p screen r screen.cols

def needFull (prev : Option Screen) (screen : Screen) : Bool :=
  match prev with
  | none => true
  | some p => p.rows ≠ screen.rows || p.cols ≠ screen.cols

end Terminal

/-! ## The emulator -/

structure TerminalEmulator (P : Type) where
  parser : P
  prev : Option Screen
  viewOffset : Nat

namespace TerminalEmulator

open Terminal

variable {P : Type} [Vt100 P]

def scrollbackLen : Nat := 500

def new (rows cols : Nat) : TerminalEmulator P :=
  ⟨Vt100.new (max rows 1) (max cols 1) scrollbackLen, none, 0⟩

def resize (rows cols : Nat) (e : TerminalEmulator P) : TerminalEmulator P :=
  { e with parser := Vt100.setSize (max rows 1) (max cols 1) e.parser, prev := none }

def setView (offset : Nat) (e : TerminalEmulator P) : FrameUpdate × TerminalEmulator P :=
  let parser := Vt100.setScrollback offset e.parser
  let screen := Vt100.screen parser
  let dirtyRows := (List.range screen.rows).map fun r => (r, renderRow screen r screen.cols none)
  (frameUpdate screen dirtyRows false true, ⟨parser, some screen, offset⟩)

def feed (bytes : List UInt8) (e : TerminalEmulator P) : FrameUpdate × TerminalEmulator P :=
  let parser := Vt100.process bytes e.parser
  let screen := Vt100.screen parser
  let dirtyRows := ((List.range screen.rows).filter fun r => dirty e.prev screen r).map fun r =>
    (r, renderRow screen r screen.cols (cursorForRow screen r))
  (frameUpdate screen dirtyRows (!screen.hideCursor) (needFull e.prev screen),
    { e with parser := parser, prev := some screen })

end TerminalEmulator

/-! ## The payload -/

namespace Terminal

def escapeJsonChar (c : Char) : Text :=
  if c = '\\' then ['\\', '\\']
  else if c = '"' then ['\\', '"']
  else if c = '\n' then ['\\', 'n']
  else if c = '\r' then ['\\', 'r']
  else if c = '\t' then ['\\', 't']
  else if c.toNat < 0x20 then
    ['\\', 'u', '0', '0', Json.hexDigit (c.toNat / 16), Json.hexDigit (c.toNat % 16)]
  else [c]

def jsonEscape (html : Text) : Text := html.flatMap escapeJsonChar

/-- A row of the list, with the number of the row and its HTML. -/
def rowPayload (x : Nat × Text) : Text :=
  ['{', '"', 'r', '"', ':'] ++ Nat.toDigits 10 x.1 ++ [',', '"', 'h', '"', ':', '"'] ++
    jsonEscape x.2 ++ ['"', '}']

def buildUpdatePayload (u : FrameUpdate) : Text :=
  '[' :: ([','].intercalate (u.dirtyRows.map rowPayload) ++ [']'])

end Terminal

/-! ## The terminals of a session -/

/-- `terminals` of `SciterHandler`, in `src/ui/remote.rs`. -/
abbrev Terminals (P : Type) := Int → Option (TerminalEmulator P)

namespace Terminals

open Terminal

variable {P : Type} [Vt100 P]

def feedTerminal (id : Int) (bytes : List UInt8) (ts : Terminals P) :
    FrameUpdate × Text × Terminals P :=
  let (update, emu) := ((ts id).getD (.new 24 80)).feed bytes
  (update, buildUpdatePayload update, Function.update ts id (some emu))

def dropTerminal (id : Int) (ts : Terminals P) : Terminals P := Function.update ts id none

def resizeTerminal (id : Int) (rows cols : Nat) (ts : Terminals P) :
    FrameUpdate × Text × Terminals P :=
  let (update, emu) := (((ts id).getD (.new rows cols)).resize rows cols).setView 0
  (update, buildUpdatePayload update, Function.update ts id (some emu))

end Terminals

end HopToDesk.Client
