import HopToDesk.Kit.System

/-!
# The output a terminal keeps

`OutputBuffer` of `src/server/terminal_service.rs`: the last output of a terminal, cut into lines,
for a client that opens the terminal again. `append` cuts what comes in and then drops lines from
the front while the buffer is too large.

The loop that drops them is taken turn by turn, since nothing says that it ends: `append` is what
comes before it, and a state says whether a call is in the loop. A `usize` is a number here. What a
buffer holds fits into memory, so a sum does not wrap, but a difference does where it is negative,
as in a release build; a debug build stops there.
-/

set_option autoImplicit false

namespace HopToDesk.Host

open Kit

structure OutputBuffer where
  lines : List (List UInt8)
  totalSize : Nat
  lastLineIncomplete : Bool
deriving DecidableEq, Repr

/-- `b'\n'`. -/
def newline : UInt8 := 10

def maxOutputBufferSize : Nat := 1024 * 1024

def maxBufferLines : Nat := 10000

/-- `a - b` of `usize`. -/
def usizeSub (a b : Nat) : Nat := if b ≤ a then a - b else a + 2 ^ 64 - b

/-- `split(|&b| b == b'\n')`. -/
def splitLines : List UInt8 → List (List UInt8)
  | [] => [[]]
  | b :: bs =>
    if b = newline then [] :: splitLines bs
    else
      match splitLines bs with
      | [] => [[b]]
      | line :: lines => (b :: line) :: lines

namespace OutputBuffer

def new : OutputBuffer := ⟨[], 0, false⟩

variable (self : OutputBuffer)

/-- A line at the end, and counted. -/
def pushBack (line : List UInt8) : OutputBuffer :=
  { self with lines := self.lines ++ [line], totalSize := self.totalSize + line.length }

/-- The loop over the lines of new data: each but the last gets its newline, and the last is left
out where it is empty. -/
def pushLines (self : OutputBuffer) (endsWithNewline : Bool) : List (List UInt8) → OutputBuffer
  | [] => self
  | [line] =>
    let self := if !endsWithNewline && !line.isEmpty then { self with lastLineIncomplete := true }
      else self
    if !line.isEmpty then
      self.pushBack (if endsWithNewline then line ++ [newline] else line)
    else self
  | line :: next :: lines =>
    (self.pushBack (line ++ [newline])).pushLines endsWithNewline (next :: lines)

/-- `back_mut()` and `extend_from_slice`. -/
def extendLast (data : List UInt8) : OutputBuffer :=
  { self with lines := self.lines.dropLast ++ (self.lines.getLast?.map (· ++ data)).toList }

/-- The lines of new data, from `start` on. -/
def pushRemaining (remaining : List UInt8) : OutputBuffer :=
  self.pushLines (remaining.getLast? = some newline) (splitLines remaining)

/-- What `append` does before it drops lines, and whether it comes to that. -/
def append (data : List UInt8) : OutputBuffer × Bool :=
  if data.isEmpty then (self, false)
  else if self.lastLineIncomplete && !self.lines.isEmpty then
    match data.findIdx? (· = newline) with
    | some newlinePos =>
      let self := { self.extendLast (data.take (newlinePos + 1)) with lastLineIncomplete := false }
      (self.pushRemaining (data.drop (newlinePos + 1)), true)
    | none =>
      let self := self.extendLast data
      ({ self with totalSize := self.totalSize + data.length }, false)
  else (self.pushRemaining data, true)

/-- The condition of the loop. -/
def tooLarge : Bool :=
  decide (self.totalSize > maxOutputBufferSize) || decide (self.lines.length > maxBufferLines)

/-- The body of the loop. -/
def popFront : OutputBuffer :=
  match self.lines with
  | [] => self
  | removed :: lines =>
    { self with lines, totalSize := usizeSub self.totalSize removed.length }

/-- The loop of `get_recent`, over the lines from the last on. -/
def recent (maxBytes : Nat) : List (List UInt8) → Nat → List UInt8 → List UInt8
  | [], _, result => result
  | line :: lines, size, result =>
    if size + line.length > maxBytes then result
    else recent maxBytes lines (size + line.length) (line ++ result)

def getRecent (maxBytes : Nat) : List UInt8 := recent maxBytes self.lines.reverse 0 []

/-- The loop runs to its end. -/
inductive Trimmed : OutputBuffer → OutputBuffer → Prop
  | done {self : OutputBuffer} (h : self.tooLarge = false) : Trimmed self self
  | turn {self after : OutputBuffer} (h : self.tooLarge = true)
      (htrim : Trimmed self.popFront after) : Trimmed self after

/-- A call of `append` comes to its end, and leaves `after`. -/
def Returns (data : List UInt8) (after : OutputBuffer) : Prop :=
  if (self.append data).2 then Trimmed (self.append data).1 after
  else after = (self.append data).1

end OutputBuffer

/-- Calls one after the other, each of which returns or goes on forever. A slice has no more than
`isize::MAX` bytes. -/
def appendCalls : System (Option OutputBuffer) (List UInt8) where
  init s := s = some .new
  step s data s' := ∃ buffer, s = some buffer ∧ data.length < 2 ^ 63 ∧
    ((∃ after, s' = some after ∧ buffer.Returns data after) ∨
      s' = none ∧ ∀ after, ¬ buffer.Returns data after)

/-! ## A buffer in use -/

/-- A buffer, and whether a call of `append` is in its loop. -/
structure Appending where
  buffer : OutputBuffer
  trimming : Bool
deriving DecidableEq, Repr

inductive AppendEvent
  | append (data : List UInt8)
  /-- The loop tests its condition. -/
  | trim
deriving DecidableEq, Repr

namespace Appending

/-- One call follows the other. -/
def Can (s : Appending) : AppendEvent → Prop
  | .append _ => s.trimming = false
  | .trim => s.trimming = true

instance (s : Appending) : (e : AppendEvent) → Decidable (s.Can e)
  | .append _ => inferInstanceAs (Decidable (s.trimming = false))
  | .trim => inferInstanceAs (Decidable (s.trimming = true))

def next (s : Appending) : AppendEvent → Appending
  | .append data => ⟨(s.buffer.append data).1, (s.buffer.append data).2⟩
  | .trim => if s.buffer.tooLarge then { s with buffer := s.buffer.popFront }
    else { s with trimming := false }

/-- Any calls, from a new buffer on. -/
def system : System Appending AppendEvent := System.guarded ⟨.new, false⟩ Can next

/-- What a run has appended. -/
def appended : List AppendEvent → List UInt8
  | [] => []
  | .append data :: es => data ++ appended es
  | .trim :: es => appended es

end Appending

end HopToDesk.Host
