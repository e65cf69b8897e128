import HopToDesk.Kit.RingBuffer
import HopToDesk.Kit.System

/-!
# The buffer for incoming audio

`AudioBuffer` of `src/client.rs`: a ring of the samples that are to be played, the number of samples
in a second, and thirty counters. Each time samples come in, the counter of the tenth of a second
the ring is filled to goes up; every twelve seconds the counters say how many samples are dropped,
and start over. The time they last did is a static, one for all buffers.

The ring is the `ringbuf` crate's, a parameter. A sample can be anything. Counters and sizes are
unbounded numbers, and an operation that divides by a rate of zero gives nothing.
-/

set_option autoImplicit false

namespace HopToDesk.Client

open Kit

variable {α : Type} (ring : RingBuffer α)

def audioBufferMs : Nat := 3000

/-- The counters. -/
abbrev Histogram := Nat → Nat

structure AudioBuffer where
  rb : ring.Buf
  rate : Nat
  histogram : Histogram

/-- The water marks while the counters are scanned. -/
structure WaterMarks where
  histogram : Histogram
  zero : Nat
  max : Nat

/-- One round of the scan, which clears the counters it is done with. -/
def WaterMarks.scanOne (marks : WaterMarks) (i : Nat) : WaterMarks :=
  let h := marks.histogram
  let marks := { marks with
    zero := if h i = 0 ∧ marks.zero = i then marks.zero + 1 else marks.zero }
  if h i > h marks.max then { marks with histogram := Function.update h marks.max 0, max := i }
  else { marks with histogram := Function.update h i 0 }

def WaterMarks.scan (h : Histogram) : WaterMarks :=
  (List.range 30).foldl WaterMarks.scanOne ⟨h, 0, 0⟩

/-- `N` of `try_shrink`. -/
def shrinkN : Nat := 4

/-- What `try_shrink` leaves: the buffer, the static, and how many samples it has dropped. -/
structure Shrunk where
  buffer : AudioBuffer ring
  tms : Int
  dropped : Nat

namespace AudioBuffer

variable {ring}

/-- `default`. -/
def default : AudioBuffer ring :=
  ⟨ring.new (48000 * 2 * audioBufferMs / 1000), 48000 * 2, fun _ => 0⟩

def resize (self : AudioBuffer ring) (sampleRate channels : Nat) : AudioBuffer ring :=
  let capacity := sampleRate * channels * audioBufferMs / 1000
  let oldCapacity := ring.capacity self.rb
  if capacity ≠ oldCapacity then
    { self with rb := ring.new capacity, rate := sampleRate * channels }
  else self

/-- The bucket that a level belongs to. -/
def bucket (having rate : Nat) : Nat :=
  let i := having * 10 / rate
  if i > 29 then 29 else i

/-- `self.2[i] += 1`, for the bucket of a level. -/
def count (self : AudioBuffer ring) (having : Nat) : AudioBuffer ring :=
  let i := bucket having self.rate
  { self with histogram := Function.update self.histogram i (self.histogram i + 1) }

/-- The second half of `try_shrink`: the counters are due. -/
def dropByWaterMarks (self : AudioBuffer ring) (dt : Int) : Shrunk ring :=
  let marks := WaterMarks.scan self.histogram
  let marks := { marks with zero := marks.zero * 2 / 3 }
  let max := marks.max
  let self := { self with histogram := Function.update marks.histogram max 0 }
  if max < 6 then ⟨self, dt, 0⟩
  else
    let max := if max > marks.zero * shrinkN then marks.zero * shrinkN else max
    let cap := ring.capacity self.rb
    let having := ring.occupiedLen self.rb
    -- `& (!1)`
    let skip := (cap * max / (30 * shrinkN) + 1) / 2 * 2
    if having > skip * 3 ∧ skip > 0 then ⟨{ self with rb := ring.skip self.rb skip }, dt, skip⟩
    else ⟨self, dt, 0⟩

/-- `try_shrink`, when the static is `tms` and the clock says `dt`. -/
def tryShrink (self : AudioBuffer ring) (tms dt : Int) (having : Nat) : Option (Shrunk ring) :=
  if self.rate = 0 then none
  else
    let self := self.count having
    if tms = 0 then some ⟨self, dt, 0⟩
    else if dt < tms + 12000 then some ⟨self, tms, 0⟩
    else some (self.dropByWaterMarks dt)

/-- `append_pcm2`: the buffer, and what it returns. -/
def appendPcm2 (self : AudioBuffer ring) (buffer : List α) : AudioBuffer ring × Nat :=
  let cap := ring.capacity self.rb
  if buffer.length > cap then
    ({ self with rb := ring.pushSliceOverwrite self.rb buffer }, cap)
  else
    let having := ring.occupiedLen self.rb + buffer.length
    let rb := if having > cap then ring.skip self.rb (having - cap) else self.rb
    let rb := ring.pushSliceOverwrite rb buffer
    ({ self with rb }, ring.occupiedLen rb)

def appendPcm (self : AudioBuffer ring) (tms dt : Int) (buffer : List α) :
    Option (Shrunk ring) :=
  let (self, having) := self.appendPcm2 buffer
  self.tryShrink tms dt having

end AudioBuffer

/-! ## A buffer in use -/

/-- A buffer and the static. Besides, which the code does not keep: the channels it was last set up
for, the samples that came since the ring was made, and whether `try_shrink` has dropped any while
less than 600 ms were buffered. -/
structure AudioRun where
  buffer : AudioBuffer ring
  tms : Int
  channels : Nat
  appended : List α
  hasty : Bool

inductive AudioCall (α : Type)
  | resize (sampleRate channels : Nat)
  | appendPcm (buffer : List α) (dt : Int)
deriving DecidableEq, Repr

namespace AudioRun

variable {ring}

/-- The samples in the ring. -/
def items (s : AudioRun ring) : List α := ring.items s.buffer.rb

/-- A new buffer, whatever the static is. -/
def start (tms : Int) : AudioRun ring := ⟨.default, tms, 2, [], false⟩

/-- One call. What is appended is whole frames. -/
def next (s : AudioRun ring) : AudioCall α → Option (AudioRun ring)
  | .resize sampleRate channels =>
    let buffer := s.buffer.resize sampleRate channels
    some { s with
      buffer, channels
      appended := if sampleRate * channels * audioBufferMs / 1000 ≠ ring.capacity s.buffer.rb
        then [] else s.appended }
  | .appendPcm buffer dt =>
    if buffer.length % s.channels = 0 then
      (s.buffer.appendPcm s.tms dt buffer).map fun shrunk =>
        let level := ring.occupiedLen (s.buffer.appendPcm2 buffer).1.rb
        { s with
          buffer := shrunk.buffer
          tms := shrunk.tms
          appended := s.appended ++ buffer
          hasty := s.hasty || (decide (shrunk.dropped > 0) &&
            decide (level * 1000 < 600 * s.buffer.rate)) }
    else none

/-- Any calls, and any clock. -/
def system : System (AudioRun ring) (AudioCall α) :=
  .stepping (fun s => ∃ tms, s = start tms) next

/-- The ring holds no more than it can, whole frames, and the newest samples, and nothing was
dropped in haste. -/
structure Trimmed (s : AudioRun ring) : Prop where
  within : s.items.length ≤ ring.capacity s.buffer.rb
  frames : s.channels ∣ s.items.length
  newest : s.items <:+ s.appended
  unhurried : s.hasty = false

end AudioRun

end HopToDesk.Client
