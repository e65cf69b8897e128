import HopToDesk.Host.Codec
import HopToDesk.Kit.Checked
import HopToDesk.Kit.Fallible
import HopToDesk.Kit.System

/-!
# Recording a session

`Recorder` of `libs/scrap/src/common/record.rs` writes the frames of a session to a file, and starts
another one when the size or the codec changes, and when the timestamps go back. A file is written
by a `WebmRecorder`, which takes no frame before the first key frame, or by a `HwRecorder`, in a
build with `hwcodec`. A recorder that is dropped ends its file, or removes it, and says which.

Making a file succeeds. Its name, what the muxer says to a frame, and whether a file has gone on for
a second when it is dropped, are chosen by what has happened. With each frame that a muxer was given
stand the size and the codec that it came with; a timestamp that overflows ends the recording.
-/

set_option autoImplicit false

namespace HopToDesk.Host.Recording

open Kit Codec

/-! ## Frames -/

structure EncodedVideoFrame where
  data : List UInt8
  key : Bool
  pts : Int64
deriving DecidableEq

/-- `video_frame::Union`. -/
inductive VideoFrame
  | vp8s (frames : List EncodedVideoFrame)
  | vp9s (frames : List EncodedVideoFrame)
  | av1s (frames : List EncodedVideoFrame)
  | h264s (frames : List EncodedVideoFrame)
  | h265s (frames : List EncodedVideoFrame)
  | rgb (compress : Bool)
  | yuv (compress : Bool)

/-- `CodecFormat::from`. -/
def VideoFrame.format : VideoFrame → CodecFormat
  | .vp8s _ => .vp8
  | .vp9s _ => .vp9
  | .h264s _ => .h264
  | .h265s _ => .h265
  | _ => .unknown

inductive RecordState
  | newFile (filename : String)
  | newFrame
  | writeTail
  | removeFile
deriving DecidableEq, Repr

/-! ## Files -/

/-- `RecorderContext2`. -/
structure RecorderContext2 where
  filename : String
  width : UInt64
  height : UInt64
  format : CodecFormat
deriving DecidableEq

/-- A frame that a muxer was given, and what it came with. -/
structure Received where
  frame : EncodedVideoFrame
  width : UInt64
  height : UInt64
  format : CodecFormat
deriving DecidableEq

/-- A `WebmRecorder` or a `HwRecorder`. -/
structure FileRecorder where
  webm : Bool
  ctx2 : RecorderContext2
  key : Bool
  written : Bool
  received : List Received

inductive Failure
  | error (message : String)
  | overflow
deriving DecidableEq, Repr

structure Recorder where
  inner : Option FileRecorder
  ctx2 : Option RecorderContext2
  pts : Option Int64
  checkFailed : Bool
  /-- What the files got that are no longer written, oldest first. -/
  files : List (List Received)
  /-- What was sent, oldest first. -/
  events : List RecordState
  overflowed : Bool

def Recorder.new : Recorder where
  inner := none
  ctx2 := none
  pts := none
  checkFailed := false
  files := []
  events := []
  overflowed := false

/-- What the world answers, after these states were sent. -/
structure RecordIo where
  /-- The name of a new file, which has the time in it. -/
  filename : List RecordState → CodecFormat → String
  /-- The muxer takes the frame. -/
  addFrame : List RecordState → EncodedVideoFrame → Bool
  /-- At least `MIN_SECS` since the file was made. -/
  longEnough : List RecordState → Bool

/-- `frame.pts as u64 * 1_000_000`. -/
def timestamp (pts : Int64) : Option Nat := unsigned 64 (pts.toUInt64.toNat * 1000000)

abbrev Rec : Type → Type := Fallible Recorder Failure

section

variable (io : RecordIo) (hwcodec : Bool)

def sendState (state : RecordState) : Rec Unit :=
  .modify fun r => { r with events := r.events ++ [state] }

/-- `self.inner = None`: the file is dropped, if there is one. -/
def Recorder.dropInner (r : Recorder) : Recorder :=
  match r.inner with
  | some inner =>
    let state := if !inner.written || !io.longEnough r.events then .removeFile else .writeTail
    { r with
      inner := none, files := r.files ++ [inner.received], events := r.events ++ [state] }
  | none => r

/-- The context of a file of its own, and no file yet. -/
def setCtx2 (w h : UInt64) (format : CodecFormat) : Rec Unit :=
  .modify fun r =>
    let ctx2 : RecorderContext2 :=
      { filename := io.filename r.events format, width := w, height := h, format }
    Recorder.dropInner io { r with ctx2 := some ctx2 }

/-- `WebmRecorder::new` or `HwRecorder::new`, and what follows it. -/
def install (webm : Bool) (ctx2 : RecorderContext2) : Rec Unit := do
  .modify fun r =>
    { r with inner := some ⟨webm, ctx2, false, false, []⟩, pts := none }
  sendState (.newFile ctx2.filename)

/-- The first half of `check`: a context of the size and the codec. -/
def matchCtx2 (w h : UInt64) (format : CodecFormat) : Rec Unit := do
  let r ← .get
  match r.ctx2 with
  | some ctx2 =>
    if ctx2.width ≠ w ∨ ctx2.height ≠ h ∨ ctx2.format ≠ format then setCtx2 io w h format
  | none => setCtx2 io w h format

/-- The second half: a file, if there is none. -/
def makeInner (format : CodecFormat) : Rec Unit := do
  let r ← .get
  match r.ctx2 with
  | some ctx2 =>
    if r.inner.isNone then
      match format with
      | .vp8 | .vp9 => install true ctx2
      | _ => if hwcodec then install false ctx2 else .fail (.error "unsupported codec type")
  | none => .fail (.error "ctx2 is None")

def check (w h : UInt64) (format : CodecFormat) : Rec Unit := do
  matchCtx2 io w h format
  makeInner hwcodec format

/-- `check`, whose failure is remembered. -/
def checkOrFail (w h : UInt64) (format : CodecFormat) : Rec Unit := do
  match ← (check io hwcodec w h format).attempt with
  | .ok () => pure ()
  | .error e =>
    .modify fun r => { r with checkFailed := true }
    .fail e

def checkPts (frame : EncodedVideoFrame) (w h : UInt64) (format : CodecFormat) :
    Rec Unit := do
  let r ← .get
  if r.pts.isNone && !frame.key then .fail (.error "first frame is not key frame")
  else
    .modify fun r => { r with pts := some frame.pts }
    if r.pts.getD 0 > frame.pts then
      .modify fun r => { Recorder.dropInner io r with ctx2 := none }
      checkOrFail io hwcodec w h format
      .modify fun r => { r with pts := some frame.pts }

/-- `write_video` of the file that is written, if there is one. -/
def writeVideo (frame : EncodedVideoFrame) (w h : UInt64) (format : CodecFormat) :
    Rec Unit := do
  let r ← .get
  match r.inner with
  | some inner =>
    if inner.key || frame.key then
      if inner.webm ∧ timestamp frame.pts = none then
        .modify fun r => { r with overflowed := true }
        .fail .overflow
      else
        let ok := io.addFrame r.events frame
        let received := inner.received ++ [⟨frame, w, h, format⟩]
        let inner := { inner with key := true, written := inner.written || ok, received }
        .modify fun r => { r with inner := some inner }
  | none => pure ()

/-- The frames one after the other. -/
def writeFrames (w h : UInt64) (format : CodecFormat) : List EncodedVideoFrame → Rec Unit
  | [] => pure ()
  | frame :: frames => do
    checkPts io hwcodec frame w h format
    writeVideo io frame w h format
    writeFrames w h format frames

/-- The frames of the union. -/
def writeUnion (frame : VideoFrame) (w h : UInt64) : Rec Unit :=
  match frame with
  | .vp8s frames | .vp9s frames | .av1s frames =>
    writeFrames io hwcodec w h frame.format frames
  | .h264s frames | .h265s frames =>
    if hwcodec then writeFrames io hwcodec w h frame.format frames
    else .fail (.error "unsupported frame type")
  | .rgb _ | .yuv _ => .fail (.error "unsupported frame type")

def writeFrame (frame : VideoFrame) (w h : UInt64) : Rec Unit := do
  let r ← .get
  if r.checkFailed then .fail (.error "check failed")
  else
    let format := frame.format
    if format = .unknown then .fail (.error "unsupported frame type")
    else
      checkOrFail io hwcodec w h format
      writeUnion io hwcodec frame w h
      sendState .newFrame

end

/-! ## Runs -/

structure Call where
  io : RecordIo
  frame : VideoFrame
  width : UInt64
  height : UInt64

def Recorder.next (hwcodec : Bool) (r : Recorder) (c : Call) : Recorder :=
  (writeFrame c.io hwcodec c.frame c.width c.height r).2

/-- Any calls, with any frames. -/
def recorder (hwcodec : Bool) : System Recorder Call where
  init r := r = .new
  step r c r' := r' = r.next hwcodec c

/-! ## What a recording should be -/

/-- Frames of one size and one codec, the first a key frame, with timestamps that do not go back. -/
structure GoodFile (received : List Received) : Prop where
  same : ∀ x ∈ received, ∀ y ∈ received,
    x.width = y.width ∧ x.height = y.height ∧ x.format = y.format
  key : ∀ x ∈ received.head?, x.frame.key = true
  pts : received.Pairwise fun x y => x.frame.pts ≤ y.frame.pts

def RecordState.isNewFile : RecordState → Bool
  | .newFile _ => true
  | _ => false

def RecordState.endsFile : RecordState → Bool
  | .writeTail | .removeFile => true
  | _ => false

/-- How many `WriteTail` and `RemoveFile` there were since the last `NewFile`, if there was one. -/
def endsSince (events : List RecordState) : Option Nat :=
  events.foldl
    (fun n e => if e.isNewFile then some 0 else if e.endsFile then n.map (· + 1) else n) none

/-- Between one `NewFile` and the next stands exactly one `WriteTail` or `RemoveFile`. -/
def OneEndEach (events : List RecordState) : Prop :=
  ∀ before filename after, events = before ++ .newFile filename :: after →
    ∀ n ∈ endsSince before, n = 1

structure WellRecorded (r : Recorder) : Prop where
  files : ∀ received ∈ r.files, GoodFile received
  inner : ∀ inner ∈ r.inner, GoodFile inner.received
  events : OneEndEach r.events
  overflowed : r.overflowed = false

/-! ## Timestamps in range -/

/-- `pts * 1_000_000` is a `u64`. -/
def PtsInRange (pts : Int64) : Prop := 0 ≤ pts.toInt ∧ pts.toInt ≤ 18446744073709

/-- The frames that go to the muxer, of those that come after the timestamp `pts`, where `key` says
that there was a key frame in the file: the first frame of all has to be one, and where the
timestamps go back there is a new file, which waits for one. -/
def muxed : Option Int64 → Bool → List EncodedVideoFrame → List EncodedVideoFrame
  | _, _, [] => []
  | pts, key, frame :: frames =>
    if pts = none ∧ frame.key = false then []
    else
      let key := frame.key || (key && decide (pts.getD 0 ≤ frame.pts))
      (if key then [frame] else []) ++ muxed (some frame.pts) key frames

/-- The last timestamp and whether there was a key frame, of the file that goes on with this size
and codec; of a new one, if it does not. -/
def Recorder.goesOn (r : Recorder) (w h : UInt64) (format : CodecFormat) : Option Int64 × Bool :=
  match r.inner with
  | some inner =>
    if inner.ctx2.width = w ∧ inner.ctx2.height = h ∧ inner.ctx2.format = format then
      (r.pts, inner.key)
    else (none, false)
  | none => (none, false)

/-- Of frames in VP8 or VP9, what goes to the muxer has timestamps in range. -/
def Recorder.InRange (r : Recorder) (c : Call) : Prop :=
  match c.frame with
  | .vp8s frames | .vp9s frames => r.checkFailed = false →
    ∀ frame ∈ muxed (r.goesOn c.width c.height c.frame.format).1
      (r.goesOn c.width c.height c.frame.format).2 frames, PtsInRange frame.pts
  | _ => True

end HopToDesk.Host.Recording
