import HopToDesk.Kit.System

/-!
# Playing back the video of a display

The loop of a session (`src/client/io_loop.rs`) hands the frames of a display to a thread that
decodes them (`start_video_thread` of `src/client.rs`). A key frame goes through the channel. Any
other goes into a queue of bounded length, and the channel carries only the word that there is one;
where the queue is full its oldest frame makes room, and the peer is asked for a refresh. A refresh
that is on its way makes the thread skip what it takes from the queue, up to the next key frame.

Every second `fps_control` looks at how fast the threads decode and how long their queues are, and
tells the peer how many frames to send.
-/

set_option autoImplicit false

namespace HopToDesk.Client.Video

open Kit

/-- `VIDEO_QUEUE_SIZE`. -/
def videoQueueSize : Nat := 120

/-! ## The thread that decodes -/

/-- `MediaData`, as far as frames go. The frames of the display are numbered as they arrive. -/
inductive Media
  | videoFrame (n : Nat)
  | videoQueue
deriving DecidableEq, Repr

/-- What the thread has in its hand. -/
inductive Hand
  | videoFrame (n : Nat)
  | videoQueue
  /-- A frame from the queue, before it is known whether it is skipped. -/
  | popped (n : Nat)
deriving DecidableEq, Repr

/-- What became of a frame. -/
inductive Fate
  | key
  | delta
  | skipped
deriving DecidableEq, Repr

/-- A `VideoThread` and the thread behind it. -/
structure Playback where
  /-- How many frames have arrived. -/
  arrived : Nat
  videoSender : List Media
  videoQueue : List Nat
  discardQueue : Bool
  hand : Option Hand
  /-- What the thread did, oldest first. -/
  log : List (Nat × Fate)
  /-- The frames that made room for others. -/
  dropped : List Nat
  /-- Requests for a refresh that are on their way through the loop. -/
  asked : Nat
  /-- Those that have gone to the peer. -/
  refreshed : Nat
deriving DecidableEq, Repr

namespace Playback

def new : Playback where
  arrived := 0
  videoSender := []
  videoQueue := []
  discardQueue := false
  hand := none
  log := []
  dropped := []
  asked := 0
  refreshed := 0

variable (s : Playback)

/-- A frame arrives. -/
def onVideoFrame (containsKeyFrame : Bool) : Playback :=
  if containsKeyFrame then
    { s with
      arrived := s.arrived + 1
      videoSender := s.videoSender ++ [.videoFrame s.arrived] }
  else if s.videoQueue.length < videoQueueSize then
    { s with
      arrived := s.arrived + 1
      videoQueue := s.videoQueue ++ [s.arrived]
      videoSender := s.videoSender ++ [.videoQueue] }
  else
    -- `force_push` gives back the oldest.
    { s with
      arrived := s.arrived + 1
      videoQueue := s.videoQueue.tail ++ [s.arrived]
      dropped := s.dropped ++ s.videoQueue.take 1
      asked := s.asked + 1 }

/-- The thread takes what the channel has. -/
def recv : Option Playback :=
  match s.hand, s.videoSender with
  | none, .videoFrame n :: rest => some { s with hand := some (.videoFrame n), videoSender := rest }
  | none, .videoQueue :: rest => some { s with hand := some .videoQueue, videoSender := rest }
  | _, _ => none

/-- The thread goes on with what it has in its hand. -/
def work : Option Playback :=
  match s.hand with
  | none => none
  | some (.videoFrame n) =>
    some { s with hand := none, discardQueue := false, log := s.log ++ [(n, .key)] }
  | some .videoQueue =>
    match s.videoQueue with
    | [] => some { s with hand := none }
    | n :: rest => some { s with hand := some (.popped n), videoQueue := rest }
  | some (.popped n) =>
    some { s with
      hand := none
      log := s.log ++ [(n, if s.discardQueue then .skipped else .delta)] }

end Playback

inductive Event
  | videoFrame (containsKeyFrame : Bool)
  | recv
  | work
  /-- A refresh is asked for: by the user, by `fps_control`, or because a frame was not decoded. -/
  | refreshVideo
  /-- The loop sends a refresh. -/
  | sendRefresh
deriving DecidableEq, Repr

def next (s : Playback) : Event → Option Playback
  | .videoFrame containsKeyFrame => some (s.onVideoFrame containsKeyFrame)
  | .recv => s.recv
  | .work => s.work
  | .refreshVideo => some { s with asked := s.asked + 1 }
  | .sendRefresh =>
    match s.asked with
    | 0 => none
    | n + 1 => some { s with asked := n, refreshed := s.refreshed + 1, discardQueue := true }

/-- The runs of the thread of a display. -/
def system : System Playback Event := .stepping (· = .new) next

/-! ## How many frames -/

/-- `FpsControl`, with the time in milliseconds. -/
structure FpsControl where
  refreshTimes : Nat := 0
  lastRefreshInstant : Option Nat := none
  idleCounter : Nat := 0
  inactiveCounter : Nat := 0
deriving DecidableEq, Repr

/-- What a thread shows when the loop looks at it. -/
structure Reading where
  videoQueueLen : Nat
  decodeFps : Option Nat
deriving DecidableEq, Repr

/-- What a round of `fps_control` works with. It looks at each thread three times. -/
structure Round where
  now : Nat
  direct : Bool
  customFps : Option Nat
  realFps : Nat → Int
  first : Nat → Reading
  second : Nat → Reading
  third : Nat → Reading

/-- The controls of the displays, and `last_auto_fps`. -/
structure FpsState where
  threads : List (Nat × FpsControl)
  lastAutoFps : Option Nat
deriving DecidableEq, Repr

/-- What a round sends. -/
inductive Sent
  | customFps (fps : Nat)
  | refreshVideo (display : Nat)
deriving DecidableEq, Repr

namespace Round

variable (r : Round)

/-- A thread that shows nothing grows inactive. -/
def tick (x : Nat × FpsControl) : Nat × FpsControl :=
  (x.1, { x.2 with inactiveCounter := if r.realFps x.1 = 0 then x.2.inactiveCounter + 1 else 0 })

def inactiveThreshold : Nat := 15

/-- The number of frames that the user wants at most. -/
def wantedFps : Nat :=
  let customFps := r.customFps.getD 30
  if customFps < 5 ∨ 120 < customFps then 30 else customFps

def active (threads : List (Nat × FpsControl)) : List (Nat × FpsControl) :=
  threads.filter fun x => x.2.inactiveCounter < inactiveThreshold

/-- `min` over options, of which `None` is the least. -/
def minDecodeFps (threads : List (Nat × FpsControl)) : Option Nat :=
  (((active threads).map fun x => (r.first x.1).decodeFps).mapM id).bind List.min?

def maxQueueLen (threads : List (Nat × FpsControl)) : Nat :=
  ((threads.map fun x => (r.first x.1).videoQueueLen).max?).getD 0

/-- What is left of the slowest decoder's rate. -/
def limitedFps (minDecodeFps : Nat) : Nat :=
  min (if r.direct then minDecodeFps * 9 / 10 else minDecodeFps * 4 / 5) r.wantedFps

/-- Whether a thread wants more frames or fewer. -/
def fpsTrending (limitedFps : Nat) (lastAutoFps : Option Nat) (x : Nat × FpsControl) :
    FpsControl × Option Bool :=
  let ctl := x.2
  let len := (r.second x.1).videoQueueLen
  match (r.second x.1).decodeFps with
  | none => (ctl, none)
  | some decodeFps =>
    let lastAutoFps := lastAutoFps.getD r.wantedFps
    if ctl.inactiveCounter > inactiveThreshold then (ctl, none)
    else if 1 < len ∧ limitedFps < lastAutoFps ∨ max 1 (decodeFps / 2) < len then
      ({ ctl with idleCounter := 0 }, some false)
    else if len ≤ 1 then
      let ctl := { ctl with idleCounter := ctl.idleCounter + 1 }
      (ctl, if 3 < ctl.idleCounter ∧ lastAutoFps + 3 ≤ limitedFps then some true else none)
    else ({ ctl with idleCounter := 0 }, none)

/-- A thread whose queue is too long is refreshed, up to twenty times, but not again within ten
seconds. -/
def shouldRefresh (minDecodeFps : Nat) (x : Nat × FpsControl) : Bool :=
  let tolerable := min minDecodeFps (videoQueueSize / 2)
  x.2.refreshTimes < 20 && tolerable < (r.third x.1).videoQueueLen &&
    (x.2.refreshTimes = 0 || x.2.lastRefreshInstant.any fun t => 10 < (r.now - t) / 1000)

def refresh (minDecodeFps : Nat) (x : Nat × FpsControl) : Nat × FpsControl :=
  if r.shouldRefresh minDecodeFps x then
    (x.1, { x.2 with refreshTimes := x.2.refreshTimes + 1, lastRefreshInstant := some r.now })
  else x

/-- The rate that the peer is told, if that is another one. -/
def autoFps (limitedFps maxQueueLen : Nat) (lastAutoFps : Option Nat)
    (trendings : List (Option Bool)) : Option Nat :=
  let shouldDecrease := trendings.contains (some false)
  let shouldIncrease := !shouldDecrease && trendings.contains (some true)
  if lastAutoFps = none ∨ shouldDecrease ∨ shouldIncrease then
    let autoFps := if shouldDecrease ∧ limitedFps < maxQueueLen then limitedFps / 2 else limitedFps
    let autoFps := max autoFps 1
    if some autoFps = lastAutoFps then none else some autoFps
  else none

/-- `fps_control`. -/
def fpsControl (s : FpsState) : FpsState × List Sent :=
  let threads := s.threads.map r.tick
  match r.minDecodeFps threads with
  | none => (⟨threads, s.lastAutoFps⟩, [])
  | some minDecodeFps =>
    let limitedFps := r.limitedFps minDecodeFps
    let trendings := threads.map (r.fpsTrending limitedFps s.lastAutoFps)
    let autoFps := Round.autoFps limitedFps (r.maxQueueLen threads) s.lastAutoFps
      (trendings.map Prod.snd)
    let threads := (threads.zip trendings).map fun x => (x.1.1, x.2.1)
    (⟨threads.map (r.refresh minDecodeFps), autoFps.or s.lastAutoFps⟩,
      (autoFps.map Sent.customFps).toList ++
        (threads.filter (r.shouldRefresh minDecodeFps)).map fun x => .refreshVideo x.1)

end Round

/-- Rounds after the threads of some displays have been started, each with what it sends. -/
def fpsSystem (displays : List Nat) : System FpsState (Round × List Sent) where
  init s := s = ⟨displays.map fun display => (display, {}), none⟩
  step s x s' := x.1.fpsControl s = (s', x.2)

end HopToDesk.Client.Video
