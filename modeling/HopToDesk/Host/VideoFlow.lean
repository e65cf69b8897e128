import HopToDesk.Kit.System
import HopToDesk.Host.Service

/-!
# Waiting for frames to be fetched

A video service sends a frame to its subscribers and waits, three seconds at most, until they have
fetched it. A connection says so when it takes the frame from its channel, or when its peer
acknowledges a frame, if the peer has asked for that. All services take these notifications from one
channel. A notification names the connection only, and whichever service takes it counts it.
-/

set_option autoImplicit false

namespace HopToDesk.Host

open Kit

/-- A frame, by the service that sent it and how many frames that service had sent before. -/
structure VideoFrame where
  service : Nat
  number : Nat
deriving DecidableEq, Repr

/-- A notification: a connection, and the frame it has fetched, if it is about a frame. The channel
carries the first. -/
abbrev FrameFetched : Type := Int × Option VideoFrame

/-- The loop of a service is before its next frame, or waits after it has sent one or has had none,
with `fetched_conn_ids`. -/
inductive VideoPhase
  | capturing
  | waiting (frame : Option VideoFrame) (fetchedConnIds : Finset Int)
deriving DecidableEq

/-- A video service: `send_conn_ids` of its `VideoFrameController`, where its loop is, and how many
frames it has sent. -/
structure VideoService where
  sendConnIds : Finset Int
  phase : VideoPhase
  frames : Nat

/-- A service has left the wait before the timeout: after which frame, whom that was sent to, and the
notifications there had been. -/
structure WaitLeft where
  frame : VideoFrame
  sendConnIds : Finset Int
  notified : List FrameFetched

/-- The services, the video channel of each connection with the frames or other messages in it, the
frames each connection has taken from it, and the notification channel, oldest first. The rest is
the past: all notifications, and how waits ended. -/
structure VideoFlow where
  services : Nat → VideoService
  rxVideo : Int → List (Option VideoFrame)
  taken : Int → List VideoFrame
  notifier : List FrameFetched
  notified : List FrameFetched
  left : List WaitLeft

inductive VideoStep
  /-- The loop of a service goes through once up to the wait, and sends a frame to these, or none. -/
  | capture (service : Nat) (connIds : Option (Finset Int))
  /-- `SwitchDisplay` takes the video channel as well. -/
  | switchDisplay (connId : Int)
  /-- A connection takes what is next in its video channel. -/
  | fetch (connId : Int)
  /-- Its peer sends `VideoReceived`, after a frame it was sent or without any. -/
  | videoReceived (connId : Int) (frame : Option VideoFrame)
  | close (connId : Int)
  /-- The wait loop of a service goes through once; a notification comes in time, or none does. -/
  | tryWaitNext (service : Nat) (received : Bool)
  /-- Three seconds have passed. -/
  | timeout (service : Nat)
  /-- The privacy mode has changed: `run` ends, and begins again. -/
  | bail (service : Nat)

namespace VideoFlow

/-- `notify_video_frame_fetched`. -/
def notify (s : VideoFlow) (connId : Int) (frame : Option VideoFrame) : VideoFlow :=
  { s with
    notifier := s.notifier ++ [(connId, frame)]
    notified := s.notified ++ [(connId, frame)] }

def setService (s : VideoFlow) (k : Nat) (service : VideoService) : VideoFlow :=
  { s with services := Function.update s.services k service }

/-- `send_video_frame`, and `set_send`, after `reset`. -/
def sendFrame (s : VideoFlow) (k : Nat) (connIds : Finset Int) : VideoFlow :=
  let service := s.services k
  let frame : VideoFrame := ⟨k, service.frames⟩
  { s with rxVideo := fun c => if c ∈ connIds then s.rxVideo c ++ [some frame] else s.rxVideo c }
    |>.setService k
      { sendConnIds := connIds
        phase := .waiting (some frame) ∅
        frames := service.frames + 1 }

/-- The end of one pass of the wait loop. -/
def checkFetched (s : VideoFlow) (k : Nat) (frame : Option VideoFrame) (fetched : Finset Int) :
    VideoFlow :=
  let service := s.services k
  if fetched.card ≥ service.sendConnIds.card then
    { s with
      left := s.left ++ (frame.map (WaitLeft.mk · service.sendConnIds s.notified)).toList }
      |>.setService k { service with phase := .capturing }
  else s.setService k { service with phase := .waiting frame fetched }

/-- One step. Which connections have peers that acknowledge frames is settled at login. -/
def next (videoAckRequired : Int → Bool) (s : VideoFlow) : VideoStep → Option VideoFlow
  | .capture k connIds =>
    match (s.services k).phase, connIds with
    | .waiting .., _ => none
    | .capturing, some connIds => some (s.sendFrame k connIds)
    | .capturing, none =>
      some (s.setService k { s.services k with sendConnIds := ∅, phase := .waiting none ∅ })
  | .switchDisplay connId =>
    some { s with rxVideo := Function.update s.rxVideo connId (s.rxVideo connId ++ [none]) }
  | .fetch connId =>
    match s.rxVideo connId with
    | [] => none
    | item :: rest =>
      let s := { s with
        rxVideo := Function.update s.rxVideo connId rest
        taken := Function.update s.taken connId (s.taken connId ++ item.toList) }
      some (if videoAckRequired connId then s else s.notify connId item)
  | .videoReceived connId frame =>
    if frame.all (· ∈ s.taken connId) then some (s.notify connId frame) else none
  | .close connId => some (s.notify connId none)
  | .tryWaitNext k received =>
    match (s.services k).phase with
    | .capturing => none
    | .waiting frame fetched =>
      if (s.services k).sendConnIds = ∅ then some (s.checkFetched k frame fetched)
      else if received then
        match s.notifier with
        | [] => none
        | (connId, _) :: rest =>
          some ({ s with notifier := rest }.checkFetched k frame (insert connId fetched))
      else some (s.checkFetched k frame fetched)
  | .timeout k | .bail k =>
    match (s.services k).phase with
    | .capturing => none
    | .waiting .. => some (s.setService k { s.services k with phase := .capturing })

def start : VideoFlow where
  services _ := ⟨∅, .capturing, 0⟩
  rxVideo _ := []
  taken _ := []
  notifier := []
  notified := []
  left := []

/-- Any services and connections, and any order of their steps. -/
def system (videoAckRequired : Int → Bool) : System VideoFlow VideoStep :=
  System.stepping (· = start) (next videoAckRequired)

/-- The connection has notified the fetch of a frame of the same service, sent no earlier. -/
def Notified (notified : List FrameFetched) (frame : VideoFrame) (connId : Int) : Prop :=
  ∃ number, (connId, some ⟨frame.service, number⟩) ∈ notified ∧ frame.number ≤ number

/-- A wait is left early only when every connection the frame was sent to has notified. -/
def LeftFetched (s : VideoFlow) : Prop :=
  ∀ l ∈ s.left, ∀ connId ∈ l.sendConnIds, Notified l.notified l.frame connId

/-- The notification that a service takes while it waits is from a connection that its frame was sent
to, and that has notified. -/
def Own (s : VideoFlow) : VideoStep → Prop
  | .tryWaitNext k true => ∀ frame fetched connId about rest,
      (s.services k).phase = .waiting (some frame) fetched →
        (s.services k).sendConnIds ≠ ∅ → s.notifier = (connId, about) :: rest →
          connId ∈ (s.services k).sendConnIds ∧ Notified s.notified frame connId
  | _ => True

end VideoFlow

end HopToDesk.Host

/-!
## The run loop of a video service

`run` makes an encoder and sends what it puts out to the subscribers, until there are none or it has
to start again with a new encoder. New subscribers are kept apart. Before a frame is encoded they are
moved to the others, and where there are others, `run` ends: what the encoder puts out next would
build on frames that the new ones have not got. Where there are no others at that moment, the encoder
stays in use.

A step of the loop is what it does under one acquisition of the service's lock, or without.
-/

namespace HopToDesk.Host

open Kit

/-- What an encoder puts out, by the encoder and how many frames it had put out before. The first one
is a key frame. -/
structure EncodedFrame where
  encoder : Nat
  number : Nat
deriving DecidableEq, Repr

/-- `ConnInner` as a video service has it. -/
structure VideoSubscriber where
  id : Int
deriving DecidableEq, Repr

instance : Subscriber VideoSubscriber EncodedFrame where
  id := VideoSubscriber.id
  send s _ := s
  id_send _ _ := rfl

/-- Where the thread of the service stands. -/
inductive RunPc
  /-- Not in `run`. -/
  | outside
  /-- Before `sp.ok()`. -/
  | check
  /-- Before a frame, or without one. -/
  | capture
  /-- In the callback of the snapshot. -/
  | callback
  /-- The callback has failed, or not, and its `ServiceSwap` is to be dropped. -/
  | swap (failed : Bool)
  | encode
  /-- Before `send_video_frame`. -/
  | send (frame : EncodedFrame)
deriving DecidableEq, Repr

/-- What happened to a subscriber. -/
inductive ViewerEvent
  | subscribed
  | unsubscribed
  | frame (frame : EncodedFrame)
deriving DecidableEq, Repr

/-- The service, where its thread stands, the encoders made, how many frames the last one has put
out, and what happened to each id, oldest first. The code does not keep the last. -/
structure VideoRun where
  inner : ServiceInner VideoSubscriber
  pc : RunPc
  encoders : Nat
  outputs : Nat
  events : Int → List ViewerEvent

inductive VideoRunStep
  | onSubscribe (id : Int)
  | onUnsubscribe (id : Int)
  | join
  /-- There are subscribers, and `run` makes an encoder. -/
  | enter
  | ok
  /-- `run` ends with an error, at any place before a frame. -/
  | bail
  /-- There is no frame this time. -/
  | noFrame
  /-- The check of `snapshot`, its callback, and the drop of the swap. -/
  | snapshot
  | callback
  | swapDrop
  /-- The encoder puts out a frame, or fails, and `run` may end for it. -/
  | encode
  | encodeFails (switch : Bool)
  | sendVideoFrame

namespace VideoRun

/-- `has_subscribes`. -/
def hasSubscribes (inner : ServiceInner VideoSubscriber) : Bool :=
  0 < inner.subscribes.values.length || 0 < inner.newSubscribes.values.length

/-- `ok`. -/
def ok (inner : ServiceInner VideoSubscriber) : Bool := inner.active && hasSubscribes inner

def record (events : Int → List ViewerEvent) (subs : Subscribers VideoSubscriber)
    (event : ViewerEvent) : Int → List ViewerEvent :=
  fun i => if subs.Has i then events i ++ [event] else events i

def next (s : VideoRun) : VideoRunStep → Option VideoRun
  | .onSubscribe id =>
    some { s with
      inner := s.inner.onSubscribe ⟨id⟩
      events := Function.update s.events id (s.events id ++ [.subscribed]) }
  | .onUnsubscribe id =>
    some { s with
      inner := s.inner.onUnsubscribe id
      events := Function.update s.events id (s.events id ++ [.unsubscribed]) }
  | .join => some { s with inner := { s.inner with active := false } }
  | .enter =>
    match s.pc with
    | .outside =>
      if ok s.inner then some { s with pc := .check, encoders := s.encoders + 1, outputs := 0 }
      else none
    | _ => none
  | .ok =>
    match s.pc with
    | .check => some { s with pc := if ok s.inner then .capture else .outside }
    | _ => none
  | .bail =>
    match s.pc with
    | .check | .capture => some { s with pc := .outside }
    | _ => none
  | .noFrame =>
    match s.pc with
    | .capture => some { s with pc := .check }
    | _ => none
  | .snapshot =>
    match s.pc with
    | .capture =>
      some { s with
        pc := if 0 < s.inner.newSubscribes.values.length then .callback else .encode }
    | _ => none
  | .callback =>
    match s.pc with
    | .callback => some { s with pc := .swap (0 < s.inner.subscribes.values.length) }
    | _ => none
  | .swapDrop =>
    match s.pc with
    | .swap failed =>
      some { s with
        inner := s.inner.swapNewSubscribes
        pc := if failed then .outside else .encode }
    | _ => none
  | .encode =>
    match s.pc with
    | .encode =>
      some { s with pc := .send ⟨s.encoders, s.outputs⟩, outputs := s.outputs + 1 }
    | _ => none
  | .encodeFails switch =>
    match s.pc with
    | .encode => some { s with pc := if switch then .outside else .check }
    | _ => none
  | .sendVideoFrame =>
    match s.pc with
    | .send frame =>
      some { s with
        inner := s.inner.sendShared frame
        pc := .check
        events := record s.events s.inner.subscribes (.frame frame) }
    | _ => none

/-- A new service: it needs snapshots. -/
def start (name : String) : VideoRun := ⟨.new name true, .outside, 0, 0, fun _ => []⟩

/-- Any order of the steps of the loop and the subscriptions. -/
def system (name : String) : System VideoRun VideoRunStep := System.stepping (· = start name) next

/-- Among the frames sent since it was last unsubscribed is the first one of an encoder. -/
def GotFirst (events : List ViewerEvent) : Prop :=
  ∃ before g after, events = before ++ .frame g :: after ∧ .unsubscribed ∉ after ∧ g.number = 0

/-- The first frame after each subscription is the first of its encoder, or comes after such a
frame. -/
def Decodable (events : List ViewerEvent) : Prop :=
  ∀ before between after f, events = before ++ .subscribed :: (between ++ .frame f :: after) →
    (∀ g, .frame g ∉ between) → f.number = 0 ∨ GotFirst before

/-- A snapshot that finds no old subscriber finds an encoder that has put out nothing. -/
def Fresh (s : VideoRun) : VideoRunStep → Prop
  | .callback => s.inner.subscribes.values = [] → s.outputs = 0
  | _ => True

instance (s : VideoRun) (step : VideoRunStep) : Decidable (s.Fresh step) :=
  match step with
  | .callback => inferInstanceAs (Decidable (s.inner.subscribes.values = [] → s.outputs = 0))
  | .onSubscribe _ | .onUnsubscribe _ | .join | .enter | .ok | .bail | .noFrame | .snapshot
  | .swapDrop | .encode | .encodeFails _ | .sendVideoFrame => inferInstanceAs (Decidable True)

end VideoRun

end HopToDesk.Host
