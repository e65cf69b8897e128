import HopToDesk.Host.Service

/-!
# The audio service

The service of `src/server/audio_service.rs` and its thread, which goes through `run` again and
again. Where a restart is asked for (`RESTARTING`) a tick drops the stream, opens another and sends
its format to all subscribers, and otherwise it takes a snapshot: it opens a stream if there is none
and sends the format to the new subscribers before they join the others. An open stream sends frames
from a thread of its own to all who have joined. Whoever changes the input device, for a voice call
or in the options, asks for a restart.

Every access of the flag, every section under a lock and every opening of a device is a step, and so
is what a subscriber or the capture callback does. A stream has a number, and with each message
stands the stream it is of; a subscriber keeps what it was sent since it came.
-/

set_option autoImplicit false

namespace HopToDesk.Host

open Kit

structure AudioStream where
  number : Nat
  device : String
  sampleRate : Nat
  channels : Nat
deriving DecidableEq, Repr

inductive AudioMsg
  /-- `create_format_msg`, with the rate and the channels. -/
  | format (stream : AudioStream)
  | frame (stream : AudioStream) (data : List UInt8)
deriving DecidableEq, Repr

/-- A connection, and what it was sent since it subscribed, oldest first. -/
structure Listener where
  conn : Int
  received : List AudioMsg
deriving DecidableEq, Repr

instance : Subscriber Listener AudioMsg where
  id := Listener.conn
  send s msg := { s with received := s.received ++ [msg] }
  id_send _ _ := rfl

/-- Where a call is that changes the device. -/
inductive DeviceCall
  | checkPresent (device : Option String)
  | compare (device : Option String)
  | assign (device : Option String)
  | setOption (value : String)
  /-- `restart` reads the flag. -/
  | load
  /-- It was not set. -/
  | store
deriving DecidableEq, Repr

/-- The call has changed the device and is about to ask for a restart. -/
def DeviceCall.IsCommitted : DeviceCall → Prop
  | .load | .store => True
  | _ => False

/-- Where the thread is. -/
inductive AudioTick
  | idle
  /-- Nobody subscribes. -/
  | reset
  | loadFlag
  /-- `run_serv_snapshot`. -/
  | snapshot
  | snapshotDevice
  | snapshotOpen (device : String)
  | snapshotFormat
  | snapshotDrop
  /-- `run_restart`. -/
  | restart
  | restartSnapshot
  | restartDrop
  | restartDevice
  | restartOpen (device : String)
  | restartFormat
  | restartClear
deriving DecidableEq, Repr

/-- The device of a snapshot is opened next. -/
def AudioTick.opensSnapshot : AudioTick → Bool
  | .snapshotOpen _ => true
  | _ => false

structure AudioService where
  voiceCallInputDevice : Option String
  /-- The option `audio-input`. -/
  audioInput : String
  restarting : Bool
  calls : Nat → Option DeviceCall
  tick : AudioTick
  mayReset : Bool
  stream : Option AudioStream
  /-- How many streams were opened. -/
  opened : Nat
  inner : ServiceInner Listener

namespace AudioService

def start : AudioService where
  voiceCallInputDevice := none
  audioInput := ""
  restarting := false
  calls := fun _ => none
  tick := .idle
  mayReset := false
  stream := none
  opened := 0
  inner := .new "audio" true

variable (s : AudioService)

/-! ## Changing the device -/

/-- `get_audio_input`. -/
def getAudioInput : String := s.voiceCallInputDevice.getD s.audioInput

def setCall (call : Nat) (now : Option DeviceCall) : AudioService :=
  { s with calls := Function.update s.calls call now }

/-- The next step of `set_voice_call_input_device`, or of a change of the option and `restart`. -/
def callNext (call : Nat) : DeviceCall → AudioService
  | .checkPresent device =>
    s.setCall call (if s.voiceCallInputDevice.isSome then none else some (.compare device))
  | .compare device =>
    s.setCall call (if s.voiceCallInputDevice = device then none else some (.assign device))
  | .assign device => { s with voiceCallInputDevice := device }.setCall call (some .load)
  | .setOption value => { s with audioInput := value }.setCall call (some .load)
  | .load => s.setCall call (if s.restarting then none else some .store)
  | .store => { s with restarting := true }.setCall call none

/-! ## The thread -/

/-- `has_subscribes`. -/
def hasSubscribes : Bool :=
  decide (s.inner.subscribes.values.length > 0 ∨ s.inner.newSubscribes.values.length > 0)

/-- The rate of the encoder. -/
def sampleRateOf (sampleRate0 : Nat) : Nat :=
  if sampleRate0 < 12000 then 8000
  else if sampleRate0 < 16000 then 12000
  else if sampleRate0 < 24000 then 16000
  else if sampleRate0 < 48000 then 24000
  else 48000

/-- The stream that `play` opens, of a device with this rate and these channels. -/
def opening (device : String) (config : Nat × Nat) : AudioStream where
  number := s.opened
  device := device
  sampleRate := sampleRateOf config.1
  channels := if config.2 > 1 then 2 else 1

/-- The next step of the thread. Where it opens a device, `config` is the device's rate and
channels, and none where that fails. -/
def tickNext (config : Option (Nat × Nat)) : AudioService :=
  match s.tick with
  | .idle =>
    if s.hasSubscribes then { s with mayReset := true, tick := .loadFlag }
    else if s.mayReset then { s with tick := .reset }
    else s
  | .reset => { s with stream := none, mayReset := false, tick := .idle }
  | .loadFlag => { s with tick := if s.restarting then .restart else .snapshot }
  | .snapshot =>
    if s.inner.newSubscribes.values.length > 0 then
      { s with tick := if s.stream.isSome then .snapshotFormat else .snapshotDevice }
    else { s with tick := .idle }
  | .snapshotDevice => { s with tick := .snapshotOpen s.getAudioInput }
  | .snapshotOpen device =>
    match config with
    | some config =>
      { s with
        stream := some (s.opening device config)
        opened := s.opened + 1
        tick := .snapshotFormat }
    -- the swap is dropped on the way out
    | none => { s with tick := .snapshotDrop }
  | .snapshotFormat =>
    match s.stream with
    | some stream =>
      { s with inner := s.inner.sendNewSubscribes (.format stream), tick := .snapshotDrop }
    | none => { s with tick := .snapshotDrop }
  | .snapshotDrop => { s with inner := s.inner.swapNewSubscribes, tick := .idle }
  | .restart => { s with stream := none, tick := .restartSnapshot }
  | .restartSnapshot =>
    { s with
      tick := if s.inner.newSubscribes.values.length > 0 then .restartDrop else .restartDevice }
  | .restartDrop => { s with inner := s.inner.swapNewSubscribes, tick := .restartDevice }
  | .restartDevice => { s with tick := .restartOpen s.getAudioInput }
  | .restartOpen device =>
    match config with
    | some config =>
      { s with
        stream := some (s.opening device config)
        opened := s.opened + 1
        tick := .restartFormat }
    | none => { s with tick := .idle }
  | .restartFormat =>
    match s.stream with
    | some stream =>
      { s with inner := s.inner.sendShared (.format stream), tick := .restartClear }
    | none => { s with tick := .restartClear }
  | .restartClear => { s with restarting := false, tick := .idle }

/-! ## Steps -/

inductive Step
  | setVoiceCallInputDevice (call : Nat) (device : Option String) (setIfPresent : Bool)
  | changeAudioInput (call : Nat) (value : String)
  | call (call : Nat)
  | tick (config : Option (Nat × Nat))
  | onSubscribe (conn : Int)
  | onUnsubscribe (conn : Int)
  /-- The capture callback of the open stream. -/
  | frame (data : List UInt8)

def next : Step → Option AudioService
  | .setVoiceCallInputDevice call device setIfPresent =>
    match s.calls call with
    | none => some (s.setCall call (if setIfPresent then some (.compare device)
        else some (.checkPresent device)))
    | some _ => none
  | .changeAudioInput call value =>
    match s.calls call with
    | none => some (s.setCall call (some (.setOption value)))
    | some _ => none
  | .call call => (s.calls call).map (s.callNext call)
  | .tick config => some (s.tickNext config)
  | .onSubscribe conn => some { s with inner := s.inner.onSubscribe ⟨conn, []⟩ }
  | .onUnsubscribe conn => some { s with inner := s.inner.onUnsubscribe conn }
  | .frame data => s.stream.map fun stream =>
    { s with inner := s.inner.sendShared (.frame stream data) }

/-- Any interleaving. -/
def system : System AudioService Step := .stepping (· = start) next

/-! ## What is to hold -/

/-- Where no restart is asked for and no call is in progress, an open stream is of the device. -/
def Current (s : AudioService) : Prop :=
  s.restarting = false → (∀ call, s.calls call = none) →
    ∀ stream ∈ s.stream, stream.device = s.getAudioInput

/-- The flag is cleared only where the stream is of the device, or somebody is about to look at the
flag who has changed the device. -/
def ClearsInTime (s : AudioService) : Step → Prop
  | .tick _ => s.tick = .restartClear →
      (∀ stream ∈ s.stream, stream.device = s.getAudioInput) ∨
        ∃ call c, s.calls call = some c ∧ c.IsCommitted
  | _ => True

/-- The stream of the last format. -/
def lastFormat (received : List AudioMsg) : Option AudioStream :=
  received.foldl (fun last msg =>
    match msg with
    | .format stream => some stream
    | .frame _ _ => last) none

/-- Each frame comes after the format of its stream, with no other stream's in between. -/
def Formatted (received : List AudioMsg) : Prop :=
  ∀ before stream data after, received = before ++ .frame stream data :: after →
    lastFormat before = some stream

/-- What every subscriber was sent. -/
def AllFormatted (s : AudioService) : Prop :=
  ∀ l, l ∈ s.inner.subscribes.values ∨ l ∈ s.inner.newSubscribes.values → Formatted l.received

/-- No frame between the opening of a stream in a restart and its format, where somebody has joined;
nobody new between the format of a snapshot and the end of it; and a snapshot opens a stream where
nobody has joined. -/
def FormatsInTime (s : AudioService) : Step → Prop
  | .frame _ => s.tick = .restartFormat → s.inner.subscribes.values = []
  | .onSubscribe conn => s.tick = .snapshotDrop → s.stream.isSome → s.inner.subscribes.Has conn
  | .tick config => s.tick.opensSnapshot → config.isSome → s.inner.subscribes.values = []
  | _ => True

end AudioService

end HopToDesk.Host
