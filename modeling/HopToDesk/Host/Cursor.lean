import HopToDesk.Host.Service

/-!
# The cursor service

Every tick of `run_cursor` asks for the handle of the cursor. A handle that is new to the service is
sent with its data, and what was sent last is sent to new subscribers. Each subscriber remembers
which data has gone through it and sends the id alone the next time; the client is expected to have
stored the data.

Handle 0 stands for no handle yet: the service begins with it, and with a message that is empty, and
comes back to both when it is reset.
-/

set_option autoImplicit false

namespace HopToDesk.Host

open Kit

structure CursorData where
  id : UInt64
  hotx : Int32
  hoty : Int32
  width : Int32
  height : Int32
  colors : List UInt8
deriving DecidableEq, Repr

/-- The messages of the service. `Message::default()` is empty. -/
inductive CursorMessage
  | empty
  | cursorData (data : CursorData)
  | cursorId (id : UInt64)
deriving DecidableEq, Repr

/-- `MouseCursorSub`: the id of its connection, the messages it sends instead of data that has gone
through it, and what it has sent, oldest first. -/
structure MouseCursorSub where
  id : Int
  cached : UInt64 → Option CursorMessage
  sent : List CursorMessage

namespace MouseCursorSub

/-- `From<ConnInner>`. -/
def ofConn (id : Int) : MouseCursorSub := ⟨id, fun _ => none, []⟩

/-- `inner.send`. -/
def innerSend (sub : MouseCursorSub) (msg : CursorMessage) : MouseCursorSub :=
  { sub with sent := sub.sent ++ [msg] }

/-- `send`. -/
def send (sub : MouseCursorSub) (msg : CursorMessage) : MouseCursorSub :=
  match msg with
  | .cursorData cd =>
    match sub.cached cd.id with
    | some msg => sub.innerSend msg
    | none =>
      { sub.innerSend msg with cached := Function.update sub.cached cd.id (some (.cursorId cd.id)) }
  | msg => sub.innerSend msg

end MouseCursorSub

instance : Subscriber MouseCursorSub CursorMessage where
  id := MouseCursorSub.id
  send := MouseCursorSub.send
  id_send sub msg := by
    cases msg with
    | cursorData cd =>
      simp only [MouseCursorSub.send]
      cases sub.cached cd.id <;> rfl
    | empty | cursorId id => rfl

/-! ## The client -/

/-- The data a client has stored, and the cursor it shows. -/
structure CursorClient where
  stored : UInt64 → Option CursorData
  shown : Option CursorData

namespace CursorClient

def start : CursorClient := ⟨fun _ => none, none⟩

/-- Data is stored and shown; an id shows what is stored. -/
def receive (c : CursorClient) : CursorMessage → CursorClient
  | .empty => c
  | .cursorData cd => { stored := Function.update c.stored cd.id (some cd), shown := some cd }
  | .cursorId id =>
    match c.stored id with
    | some cd => { c with shown := some cd }
    | none => c

/-- A client after these messages. -/
def after (sent : List CursorMessage) : CursorClient := sent.foldl receive start

end CursorClient

/-- The id of the cursor that the client of a subscriber shows. -/
def MouseCursorSub.shows (sub : MouseCursorSub) : Option UInt64 :=
  (CursorClient.after sub.sent).shown.map (·.id)

/-! ## The service -/

structure StateCursor where
  hcursor : UInt64
  cursorData : CursorMessage
  cachedCursorData : UInt64 → Option CursorMessage

/-- `StateCursor::default()`. -/
def StateCursor.default : StateCursor := ⟨0, .empty, fun _ => none⟩

/-- What a tick finds: `get_cursor`, and `get_cursor_data` of that handle. -/
structure CursorTick where
  cursor : Except String (Option UInt64)
  data : Except String CursorData

/-- `sp.snapshot`, with the callback of `run_cursor`. -/
def snapshotCursor (inner : ServiceInner MouseCursorSub) (cursorData : CursorMessage) :
    ServiceInner MouseCursorSub :=
  if 0 < inner.newSubscribes.values.length then
    (inner.sendNewSubscribes cursorData).swapNewSubscribes
  else inner

/-- `run_cursor`: what it returns, with the service and the state it leaves. -/
def runCursor (compress : List UInt8 → List UInt8) (tick : CursorTick)
    (inner : ServiceInner MouseCursorSub) (state : StateCursor) :
    Except String Unit × ServiceInner MouseCursorSub × StateCursor :=
  match tick.cursor with
  | .error e => (.error e, inner, state)
  | .ok none => (.ok (), snapshotCursor inner state.cursorData, state)
  | .ok (some hcursor) =>
    if hcursor ≠ state.hcursor then
      match state.cachedCursorData hcursor, tick.data with
      | some msg, _ =>
        (.ok (), snapshotCursor (inner.sendShared msg) msg,
          { state with hcursor := hcursor, cursorData := msg })
      | none, .error e => (.error e, inner, state)
      | none, .ok data =>
        let msg := .cursorData { data with colors := compress data.colors }
        (.ok (), snapshotCursor (inner.sendShared msg) msg,
          { hcursor := hcursor
            cursorData := msg
            cachedCursorData := Function.update state.cachedCursorData hcursor (some msg) })
    else (.ok (), snapshotCursor inner state.cursorData, state)

/-- Where the thread of `repeat` stands. -/
inductive RepeatPc
  | look
  | callback
  | reset
deriving DecidableEq, Repr

/-- The service, the state of its thread, and the handle that the step just taken has found, if that
was a tick that returned `Ok`. -/
structure CursorRun where
  inner : ServiceInner MouseCursorSub
  state : StateCursor
  mayReset : Bool
  pc : RepeatPc
  ticked : Option UInt64

inductive CursorStep
  | onSubscribe (id : Int)
  | onUnsubscribe (id : Int)
  | look
  | tick (tick : CursorTick)
  | reset

namespace CursorRun

/-- `has_subscribes`. -/
def hasSubscribes (inner : ServiceInner MouseCursorSub) : Bool :=
  0 < inner.subscribes.values.length || 0 < inner.newSubscribes.values.length

def next (compress : List UInt8 → List UInt8) (s : CursorRun) : CursorStep → Option CursorRun
  | .onSubscribe id => some { s with inner := s.inner.onSubscribe (.ofConn id), ticked := none }
  | .onUnsubscribe id => some { s with inner := s.inner.onUnsubscribe id, ticked := none }
  | .look =>
    match s.pc with
    | .look =>
      if hasSubscribes s.inner then
        some { s with mayReset := true, pc := .callback, ticked := none }
      else if s.mayReset then some { s with pc := .reset, ticked := none }
      else some { s with ticked := none }
    | _ => none
  | .tick tick =>
    match s.pc with
    | .callback =>
      match runCursor compress tick s.inner s.state with
      | (result, inner, state) =>
        some { s with
          inner := inner
          state := state
          pc := .look
          ticked := match result, tick.cursor with
            | .ok (), .ok hcursor => hcursor
            | _, _ => none }
    | _ => none
  | .reset =>
    match s.pc with
    | .reset => some { s with state := .default, mayReset := false, pc := .look, ticked := none }
    | _ => none

/-- `new_cursor`. -/
def start : CursorRun := ⟨.new "mouse_cursor" true, .default, false, .look, none⟩

/-- Any handles, errors and resets, and any subscriptions between ticks. -/
def system (compress : List UInt8 → List UInt8) : System CursorRun CursorStep :=
  System.stepping (· = start) (next compress)

/-- `get_cursor_data` of a handle has the handle as its id. -/
def DataOfHandle (_ : CursorRun) : CursorStep → Prop
  | .tick tick => ∀ hcursor data, tick.cursor = .ok (some hcursor) → tick.data = .ok data →
      data.id = hcursor
  | _ => True

/-- A subscriber of the service, old or new. -/
def Has (s : CursorRun) (sub : MouseCursorSub) : Prop :=
  sub ∈ s.inner.subscribes.values ∨ sub ∈ s.inner.newSubscribes.values

/-- No id is sent before its data. -/
def IdsKnown (sent : List CursorMessage) : Prop :=
  ∀ before id after, sent = before ++ .cursorId id :: after →
    ∃ cd, CursorMessage.cursorData cd ∈ before ∧ cd.id = id

/-- After a tick that has found a handle every subscriber shows it, and nobody was ever sent an id
without its data. -/
def Consistent (s : CursorRun) : Prop :=
  (∀ hcursor, s.ticked = some hcursor → ∀ sub, s.Has sub → sub.shows = some hcursor) ∧
    ∀ sub, s.Has sub → IdsKnown sub.sent

/-- A tick that finds handle 0 has sent another since the service began or was reset, or has nobody
to send to. -/
def ZeroSent (s : CursorRun) : CursorStep → Prop
  | .tick tick => tick.cursor = .ok (some 0) → s.state.cursorData = .empty → ∀ sub, ¬ s.Has sub
  | _ => True

end CursorRun

end HopToDesk.Host
