import HopToDesk.Kit.MapValues
import HopToDesk.Kit.System
import HopToDesk.Kit.Text

/-!
# Cursors on the whiteboard

The controlled side shows the cursors of its viewers on a whiteboard, which is a process of its own.
`update_whiteboard` of `src/whiteboard/client.rs` takes each movement and each click of a
connection: one movement in four goes into the channel of the whiteboard's task, and the others are
held back one at a time, for a click or the timer of the task to send.

`board` is a run of it while the task runs: cursor events of any connections, the task taking one
event at a time out of its channel, and its timer, at any moment. It also keeps what was received
and which of the held movements the timer has sent. A coordinate is the bits of an `f32`, and times
are in nanoseconds. What the stream carries is taken not to fail.
-/

set_option autoImplicit false

namespace HopToDesk.Host.Whiteboard

open Kit

structure Cursor where
  x : UInt32
  y : UInt32
  argb : UInt32
  btns : Int32
  text : Text
deriving DecidableEq, Repr

inductive CustomEvent
  | cursor (cursor : Cursor)
  | clear
  | exit
deriving DecidableEq, Repr

structure LastCursorEvent where
  evt : Option CustomEvent
  tm : Nat
  c : Nat
deriving DecidableEq, Repr

structure Conn where
  lastCursorPos : UInt32 × UInt32
  lastCursorEvt : LastCursorEvent
deriving DecidableEq, Repr

/-- A cursor event of a movement has no buttons. -/
def Cursor.isMovement (cursor : Cursor) : Bool := cursor.btns = 0

namespace Conn

def new (now : Nat) : Conn := ⟨(0, 0), ⟨none, now, 0⟩⟩

/-- What `tx_send_event` remembers of the event. -/
def txSendEvent (conn : Conn) : CustomEvent → Conn
  | .cursor cursor =>
    if cursor.isMovement then { conn with lastCursorPos := (cursor.x, cursor.y) } else conn
  | _ => conn

/-- A click is preceded by the movement that was held back. -/
def takeHeld (conn : Conn) : Conn × List CustomEvent :=
  match conn.lastCursorEvt.evt with
  | some evt =>
    let last := { conn.lastCursorEvt with evt := none, c := 0 }
    ({ conn with lastCursorEvt := last }.txSendEvent evt, [evt])
  | none => (conn, [])

/-- `update_whiteboard`, and the events it sends, in their order. -/
def update (conn : Conn) (now : Nat) : CustomEvent → Conn × List CustomEvent
  | .cursor cursor =>
    let last := { conn.lastCursorEvt with c := conn.lastCursorEvt.c + 1, tm := now }
    if cursor.isMovement then
      -- one movement event every 4
      if last.c > 3 then
        ({ conn with lastCursorEvt := { last with c := 0, evt := none } }.txSendEvent
          (.cursor cursor), [.cursor cursor])
      else ({ conn with lastCursorEvt := { last with evt := some (.cursor cursor) } }, [])
    else
      let (conn, held) := { conn with lastCursorEvt := last }.takeHeld
      let click := .cursor
        { cursor with x := conn.lastCursorPos.1, y := conn.lastCursorPos.2 }
      (conn.txSendEvent click, held ++ [click])
  | e => (conn.txSendEvent e, [e])

/-- `elapsed().as_millis() > 300`. -/
def overdue (conn : Conn) (now : Nat) : Bool := (now - conn.lastCursorEvt.tm) / 1000000 > 300

/-- What the timer sends of the connection. -/
def tick (conn : Conn) (now : Nat) : Conn × List CustomEvent :=
  if conn.overdue now then
    match conn.lastCursorEvt.evt with
    | some evt =>
      ({ conn with lastCursorEvt := { conn.lastCursorEvt with evt := none, c := 0 } }, [evt])
    | none => (conn, [])
  else (conn, [])

end Conn

/-- A cursor event that was received, or a movement that the timer has sent. -/
inductive Seen
  | received (k : Text) (cursor : Cursor)
  | flushed (k : Text)
deriving DecidableEq, Repr

/-- The connections, the channel, the stream to the whiteboard, and what has happened. -/
structure Board where
  clock : Nat
  conns : AList fun _ : Text => Conn
  queue : List (Text × CustomEvent)
  sent : List (Text × CustomEvent)
  history : List Seen

namespace Board

def new : Board := ⟨0, ∅, [], [], []⟩

/-- `register_whiteboard`, as far as the connections go. -/
def register (s : Board) (k : Text) : Board :=
  if k ∈ s.conns then s else { s with conns := s.conns.insert k (.new s.clock) }

/-- `update_whiteboard`. -/
def updateWhiteboard (s : Board) (k : Text) (cursor : Cursor) : Board :=
  match s.conns.lookup k with
  | none => s
  | some conn =>
    let (conn, events) := conn.update s.clock (.cursor cursor)
    { s with
      conns := s.conns.insert k conn
      queue := s.queue ++ events.map fun e => (k, e)
      history := s.history ++ [.received k cursor] }

/-- The task sends on what it takes out of its channel. -/
def receive (s : Board) : Option Board :=
  match s.queue with
  | [] => none
  | data :: queue => some { s with queue, sent := s.sent ++ [data] }

/-- The timer, at one of the connections. -/
def tickConn (s : Board) (k : Text) : Board :=
  match s.conns.lookup k with
  | none => s
  | some conn =>
    let (conn, events) := conn.tick s.clock
    { s with
      conns := s.conns.insert k conn
      sent := s.sent ++ events.map fun e => (k, e)
      history := s.history ++ events.map fun _ => .flushed k }

end Board

inductive BoardStep
  | wait (d : Nat)
  | register (k : Text)
  | update (k : Text) (cursor : Cursor)
  | receive
  /-- A tick of the timer: the connections in the order in which they are visited. -/
  | tick (order : List Text)
deriving DecidableEq, Repr

def Board.next (s : Board) : BoardStep → Option Board
  | .wait d => some { s with clock := s.clock + d }
  | .register k => some (s.register k)
  | .update k cursor => some (s.updateWhiteboard k cursor)
  | .receive => s.receive
  | .tick order => if order.Perm s.conns.keys then some (order.foldl Board.tickConn s) else none

/-- The runs from a board without connections. -/
def board : System Board BoardStep := System.stepping (· = Board.new) Board.next

end HopToDesk.Host.Whiteboard

/-!
## The task of the whiteboard

The first viewer whose cursor is shown starts the whiteboard, and the last one that goes away ends
it. `register_whiteboard` and `unregister_whiteboard` of `src/whiteboard/client.rs` only change the
connections themselves. The task is started by a thread that each registration spawns, and ended by
a thread that a removal spawns when it leaves no connection; both work under the lock of
`TX_WHITEBOARD`, which has the sender of the task. A task is told to exit through its channel, and
takes a sender out once more when it returns.

`lifecycle` has a step for each section under a lock and for each message taken out of a channel. A
thread that starts the task keeps its lock until the whiteboard is connected, which succeeds, and
one that ends it while it sleeps. Threads of a kind are alike, so they are counted; a task is known
by its place in the list of all there were.
-/

namespace HopToDesk.Host.Whiteboard

open Kit

/-- How far a task is: in its loop, out of it, or returned. -/
inductive TaskStage
  | running
  | leaving
  | returned
deriving DecidableEq, Repr

structure Task where
  stage : TaskStage
  queue : List (Text × CustomEvent)
deriving DecidableEq, Repr

/-- Which thread has the lock of `TX_WHITEBOARD`: one that starts the task, or one that ends it. -/
inductive Holder
  | starting
  | exiting
deriving DecidableEq, Repr

structure Lifecycle where
  /-- The keys of `CONNS`. -/
  conns : List Text
  /-- `TX_WHITEBOARD`: whose sender it has. -/
  tx : Option Nat
  lock : Option Holder
  /-- The threads that are still to start the task. -/
  starts : Nat
  /-- The threads that are still to end it. -/
  exits : Nat
  /-- The registrations that have spawned their thread only. -/
  registering : List Text
  /-- The removals that have changed the connections only, and whether they left none. -/
  unregistering : List (Text × Bool)
  tasks : List Task
deriving DecidableEq, Repr

namespace Lifecycle

def new : Lifecycle := ⟨[], none, none, 0, 0, [], [], []⟩

/-- `tx.send`, to the task whose sender there is. -/
def send (s : Lifecycle) (k : Text) (event : CustomEvent) : Lifecycle :=
  match s.tx with
  | none => s
  | some t =>
    { s with
      tasks := s.tasks.modify t fun task => { task with queue := task.queue ++ [(k, event)] } }

end Lifecycle

inductive LifecycleStep
  /-- A registration spawns its thread. -/
  | register (k : Text)
  /-- It gets to the connections. -/
  | insert (k : Text)
  /-- A removal changes the connections. -/
  | unregister (k : Text)
  /-- It goes on to the sender, with what it has seen of the connections. -/
  | clear (k : Text) (isConnsEmpty : Bool)
  /-- A thread that starts the task gets the lock. -/
  | startLock
  /-- It is connected, and leaves the sender. -/
  | startDone
  /-- A thread that ends the task gets the lock. -/
  | exitLock
  /-- It has slept, and takes the sender out. -/
  | exitDone
  /-- A task takes a message out of its channel. -/
  | receive (t : Nat)
  /-- A task that has left its loop returns. -/
  | finish (t : Nat)
deriving DecidableEq, Repr

namespace Lifecycle

def unregister (s : Lifecycle) (k : Text) : Lifecycle :=
  let conns := s.conns.filter (· ≠ k)
  { s with conns, unregistering := (k, conns.isEmpty) :: s.unregistering }

/-- The task is sent `Clear`, and a thread is spawned if there was no connection left. -/
def clear (s : Lifecycle) (k : Text) (isConnsEmpty : Bool) : Lifecycle :=
  let s := { s with unregistering := s.unregistering.erase (k, isConnsEmpty) }.send k .clear
  if isConnsEmpty then { s with exits := s.exits + 1 } else s

/-- The start of `start_whiteboard_`: a task that has been started already is enough. -/
def startLock (s : Lifecycle) : Lifecycle :=
  { s with starts := s.starts - 1, lock := if s.tx.isSome then none else some .starting }

def startDone (s : Lifecycle) : Lifecycle :=
  { s with tx := some s.tasks.length, lock := none, tasks := s.tasks ++ [⟨.running, []⟩] }

def exitLock (s : Lifecycle) : Lifecycle :=
  { s with exits := s.exits - 1, lock := some .exiting }.send [] .exit

/-- The loop of a task takes a message, or finds that its sender is gone. -/
def receive (s : Lifecycle) (t : Nat) (task : Task) : Option Lifecycle :=
  match task.queue with
  | (_, .exit) :: queue => some { s with tasks := s.tasks.set t ⟨.leaving, queue⟩ }
  | _ :: queue => some { s with tasks := s.tasks.set t ⟨.running, queue⟩ }
  | [] =>
    if s.tx = some t then none else some { s with tasks := s.tasks.set t ⟨.leaving, []⟩ }

def next (s : Lifecycle) : LifecycleStep → Option Lifecycle
  | .register k => some { s with starts := s.starts + 1, registering := k :: s.registering }
  | .insert k =>
    if k ∈ s.registering then
      let conns := if k ∈ s.conns then s.conns else k :: s.conns
      some { s with conns, registering := s.registering.erase k }
    else none
  | .unregister k => some (s.unregister k)
  | .clear k isConnsEmpty =>
    if (k, isConnsEmpty) ∈ s.unregistering ∧ s.lock = none then some (s.clear k isConnsEmpty)
    else none
  | .startLock => if 0 < s.starts ∧ s.lock = none then some s.startLock else none
  | .startDone => if s.lock = some .starting then some s.startDone else none
  | .exitLock => if 0 < s.exits ∧ s.lock = none then some s.exitLock else none
  | .exitDone => if s.lock = some .exiting then some { s with tx := none, lock := none } else none
  | .receive t =>
    match s.tasks[t]? with
    | some task => if task.stage = .running then s.receive t task else none
    | none => none
  | .finish t =>
    match s.tasks[t]? with
    | some task =>
      if task.stage = .leaving ∧ s.lock = none then
        some { s with tx := none, tasks := s.tasks.set t { task with stage := .returned } }
      else none
    | none => none

end Lifecycle

def lifecycle : System Lifecycle LifecycleStep :=
  System.stepping (· = Lifecycle.new) Lifecycle.next

end HopToDesk.Host.Whiteboard
