import HopToDesk.Kit.System

/-!
# Rounds of connecting

A session that is not a port forward runs one thread for each round: `io_loop` installs the sender
through which the session reaches it, connects, and takes messages until it is told to close or the
connection is lost. `Session::reconnect` starts the next round. A timer that finds its round not
superseded makes a call that the user could have made as well, so calls come at any time.

Every section under a lock is one step. Rounds are counted from one, without end, besides the `u32`
the code counts them with, and a thread is known by the number of its round. Of what is sent to a
thread there is `Data::Close` here.
-/

set_option autoImplicit false

namespace HopToDesk.Client

open Kit

inductive ConnectionState
  | connecting
  | connected
  | disconnected
deriving DecidableEq

structure ConnectionRoundState where
  round : UInt32
  state : ConnectionState
  everConnected : Bool

namespace ConnectionRoundState

/-- `Default`. -/
def unset : ConnectionRoundState := ⟨0, .connecting, false⟩

variable (c : ConnectionRoundState)

/-- `new_round`. It returns the `round` of the new state. -/
def newRound : ConnectionRoundState := { c with round := c.round + 1, state := .connecting }

def setConnected : ConnectionRoundState := { c with state := .connected, everConnected := true }

def isRoundGt (round : UInt32) : Bool :=
  if round = 0xFFFFFFFF ∧ c.round = 0 then true else round < c.round

def setDisconnected (round : UInt32) : ConnectionRoundState :=
  if c.isRoundGt round then c else { c with state := .disconnected }

end ConnectionRoundState

/-- Where a session thread is. -/
inductive ThreadPhase
  /-- It has yet to install its sender. -/
  | starting
  | connecting
  | inLoop
  /-- It has not connected, or its loop has ended. -/
  | leaving
  /-- And `set_disconnected` is done. -/
  | ended
deriving DecidableEq

/-- The number of the round that was connecting when a call of `reconnect` was made, if one was. -/
abbrev MadeWhile := Option Nat

structure SessionThread where
  round : UInt32
  phase : ThreadPhase
  /-- Each `Data::Close` it has yet to receive, with the call that sent it. -/
  queue : List MadeWhile
  /-- The one that has ended its loop. -/
  closedBy : Option MadeWhile

/-- Where a call of `reconnect` is. -/
inductive CallPhase
  /-- It has sent its first `Data::Close`. -/
  | toCheck
  /-- It has begun this round. -/
  | toSpawn (number : Nat) (round : UInt32)
  | returned
deriving DecidableEq

structure ReconnectCall where
  madeWhile : MadeWhile
  phase : CallPhase

structure Session where
  connectionRoundState : ConnectionRoundState
  /-- How many rounds have begun. -/
  number : Nat
  /-- `thread` is `Some`. -/
  thread : Bool
  /-- The round of the thread that `sender` reaches. -/
  sender : Option Nat
  threads : Nat → Option SessionThread
  calls : Nat → Option ReconnectCall

namespace Session

/-- A session that has not been started. -/
def new : Session where
  connectionRoundState := .unset
  number := 0
  thread := false
  sender := none
  threads _ := none
  calls _ := none

variable (s : Session)

def state : ConnectionState := s.connectionRoundState.state

def setThread (g : Nat) (t : SessionThread) : Session :=
  { s with threads := Function.update s.threads g (some t) }

def setCall (c : Nat) (call : ReconnectCall) : Session :=
  { s with calls := Function.update s.calls c (some call) }

/-- `send` of `Data::Close`. -/
def sendClose (close : MadeWhile) : Session :=
  match s.sender with
  | none => s
  | some g =>
    match s.threads g with
    | none => s
    | some t => s.setThread g { t with queue := t.queue ++ [close] }

/-- The call begins a round. -/
def beginRound (c : Nat) (madeWhile : MadeWhile) : Session :=
  let s := { s with
    connectionRoundState := s.connectionRoundState.newRound
    number := s.number + 1 }
  s.setCall c ⟨madeWhile, .toSpawn s.number s.connectionRoundState.round⟩

/-- What `reconnect` does with the state of the connection locked. -/
def check (c : Nat) (madeWhile : MadeWhile) : Session :=
  if s.thread then
    match s.state with
    | .connecting => s.setCall c ⟨madeWhile, .returned⟩
    | .connected => (s.sendClose madeWhile).beginRound c madeWhile
    | .disconnected => s.beginRound c madeWhile
  else s.beginRound c madeWhile

/-- The calls are numbered, and the threads go by the number of their round. -/
inductive Step
  /-- `reconnect` is called, and sends its first `Data::Close`. -/
  | call (c : Nat)
  | check (c : Nat)
  | spawn (c : Nat)
  | setSender (g : Nat)
  | connected (g : Nat)
  | connectFailed (g : Nat)
  | receiveClose (g : Nat)
  /-- The connection is lost, or times out, or the peer closes it. -/
  | lost (g : Nat)
  | setDisconnected (g : Nat)

/-- The thread of this round, when it is there. -/
def inPhase (g : Nat) (phase : ThreadPhase) : Option SessionThread :=
  (s.threads g).filter (·.phase = phase)

def next : Step → Option Session
  | .call c =>
    match s.calls c with
    | some _ => none
    | none =>
      let madeWhile := if s.state = .connecting then some s.number else none
      some ((s.sendClose madeWhile).setCall c ⟨madeWhile, .toCheck⟩)
  | .check c =>
    match s.calls c with
    | some ⟨madeWhile, .toCheck⟩ => some (s.check c madeWhile)
    | _ => none
  | .spawn c =>
    match s.calls c with
    | some ⟨madeWhile, .toSpawn g round⟩ =>
      some (({ s with thread := true }.setThread g ⟨round, .starting, [], none⟩).setCall c
        ⟨madeWhile, .returned⟩)
    | _ => none
  | .setSender g =>
    (s.inPhase g .starting).map fun t =>
      { s with sender := some g }.setThread g { t with phase := .connecting }
  | .connected g =>
    (s.inPhase g .connecting).map fun t =>
      { s with connectionRoundState := s.connectionRoundState.setConnected }.setThread g
        { t with phase := .inLoop }
  | .connectFailed g =>
    (s.inPhase g .connecting).map fun t => s.setThread g { t with phase := .leaving }
  | .receiveClose g =>
    match s.inPhase g .inLoop with
    | some ⟨round, _, close :: queue, _⟩ =>
      some (s.setThread g ⟨round, .leaving, queue, some close⟩)
    | _ => none
  | .lost g => (s.inPhase g .inLoop).map fun t => s.setThread g { t with phase := .leaving }
  | .setDisconnected g =>
    (s.inPhase g .leaving).map fun t =>
      { s with
        connectionRoundState := s.connectionRoundState.setDisconnected t.round }.setThread g
          { t with phase := .ended }

/-- The runs of a session. -/
def system : System Session Step := .stepping (· = new) next

end Session

end HopToDesk.Client
