import HopToDesk.Kit.System

/-!
# Counting wrong passwords

The server keeps one record of wrong passwords for each address, shared by its connections. An
attempt reads the record (`check_failure`), has its password checked, and writes the record back
(`update_failure`), each under a lock of its own. What it writes is computed from what it read.

A connection has at most one attempt under way, since it handles its messages one after another. The
connections of an address run side by side.
-/

set_option autoImplicit false

namespace HopToDesk.Host

open Kit

/-- The record of an address: a minute, the wrong passwords in that minute, and all of them. -/
structure Failure where
  minute : Int
  inMinute : Nat
  total : Nat
deriving DecidableEq, Repr

/-- What an attempt is refused with. -/
inductive Refusal
  | exceedThirtyAttempts
  | sixAttemptsWithinOneMinute
deriving DecidableEq, Repr

/-- The login error the peer is sent. -/
def Refusal.text : Refusal → String
  | .exceedThirtyAttempts => "Too many wrong attempts"
  | .sixAttemptsWithinOneMinute => "Please try 1 minute later"

section Table

variable {Ip : Type}

/-- One of the two tables of `LOGIN_FAILURES`. -/
abbrev Failures (Ip : Type) := Ip → Option Failure

/-- The record `check_failure` reads. -/
def Failures.read (failures : Failures Ip) (ip : Ip) : Failure :=
  (failures ip).getD ⟨0, 0, 0⟩

/-- `check_failure`, in the minute `time`: the record and the minute, for `update_failure`, and the
refusal, when there is one. -/
def checkFailure (failures : Failures Ip) (ip : Ip) (time : Int) :
    (Failure × Int) × Option Refusal :=
  let failure := failures.read ip
  let res :=
    if failure.total > 30 then some .exceedThirtyAttempts
    else if time = failure.minute ∧ failure.inMinute > 6 then some .sixAttemptsWithinOneMinute
    else none
  ((failure, time), res)

/-- A record with one more wrong password, in the minute `time`. -/
def Failure.bump (failure : Failure) (time : Int) : Failure :=
  if failure.minute = time then
    { failure with inMinute := failure.inMinute + 1, total := failure.total + 1 }
  else
    ⟨time, 1, failure.total + 1⟩

/-- `update_failure`. -/
def updateFailure [DecidableEq Ip] (failures : Failures Ip) (ip : Ip) (failure : Failure × Int)
    (remove : Bool) : Failures Ip :=
  if remove then
    if failure.1.minute ≠ 0 then Function.update failures ip none else failures
  else
    Function.update failures ip (some (failure.1.bump failure.2))

end Table

/-! ## Attempts side by side -/

/-- An attempt let through by the check: what it read, the minute, and what the password check
said, once it has. -/
structure Attempt where
  failure : Failure
  time : Int
  verdict : Option Bool
deriving DecidableEq, Repr

/-- The table, the attempts under way, and, for each address, the minutes of the wrong passwords
that reached the password check since its last successful login, newest first. The code keeps the
first two. -/
structure Logins (Ip Conn : Type) where
  failures : Failures Ip
  attempts : Conn → Option Attempt
  reached : Ip → List Int

/-- The three steps of an attempt. `time` is what the clock says, and `right` what the password
check says. -/
inductive LoginStep (Conn : Type)
  | check (conn : Conn) (time : Int)
  | verify (conn : Conn) (right : Bool)
  | update (conn : Conn)

namespace Logins

variable {Ip Conn : Type} [DecidableEq Ip] [DecidableEq Conn]

/-- Before any login. -/
def fresh : Logins Ip Conn := ⟨fun _ => none, fun _ => none, fun _ => []⟩

variable (ip : Conn → Ip)

/-- A step is the next one of its connection. -/
def Can (s : Logins Ip Conn) : LoginStep Conn → Prop
  | .check conn _ => s.attempts conn = none
  | .verify conn _ => ∃ a, s.attempts conn = some a ∧ a.verdict = none
  | .update conn => ∃ a right, s.attempts conn = some a ∧ a.verdict = some right

def check (s : Logins Ip Conn) (conn : Conn) (time : Int) : Logins Ip Conn :=
  match checkFailure s.failures (ip conn) time with
  | (failure, none) =>
    { s with attempts := Function.update s.attempts conn (some ⟨failure.1, failure.2, none⟩) }
  | (_, some _) => s

def verify (s : Logins Ip Conn) (conn : Conn) (right : Bool) : Logins Ip Conn :=
  match s.attempts conn with
  | none => s
  | some a =>
    { s with
      attempts := Function.update s.attempts conn (some { a with verdict := some right })
      reached := Function.update s.reached (ip conn)
        (if right then [] else a.time :: s.reached (ip conn)) }

def update (s : Logins Ip Conn) (conn : Conn) : Logins Ip Conn :=
  match s.attempts conn with
  | some ⟨failure, time, some right⟩ =>
    { s with
      failures := updateFailure s.failures (ip conn) (failure, time) right
      attempts := Function.update s.attempts conn none }
  | _ => s

def next (s : Logins Ip Conn) : LoginStep Conn → Logins Ip Conn
  | .check conn time => s.check ip conn time
  | .verify conn right => s.verify ip conn right
  | .update conn => s.update ip conn

/-- Any number of connections, each making attempts, in any order of their steps. -/
def system : System (Logins Ip Conn) (LoginStep Conn) :=
  System.guarded fresh Can (next ip)

/-- The bounds `check_failure` is there for: at most 31 wrong passwords, and at most 7 in a minute. -/
def Bounded (s : Logins Ip Conn) (a : Ip) : Prop :=
  (s.reached a).length ≤ 31 ∧ ∀ minute, (s.reached a).count minute ≤ 7

/-- A check lets an attempt through only while no other attempt of the address is under way, and
its clock is not behind the minute of the record. -/
def InTurn (s : Logins Ip Conn) : LoginStep Conn → Prop
  | .check conn time => (checkFailure s.failures (ip conn) time).2 = none →
      (∀ other, ip other = ip conn → s.attempts other = none) ∧
        ∀ failure, s.failures (ip conn) = some failure → failure.minute ≤ time
  | _ => True

end Logins

end HopToDesk.Host
