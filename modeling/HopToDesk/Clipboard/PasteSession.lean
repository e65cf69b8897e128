import HopToDesk.Clipboard.PasteTask
import HopToDesk.Kit.DiskLaws

/-!
# A paste and the peers it asks

The requests of a paste task are answered in the order they were sent, each with the bytes it asks
for or with a failure. A request says which file of the list it asks for, and the peer has that
list: so it is kept with the bytes of its file, and an answer may come when the paste that has sent
the request is over.
-/

set_option autoImplicit false

namespace HopToDesk.Clipboard.Paste

open Kit UnixPath

/-- A request that is not answered yet: the peer it was sent to, the bytes of the file it asks for,
and the number of the paste it was sent for. -/
structure Asked where
  connId : Int32
  request : ClipboardFile
  content : Content
  paste : Nat

/-- The position that is sent in two halves. -/
def position (low high : Int32) : Nat := high.toUInt32.toNat * 2 ^ 32 + low.toUInt32.toNat

namespace Asked

variable (q : Asked)

/-- The bytes that are asked for. -/
def bytes : List UInt8 :=
  match q.request with
  | .fileContentsRequest _ _ _ nPositionLow nPositionHigh cbRequested _ _ =>
    (q.content.drop (position nPositionLow nPositionHigh)).take cbRequested.toInt.toNat
  | _ => []

def streamId : Int32 :=
  match q.request with
  | .fileContentsRequest streamId _ _ _ _ _ _ _ => streamId
  | _ => 0

/-- The answer: the bytes with `CB_RESPONSE_OK`, or a failure. -/
def response (ok : Bool) : FileContentsResponse :=
  if ok then ⟨q.connId, 1, q.streamId, q.bytes⟩ else ⟨q.connId, 2, q.streamId, []⟩

end Asked

structure Session where
  task : PasteTask
  /-- The bytes of the files of the list, by their places in it. -/
  remote : Nat → Content
  /-- How many pastes have begun. -/
  paste : Nat
  /-- The requests that are not answered, oldest first. -/
  asked : List Asked

inductive SessionEvent
  | start (targetDir : PathStr) (files : List FileDescription) (remote : Nat → Content)
  | cancel
  | answer (ok : Bool)
  | timeout (late : Bool)

/-- The files of a list are as long as it says. -/
def Declared (files : List FileDescription) (remote : Nat → Content) : Prop :=
  ∀ i file, files[i]? = some file → file.kind = .file →
    (remote i).length = file.size ∧ file.size < 2 ^ 64

namespace Session

variable (s : Session)

/-- A request as it is sent. -/
def toAsked (x : Int32 × ClipboardFile) : Asked where
  connId := x.1
  request := x.2
  content :=
    match x.2 with
    | .fileContentsRequest _ listIndex _ _ _ _ _ _ => s.remote listIndex.toInt.toNat
    | _ => []
  paste := s.paste

/-- What the task has become, with the requests it has sent. -/
def become (task : PasteTask) : Session :=
  { s with
    task := task
    asked := s.asked ++ (task.sent.drop s.task.sent.length).map s.toAsked }

def next : SessionEvent → Option Session
  | .start targetDir files remote =>
    if s.task.isFinished then
      some ({ s with remote := remote, paste := s.paste + 1 }.become
        (s.task.start targetDir files))
    else some s
  | .cancel => some (s.become s.task.cancel)
  | .answer ok =>
    match s.asked with
    | [] => none
    | q :: rest => some ({ s with asked := rest }.become (s.task.onFileContents (q.response ok)))
  | .timeout late => some (s.become (s.task.onTimeout late))

/-- A list is declared as it is. -/
def Admits : SessionEvent → Prop
  | .start _ files remote => Declared files remote
  | _ => True

/-- No paste yet, on a disk as it may be. -/
structure Start : Prop where
  handle : s.task.handle = none
  asked : s.asked = []
  inodes : s.task.disk.Inodes

end Session

/-- Pastes one after the other, with the peers they ask. -/
def sessions : System Session SessionEvent where
  init := Session.Start
  step s e s' := Session.Admits e ∧ s.next e = some s'

end HopToDesk.Clipboard.Paste
