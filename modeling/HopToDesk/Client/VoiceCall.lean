import HopToDesk.Host.Connection

/-!
# Voice calls

Three parties take part in a voice call. The controlling side (`src/client/io_loop.rs`) asks for it
and records its microphone once the answer is yes. The connection of the host
(`src/server/connection.rs`) passes the request to the connection manager and the answer back. The
connection manager (`src/ui_cm_interface.rs`) shows its user the call, who answers it or hangs up.
What one party sends another arrives in the order it was sent, some time later.
-/

set_option autoImplicit false

namespace HopToDesk.Client.VoiceCall

open Kit

/-- `VoiceCallRequest`. -/
structure Request where
  isConnect : Bool
  reqTimestamp : Int
deriving DecidableEq, Repr

/-- What the host sends the controlling side. -/
inductive ToClient
  | request (r : Request)
  | response (reqTimestamp : Int) (accepted : Bool)
deriving DecidableEq, Repr

/-- What the connection tells the connection manager. -/
inductive ToCm
  | voiceCallIncoming
  | startVoiceCall
  | closeVoiceCall
deriving DecidableEq, Repr

/-- What the connection manager tells the connection. -/
inductive FromCm
  | voiceCallResponse (accepted : Bool)
  | closeVoiceCall
deriving DecidableEq, Repr

/-- The controlling side. `canRecord` says that the session is neither for files nor a tunnel nor a
terminal. -/
structure Caller where
  canRecord : Bool
  voiceCallRequestTimestamp : Option Int
  /-- There is a `stop_voice_call_sender`, so a recorder runs. -/
  recording : Bool
deriving DecidableEq, Repr

/-- The connection of the host. -/
structure Callee where
  voiceCallRequestTimestamp : Option Int
  voiceCalling : Bool
deriving DecidableEq, Repr

/-- The `Client` of the connection manager. -/
structure CmClient where
  inVoiceCall : Bool
  incomingVoiceCall : Bool
deriving DecidableEq, Repr

namespace Caller

variable (c : Caller)

/-- `Data::NewVoiceCall`, at this time. -/
def newVoiceCall (now : Int) : Caller × Request :=
  ({ c with voiceCallRequestTimestamp := some now }, ⟨true, now⟩)

/-- `Data::CloseVoiceCall`, at this time. -/
def closeVoiceCall (now : Int) : Caller × Request := ({ c with recording := false }, ⟨false, now⟩)

/-- A `VoiceCallRequest` or a `VoiceCallResponse` of the host. -/
def handle : ToClient → Caller
  | .request r => if r.isConnect then c else { c with recording := false }
  | .response reqTimestamp accepted =>
    let c' := { c with voiceCallRequestTimestamp := none }
    match c.voiceCallRequestTimestamp with
    | none => c'
    | some ts =>
      if reqTimestamp ≠ ts then c'
      -- `start_voice_call`. The recorder before it ends with its sender.
      else if accepted then { c' with recording := c.canRecord }
      else c'

end Caller

namespace Callee

variable (h : Callee)

/-- A `VoiceCallRequest` of the controlling side. -/
def onVoiceCallRequest (r : Request) : Callee × List ToCm :=
  if r.isConnect then
    ({ h with voiceCallRequestTimestamp := some r.reqTimestamp }, [.voiceCallIncoming])
  else ({ h with voiceCalling := false }, [.closeVoiceCall])

/-- What the connection manager says, at this time. -/
def onCm (now : Int) : FromCm → Callee × List ToCm × List ToClient
  | .voiceCallResponse accepted =>
    match h.voiceCallRequestTimestamp with
    | some ts =>
      (⟨none, accepted⟩, [if accepted then .startVoiceCall else .closeVoiceCall],
        [.response ts accepted])
    | none => (h, [], [])
  | .closeVoiceCall =>
    ({ h with voiceCalling := false }, [.closeVoiceCall], [.request ⟨false, now⟩])

end Callee

/-- `voice_call_incoming`, `voice_call_started` and `voice_call_closed`. -/
def CmClient.handle (_ : CmClient) : ToCm → CmClient
  | .voiceCallIncoming => ⟨false, true⟩
  | .startVoiceCall => ⟨true, false⟩
  | .closeVoiceCall => ⟨false, false⟩

/-- The three parties and what is under way between them, oldest first. -/
structure Parties where
  caller : Caller
  toHost : List Request
  toClient : List ToClient
  callee : Callee
  toCm : List ToCm
  fromCm : List FromCm
  cm : CmClient
deriving DecidableEq, Repr

inductive Event
  /-- The user of the controlling side asks for a call, at a time that is not zero. -/
  | ask (now : Int)
  /-- The user of the controlling side hangs up. -/
  | hangUp (now : Int)
  /-- The user of the host answers. -/
  | answer (accepted : Bool)
  /-- The user of the host hangs up. -/
  | close
  | hostTakes
  | hostTakesCm (now : Int)
  | callerTakes
  | cmTakes
deriving DecidableEq, Repr

/-- One event. -/
def next (s : Parties) : Event → Option Parties
  | .ask now =>
    let (caller, r) := s.caller.newVoiceCall now
    some { s with caller := caller, toHost := s.toHost ++ [r] }
  | .hangUp now =>
    let (caller, r) := s.caller.closeVoiceCall now
    some { s with caller := caller, toHost := s.toHost ++ [r] }
  | .answer accepted => some { s with fromCm := s.fromCm ++ [.voiceCallResponse accepted] }
  | .close => some { s with fromCm := s.fromCm ++ [.closeVoiceCall] }
  | .hostTakes =>
    match s.toHost with
    | [] => none
    | r :: rest =>
      let (callee, toCm) := s.callee.onVoiceCallRequest r
      some { s with callee := callee, toHost := rest, toCm := s.toCm ++ toCm }
  | .hostTakesCm now =>
    match s.fromCm with
    | [] => none
    | data :: rest =>
      let (callee, toCm, toClient) := s.callee.onCm now data
      some { s with
        callee := callee
        fromCm := rest
        toCm := s.toCm ++ toCm
        toClient := s.toClient ++ toClient }
  | .callerTakes =>
    match s.toClient with
    | [] => none
    | m :: rest => some { s with caller := s.caller.handle m, toClient := rest }
  | .cmTakes =>
    match s.toCm with
    | [] => none
    | data :: rest => some { s with cm := s.cm.handle data, toCm := rest }

/-- A session that has just begun. -/
def Parties.new (canRecord : Bool) : Parties where
  caller := ⟨canRecord, none, false⟩
  toHost := []
  toClient := []
  callee := ⟨none, false⟩
  toCm := []
  fromCm := []
  cm := ⟨false, false⟩

/-- The runs of the voice calls of a session. -/
def system : System Parties Event := .stepping (fun s => ∃ canRecord, s = .new canRecord) next

end HopToDesk.Client.VoiceCall
