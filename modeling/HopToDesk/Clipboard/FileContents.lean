import Mathlib.Tactic
import HopToDesk.Kit.System

/-!
# Reading a file of the peer's clipboard

One side has files on its clipboard, the other sees them below a FUSE mount. A read of the mount
becomes a request that names the file by its place in the peer's list and the bytes by an offset
and a length, travels as a `Cliprdr` message, and is decoded by the peer before it is served.

The fields of the message are 32-bit and signed, as in the protocol the messages were taken from.
Casts are those of the source: `as` between integers of one width keeps the bits, to a wider one it
extends by the sign of the type it comes from, to a narrower one it drops the high bits.
-/

set_option autoImplicit false

namespace HopToDesk.Clipboard

/-- `clipboard::ClipboardFile`. -/
inductive ClipboardFile
  | notifyCallback (type title text : String)
  | monitorReady
  | formatList (formatList : List (Int32 × String))
  | formatListResponse (msgFlags : Int32)
  | formatDataRequest (requestedFormatId : Int32)
  | formatDataResponse (msgFlags : Int32) (formatData : List UInt8)
  | fileContentsRequest (streamId listIndex dwFlags nPositionLow nPositionHigh cbRequested : Int32)
      (haveClipDataId : Bool) (clipDataId : Int32)
  | fileContentsResponse (msgFlags streamId : Int32) (requestedData : List UInt8)
  | tryEmpty
  | files (files : List (String × UInt64))
deriving DecidableEq, Repr

/-! ## The messages -/

structure CliprdrFormat where
  id : Int32
  format : String
deriving DecidableEq, Repr

structure CliprdrFile where
  name : String
  size : UInt64
deriving DecidableEq, Repr

/-- `cliprdr::Union`, with the fields of each message. -/
inductive CliprdrUnion
  | ready
  | formatList (formats : List CliprdrFormat)
  | formatListResponse (msgFlags : Int32)
  | formatDataRequest (requestedFormatId : Int32)
  | formatDataResponse (msgFlags : Int32) (formatData : List UInt8)
  | fileContentsRequest (streamId listIndex dwFlags nPositionLow nPositionHigh cbRequested : Int32)
      (haveClipDataId : Bool) (clipDataId : Int32)
  | fileContentsResponse (msgFlags streamId : Int32) (requestedData : List UInt8)
  | tryEmpty
  | files (files : List CliprdrFile)
deriving DecidableEq, Repr

/-- The two variants of `message::Union` the clipboard sends. -/
inductive Message
  | messageBox (msgtype title text link : String)
  | cliprdr (union : Option CliprdrUnion)
deriving DecidableEq, Repr

/-- `clip_2_msg`. `metadata` is the length `std::fs::metadata` reports, for a path it can read. -/
def clip2Msg (metadata : String → Option UInt64) : ClipboardFile → Message
  | .notifyCallback type title text => .messageBox type title text ""
  | .monitorReady => .cliprdr (some .ready)
  | .formatList formatList =>
    .cliprdr (some (.formatList (formatList.map fun v => ⟨v.1, v.2⟩)))
  | .formatListResponse msgFlags => .cliprdr (some (.formatListResponse msgFlags))
  | .formatDataRequest requestedFormatId =>
    .cliprdr (some (.formatDataRequest requestedFormatId))
  | .formatDataResponse msgFlags formatData =>
    .cliprdr (some (.formatDataResponse msgFlags formatData))
  | .fileContentsRequest streamId listIndex dwFlags nPositionLow nPositionHigh cbRequested
      haveClipDataId clipDataId =>
    .cliprdr (some (.fileContentsRequest streamId listIndex dwFlags nPositionLow nPositionHigh
      cbRequested haveClipDataId clipDataId))
  | .fileContentsResponse msgFlags streamId requestedData =>
    .cliprdr (some (.fileContentsResponse msgFlags streamId requestedData))
  | .tryEmpty => .cliprdr (some .tryEmpty)
  | .files files =>
    .cliprdr (some (.files (files.filterMap fun f =>
      if f.2 = 0 then (metadata f.1).map fun len => ⟨f.1, len⟩ else some ⟨f.1, f.2⟩)))

/-- `msg_2_clip`, of the union of a `Cliprdr` message. -/
def msg2Clip : Option CliprdrUnion → Option ClipboardFile
  | some .ready => some .monitorReady
  | some (.formatList formats) => some (.formatList (formats.map fun v => (v.id, v.format)))
  | some (.formatListResponse msgFlags) => some (.formatListResponse msgFlags)
  | some (.formatDataRequest requestedFormatId) => some (.formatDataRequest requestedFormatId)
  | some (.formatDataResponse msgFlags formatData) =>
    some (.formatDataResponse msgFlags formatData)
  | some (.fileContentsRequest streamId listIndex dwFlags nPositionLow nPositionHigh cbRequested
      haveClipDataId clipDataId) =>
    some (.fileContentsRequest streamId listIndex dwFlags nPositionLow nPositionHigh cbRequested
      haveClipDataId clipDataId)
  | some (.fileContentsResponse msgFlags streamId requestedData) =>
    some (.fileContentsResponse msgFlags streamId requestedData)
  | some .tryEmpty => some .tryEmpty
  | _ => none

/-! ## Asking -/

/-- The fields of a `FuseNode` a read uses. -/
structure FuseNode where
  connId : Int32
  streamId : Int32
  index : UInt64
deriving DecidableEq, Repr

/-- The request `FuseServer::read_node` sends, first and at every retry. The size keeps its bits
(`transmute`), the offset is cut into halves. -/
def readNode (node : FuseNode) (offset : Int64) (size : UInt32) : ClipboardFile :=
  let cbRequested := size.toInt32
  let nPositionHigh := (offset >>> 32).toInt32
  let nPositionLow := (offset &&& 0xffffffff).toInt32
  .fileContentsRequest node.streamId node.index.toUInt32.toInt32 2 nPositionLow nPositionHigh
    cbRequested false 0

/-! ## Serving -/

/-- `serv_files::FileContentsRequest`. -/
inductive FileContentsRequest
  | size (streamId : Int32) (fileIdx : UInt64)
  | range (streamId : Int32) (fileIdx offset length : UInt64)
deriving DecidableEq, Repr

inductive CliprdrError
  | invalidRequest (description : String)
  | fileError (path err : String)
  | other (description : String)
deriving DecidableEq, Repr

/-- `x as u64` and `x as usize`, of an `i32`. -/
def asU64 (x : Int32) : UInt64 := x.toInt64.toUInt64

/-- What `read_file_contents` makes of the fields before it takes the lock: the request it serves,
or the error it answers with. -/
def decodeRequest (streamId listIndex dwFlags nPositionLow nPositionHigh cbRequested : Int32) :
    Except CliprdrError FileContentsRequest :=
  if dwFlags = 0x1 then
    .ok (.size streamId (asU64 listIndex))
  else if dwFlags = 0x2 then
    let offset := asU64 nPositionHigh <<< 32 ||| asU64 nPositionLow
    let length := asU64 cbRequested
    .ok (.range streamId (asU64 listIndex) offset length)
  else
    .error (.invalidRequest s!"got invalid FileContentsRequest, dw_flats: {dwFlags}")

/-- `read_file_contents`, over what the file list does with a request: the files it reports for
audit, and its answer. -/
def readFileContents (getFilesForAudit : FileContentsRequest → Option ClipboardFile)
    (serveFileContents : FileContentsRequest → Except CliprdrError ClipboardFile)
    (streamId listIndex dwFlags nPositionLow nPositionHigh cbRequested : Int32) :
    List (Except CliprdrError ClipboardFile) :=
  match decodeRequest streamId listIndex dwFlags nPositionLow nPositionHigh cbRequested with
  | .error e => [.error e]
  | .ok fcr => ((getFilesForAudit fcr).map .ok).toList ++ [serveFileContents fcr]

/-- `resp_file_contents_fail`. -/
def respFileContentsFail (metadata : String → Option UInt64) (streamId : Int32) : Message :=
  clip2Msg metadata (.fileContentsResponse 0x2 streamId [])

/-- The part of `serve_clip_messages` that answers a request for contents. -/
def serveFileContentsRequest (metadata : String → Option UInt64)
    (getFilesForAudit : FileContentsRequest → Option ClipboardFile)
    (serveFileContents : FileContentsRequest → Except CliprdrError ClipboardFile) :
    ClipboardFile → Option (List Message)
  | .fileContentsRequest streamId listIndex dwFlags nPositionLow nPositionHigh cbRequested _ _ =>
    some ((readFileContents getFilesForAudit serveFileContents streamId listIndex dwFlags
      nPositionLow nPositionHigh cbRequested).map fun
        | .ok data => clip2Msg metadata data
        | .error _ => respFileContentsFail metadata streamId)
  | _ => none

/-- What the peer decodes a clipboard message that asks for contents to. -/
def decodeMessage : Message → Option (Except CliprdrError FileContentsRequest)
  | .messageBox .. => none
  | .cliprdr union =>
    match msg2Clip union with
    | some (.fileContentsRequest streamId listIndex dwFlags nPositionLow nPositionHigh cbRequested
        _ _) =>
      some (decodeRequest streamId listIndex dwFlags nPositionLow nPositionHigh cbRequested)
    | _ => none

end HopToDesk.Clipboard

/-!
## Reading through the mount

`FuseServer::read_node` sends a request for the bytes of a node and waits on a channel for the reply.
Every reply of any connection comes through that channel, with the stream id of its request and
nothing else to tell which request it answers. A node has one stream id for all its reads. A read
that times out leaves its request behind, and the reply may still come.

A connection answers its requests in the order they were sent.
-/

namespace HopToDesk.Clipboard

open Kit

/-- `READ_RETRY`. -/
def READ_RETRY : Nat := 3

/-- `std::io::Error` as `read_node` makes it. -/
inductive ReadError
  | other (description : String)
  | timedOut (description : String)
deriving DecidableEq, Repr

/-- The arguments of `read_node`. -/
structure Read (ν : Type) where
  node : ν
  offset : Int64
  size : UInt32
deriving DecidableEq, Repr

/-- What `read_node` does with a reply. -/
inductive OnReply
  | ignore
  | resend (retryTimes : Nat)
  | fail (err : ReadError)
  | done (requestedData : List UInt8)
deriving DecidableEq, Repr

/-- The body of its loop. -/
def onReply (streamId : Int32) (retryTimes : Nat) : ClipboardFile → OnReply
  | .fileContentsResponse msgFlags replyStreamId requestedData =>
    if replyStreamId ≠ streamId then .ignore
    else if msgFlags &&& 1 = 0 then
      if retryTimes + 1 > READ_RETRY then .fail (.other "failure request")
      else .resend (retryTimes + 1)
    else .done requestedData
  | _ => .fail (.other "invalid reply")

/-- A reply, and the read whose request it answers. -/
structure Reply (ν : Type) where
  clip : ClipboardFile
  answers : Read ν

/-- How a call of `read_node` ended. With data comes the read that the data answers. -/
structure Outcome (ν : Type) where
  asked : Read ν
  result : Except ReadError (List UInt8 × Read ν)

/-- The read under way with its `retry_times`, the requests each connection has not answered yet and
the replies in the channel, oldest first, and how the reads ended. -/
structure FuseReader (ν : Type) where
  reading : Option (Read ν × Nat)
  pending : Int32 → List (Read ν)
  rx : List (Reply ν)
  outcomes : List (Outcome ν)

inductive ReaderStep (ν : Type)
  /-- `read_node` sends its request, or gets an error. -/
  | start (read : Read ν) (sent : Except String Unit)
  /-- A connection answers its next request. -/
  | answer (connId : Int32) (msgFlags : Int32) (requestedData : List UInt8)
  /-- `read_node` takes a reply; where it has to send the request again, that may fail. -/
  | receive (sent : Except String Unit)
  /-- Nothing has come in time. -/
  | timeout (description : String)

namespace FuseReader

variable {ν : Type} (fields : ν → FuseNode)

/-- The request of a read. -/
def request (r : Read ν) : ClipboardFile := readNode (fields r.node) r.offset r.size

/-- The reply to a request. -/
def replyTo (msgFlags : Int32) (requestedData : List UInt8) : ClipboardFile → Option ClipboardFile
  | .fileContentsRequest streamId .. => some (.fileContentsResponse msgFlags streamId requestedData)
  | _ => none

/-- `send_data(node.conn_id, request)`. -/
def send (s : FuseReader ν) (r : Read ν) : FuseReader ν :=
  let connId := (fields r.node).connId
  { s with pending := Function.update s.pending connId (s.pending connId ++ [r]) }

def finish (s : FuseReader ν) (asked : Read ν) (result : Except ReadError (List UInt8 × Read ν)) :
    FuseReader ν :=
  { s with reading := none, outcomes := s.outcomes ++ [⟨asked, result⟩] }

def next (s : FuseReader ν) : ReaderStep ν → Option (FuseReader ν)
  | .start r sent =>
    match s.reading, sent with
    | some _, _ => none
    | none, .ok () => some { s.send fields r with reading := some (r, 0) }
    | none, .error e => some (s.finish r (.error (.other e)))
  | .answer connId msgFlags requestedData =>
    match s.pending connId with
    | [] => none
    | r :: rest =>
      (replyTo msgFlags requestedData (request fields r)).map fun clip =>
        { s with
          pending := Function.update s.pending connId rest
          rx := s.rx ++ [⟨clip, r⟩] }
  | .receive sent =>
    match s.reading, s.rx with
    | some (r, retryTimes), reply :: rx =>
      let s := { s with rx := rx }
      match onReply (fields r.node).streamId retryTimes reply.clip, sent with
      | .ignore, _ => some s
      | .resend retryTimes, .ok () => some { s.send fields r with reading := some (r, retryTimes) }
      | .resend _, .error e => some (s.finish r (.error (.other e)))
      | .fail e, _ => some (s.finish r (.error e))
      | .done requestedData, _ => some (s.finish r (.ok (requestedData, reply.answers)))
    | _, _ => none
  | .timeout description =>
    match s.reading, s.rx with
    | some (r, _), [] => some (s.finish r (.error (.timedOut description)))
    | _, _ => none

/-- No read under way, and nothing sent. -/
def start : FuseReader ν := ⟨none, fun _ => [], [], []⟩

/-- Any reads one after the other, and any timing of the replies. -/
def system : System (FuseReader ν) (ReaderStep ν) := System.stepping (· = start) (next fields)

/-- Data that a read returns answers a request for the same node, offset and size. -/
def Matches (s : FuseReader ν) : Prop :=
  ∀ o ∈ s.outcomes, ∀ data answers, o.result = .ok (data, answers) → answers = o.asked

/-- A read whose request has not been answered, or whose reply has not been taken. -/
def Outstanding (s : FuseReader ν) (r : Read ν) : Prop :=
  (∃ connId, r ∈ s.pending connId) ∨ ∃ reply ∈ s.rx, reply.answers = r

/-- A read begins where every outstanding one with the stream id of its node is the same. -/
def Alone (s : FuseReader ν) : ReaderStep ν → Prop
  | .start r _ => ∀ r', s.Outstanding r' →
      (fields r'.node).streamId = (fields r.node).streamId → r' = r
  | _ => True

end FuseReader

end HopToDesk.Clipboard
