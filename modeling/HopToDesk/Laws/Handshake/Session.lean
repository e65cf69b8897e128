import HopToDesk.Handshake.Session
import HopToDesk.Laws.Wire.FramedStream

/-!
# A stream in use

What a party has put on the wire after its handshake are the frames of its messages, from its count
on (`run_sent`). What it has read are the first of the messages whose frames are delivered to it
(`run_got`). The two do not touch each other.

A refused message raises the count without a frame. On a stream with a key the messages behind it
are sealed under counts that the other end never reaches, so they are left out here (`Orderly`).
-/

set_option autoImplicit false

namespace HopToDesk.Handshake

open Kit HopToDesk.Wire

/-! ## Messages that are refused -/

/-- The codec refuses the frame, which is longer by 16 bytes when it is sealed. -/
def refused (secured : Bool) (msg : Bytes) : Bool :=
  0x3FFFFFFF < msg.length + if secured then 16 else 0

/-- On a stream with a key no message comes behind one that is refused, unless it is too. -/
def Orderly (secured : Bool) (msgs : List Bytes) : Prop :=
  secured = true →
    msgs.Pairwise fun msg later => refused true msg = true → refused true later = true

/-- The messages that go out. -/
def accepted (secured : Bool) (msgs : List Bytes) : List Bytes :=
  msgs.filter fun msg => !refused secured msg

section Refused

variable {secured : Bool} {msg : Bytes} {msgs : List Bytes}

theorem Orderly.tail (h : Orderly secured (msg :: msgs)) : Orderly secured msgs :=
  fun hsecured => (List.pairwise_cons.mp (h hsecured)).2

theorem accepted_cons_refused (h : refused secured msg = true) :
    accepted secured (msg :: msgs) = accepted secured msgs :=
  List.filter_cons_of_neg (by rw [h]; exact Bool.false_ne_true)

theorem accepted_cons (h : refused secured msg = false) :
    accepted secured (msg :: msgs) = msg :: accepted secured msgs :=
  List.filter_cons_of_pos (by rw [h]; rfl)

/-- Behind a refused message, nothing goes out. -/
theorem Orderly.accepted_eq_nil (h : Orderly true (msg :: msgs))
    (hrefused : refused true msg = true) : accepted true msgs = [] := by
  refine List.filter_eq_nil_iff.mpr fun later hlater => ?_
  rw [(List.pairwise_cons.mp (h rfl)).1 later hlater hrefused]
  exact Bool.false_ne_true

end Refused

/-- What `secretbox` promises: a sealed message is longer by 16 bytes, and is opened under the nonce
it was sealed under. -/
structure Seals (box : Secretbox SecretboxKey) : Prop where
  length : ∀ key n msg, (box.sealWith msg (getNonce n) key).length = msg.length + 16
  opens : ∀ key n msg, box.openWith (box.sealWith msg (getNonce n) key) (getNonce n) key = some msg

theorem encode_long {codec : BytesCodec} (hraw : codec.raw = false) {data : Bytes}
    (h : 0x3FFFFFFF < data.length) :
    codec.encode data [] = .error ⟨.invalidInput, "Overflow"⟩ := by
  unfold BytesCodec.encode
  rw [hraw, if_neg Bool.false_ne_true, if_neg (by omega), if_neg (by omega), if_neg (by omega),
    if_neg (by omega)]

theorem framesFrom_eq_nil {box : Secretbox SecretboxKey} {at_ : Option (SecretboxKey × UInt64)}
    {msgs : List Bytes} (h : framesFrom box at_ msgs = []) : msgs = [] := by
  cases msgs with
  | nil => rfl
  | cons msg msgs =>
    cases at_ with
    | none => cases h
    | some x => cases h

namespace Session

variable {box : Secretbox SecretboxKey} {S : Session} {msg : Bytes}

/-- The key and the count of what was read last. -/
def reads (S : Session) : Option (SecretboxKey × UInt64) :=
  S.conn.stream.encrypt.map fun e => (e.key, e.decSeq)

/-- The key and the count of what was sealed last. -/
def writes (S : Session) : Option (SecretboxKey × UInt64) :=
  S.conn.stream.encrypt.map fun e => (e.key, e.encSeq)

/-! ## One use -/

/-- What a send does to the stream, whatever comes of the frame. -/
structure Sealed (S S' : Session) : Prop where
  codec : S'.conn.stream.codec = S.conn.stream.codec
  peekBuffer : S'.conn.stream.peekBuffer = S.conn.stream.peekBuffer
  reads : S'.reads = S.reads
  writes : S'.writes = forward 1 S.writes
  recvs : S'.conn.recvs = S.conn.recvs
  got : S'.got = S.got

theorem isSecured_eq (S : Session) : S.conn.stream.isSecured = S.writes.isSome := by
  unfold FramedStream.isSecured writes
  rw [Option.isSome_map]

theorem send_sealed (box : Secretbox SecretboxKey) (S : Session) (msg : Bytes) :
    Sealed S (S.send box msg) := by
  obtain ⟨⟨⟨codec, encrypt, peek⟩, recvs, sends, events⟩, sent, wrote, got⟩ := S
  unfold send FramedStream.sendRaw
  cases encrypt with
  | none =>
    dsimp only
    split
    · exact ⟨rfl, rfl, rfl, rfl, rfl, rfl⟩
    · exact ⟨rfl, rfl, rfl, rfl, rfl, rfl⟩
  | some e =>
    dsimp only
    split
    · exact ⟨rfl, rfl, rfl, rfl, rfl, rfl⟩
    · exact ⟨rfl, rfl, rfl, rfl, rfl, rfl⟩

/-- A message goes out as its frame, or it is refused. -/
theorem send_cases (hbox : Seals box) (hcodec : S.conn.stream.codec = .new) (msg : Bytes) :
    (refused S.conn.stream.isSecured msg = true ∧ (S.send box msg).sent = S.sent ∧
      (S.send box msg).wrote = S.wrote) ∨
    (refused S.conn.stream.isSecured msg = false ∧ (S.send box msg).sent = S.sent ++ [msg] ∧
      (S.send box msg).wrote = S.wrote ++ framesFrom box S.writes [msg]) := by
  obtain ⟨⟨⟨codec, encrypt, peek⟩, recvs, sends, events⟩, sent, wrote, got⟩ := S
  obtain rfl : codec = .new := hcodec
  cases encrypt with
  | none =>
    unfold send FramedStream.sendRaw
    dsimp only [Outgoing.bytes]
    by_cases hlong : 0x3FFFFFFF < msg.length
    · rw [encode_long rfl hlong]
      exact .inl ⟨decide_eq_true hlong, rfl, rfl⟩
    · rw [BytesCodec.encode_eq BytesCodec.new_framed (Nat.not_lt.mp hlong)]
      exact .inr ⟨decide_eq_false hlong, rfl, rfl⟩
  | some e =>
    have hlength := hbox.length e.key (e.encSeq + 1) msg
    unfold send FramedStream.sendRaw Encrypt.enc
    dsimp only [Outgoing.bytes, SecretBox.Call.frame]
    by_cases hlong : 0x3FFFFFFF < msg.length + 16
    · rw [encode_long rfl (hlength ▸ hlong)]
      exact .inl ⟨decide_eq_true hlong, rfl, rfl⟩
    · rw [BytesCodec.encode_eq BytesCodec.new_framed (hlength ▸ Nat.not_lt.mp hlong)]
      exact .inr ⟨decide_eq_false hlong, rfl, rfl⟩

/-- Asking for a message sends none. -/
structure Silent (S S' : Session) : Prop where
  codec : S'.conn.stream.codec = S.conn.stream.codec
  writes : S'.writes = S.writes
  sent : S'.sent = S.sent
  wrote : S'.wrote = S.wrote

/-- A poll of the stream moves its count of what was read, and no other. -/
theorem next_stream (box : Secretbox SecretboxKey) (t : FramedStream SecretboxKey) (res : Arrival) :
    (t.next box res).1.codec = t.codec ∧
      (t.next box res).1.encrypt.map (fun e => (e.key, e.encSeq)) =
        t.encrypt.map fun e => (e.key, e.encSeq) := by
  obtain ⟨codec, encrypt, peek⟩ := t
  cases peek with
  | some bytes => exact ⟨rfl, rfl⟩
  | none =>
    rcases res with _ | err | bytes
    · exact ⟨rfl, rfl⟩
    · exact ⟨rfl, rfl⟩
    · cases encrypt with
      | none => exact ⟨rfl, rfl⟩
      | some e =>
        refine ⟨rfl, congrArg some ?_⟩
        rcases e.dec_cases box bytes with ⟨-, hdec⟩ | ⟨-, msg, -, hdec⟩ | ⟨-, -, hdec⟩
        · show ((e.dec box bytes).1.key, (e.dec box bytes).1.encSeq) = _
          rw [hdec]
        · show ((e.dec box bytes).1.key, (e.dec box bytes).1.encSeq) = _
          rw [hdec]
        · show ((e.dec box bytes).1.key, (e.dec box bytes).1.encSeq) = _
          rw [hdec]

theorem next_silent (box : Secretbox SecretboxKey) (S : Session) : Silent S (S.next box) := by
  have hconn : (Conn.nextWithin box S.conn).2.stream.codec = S.conn.stream.codec ∧
      (Conn.nextWithin box S.conn).2.stream.encrypt.map (fun e => (e.key, e.encSeq)) =
        S.conn.stream.encrypt.map fun e => (e.key, e.encSeq) := by
    unfold Conn.nextWithin
    dsimp only
    split
    next => exact ⟨rfl, rfl⟩
    next res hres => exact next_stream box S.conn.stream res
  unfold next
  split
  next res conn heq =>
    rw [heq] at hconn
    exact ⟨hconn.1, hconn.2, rfl, rfl⟩
  next conn heq =>
    rw [heq] at hconn
    exact ⟨hconn.1, hconn.2, rfl, rfl⟩

/-! ## What is written -/

/-- **What is on the wire are the frames of what went out**, from the count on. -/
theorem run_sent (hbox : Seals box) {uses : List Use} (hcodec : S.conn.stream.codec = .new)
    (hord : Orderly S.conn.stream.isSecured (uses.filterMap Use.message?)) :
    (S.run box uses).sent =
        S.sent ++ accepted S.conn.stream.isSecured (uses.filterMap Use.message?) ∧
      (S.run box uses).wrote = S.wrote ++ framesFrom box S.writes
        (accepted S.conn.stream.isSecured (uses.filterMap Use.message?)) := by
  induction uses generalizing S with
  | nil =>
    have hnone : framesFrom box S.writes [] = [] := by cases S.writes <;> rfl
    show S.sent = S.sent ++ [] ∧ S.wrote = S.wrote ++ framesFrom box S.writes []
    rw [hnone, List.append_nil, List.append_nil]
    exact ⟨rfl, rfl⟩
  | cons use uses ih =>
    cases use with
    | next =>
      have hsilent := next_silent box S
      have hsecured : (S.next box).conn.stream.isSecured = S.conn.stream.isSecured := by
        rw [isSecured_eq, isSecured_eq, hsilent.writes]
      have hrest := ih (S := S.next box) (hsilent.codec.trans hcodec) (hsecured ▸ hord)
      rw [hsilent.sent, hsilent.wrote, hsilent.writes, hsecured] at hrest
      exact hrest
    | send msg =>
      have hsealed := send_sealed box S msg
      have hsecured : (S.send box msg).conn.stream.isSecured = S.conn.stream.isSecured := by
        rw [isSecured_eq, isSecured_eq, hsealed.writes, forward, Option.isSome_map]
      have hrest := ih (S := S.send box msg) (hsealed.codec.trans hcodec) (hsecured ▸ hord.tail)
      rw [hsecured, hsealed.writes] at hrest
      show (Session.run box (S.send box msg) uses).sent = S.sent ++ accepted _ (msg :: _) ∧
        (Session.run box (S.send box msg) uses).wrote =
          S.wrote ++ framesFrom box S.writes (accepted _ (msg :: _))
      rcases send_cases hbox hcodec msg with ⟨hrefused, hsent, hwrote⟩ | ⟨hgoes, hsent, hwrote⟩
      · rw [accepted_cons_refused hrefused]
        rw [hsent, hwrote] at hrest
        cases hkey : S.writes with
        | none =>
          rw [hkey] at hrest
          exact hrest
        | some at_ =>
          have hyes : S.conn.stream.isSecured = true := by rw [isSecured_eq, hkey]; rfl
          rw [hyes] at hord hrefused hrest ⊢
          rw [hord.accepted_eq_nil hrefused] at hrest ⊢
          rw [hkey] at hrest
          exact hrest
      · rw [accepted_cons hgoes]
        rw [hsent, hwrote, List.append_assoc, List.append_assoc] at hrest
        refine ⟨hrest.1, hrest.2.trans (congrArg (S.wrote ++ ·) ?_)⟩
        cases hkey : S.writes with
        | none => rfl
        | some at_ => rfl

/-- Behind a refused message the next is sealed under the count after the one that was wasted. -/
theorem run_spoiled (hbox : Seals box) {key : SecretboxKey} {n : UInt64} {long short : Bytes}
    (hcodec : S.conn.stream.codec = .new) (hwrites : S.writes = some (key, n))
    (hlong : refused true long = true) (hshort : refused true short = false) :
    (S.run box [.send long, .send short]).sent = S.sent ++ [short] ∧
      (S.run box [.send long, .send short]).wrote =
        S.wrote ++ [box.sealWith short (getNonce (n + 1 + 1)) key] := by
  have hsealed := send_sealed box S long
  have hwrites' : (S.send box long).writes = some (key, n + 1) := by
    rw [hsealed.writes, hwrites]
    rfl
  have hyes : S.conn.stream.isSecured = true := by rw [isSecured_eq, hwrites]; rfl
  have hyes' : (S.send box long).conn.stream.isSecured = true := by
    rw [isSecured_eq, hwrites']
    rfl
  obtain ⟨hsent, hwrote⟩ : (S.send box long).sent = S.sent ∧ (S.send box long).wrote = S.wrote := by
    rcases send_cases hbox hcodec long with ⟨-, hsame⟩ | ⟨hgoes, -⟩
    · exact hsame
    · rw [hyes, hlong] at hgoes
      cases hgoes
  show ((S.send box long).send box short).sent = _ ∧ ((S.send box long).send box short).wrote = _
  rcases send_cases hbox (hsealed.codec.trans hcodec) short with
    ⟨hrefused, -⟩ | ⟨-, hsent', hwrote'⟩
  · rw [hyes', hshort] at hrefused
    cases hrefused
  · rw [hsent', hwrote', hsent, hwrote, hwrites']
    exact ⟨rfl, rfl⟩

/-! ## What is read -/

/-- A frame that comes in is opened under the next count. -/
theorem next_opens (hbox : Seals box) {t : FramedStream SecretboxKey} (hpeek : t.peekBuffer = none)
    {msgs frames : List Bytes} {frame : Bytes}
    (h : framesFrom box (t.encrypt.map fun e => (e.key, e.decSeq)) msgs = frame :: frames) :
    ∃ m ms t', msgs = m :: ms ∧ t.next box (some (.ok frame)) = (t', some (.ok m)) ∧
      t'.peekBuffer = none ∧
      framesFrom box (t'.encrypt.map fun e => (e.key, e.decSeq)) ms = frames := by
  obtain ⟨codec, encrypt, peek⟩ := t
  obtain rfl : peek = none := hpeek
  cases msgs with
  | nil => cases encrypt <;> cases h
  | cons m ms =>
    cases encrypt with
    | none =>
      obtain ⟨rfl, rfl⟩ := List.cons.inj h
      exact ⟨m, ms, _, rfl, rfl, rfl, rfl⟩
    | some e =>
      obtain ⟨rfl, rfl⟩ := List.cons.inj h
      have hlong : 1 < (frameAt box (some e.key) (e.decSeq + 1) m).length := by
        rw [frameAt, hbox.length]
        omega
      have hdec : e.dec box (frameAt box (some e.key) (e.decSeq + 1) m) =
          ({ e with decSeq := e.decSeq + 1 }, .ok m) := by
        unfold Encrypt.dec
        rw [if_neg (Nat.not_le.mpr hlong)]
        dsimp only [frameAt]
        rw [hbox.opens]
      refine ⟨m, ms, ⟨codec, some { e with decSeq := e.decSeq + 1 }, none⟩, rfl, ?_, rfl, rfl⟩
      unfold FramedStream.next FramedStream.next_
      dsimp only
      rw [hdec]

/-- So far the messages have been read up to those that are unread, and of these the frames that are
not on the way have come in. -/
def Reading (box : Secretbox SecretboxKey) (msgs rest : List Bytes) (S : Session) : Prop :=
  ∃ taken unread, msgs = taken ++ (S.conn.stream.peekBuffer.toList ++ unread) ∧
    S.got = taken.map .ok ∧ Delivered S.conn.recvs (framesFrom box S.reads unread) rest

variable {msgs rest : List Bytes}

theorem Reading.send (h : Reading box msgs rest S) (msg : Bytes) :
    Reading box msgs rest (S.send box msg) := by
  obtain ⟨taken, unread, hmsgs, hgot, hrecvs⟩ := h
  have hsealed := send_sealed box S msg
  refine ⟨taken, unread, ?_, ?_, ?_⟩
  · rw [hsealed.peekBuffer]
    exact hmsgs
  · rw [hsealed.got]
    exact hgot
  · rw [hsealed.recvs, hsealed.reads]
    exact hrecvs

theorem Reading.next (hbox : Seals box) (h : Reading box msgs rest S) :
    Reading box msgs rest (S.next box) := by
  obtain ⟨⟨⟨codec, encrypt, peek⟩, recvs, sends, events⟩, sent, wrote, got⟩ := S
  obtain ⟨taken, unread, hmsgs, hgot, hrecvs⟩ := h
  cases peek with
  | some p =>
    refine ⟨taken ++ [p], unread, ?_, ?_, hrecvs⟩
    · rw [hmsgs, List.append_assoc]
      rfl
    · rw [List.map_append, ← hgot]
      rfl
  | none =>
    generalize hframes : framesFrom box _ unread = frames at hrecvs
    cases hrecvs with
    | nothing =>
      refine ⟨taken, unread, hmsgs, hgot, ?_⟩
      exact (congrArg (fun frames => Delivered [] frames rest) hframes).mpr (.nothing rest)
    | elapsed hrecvs =>
      refine ⟨taken, unread, hmsgs, hgot, ?_⟩
      rw [← hframes] at hrecvs
      exact hrecvs
    | @frame recvs _ _ frame hrecvs =>
      obtain ⟨m, ms, t', rfl, hnext, hpeek, hrest⟩ := next_opens hbox rfl hframes
      have hstep : Session.next box ⟨⟨⟨codec, encrypt, none⟩, some (some (.ok frame)) :: recvs,
          sends, events⟩, sent, wrote, got⟩ =
            ⟨⟨t', recvs, sends, events ++ [.took m]⟩, sent, wrote, got ++ [.ok m]⟩ := by
        unfold Session.next Conn.nextWithin
        dsimp only [List.head?_cons, Option.join_some]
        rw [hnext]
        rfl
      rw [hstep]
      refine ⟨taken ++ [m], ms, ?_, ?_, ?_⟩
      · dsimp only
        rw [hpeek, hmsgs, List.append_assoc]
        rfl
      · dsimp only
        rw [List.map_append, ← hgot]
        rfl
      · rw [← hrest] at hrecvs
        exact hrecvs
    | closed hrecvs =>
      refine ⟨taken, unread, hmsgs, hgot, ?_⟩
      exact (congrArg (fun frames => Delivered _ frames []) hframes).mpr hrecvs

/-- **What is read are the messages, in order.** -/
theorem run_got (hbox : Seals box) (uses : List Use) (h : Reading box msgs rest S) :
    Reading box msgs rest (S.run box uses) := by
  induction uses generalizing S with
  | nil => exact h
  | cons use uses ih =>
    cases use with
    | send msg => exact ih (h.send msg)
    | next => exact ih (h.next hbox)

end Session

end HopToDesk.Handshake
