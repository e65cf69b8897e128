import HopToDesk.Laws.Handshake.Client
import HopToDesk.Laws.Handshake.Session

/-!
# The two handshakes agree

Over an honest network the two parties stay in step on every branch. A party is described by what it
has said and what it has yet to read (`Talked`), and each operation on the stream by how it moves
that. The client says one message, or first asks for the server's key and then says one
(`client_ends`); the server reads as many (`server_ends`). So the last message of the client is the
one that the server takes its key from, and nothing of the handshake is left on the way.
-/

set_option autoImplicit false

namespace HopToDesk.Handshake

open Kit HopToDesk.Wire

variable {proto : Proto} {na : Sodium} {box : Secretbox SecretboxKey}

/-! ## What a party has said, and what it has yet to read -/

/-- The key of the stream, what was said, what stands in the peek buffer and what is unread. -/
structure Talked (key : Option SecretboxKey) (said : List Message) (peeked : Option Bytes)
    (left rest : List Bytes) (c : Conn) : Prop where
  stream : c.stream = ⟨.new, key.map .new, peeked⟩
  said : c.said = said
  recvs : Delivered c.recvs left rest

theorem Delivered.of_elapsed {recvs : List (Option Arrival)} {left rest : List Bytes}
    (h : Delivered recvs left rest) (hnone : recvs.head?.join = none) :
    Delivered recvs.tail left rest := by
  cases h with
  | nothing => exact .nothing _
  | elapsed h => exact h
  | frame => cases hnone
  | closed => cases hnone

/-- What a wait that does not elapse comes to. -/
theorem Delivered.of_arrival {recvs : List (Option Arrival)} {left rest : List Bytes}
    (h : Delivered recvs left rest) {res : Arrival} (hres : recvs.head?.join = some res) :
    (res = none ∧ left = [] ∧ rest = [] ∧ Delivered recvs.tail [] []) ∨
      ∃ frame left', res = some (.ok frame) ∧ left = frame :: left' ∧
        Delivered recvs.tail left' rest := by
  cases h with
  | nothing => cases hres
  | elapsed h => cases hres
  | frame frame h =>
    cases hres
    exact .inr ⟨frame, _, rfl, rfl, h⟩
  | closed h =>
    cases hres
    exact .inl ⟨rfl, rfl, rfl, h⟩

theorem Delivered.eq_rest {left rest : List Bytes} (h : Delivered [] left rest) : left = rest := by
  cases h
  rfl

/-- The handshake ends, and then this holds. -/
abbrev Ends {α : Type} (step : Step α) (Q : α → Conn → Prop) (c : Conn) : Prop :=
  Fallible.wp step Q (fun _ _ => True) c

namespace Talked

variable {said : List Message} {peeked : Option Bytes} {left rest : List Bytes} {c : Conn}
  {msg : Message}

theorem wrote {key : Option SecretboxKey} (h : Talked key said peeked left rest c) :
    c.wrote proto = said.filterMap proto.writeMessage := by
  rw [Conn.wrote, h.said]

theorem sendWithin (h : Talked none said peeked left rest c)
    {Q : Option (Except IoError Unit) → Conn → Prop}
    (hQ : ∀ r c', (∀ u, r = some (.ok u) → ∃ frame, proto.writeMessage msg = some frame) →
      Talked none (said ++ [msg]) peeked left rest c' → Q r c') :
    Ends (Conn.sendWithin proto msg) Q c := by
  have hnone : c.stream.encrypt = none := by rw [h.stream]; rfl
  have hplain (bytes : Bytes) : (c.stream.sendRaw bytes).1 = c.stream := by
    unfold FramedStream.sendRaw
    rw [hnone]
  have hafter : Talked none (said ++ [msg]) peeked left rest (c.afterSend msg) := by
    refine ⟨h.stream, ?_, h.recvs⟩
    show (c.events ++ [Event.sent msg]).filterMap Event.sent? = said ++ [msg]
    rw [List.filterMap_append, ← h.said]
    rfl
  unfold Ends Fallible.wp Conn.sendWithin Conn.sendOutcome
  cases hs : c.sends.head?.join with
  | none => exact hQ none _ (fun u hu => by cases hu) hafter
  | some res =>
    cases hw : proto.writeMessage msg with
    | none => exact hQ _ _ (fun u hu => by cases hu) hafter
    | some bytes =>
      dsimp only
      rw [hplain]
      exact hQ (some res) _ (fun _ _ => ⟨bytes, hw⟩) hafter

theorem send (h : Talked none said peeked left rest c) {Q : Unit → Conn → Prop}
    (hQ : ∀ frame c', proto.writeMessage msg = some frame →
      Talked none (said ++ [msg]) peeked left rest c' → Q () c') :
    Ends (Conn.send proto msg) Q c := by
  unfold Conn.send Ends
  rw [Fallible.wp_bind]
  refine h.sendWithin fun r c' hwritten hsaid => ?_
  rcases r with _ | err | u
  · trivial
  · trivial
  · obtain ⟨frame, hframe⟩ := hwritten () rfl
    exact hQ frame c' hframe hsaid

theorem sendUntimed (h : Talked none said peeked left rest c) {Q : Unit → Conn → Prop}
    (hQ : ∀ c', Talked none (said ++ [msg]) peeked left rest c' → Q () c') :
    Ends (Conn.sendUntimed proto msg) Q c := by
  unfold Conn.sendUntimed Ends
  rw [Fallible.wp_bind]
  refine h.sendWithin fun r c' _ hsaid => ?_
  rcases r with _ | err | u
  · exact hQ c' hsaid
  · trivial
  · exact hQ c' hsaid

/-- Before there is a key, `next` is the transport. -/
theorem next_plain (box : Secretbox SecretboxKey) (res : Arrival) :
    FramedStream.next box ⟨.new, none, none⟩ res = (⟨.new, none, none⟩, res) := by
  rcases res with _ | _ | _ <;> rfl

theorem nextWithin (h : Talked none said none left rest c) {Q : Option Arrival → Conn → Prop}
    (helapsed : ∀ c', Talked none said none left rest c' → Q none c')
    (hclosed : ∀ c', left = [] → rest = [] → Talked none said none [] [] c' → Q (some none) c')
    (hframe : ∀ frame left' c', left = frame :: left' → Talked none said none left' rest c' →
      Q (some (some (.ok frame))) c') : Ends (Conn.nextWithin box) Q c := by
  obtain ⟨stream, recvs, sends, events⟩ := c
  obtain ⟨rfl, hsaid, hrecvs⟩ := h
  unfold Ends Fallible.wp Conn.nextWithin
  dsimp only [Option.map_none]
  cases hr : recvs.head?.join with
  | none => exact helapsed _ ⟨rfl, hsaid, hrecvs.of_elapsed hr⟩
  | some res =>
    dsimp only
    rw [next_plain]
    rcases hrecvs.of_arrival hr with ⟨rfl, hleft, hrest, htail⟩ | ⟨frame, left', rfl, hleft, htail⟩
    · exact hclosed _ hleft hrest ⟨rfl, hsaid, htail⟩
    · refine hframe frame left' _ hleft ⟨rfl, ?_, htail⟩
      show (events ++ [Event.took frame]).filterMap Event.sent? = said
      rw [List.filterMap_append, ← hsaid]
      exact List.append_nil _

/-- What stands in the peek buffer is taken first. -/
theorem nextWithin_peeked {p : Bytes} (h : Talked none said (some p) left rest c)
    {Q : Option Arrival → Conn → Prop}
    (hQ : ∀ c', Talked none said none left rest c' → Q (some (some (.ok p))) c') :
    Ends (Conn.nextWithin box) Q c := by
  obtain ⟨stream, recvs, sends, events⟩ := c
  obtain ⟨rfl, hsaid, hrecvs⟩ := h
  refine hQ _ ⟨rfl, ?_, hrecvs⟩
  show (events ++ [Event.took p]).filterMap Event.sent? = said
  rw [List.filterMap_append, ← hsaid]
  exact List.append_nil _

theorem peekWithin (h : Talked none said none left rest c) {Q : Option Arrival → Conn → Prop}
    (helapsed : ∀ c', Talked none said none left rest c' → Q none c')
    (hclosed : ∀ c', left = [] → rest = [] → Talked none said none [] [] c' → Q (some none) c')
    (hframe : ∀ frame left' c', left = frame :: left' →
      Talked none said (some frame) left' rest c' → Q (some (some (.ok frame))) c') :
    Ends (Conn.peekWithin box) Q c := by
  obtain ⟨stream, recvs, sends, events⟩ := c
  obtain ⟨rfl, hsaid, hrecvs⟩ := h
  unfold Ends Fallible.wp Conn.peekWithin
  dsimp only [Option.map_none]
  cases hr : recvs.head?.join with
  | none => exact helapsed _ ⟨rfl, hsaid, hrecvs.of_elapsed hr⟩
  | some res =>
    rcases hrecvs.of_arrival hr with ⟨rfl, hleft, hrest, htail⟩ | ⟨frame, left', rfl, hleft, htail⟩
    · exact hclosed _ hleft hrest ⟨rfl, hsaid, htail⟩
    · refine hframe frame left' _ hleft ⟨rfl, ?_, htail⟩
      show (events ++ [Event.peeked frame]).filterMap Event.sent? = said
      rw [List.filterMap_append, ← hsaid]
      exact List.append_nil _

theorem setKey (h : Talked none said peeked left rest c) (key : SecretboxKey)
    {Q : Unit → Conn → Prop} (hQ : ∀ c', Talked (some key) said peeked left rest c' → Q () c') :
    Ends (Conn.setKey key) Q c := by
  obtain ⟨stream, recvs, sends, events⟩ := c
  obtain ⟨rfl, hsaid, hrecvs⟩ := h
  refine hQ _ ⟨rfl, ?_, hrecvs⟩
  show (events ++ [Event.keySet key]).filterMap Event.sent? = said
  rw [List.filterMap_append, ← hsaid]
  exact List.append_nil _

end Talked

/-! ## The server -/

section Server

variable {said : List Message} {left rest : List Bytes} {c : Conn} {msg : Message}

/-- The key that the server takes from a message. -/
def installedKey (na : Sodium) (ourSkB : BoxSecretKey) (msg : Message) : Option SecretboxKey :=
  match msg.union with
  | some (.publicKey asymmetricValue symmetricValue) =>
    match processClientPublicKeyMessage na asymmetricValue symmetricValue ourSkB with
    | .ok (some (key, _)) => some key
    | _ => none
  | _ => none

theorem Talked.takeClientKey (h : Talked none said none left rest c) (ourSkB : BoxSecretKey)
    (msg : Message) : Ends (takeClientKey na ourSkB msg)
      (fun _ c' => Talked (installedKey na ourSkB msg) said none left rest c') c := by
  unfold Ends Handshake.takeClientKey installedKey
  rcases msg with ⟨_ | signedId | ⟨asymmetricValue, symmetricValue⟩ | misc | _⟩
  · exact h
  · exact h
  · dsimp only
    rw [Fallible.wp_bind, Fallible.wp_ofExcept]
    rcases processClientPublicKeyMessage na asymmetricValue symmetricValue ourSkB with
      err | _ | keyed
    · trivial
    · exact h
    · dsimp only
      rw [Fallible.wp_bind]
      exact h.setKey keyed.1 fun c' hc' => hc'
  · exact h
  · exact h

/-- The server's next message is parsed from the next frame. -/
theorem Talked.nextMessage (h : Talked none said none left rest c) {Q : Message → Conn → Prop}
    (hQ : ∀ frame msg left' c', left = frame :: left' → proto.parseMessage frame = some msg →
      Talked none said none left' rest c' → Q msg c') :
    Ends (nextMessageForHandshake proto box) Q c := by
  unfold Ends nextMessageForHandshake
  rw [Fallible.wp_bind]
  refine h.nextWithin (fun _ _ => trivial) (fun _ _ _ _ => trivial)
    fun frame left' c' hleft hc' => ?_
  dsimp only
  cases hparse : proto.parseMessage frame with
  | none => trivial
  | some msg => exact hQ frame msg left' c' hleft hparse hc'

/-- The answer to the request for the key. -/
def keyAnswer (initialPk : Bytes) : Message :=
  ⟨some (.misc (some (.unauthenticatedInitialPublicKeyResponse initialPk)))⟩

/-- How the server's handshake ends: with the key of the first message, or of the second when the
first asks for the server's key. -/
inductive ServerEnds (proto : Proto) (na : Sodium) (ourSkB : BoxSecretKey)
    (opening answer : Message) (rest : List Bytes) : List Bytes → Conn → Prop
  | once {first : Bytes} {msg : Message} {left : List Bytes} {c : Conn} :
      proto.parseMessage first = some msg → isDirectInitialPublicKeyRequest msg = false →
      (∃ frame, proto.writeMessage opening = some frame) →
      Talked (installedKey na ourSkB msg) [opening] none left rest c →
        ServerEnds proto na ourSkB opening answer rest (first :: left) c
  | twice {first second : Bytes} {request msg : Message} {left : List Bytes} {c : Conn} :
      proto.parseMessage first = some request → isDirectInitialPublicKeyRequest request = true →
      proto.parseMessage second = some msg →
      (∃ frame, proto.writeMessage opening = some frame) →
      (∃ frame, proto.writeMessage answer = some frame) →
      Talked (installedKey na ourSkB msg) [opening, answer] none left rest c →
        ServerEnds proto na ourSkB opening answer rest (first :: second :: left) c

theorem server_ends {recvs : List (Option Arrival)} {frames : List Bytes}
    (hrecvs : Delivered recvs frames rest) (sends : List (Option (Except IoError Unit)))
    (server : BoxPublicKey × BoxSecretKey) (serverId : String) {sk : SignSecretKey}
    {skBytes initialPk : Bytes} (hsk : toFixed 64 skBytes = some sk)
    (hpk : initialPk.length = 32) :
    Ends (serverHandshake proto na box server true serverId skBytes initialPk)
      (fun _ => ServerEnds proto na server.2 (signedIdMessage proto na serverId server.1 sk)
        (keyAnswer initialPk) rest frames) (.new recvs sends) := by
  have hstart : Talked none [] none frames rest (.new recvs sends) := ⟨rfl, rfl, hrecvs⟩
  have hfixed : toFixed 32 initialPk = some ⟨initialPk, hpk⟩ := dif_pos hpk
  unfold Ends serverHandshake
  rw [hfixed, hsk]
  dsimp only
  rw [Fallible.wp_bind]
  refine hstart.send fun opened c₁ hopened h₁ => ?_
  rw [Fallible.wp_bind]
  refine h₁.nextMessage fun first msg left c₂ hframes hfirst h₂ => ?_
  subst hframes
  cases hrequest : isDirectInitialPublicKeyRequest msg with
  | false =>
    rw [if_neg Bool.false_ne_true]
    refine Fallible.wp_mono (h₂.takeClientKey server.2 msg) (fun _ c₃ h₃ => ?_) (fun _ _ h => h)
    exact .once hfirst hrequest ⟨opened, hopened⟩ h₃
  | true =>
    rw [if_pos rfl, Fallible.wp_bind]
    refine h₂.send fun answered c₃ hanswered h₃ => ?_
    rw [Fallible.wp_bind]
    refine h₃.nextMessage fun second last left' c₄ hleft hsecond h₄ => ?_
    subst hleft
    refine Fallible.wp_mono (h₄.takeClientKey server.2 last) (fun _ c₅ h₅ => ?_) (fun _ _ h => h)
    exact .twice hfirst hrequest hsecond ⟨opened, hopened⟩ ⟨answered, hanswered⟩ h₅

end Server

/-! ## The client -/

section Client

variable {said : List Message} {peeked : Option Bytes} {left rest : List Bytes} {c : Conn}
  {client : BoxPublicKey × BoxSecretKey} {genKey : SecretboxKey} {peerId : String}
  {first signed : Bytes}

theorem Talked.boxSeal (h : Talked none said peeked left rest c) {plain nonce : Bytes}
    {theirPk : BoxPublicKey} {ourSk : BoxSecretKey} {Q : Bytes → Conn → Prop}
    (hQ : ∀ c', Talked none said peeked left rest c' →
      Q (na.boxSeal plain nonce theirPk ourSk) c') :
    Ends (Conn.boxSeal na plain nonce theirPk ourSk) Q c := by
  unfold Ends Conn.boxSeal Conn.record
  rw [Fallible.wp_bind, Fallible.wp_modify, Fallible.wp_pure]
  refine hQ _ ⟨h.stream, ?_, h.recvs⟩
  show (c.events ++ [Event.boxSealed plain nonce theirPk ourSk]).filterMap Event.sent? = said
  rw [List.filterMap_append, ← h.said]
  exact List.append_nil _

/-- The client's last message, and its key: none, or the one that it has sealed to the box key in
the signed id. -/
def Offers (proto : Proto) (na : Sodium) (client : BoxPublicKey × BoxSecretKey)
    (genKey : SecretboxKey) (peerId : String) (first : Bytes) (last : Message)
    (key : Option SecretboxKey) : Prop :=
  (last = .new ∧ key = none) ∨
    ∃ signed pk theirPk, proto.parseMessage first = some ⟨some (.signedId signed)⟩ ∧
      decodeIdPk proto na signed pk = .ok (peerId, theirPk) ∧
      last = sealedKeyMessage na client theirPk genKey ∧
      (∃ frame, proto.writeMessage last = some frame) ∧ key = some genKey

/-- How the client's handshake ends: after the signed id, or after the answer to a request for the
server's key as well. -/
inductive ClientEnds (proto : Proto) (na : Sodium) (client : BoxPublicKey × BoxSecretKey)
    (genKey : SecretboxKey) (peerId : String) (rest : List Bytes) : List Bytes → Conn → Prop
  | once {first : Bytes} {last : Message} {key : Option SecretboxKey} {left : List Bytes}
      {c : Conn} : Offers proto na client genKey peerId first last key →
      Talked key [last] none left rest c →
        ClientEnds proto na client genKey peerId rest (first :: left) c
  | twice {first answer : Bytes} {last : Message} {key : Option SecretboxKey}
      {peeked : Option Bytes} {left : List Bytes} {c : Conn} :
      Offers proto na client genKey peerId first last key → (∀ p, peeked = some p → p = answer) →
      Talked key [directInitialPublicKeyRequest, last] peeked left rest c →
        ClientEnds proto na client genKey peerId rest (first :: answer :: left) c
  | unanswered {first : Bytes} {c : Conn} :
      Talked none [directInitialPublicKeyRequest, .new] none [] [] c →
        ClientEnds proto na client genKey peerId rest [first] c

theorem Talked.finish_error (h : Talked none said peeked left rest c) (err : HandshakeError)
    {Q : String × String → Conn → Prop} :
    Ends (finishHandshake proto na peerId client genKey (.error err)) Q c := by
  unfold Ends finishHandshake
  dsimp only
  rw [Fallible.wp_bind]
  exact h.sendWithin fun _ _ _ _ => trivial

theorem Talked.finish (h : Talked none said peeked left rest c)
    (hfirst : proto.parseMessage first = some ⟨some (.signedId signed)⟩) (pk : SignPublicKey) :
    Ends (finishHandshake proto na peerId client genKey (decodeIdPk proto na signed pk))
      (fun _ c' => ∃ last key, Offers proto na client genKey peerId first last key ∧
        Talked key (said ++ [last]) peeked left rest c') c := by
  cases hdecode : decodeIdPk proto na signed pk with
  | error err => exact h.finish_error err
  | ok decoded =>
    obtain ⟨id, theirPk⟩ := decoded
    unfold Ends finishHandshake
    dsimp only
    by_cases hid : id = peerId
    · rw [if_pos hid, Fallible.wp_bind]
      refine h.boxSeal fun c₁ h₁ => ?_
      rw [Fallible.wp_bind]
      refine h₁.send fun frame c₂ hframe h₂ => ?_
      rw [Fallible.wp_bind]
      refine h₂.setKey genKey fun c₃ h₃ => ?_
      exact ⟨_, _, .inr ⟨signed, pk, theirPk, hfirst, hid ▸ hdecode, rfl, ⟨frame, hframe⟩, rfl⟩, h₃⟩
    · rw [if_neg hid, Fallible.wp_bind]
      exact h.sendUntimed fun c' hc' => ⟨_, _, .inl ⟨rfl, rfl⟩, hc'⟩

/-- What comes of looking for the server's key. -/
inductive Obtained (proto : Proto) (rest : List Bytes) :
    Option SignPublicKey → List Bytes → Conn → Prop
  | known {pk : SignPublicKey} {left : List Bytes} {c : Conn} :
      Talked none [] none left rest c → Obtained proto rest (some pk) left c
  | answered {given : Option SignPublicKey} {answer : Bytes} {left : List Bytes} {c : Conn} :
      (∀ pk, given = some pk → ∃ key, keyResponse proto answer = some key ∧
        toFixed 32 key = some pk) →
      Talked none [directInitialPublicKeyRequest] (some answer) left rest c →
        Obtained proto rest given (answer :: left) c
  | closed {c : Conn} : rest = [] → Talked none [directInitialPublicKeyRequest] none [] [] c →
      Obtained proto rest none [] c

theorem Talked.getInitialPublicKey (h : Talked none [] none left rest c) (idPk stored : Bytes) :
    Ends (getInitialPublicKeyForHandshake proto box idPk stored)
      (fun given => Obtained proto rest given left) c := by
  unfold Ends getInitialPublicKeyForHandshake
  split
  next pk hpk => exact .known h
  next =>
    split
    next pk hpk => exact .known h
    next =>
      rw [Fallible.wp_bind]
      refine h.send fun _ c₁ _ h₁ => ?_
      rw [Fallible.wp_bind]
      refine h₁.peekWithin (fun _ _ => trivial) (fun c₂ hleft hrest h₂ => ?_)
        fun answer left' c₂ hleft h₂ => ?_
      · subst hleft
        exact .closed hrest h₂
      · subst hleft
        dsimp only
        cases hresponse : keyResponse proto answer with
        | none => exact .answered (fun _ hnone => by cases hnone) h₂
        | some key =>
          dsimp only
          cases hfixed : toFixed 32 key with
          | none => trivial
          | some pk =>
            refine .answered (fun pk' hpk => ?_) h₂
            cases hpk
            exact ⟨key, hresponse, hfixed⟩

/-- The identity could not be verified, and the stream has no key. -/
def Unverified (decoded : Except HandshakeError (String × BoxPublicKey)) (c : Conn) : Prop :=
  ∃ err said peeked left rest, decoded = .error err ∧ Talked none said peeked left rest c

theorem Talked.unverified (h : Talked none said peeked left rest c) (err : HandshakeError) :
    Unverified (.error err) c := ⟨err, said, peeked, left, rest, rfl, h⟩

theorem Unverified.finish {decoded : Except HandshakeError (String × BoxPublicKey)}
    (h : Unverified decoded c) {Q : String × String → Conn → Prop} :
    Ends (finishHandshake proto na peerId client genKey decoded) Q c := by
  obtain ⟨err, said, peeked, left, rest, rfl, hc⟩ := h
  exact hc.finish_error err

/-- The second attempt fails like the first, or decodes under a key that was asked for. -/
theorem Talked.retry (h : Talked none [] none left rest c) (signed : Bytes) (err : HandshakeError) :
    Ends (retryWithPeerKey proto na box signed (.error err))
      (fun decoded c' => Unverified decoded c' ∨ ∃ answer left' fresh, left = answer :: left' ∧
        decoded = decodeIdPk proto na signed fresh ∧
        Talked none [directInitialPublicKeyRequest] none left' rest c') c := by
  unfold Ends retryWithPeerKey
  rw [Fallible.wp_bind]
  refine h.sendWithin fun r c₁ _ h₁ => ?_
  rcases r with _ | sent
  · exact .inl (h₁.unverified err)
  · dsimp only
    rw [Fallible.wp_bind]
    refine h₁.nextWithin (fun c₂ h₂ => .inl (h₂.unverified err))
      (fun c₂ _ _ h₂ => .inl (h₂.unverified err)) fun answer left' c₂ hleft h₂ => ?_
    dsimp only
    cases hresponse : keyResponse proto answer with
    | none => exact .inl (h₂.unverified err)
    | some key =>
      dsimp only
      cases hfixed : toFixed 32 key with
      | none => exact .inl (h₂.unverified err)
      | some fresh => exact .inr ⟨answer, left', fresh, hleft, rfl, h₂⟩

/-- The answer that was peeked at comes again, and the second attempt fails like the first. -/
theorem Talked.retry_peeked {answer key : Bytes} {pk : SignPublicKey} {err : HandshakeError}
    (h : Talked none said (some answer) left rest c)
    (hresponse : keyResponse proto answer = some key) (hfixed : toFixed 32 key = some pk)
    (hdecode : decodeIdPk proto na signed pk = .error err) :
    Ends (retryWithPeerKey proto na box signed (.error err)) Unverified c := by
  unfold Ends retryWithPeerKey
  rw [Fallible.wp_bind]
  refine h.sendWithin fun r c₁ _ h₁ => ?_
  rcases r with _ | sent
  · exact h₁.unverified err
  · dsimp only
    rw [Fallible.wp_bind]
    refine h₁.nextWithin_peeked fun c₂ h₂ => ?_
    dsimp only
    rw [hresponse]
    dsimp only
    rw [hfixed]
    dsimp only
    rw [hdecode]
    exact h₂.unverified err

theorem client_ends {recvs : List (Option Arrival)} {frames : List Bytes}
    (hrecvs : Delivered recvs frames rest) (sends : List (Option (Except IoError Unit)))
    (client : BoxPublicKey × BoxSecretKey) (genKey : SecretboxKey) (peerId : String)
    (idPk stored : Bytes) :
    Ends (secureConnection proto na box client genKey peerId idPk stored)
      (fun _ => ClientEnds proto na client genKey peerId rest frames) (.new recvs sends) := by
  have hstart : Talked none [] none frames rest (.new recvs sends) := ⟨rfl, rfl, hrecvs⟩
  unfold Ends secureConnection
  rw [Fallible.wp_bind]
  refine hstart.nextWithin (fun _ _ => trivial) (fun _ _ _ _ => trivial)
    fun first left c₁ hframes h₁ => ?_
  subst hframes
  dsimp only
  split
  next signed hfirst =>
    rw [Fallible.wp_bind]
    refine Fallible.wp_mono (h₁.getInitialPublicKey idPk stored) (fun given c₂ h₂ => ?_)
      (fun _ _ h => h)
    cases given with
    | none =>
      dsimp only
      rw [Fallible.wp_bind]
      cases h₂ with
      | answered _ h₂ =>
        refine h₂.sendUntimed fun c₃ h₃ => ?_
        refine .twice (.inl ⟨rfl, rfl⟩) (fun p hp => ?_) h₃
        exact (Option.some.inj hp).symm
      | closed _ h₂ => exact h₂.sendUntimed fun c₃ h₃ => .unanswered h₃
    | some pk =>
      dsimp only
      cases hdecode : decodeIdPk proto na signed pk with
      | ok decoded =>
        dsimp only
        rw [Fallible.wp_bind, Fallible.wp_pure, ← hdecode]
        cases h₂ with
        | known h₂ =>
          refine Fallible.wp_mono (h₂.finish hfirst pk) ?_ (fun _ _ h => h)
          rintro _ c₃ ⟨last, key, hoffers, h₃⟩
          exact .once hoffers h₃
        | answered _ h₂ =>
          refine Fallible.wp_mono (h₂.finish hfirst pk) ?_ (fun _ _ h => h)
          rintro _ c₃ ⟨last, key, hoffers, h₃⟩
          refine .twice hoffers (fun p hp => ?_) h₃
          exact (Option.some.inj hp).symm
      | error err =>
        dsimp only
        rw [Fallible.wp_bind]
        cases h₂ with
        | known h₂ =>
          refine Fallible.wp_mono (h₂.retry signed err) ?_ (fun _ _ h => h)
          rintro _ c₃ (hbad | ⟨answer, left', fresh, rfl, rfl, h₃⟩)
          · exact hbad.finish
          · refine Fallible.wp_mono (h₃.finish hfirst fresh) ?_ (fun _ _ h => h)
            rintro _ c₄ ⟨last, key, hoffers, h₄⟩
            exact .twice hoffers (fun _ hp => by cases hp) h₄
        | answered hgiven h₂ =>
          -- the key came in the answer that stands in the peek buffer
          obtain ⟨key, hresponse, hfixed⟩ := hgiven pk rfl
          exact Fallible.wp_mono (h₂.retry_peeked hresponse hfixed hdecode)
            (fun _ _ hbad => hbad.finish) (fun _ _ h => h)
  next =>
    rw [Fallible.wp_bind]
    exact h₁.sendUntimed fun c₂ h₂ => .once (.inl ⟨rfl, rfl⟩) h₂

end Client

/-! ## Both of them -/

namespace Meeting

variable {m : Meeting} {clientRest serverRest : List Bytes}

/-- What the generated code and the primitives promise: what is written is read as it was, a
signature that verifies is on what was signed, and a box is opened by the other party. -/
structure Libraries (m : Meeting) : Prop where
  parse : ∀ msg frame, m.proto.writeMessage msg = some frame → m.proto.parseMessage frame = some msg
  request : ∃ frame, m.proto.writeMessage directInitialPublicKeyRequest = some frame
  new : ∃ frame, m.proto.writeMessage .new = some frame
  idPk : m.proto.parseIdPk ((m.proto.writeIdPk ⟨m.serverId, m.server.1.1⟩).getD []) =
    some ⟨m.serverId, m.server.1.1⟩
  verify : ∀ msg sk pk plain, m.na.verify (m.na.sign msg sk) pk = some plain → plain = msg
  box : ∀ msg nonce, m.na.boxOpen (m.na.boxSeal msg nonce m.server.1 m.client.2) nonce m.client.1
    m.server.2 = some msg
  seals : Seals m.box

/-- Both handshakes come to an end, the server's with a valid key pair. -/
structure Established (m : Meeting) : Prop where
  client : ∃ numbers, m.secureConnection.1 = .ok numbers
  server : ∃ numbers, m.createTcpConnection.1 = .ok numbers
  sk : m.sk.length = 64
  initialPk : m.initialPk.length = 32

/-- Each party gets what the other has put on the wire, up to what is still on the way. -/
structure Honest (m : Meeting) (clientRest serverRest : List Bytes) : Prop where
  toClient : Delivered m.clientRecvs m.serverWrote clientRest
  toServer : Delivered m.serverRecvs m.clientWrote serverRest

theorem ends_of_ok {α : Type} {step : Step α} {Q : α → Conn → Prop} {c : Conn} (h : Ends step Q c)
    (hok : ∃ a, (step c).1 = .ok a) : ∃ a, Q a (step c).2 := by
  obtain ⟨a, ha⟩ := hok
  unfold Ends Fallible.wp at h
  rcases hs : step c with ⟨err | b, c'⟩
  · rw [hs] at ha
    cases ha
  · rw [hs] at h
    exact ⟨b, h⟩

/-- The server's first message. -/
def opening (m : Meeting) (sk : SignSecretKey) : Message :=
  signedIdMessage m.proto m.na m.serverId m.server.1 sk

theorem offers_writes {first : Bytes} {last : Message} {key : Option SecretboxKey}
    (hlib : m.Libraries) (h : Offers m.proto m.na m.client m.genKey m.peerId first last key) :
    ∃ frame, m.proto.writeMessage last = some frame ∧
      isDirectInitialPublicKeyRequest last = false := by
  rcases h with ⟨rfl, rfl⟩ | ⟨signed, pk, theirPk, -, -, rfl, ⟨frame, hframe⟩, rfl⟩
  · obtain ⟨frame, hframe⟩ := hlib.new
    exact ⟨frame, hframe, rfl⟩
  · exact ⟨frame, hframe, rfl⟩

/-- The handshakes as they have gone: the server took the client's last message, and nothing of
either is left on the way. -/
structure Met (m : Meeting) (clientRest serverRest : List Bytes) (sk : SignSecretKey)
    (first : Bytes) (last : Message) (key : Option SecretboxKey) : Prop where
  offers : Offers m.proto m.na m.client m.genKey m.peerId first last key
  first : m.proto.parseMessage first = some (m.opening sk)
  client : ∃ said peeked, Talked key said peeked m.serverSession.wrote clientRest m.clientConn ∧
    ∀ p, peeked = some p → m.proto.parseMessage p = some (keyAnswer m.initialPk)
  server : ∃ said, Talked (installedKey m.na m.server.2 last) said none m.clientSession.wrote
    serverRest m.serverConn

/-- **The handshakes stay in step.** -/
theorem met (hlib : m.Libraries) (hest : m.Established) (hnet : m.Honest clientRest serverRest) :
    ∃ sk first last key, m.Met clientRest serverRest sk first last key := by
  obtain ⟨sk, hsk⟩ : ∃ sk, toFixed 64 m.sk = some sk := ⟨_, dif_pos hest.sk⟩
  obtain ⟨-, hclient⟩ := ends_of_ok (client_ends hnet.toClient m.clientSends m.client m.genKey
    m.peerId m.idPk m.stored) hest.client
  obtain ⟨-, hserver⟩ := ends_of_ok (server_ends hnet.toServer m.serverSends m.server m.serverId hsk
    hest.initialPk) hest.server
  change ClientEnds _ _ _ _ _ _ _ m.clientConn at hclient
  change ServerEnds _ _ _ _ _ _ _ m.serverConn at hserver
  obtain ⟨requestFrame, hrequest⟩ := hlib.request
  -- a frame is parsed as the message that was written
  have hread {msg msg' : Message} {frame frame' : Bytes}
      (hwrite : m.proto.writeMessage msg = some frame) (hframe : frame = frame')
      (hparse : m.proto.parseMessage frame' = some msg') : msg' = msg := by
    rw [← hframe, hlib.parse _ _ hwrite] at hparse
    exact (Option.some.inj hparse).symm
  generalize hsent : m.serverWrote = serverFrames at hclient
  generalize hcame : m.clientWrote = clientFrames at hserver
  cases hclient with
  | once hoffers hc =>
    obtain ⟨lastFrame, hlast, hnot⟩ := offers_writes hlib hoffers
    rw [clientWrote, hc.wrote, List.filterMap_cons_some hlast] at hcame
    cases hserver with
    | once hfirst hno hopened hs =>
      obtain ⟨opened, hopened⟩ := hopened
      obtain ⟨hframe, rfl⟩ := List.cons.inj hcame
      obtain rfl := hread hlast hframe hfirst
      rw [serverWrote, hs.wrote, List.filterMap_cons_some hopened] at hsent
      obtain ⟨rfl, rfl⟩ := List.cons.inj hsent
      exact ⟨sk, _, _, _, hoffers, hlib.parse _ _ hopened,
        ⟨_, _, hc, fun _ hp => by cases hp⟩, _, hs⟩
    | twice hfirst hyes =>
      rw [hread hlast (List.cons.inj hcame).1 hfirst, hnot] at hyes
      cases hyes
  | twice hoffers hpeeked hc =>
    obtain ⟨lastFrame, hlast, hnot⟩ := offers_writes hlib hoffers
    rw [clientWrote, hc.wrote, List.filterMap_cons_some hrequest,
      List.filterMap_cons_some hlast] at hcame
    cases hserver with
    | once hfirst hno =>
      rw [hread hrequest (List.cons.inj hcame).1 hfirst] at hno
      cases hno
    | twice hfirst hyes hsecond hopened hanswered hs =>
      obtain ⟨opened, hopened⟩ := hopened
      obtain ⟨answered, hanswered⟩ := hanswered
      obtain ⟨hframe, rfl⟩ := List.cons.inj (List.cons.inj hcame).2
      obtain rfl := hread hlast hframe hsecond
      rw [serverWrote, hs.wrote, List.filterMap_cons_some hopened,
        List.filterMap_cons_some hanswered] at hsent
      obtain ⟨rfl, htail⟩ := List.cons.inj hsent
      obtain ⟨rfl, rfl⟩ := List.cons.inj htail
      exact ⟨sk, _, _, _, hoffers, hlib.parse _ _ hopened,
        ⟨_, _, hc, fun p hp => hpeeked p hp ▸ hlib.parse _ _ hanswered⟩, _, hs⟩
  | unanswered hc =>
    rw [clientWrote, hc.wrote, List.filterMap_cons_some hrequest] at hcame
    cases hserver with
    | once hfirst hno =>
      rw [hread hrequest (List.cons.inj hcame).1 hfirst] at hno
      cases hno
    | twice hfirst hyes hsecond hopened hanswered hs =>
      obtain ⟨opened, hopened⟩ := hopened
      obtain ⟨answered, hanswered⟩ := hanswered
      rw [serverWrote, hs.wrote, List.filterMap_cons_some hopened,
        List.filterMap_cons_some hanswered] at hsent
      cases (List.cons.inj hsent).2

/-- The key that the client has sealed is the one that the server installs. -/
theorem Met.installedKey {sk : SignSecretKey} {first : Bytes} {last : Message}
    {key : Option SecretboxKey} (h : m.Met clientRest serverRest sk first last key)
    (hlib : m.Libraries) : installedKey m.na m.server.2 last = key := by
  rcases h.offers with ⟨rfl, rfl⟩ | ⟨signed, pk, theirPk, hparse, hdecode, rfl, -, rfl⟩
  · rfl
  · -- the signed id is the server's, whatever key it was verified with
    have hsigned : m.opening sk = ⟨some (.signedId signed)⟩ :=
      Option.some.inj (h.first.symm.trans hparse)
    obtain rfl :
        m.na.sign ((m.proto.writeIdPk ⟨m.serverId, m.server.1.1⟩).getD []) sk = signed := by
      injection hsigned with hunion
      injection hunion with hid
      injection hid
    obtain ⟨plain, hverify, hid⟩ := decodeIdPk_ok hdecode
    rw [hlib.verify _ _ _ _ hverify, hlib.idPk] at hid
    obtain ⟨-, hpk⟩ := IdPk.mk.inj (Option.some.inj hid)
    obtain rfl : m.server.1 = theirPk := Subtype.ext hpk
    have hprocess : processClientPublicKeyMessage m.na m.client.1.1
        (m.na.boxSeal m.genKey.1 zeroNonce m.server.1 m.client.2) m.server.2 =
          .ok (some (m.genKey, computeSecurityCode m.na m.server.2 m.client.1)) := by
      unfold processClientPublicKeyMessage
      rw [toFixed_val]
      dsimp only
      rw [hlib.box]
      dsimp only
      rw [toFixed_val]
    unfold Handshake.installedKey sealedKeyMessage
    dsimp only
    rw [hprocess]

/-- A party has read these messages in order, each as it was sent, and no other. When all that was
written has come in, what is unread stands in the peek buffer. -/
def Hears (S : Session) (msgs rest : List Bytes) : Prop :=
  ∃ taken unread, msgs = taken ++ unread ∧ S.got = taken.map .ok ∧
    (S.conn.recvs = [] → rest = [] → unread = S.conn.stream.peekBuffer.toList)

/-- The two streams have one key or none, and each party hears what the other sends; the client
perhaps first the answer that it has peeked at. -/
structure Agrees (m : Meeting) (clientRest serverRest : List Bytes) : Prop where
  keys : m.clientConn.stream.encrypt.map Encrypt.key = m.serverConn.stream.encrypt.map Encrypt.key
  toServer : Hears m.serverSession m.clientSession.sent serverRest
  toClient : Hears m.clientSession
    (m.clientConn.stream.peekBuffer.toList ++ m.serverSession.sent) clientRest
  peeked : ∀ p, m.clientConn.stream.peekBuffer = some p →
    m.proto.parseMessage p = some (keyAnswer m.initialPk)

/-- A party that begins to use its stream hears what is on the wire. -/
theorem hears_of_talked {key : Option SecretboxKey} {said : List Message} {peeked : Option Bytes}
    {box : Secretbox SecretboxKey} {msgs rest : List Bytes} {c : Conn} (hbox : Seals box)
    (h : Talked key said peeked (framesFrom box (key.map (·, 0)) msgs) rest c) (uses : List Use) :
    Hears ((Session.start c).run box uses) (peeked.toList ++ msgs) rest := by
  have hstart : Session.Reading box (peeked.toList ++ msgs) rest (Session.start c) := by
    obtain ⟨stream, recvs, sends, events⟩ := c
    obtain ⟨rfl, -, hrecvs⟩ := h
    refine ⟨[], msgs, rfl, rfl, ?_⟩
    cases key with
    | none => exact hrecvs
    | some key => exact hrecvs
  obtain ⟨taken, unread, hmsgs, hgot, hrecvs⟩ := Session.run_got hbox uses hstart
  refine ⟨taken, _, hmsgs, hgot, fun hall hrest => ?_⟩
  rw [hall, hrest] at hrecvs
  rw [framesFrom_eq_nil hrecvs.eq_rest, List.append_nil]

/-- What goes out is on the wire, sealed from the first count on. -/
theorem wrote_of_talked {key : Option SecretboxKey} {said : List Message} {peeked : Option Bytes}
    {box : Secretbox SecretboxKey} {left rest : List Bytes} {c : Conn} (hbox : Seals box)
    (h : Talked key said peeked left rest c) {uses : List Use}
    (hord : Orderly c.stream.isSecured (uses.filterMap Use.message?)) :
    ((Session.start c).run box uses).wrote =
      framesFrom box (key.map (·, 0)) ((Session.start c).run box uses).sent := by
  have hcodec : (Session.start c).conn.stream.codec = .new := by
    show c.stream.codec = .new
    rw [h.stream]
  have hwrites : (Session.start c).writes = key.map (·, 0) := by
    show c.stream.encrypt.map (fun e => (e.key, e.encSeq)) = key.map (·, 0)
    rw [h.stream]
    cases key with
    | none => rfl
    | some key => rfl
  obtain ⟨hsent, hwrote⟩ := Session.run_sent hbox hcodec hord
  rw [hsent, hwrote, hwrites]
  rfl

/-- **Both streams have the key or neither, and all that goes out is heard.** -/
theorem agrees (hlib : m.Libraries) (hest : m.Established)
    (hnet : m.Honest clientRest serverRest)
    (hclient : Orderly m.clientConn.stream.isSecured (m.clientUses.filterMap Use.message?))
    (hserver : Orderly m.serverConn.stream.isSecured (m.serverUses.filterMap Use.message?)) :
    m.Agrees clientRest serverRest := by
  obtain ⟨sk, first, last, key, hmet⟩ := met hlib hest hnet
  have hkey := hmet.installedKey hlib
  obtain ⟨saidc, peeked, hc, hpeeked⟩ := hmet.client
  obtain ⟨saids, hs⟩ := hmet.server
  rw [hkey] at hs
  have hpeek : m.clientConn.stream.peekBuffer = peeked := by rw [hc.stream]
  have hcwrote := wrote_of_talked hlib.seals hc hclient
  have hswrote := wrote_of_talked hlib.seals hs hserver
  refine ⟨?_, ?_, ?_, ?_⟩
  · rw [hc.stream, hs.stream]
  · have hheard := hears_of_talked hlib.seals (hcwrote ▸ hs) m.serverUses
    exact hheard
  · rw [hpeek]
    exact hears_of_talked hlib.seals (hswrote ▸ hc) m.clientUses
  · rw [hpeek]
    exact hpeeked

/-! ## Two meetings

A codec of one tag byte, and a box that puts the first 16 bytes of the nonce before the message. -/

def taggedProto : Proto where
  parseMessage
    | [] => some .new
    | 0 :: signed => some ⟨some (.signedId signed)⟩
    | 1 :: key => some (keyAnswer key)
    | 2 :: _ => some directInitialPublicKeyRequest
    | 3 :: keys =>
      if 32 ≤ keys.length then some ⟨some (.publicKey (keys.take 32) (keys.drop 32))⟩ else none
    | _ => none
  writeMessage msg :=
    match msg.union with
    | none => some []
    | some (.signedId signed) => some (0 :: signed)
    | some (.misc (some (.unauthenticatedInitialPublicKeyResponse key))) => some (1 :: key)
    | some (.misc (some (.chatMessage text))) => if text = requestTag then some [2] else none
    | some (.publicKey asymmetricValue symmetricValue) =>
      if asymmetricValue.length = 32 then some (3 :: (asymmetricValue ++ symmetricValue)) else none
    | _ => none
  parseIdPk
    | 49 :: pk => some ⟨"1", pk⟩
    | _ => none
  writeIdPk idPk := some (49 :: idPk.pk)

def noncedBox : Secretbox SecretboxKey where
  sealWith msg nonce _ := nonce.take 16 ++ msg
  openWith frame nonce _ :=
    if frame.take 16 = nonce.take 16 then some (frame.drop 16) else none

theorem taggedProto_parse {msg : Message} {frame : Bytes}
    (h : taggedProto.writeMessage msg = some frame) :
    taggedProto.parseMessage frame = some msg := by
  rcases msg with ⟨_ | signed | ⟨asymmetricValue, symmetricValue⟩ | (_ | text | key | _) | _⟩
  · cases h
    rfl
  · cases h
    rfl
  · obtain ⟨hlength, hframe⟩ := Option.ite_none_right_eq_some.mp h
    obtain rfl := Option.some.inj hframe
    have hlong : 32 ≤ (asymmetricValue ++ symmetricValue).length := by
      rw [List.length_append, hlength]
      omega
    show (if 32 ≤ (asymmetricValue ++ symmetricValue).length then _ else _) = _
    rw [if_pos hlong, List.take_left' hlength, List.drop_left' hlength]
  · cases h
  · obtain ⟨rfl, hframe⟩ := Option.ite_none_right_eq_some.mp h
    obtain rfl := Option.some.inj hframe
    rfl
  · cases h
    rfl
  · cases h
  · cases h

theorem seals_noncedBox : Seals noncedBox := by
  have hlength (n : UInt64) : ((getNonce n).take 16).length = 16 := by
    rw [List.length_take]
    rfl
  constructor
  · intro key n msg
    show ((getNonce n).take 16 ++ msg).length = msg.length + 16
    rw [List.length_append, hlength, Nat.add_comm]
  · intro key n msg
    show (if ((getNonce n).take 16 ++ msg).take 16 = (getNonce n).take 16 then
      some (((getNonce n).take 16 ++ msg).drop 16) else none) = some msg
    rw [List.take_left' (hlength n), List.drop_left' (hlength n), if_pos rfl]

/-- A client that does not know the server's key. The server gets these frames behind the client's
handshake. -/
def demo (clientUses : List Use) (serverFrames : List Bytes) (serverUses : List Use) : Meeting where
  proto := taggedProto
  na := demoSodium
  box := noncedBox
  peerId := "1"
  idPk := []
  stored := []
  client := (demoKey 7, demoKey 8)
  genKey := demoKey 9
  clientRecvs := [some (some (.ok (demoSignedId (demoKey 1) (demoKey 3)))),
    some (some (.ok (1 :: (demoKey 1).1)))]
  clientSends := [some (.ok ()), some (.ok ())]
  clientUses
  serverId := "1"
  sk := (demoKey 1).1 ++ (demoKey 2).1
  initialPk := (demoKey 1).1
  server := (demoKey 3, demoKey 4)
  serverRecvs := [[2], 3 :: ((demoKey 7).1 ++ (demoKey 9).1)] ++ serverFrames |>.map fun frame =>
    some (some (.ok frame))
  serverSends := [some (.ok ()), some (.ok ())]
  serverUses

theorem libraries_demo (clientUses : List Use) (serverFrames : List Bytes) (serverUses : List Use) :
    (demo clientUses serverFrames serverUses).Libraries where
  parse _ _ := taggedProto_parse
  request := ⟨_, rfl⟩
  new := ⟨_, rfl⟩
  idPk := rfl
  verify msg sk pk plain h := by
    have hlength : (sk.1.take 32).length = 32 := by
      rw [List.length_take, sk.2]
      rfl
    obtain ⟨-, hplain⟩ := Option.ite_none_right_eq_some.mp h
    rw [← Option.some.inj hplain]
    exact List.drop_left' hlength
  box _ _ := rfl
  seals := seals_noncedBox

theorem established_demo (clientUses : List Use) (serverFrames : List Bytes)
    (serverUses : List Use) : (demo clientUses serverFrames serverUses).Established where
  client := ⟨_, rfl⟩
  server := ⟨_, rfl⟩
  sk := rfl
  initialPk := rfl

/-- The client's message arrives behind the handshake. -/
theorem agrees_demo :
    (demo [.send [5]] [noncedBox.sealWith [5] (getNonce 1) (demoKey 9)] [.next]).Agrees [] [] := by
  refine agrees (libraries_demo _ _ _) (established_demo _ _ _) ⟨?_, ?_⟩ ?_ ?_
  · exact .frame _ (.frame _ (.nothing _))
  · exact .frame _ (.frame _ (.frame _ (.nothing _)))
  · exact fun _ => List.pairwise_singleton _ _
  · exact fun _ => List.Pairwise.nil

/-- The client sends a message that is too long for a frame, and a short one behind it. -/
def spoiled : Meeting :=
  demo [.send (List.replicate 0x40000000 0), .send [5]]
    [noncedBox.sealWith [5] (getNonce 2) (demoKey 9)] [.next]

/-- A message that is refused spoils those behind it. -/
theorem not_agrees : ¬ ∀ (m : Meeting) (clientRest serverRest : List Bytes), m.Libraries →
    m.Established → m.Honest clientRest serverRest → m.Agrees clientRest serverRest := by
  intro hall
  have hlong : refused true (List.replicate 0x40000000 0) = true := by
    unfold refused
    rw [List.length_replicate]
    rfl
  obtain ⟨-, hwrote⟩ : spoiled.clientSession.sent = [[5]] ∧
      spoiled.clientSession.wrote = [noncedBox.sealWith [5] (getNonce 2) (demoKey 9)] :=
    Session.run_spoiled seals_noncedBox (n := 0) rfl rfl hlong rfl
  have hnet : spoiled.Honest [] [] := by
    have hframes : spoiled.clientWrote = [[2], 3 :: ((demoKey 7).1 ++ (demoKey 9).1),
        noncedBox.sealWith [5] (getNonce 2) (demoKey 9)] := by
      rw [clientWrote, hwrote]
      rfl
    refine ⟨.frame _ (.frame _ (.nothing _)), ?_⟩
    rw [hframes]
    exact .frame _ (.frame _ (.frame _ (.nothing _)))
  have hrefused : spoiled.serverSession.got = [.error ⟨.other, "decryption error"⟩] := rfl
  obtain ⟨taken, unread, -, hgot, -⟩ :=
    (hall spoiled [] [] (libraries_demo _ _ _) (established_demo _ _ _) hnet).toServer
  rw [hrefused] at hgot
  cases taken with
  | nil => cases hgot
  | cons msg taken => cases (List.cons.inj hgot).1

end Meeting

end HopToDesk.Handshake
