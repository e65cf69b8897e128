import HopToDesk.Handshake.Session

/-!
# The client's handshake, and who its key is sealed to

The client holds a signing key `pk` for the peer. What the other end of the stream sends is
arbitrary, except that it does not forge: a signed id that arrives and verifies under `pk` was
signed by the holder of `pk`'s secret key (`Signed`).

Each operation on the stream has its rule (`wp_sendWithin`, `wp_nextWithin`), the steps of the
handshake have theirs, and `secureConnection_authentic` puts them together: when the stream ends up
secured, the session key was sealed to a box key that the holder of `pk` signed with this peer id,
or else the signed id failed under `pk` and passed under a key the other end then sent.
-/

set_option autoImplicit false

namespace HopToDesk.Handshake

open Kit HopToDesk.Wire

variable {proto : Proto} {na : Sodium} {box : Secretbox SecretboxKey}

/-! ## The stream's operations, before there is a key -/

namespace Conn

variable {α : Type} {c : Conn} {E : HandshakeError → Conn → Prop}

/-- What a message put on the wire leaves behind. -/
def afterSend (c : Conn) (msg : Message) : Conn :=
  { c with sends := c.sends.tail, events := c.events ++ [.sent msg] }

/-- What waiting for a frame leaves behind, besides the frame. -/
def afterWait (c : Conn) : Conn := { c with recvs := c.recvs.tail }

/-- A frame taken from the transport. -/
def afterTake (c : Conn) (frame : Bytes) : Conn :=
  { c with recvs := c.recvs.tail, events := c.events ++ [.took frame] }

theorem wp_sendWithin (h : c.stream.encrypt = none) (msg : Message)
    {Q : Option (Except IoError Unit) → Conn → Prop} (hQ : ∀ r, Q r (c.afterSend msg)) :
    Fallible.wp (sendWithin proto msg) Q E c := by
  have plain (bytes : Bytes) : (c.stream.sendRaw bytes).1 = c.stream := by
    unfold FramedStream.sendRaw
    rw [h]
  unfold Fallible.wp sendWithin sendOutcome
  cases hs : c.sends.head?.join with
  | none => exact hQ none
  | some res =>
    cases hw : proto.writeMessage msg with
    | none => exact hQ _
    | some bytes =>
      simp only [plain]
      exact hQ (some res)

theorem wp_send (h : c.stream.encrypt = none) (msg : Message) {Q : Unit → Conn → Prop}
    (hQ : Q () (c.afterSend msg)) (hE : ∀ e, E e (c.afterSend msg)) :
    Fallible.wp (send proto msg) Q E c := by
  unfold send
  rw [Fallible.wp_bind]
  refine wp_sendWithin h msg ?_
  rintro (_ | err | u)
  · exact hE _
  · exact hE _
  · exact hQ

theorem wp_sendUntimed (h : c.stream.encrypt = none) (msg : Message) {Q : Unit → Conn → Prop}
    (hQ : Q () (c.afterSend msg)) (hE : ∀ e, E e (c.afterSend msg)) :
    Fallible.wp (sendUntimed proto msg) Q E c := by
  unfold sendUntimed
  rw [Fallible.wp_bind]
  refine wp_sendWithin h msg ?_
  rintro (_ | err | u)
  · exact hQ
  · exact hE _
  · exact hQ

/-- A stream without a key, and with no frame put aside, gives what arrives. -/
theorem next_unencrypted (h : c.stream.encrypt = none) (hb : c.stream.peekBuffer = none)
    (res : Arrival) : c.stream.next box res = (c.stream, res) := by
  unfold FramedStream.next FramedStream.next_
  rw [hb, h]
  rcases res with _ | _ | _ <;> rfl

/-- Waiting for a frame gives none, or an error or the end of the stream, or a frame that the
transport had to offer. -/
theorem wp_nextWithin (h : c.stream.encrypt = none) (hb : c.stream.peekBuffer = none)
    {Q : Option Arrival → Conn → Prop}
    (hnone : Q none c.afterWait)
    (hother : ∀ given : Arrival, (∀ frame, given ≠ some (.ok frame)) → Q (some given) c.afterWait)
    (hframe : ∀ frame, some (some (.ok frame)) ∈ c.recvs →
      Q (some (some (.ok frame))) (c.afterTake frame)) :
    Fallible.wp (nextWithin box) Q E c := by
  unfold Fallible.wp nextWithin
  simp only [hb]
  cases hr : c.recvs.head?.join with
  | none => exact hnone
  | some res =>
    simp only [next_unencrypted h hb]
    have hmem : some res ∈ c.recvs := by
      rw [Option.join_eq_some_iff] at hr
      exact List.mem_of_head? hr
    rcases res with _ | err | frame
    · exact hother none (by intro frame hf; cases hf)
    · exact hother _ (by intro frame hf; cases hf)
    · exact hframe frame hmem

end Conn

/-! ## The handshake's steps -/

/-- The key the client holds for the peer: the signal server's, or else the stored one. -/
def knownPk (idPk stored : Bytes) : Option SignPublicKey :=
  match toFixed 32 idPk with
  | some pk => some pk
  | none => toFixed 32 stored

/-- With a key at hand, no one is asked for one. -/
theorem getInitialPublicKey_known {idPk stored : Bytes} {pk : SignPublicKey}
    (h : knownPk idPk stored = some pk) :
    getInitialPublicKeyForHandshake proto box idPk stored = pure (some pk) := by
  unfold getInitialPublicKeyForHandshake
  unfold knownPk at h
  cases hi : toFixed 32 idPk with
  | some pk' =>
    rw [hi] at h
    cases h
    rfl
  | none =>
    rw [hi] at h
    simp only at h
    simp only [h]

/-- A decoded id and box key stood under a signature that verified. -/
theorem decodeIdPk_ok {signed : Bytes} {key : SignPublicKey} {id : String} {pk : BoxPublicKey}
    (h : decodeIdPk proto na signed key = .ok (id, pk)) :
    ∃ plain, na.verify signed key = some plain ∧ proto.parseIdPk plain = some ⟨id, pk.1⟩ := by
  unfold decodeIdPk at h
  cases hv : na.verify signed key with
  | none => simp [hv] at h
  | some plain =>
    cases hp : proto.parseIdPk plain with
    | none => simp [hv, hp] at h
    | some res =>
      simp only [hv, hp] at h
      unfold toFixed at h
      by_cases hl : res.pk.length = 32
      · simp only [dif_pos hl, Except.ok.injEq, Prod.mk.injEq] at h
        obtain ⟨rfl, rfl⟩ := h
        exact ⟨plain, rfl, hp⟩
      · simp [dif_neg hl] at h

/-- What a step did to a stream without a key: added events, and left the key and the buffer
empty. -/
structure Quiet (c c' : Conn) (events : List Event) : Prop where
  encrypt : c'.stream.encrypt = none
  events : c'.events = c.events ++ events

/-- The second attempt gives what the first gave, or what the signed id decodes to under a key that
arrived in answer to the request. -/
theorem retryWithPeerKey_spec {c : Conn} (h : c.stream.encrypt = none)
    (hb : c.stream.peekBuffer = none) (signed : Bytes)
    (decoded : Except HandshakeError (String × BoxPublicKey)) :
    Fallible.wp (retryWithPeerKey proto na box signed decoded)
      (fun r c' => ∃ events, Quiet c c' events ∧
        events.filterMap Event.boxSeal? = [] ∧
        (r = decoded ∨ ∃ frame fresh,
          events = [.sent directInitialPublicKeyRequest, .took frame] ∧
          keyResponse proto frame = some fresh.1 ∧ r = decodeIdPk proto na signed fresh))
      (fun _ _ => False) c := by
  unfold retryWithPeerKey
  rw [Fallible.wp_bind]
  refine Conn.wp_sendWithin h _ ?_
  have sentOnly : Quiet c (c.afterSend directInitialPublicKeyRequest)
      [.sent directInitialPublicKeyRequest] := ⟨h, rfl⟩
  rintro (_ | res)
  · exact ⟨_, sentOnly, rfl, .inl rfl⟩
  · dsimp only
    rw [Fallible.wp_bind]
    apply Conn.wp_nextWithin (c := c.afterSend directInitialPublicKeyRequest) h hb
    · exact ⟨_, ⟨h, rfl⟩, rfl, .inl rfl⟩
    · intro given hg
      rcases given with _ | err | frame
      · exact ⟨_, ⟨h, rfl⟩, rfl, .inl rfl⟩
      · exact ⟨_, ⟨h, rfl⟩, rfl, .inl rfl⟩
      · exact absurd rfl (hg frame)
    · intro frame _
      have took : Quiet c ((c.afterSend directInitialPublicKeyRequest).afterTake frame)
          [.sent directInitialPublicKeyRequest, .took frame] :=
        ⟨h, List.append_assoc _ _ _⟩
      dsimp only
      cases hk : keyResponse proto frame with
      | none => exact ⟨_, took, rfl, .inl rfl⟩
      | some key =>
        dsimp only
        cases hf : toFixed 32 key with
        | none => exact ⟨_, took, rfl, .inl rfl⟩
        | some fresh =>
          have hkey : key = fresh.1 := by
            unfold toFixed at hf
            split_ifs at hf
            cases hf
            rfl
          exact ⟨_, took, rfl, .inr ⟨frame, fresh, rfl, hkey ▸ hk, rfl⟩⟩

/-- The message that carries the session key. -/
def sealedKeyMessage (na : Sodium) (pair : BoxPublicKey × BoxSecretKey) (theirPk : BoxPublicKey)
    (genKey : SecretboxKey) : Message :=
  ⟨some (.publicKey pair.1.1 (na.boxSeal genKey.1 zeroNonce theirPk pair.2))⟩

/-- The rest of the handshake installs a key only for an id that decoded to the peer's own, after
sealing that key to the box key beside it. -/
theorem finishHandshake_spec {c : Conn} (h : c.stream.encrypt = none) (peerId : String)
    (pair : BoxPublicKey × BoxSecretKey) (genKey : SecretboxKey)
    (decoded : Except HandshakeError (String × BoxPublicKey)) :
    Fallible.wp (finishHandshake proto na peerId pair genKey decoded)
      (fun _ c' => c'.stream.isSecured = true →
        ∃ theirPk, decoded = .ok (peerId, theirPk) ∧
          c'.stream.encrypt = some (.new genKey) ∧
          c'.events = c.events ++
            [.boxSealed genKey.1 zeroNonce theirPk pair.2,
              .sent (sealedKeyMessage na pair theirPk genKey), .keySet genKey])
      (fun _ c' => c'.stream.encrypt = none) c := by
  unfold finishHandshake
  rcases decoded with err | ⟨id, theirPk⟩
  · dsimp only
    rw [Fallible.wp_bind]
    refine Conn.wp_sendWithin h _ ?_
    intro _
    exact h
  · dsimp only
    by_cases hid : id = peerId
    · subst hid
      rw [if_pos rfl]
      unfold Conn.boxSeal Conn.record
      simp only [Fallible.wp_bind, Fallible.wp_modify, Fallible.wp_pure]
      apply Conn.wp_send
      · exact h
      · unfold Conn.setKey
        rw [Fallible.wp_bind, Fallible.wp_modify]
        intro _
        refine ⟨theirPk, rfl, rfl, ?_⟩
        simp only [Conn.afterSend, List.append_assoc, List.cons_append, List.nil_append]
        rfl
      · intro _
        exact h
    · rw [if_neg hid, Fallible.wp_bind]
      refine Conn.wp_sendUntimed h _ ?_ ?_
      · intro hs
        simp [Conn.afterSend, FramedStream.isSecured, h] at hs
      · intro _
        exact h

/-! ## The handshake -/

/-- What arrives does not carry a signature under `pk` on anything its holder did not sign. -/
def NotForged (proto : Proto) (na : Sodium) (pk : SignPublicKey) (Signed : Bytes → Prop)
    (recvs : List (Option Arrival)) : Prop :=
  ∀ frame, some (some (.ok frame)) ∈ recvs →
    ∀ signed, proto.parseMessage frame = some ⟨some (.signedId signed)⟩ →
      ∀ plain, na.verify signed pk = some plain → Signed plain

/-- The holder of the key signed this id together with this box key. -/
def SignedWith (proto : Proto) (Signed : Bytes → Prop) (peerId : String) (theirPk : BoxPublicKey) :
    Prop :=
  ∃ plain, Signed plain ∧ proto.parseIdPk plain = some ⟨peerId, theirPk.1⟩

/-- The signed id did not decode under the key the client held; the client asked the other end for
its key, and the signed id decoded under the one that came back. -/
def ByPeerKey (proto : Proto) (na : Sodium) (pk : SignPublicKey) (peerId : String)
    (theirPk : BoxPublicKey) (events : List Event) : Prop :=
  ∃ first signed second fresh,
    [.took first, .sent directInitialPublicKeyRequest, .took second] <+: events ∧
    proto.parseMessage first = some ⟨some (.signedId signed)⟩ ∧
    (∃ err, decodeIdPk proto na signed pk = .error err) ∧
    keyResponse proto second = some fresh.1 ∧
    decodeIdPk proto na signed fresh = .ok (peerId, theirPk)

/-- A secured stream has the fresh key, sealed once, to a box key that can be accounted for. -/
def Authentic (proto : Proto) (na : Sodium) (pk : SignPublicKey) (Signed : Bytes → Prop)
    (peerId : String) (genKey : SecretboxKey) (c : Conn) : Prop :=
  c.stream.isSecured = true →
    c.stream.encrypt = some (.new genKey) ∧
    ∃ theirPk, c.events.filterMap Event.boxSeal? = [(genKey.1, theirPk)] ∧
      (SignedWith proto Signed peerId theirPk ∨ ByPeerKey proto na pk peerId theirPk c.events)

theorem Authentic.of_plain {pk : SignPublicKey} {Signed : Bytes → Prop} {peerId : String}
    {genKey : SecretboxKey} {c : Conn} (h : c.stream.encrypt = none) :
    Authentic proto na pk Signed peerId genKey c := by
  intro hs
  rw [FramedStream.isSecured, h] at hs
  exact nomatch hs

/-- **Who the session key is sealed to.** Whatever the other end sends, short of forging, when the
client's stream ends up secured its key is the fresh session key, sealed once, to a box key that
the holder of `pk` signed together with this peer id; or else the signed id did not decode under
`pk`, and decoded under a key the other end supplied when it was asked for one. -/
theorem secureConnection_authentic {idPk stored : Bytes} {pk : SignPublicKey}
    (hknown : knownPk idPk stored = some pk) {Signed : Bytes → Prop}
    {recvs : List (Option Arrival)} (hforge : NotForged proto na pk Signed recvs)
    (sends : List (Option (Except IoError Unit))) (peerId : String)
    (pair : BoxPublicKey × BoxSecretKey) (genKey : SecretboxKey) :
    Authentic proto na pk Signed peerId genKey
      (secureConnection proto na box pair genKey peerId idPk stored (.new recvs sends)).2 := by
  have hwp : Fallible.wp
      (secureConnection proto na box pair genKey peerId idPk stored)
      (fun _ => Authentic proto na pk Signed peerId genKey)
      (fun _ => Authentic proto na pk Signed peerId genKey) (.new recvs sends) := by
    unfold secureConnection
    rw [Fallible.wp_bind]
    apply Conn.wp_nextWithin rfl rfl
    · exact Authentic.of_plain rfl
    · intro given hg
      rcases given with _ | err | frame
      · exact Authentic.of_plain rfl
      · exact Authentic.of_plain rfl
      · exact absurd rfl (hg frame)
    · intro first hfirst
      dsimp only
      split
      · rename_i signed hsigned
        rw [getInitialPublicKey_known hknown, Fallible.wp_bind, Fallible.wp_pure]
        dsimp only
        cases hd : decodeIdPk proto na signed pk with
        | ok idPk =>
          dsimp only
          rw [Fallible.wp_bind, Fallible.wp_pure]
          refine Fallible.wp_mono (finishHandshake_spec rfl peerId pair genKey _) ?_ ?_
          · rintro _ c' hspec hs
            obtain ⟨theirPk, hok, henc, hev⟩ := hspec hs
            refine ⟨henc, theirPk, by rw [hev]; rfl, .inl ?_⟩
            obtain rfl : idPk = (peerId, theirPk) := Except.ok.inj hok
            obtain ⟨plain, hverify, hparse⟩ := decodeIdPk_ok hd
            exact ⟨plain, hforge first hfirst signed hsigned plain hverify, hparse⟩
          · intro _ c' hnone
            exact Authentic.of_plain hnone
        | error err =>
          dsimp only
          rw [Fallible.wp_bind]
          refine Fallible.wp_mono (retryWithPeerKey_spec rfl rfl signed _) ?_ ?_
          · rintro r c' ⟨events, hquiet, hseals, hr⟩
            refine Fallible.wp_mono (finishHandshake_spec hquiet.encrypt peerId pair genKey _) ?_ ?_
            · rintro _ c'' hspec hs
              obtain ⟨theirPk, hok, henc, hev⟩ := hspec hs
              rcases hr with rfl | ⟨second, fresh, rfl, hkey, rfl⟩
              · exact nomatch hok
              · rw [hquiet.events, List.append_assoc] at hev
                refine ⟨henc, theirPk, by rw [hev]; rfl, .inr ?_⟩
                exact ⟨first, signed, second, fresh, by rw [hev]; exact ⟨_, rfl⟩, hsigned,
                  ⟨err, hd⟩, hkey, hok⟩
            · intro _ c'' hnone
              exact Authentic.of_plain hnone
          · exact fun _ _ h => h.elim
      · rw [Fallible.wp_bind]
        apply Conn.wp_sendUntimed rfl
        · exact Authentic.of_plain rfl
        · intro _
          exact Authentic.of_plain rfl
  exact Fallible.wp_state.mp hwp

/-! ## Two runs

A codec of one tag byte, signatures that carry their key in front, and boxes that hide nothing: what
they accept is what the real ones accept on the frames below. -/

def demoProto : Proto where
  parseMessage
    | 0 :: signed => some ⟨some (.signedId signed)⟩
    | 1 :: key => some ⟨some (.misc (some (.unauthenticatedInitialPublicKeyResponse key)))⟩
    | _ => none
  writeMessage _ := some []
  parseIdPk
    | 49 :: pk => some ⟨"1", pk⟩
    | _ => none
  writeIdPk idPk := some (49 :: idPk.pk)

def demoSodium : Sodium where
  sign msg sk := sk.1.take 32 ++ msg
  verify signed key := if signed.take 32 = key.1 then some (signed.drop 32) else none
  boxSeal plain _ _ _ := plain
  boxOpen sealedBox _ _ _ := some sealedBox
  diffieHellman sk _ := sk

/-- Thirty-two equal bytes. -/
def demoKey (b : UInt8) : Fixed 32 := ⟨List.replicate 32 b, rfl⟩

/-- A signed id for the peer "1" with a box key, under a signing key. -/
def demoSignedId (signPk boxPk : Fixed 32) : Bytes := 0 :: (signPk.1 ++ 49 :: boxPk.1)

def demoBox : Secretbox SecretboxKey where
  sealWith msg nonce key := SecretBox.transparent.sealWith msg nonce key.1
  openWith frame nonce key := SecretBox.transparent.openWith frame nonce key.1

/-- A client that holds the key of ones for the peer "1" runs the handshake. -/
def demoRun (recvs : List (Option Arrival)) : Conn :=
  (secureConnection demoProto demoSodium demoBox (demoKey 7, demoKey 8) (demoKey 9) "1"
    (demoKey 1).1 [] (.new recvs [some (.ok ()), some (.ok ())])).2

/-- The holder's signed id. -/
def honestRecvs : List (Option Arrival) := [some (some (.ok (demoSignedId (demoKey 1) (demoKey 3))))]

/-- A signed id under another key, and that key in answer to the request. -/
def attackRecvs : List (Option Arrival) :=
  [some (some (.ok (demoSignedId (demoKey 2) (demoKey 4)))),
    some (some (.ok (1 :: (demoKey 2).1)))]

/-- The holder's signed id, and what its holder signed: the key is sealed to the box key in it. -/
theorem secureConnection_authentic_honest :
    (demoRun honestRecvs).stream.isSecured = true ∧
      Authentic demoProto demoSodium (demoKey 1) (· = 49 :: (demoKey 3).1) "1" (demoKey 9)
        (demoRun honestRecvs) := by
  have hforge : NotForged demoProto demoSodium (demoKey 1) (· = 49 :: (demoKey 3).1)
      honestRecvs := by
    intro frame hframe signed hsigned plain hplain
    simp only [honestRecvs, List.mem_singleton, Option.some.injEq, Except.ok.injEq] at hframe
    subst hframe
    obtain rfl : (demoKey 1).1 ++ 49 :: (demoKey 3).1 = signed := by
      simpa [demoProto, demoSignedId] using hsigned
    exact (Option.some.inj hplain).symm
  exact ⟨by decide, secureConnection_authentic (by decide) hforge _ "1" (demoKey 7, demoKey 8)
    (demoKey 9)⟩

/-- The other end replaces the key the client holds. Its signed id is under a key of its own, which
it sends when asked; the holder of the client's key has signed nothing, and the stream is secured,
with the session key sealed to the other end's box key. -/
theorem secureConnection_not_authentic :
    knownPk (demoKey 1).1 [] = some (demoKey 1) ∧
      NotForged demoProto demoSodium (demoKey 1) (fun _ => False) attackRecvs ∧
      (demoRun attackRecvs).stream.isSecured = true ∧
      (demoRun attackRecvs).events.filterMap Event.boxSeal? = [((demoKey 9).1, demoKey 4)] ∧
      ∀ theirPk, ¬ SignedWith demoProto (fun _ => False) "1" theirPk := by
  refine ⟨by decide, ?_, by decide, by decide, ?_⟩
  · intro frame hframe signed hsigned plain hplain
    simp only [attackRecvs, List.mem_cons, List.not_mem_nil, or_false, Option.some.injEq,
      Except.ok.injEq] at hframe
    rcases hframe with rfl | rfl
    · obtain rfl : (demoKey 2).1 ++ 49 :: (demoKey 4).1 = signed := by
        simpa [demoProto, demoSignedId] using hsigned
      have hnone : none = some plain := hplain
      cases hnone
    · simp [demoProto] at hsigned
  · rintro theirPk ⟨plain, hfalse, -⟩
    exact hfalse

end HopToDesk.Handshake

/-!
## The handshake, both sides of it

When the two parties' messages are delivered as they are, both install the client's fresh key
(`handshake_agrees`): the two streams are then the ones `Wire.Channel` starts from. And whatever
arrives, a key the server installs came out of a box it opened
(`processClientPublicKeyMessage_key`).
-/

namespace HopToDesk.Handshake

open Kit HopToDesk.Wire

variable {proto : Proto} {na : Sodium} {box : Secretbox SecretboxKey}

theorem toFixed_val {n : Nat} (b : Fixed n) : toFixed n b.1 = some b := dif_pos b.2

/-- The keys of the two parties fit: the server's signatures verify under the key the client holds,
what the client seals to the server's box key the server opens, and both agree on a shared
secret. -/
structure KeysFit (na : Sodium) (pk : SignPublicKey) (sk : SignSecretKey)
    (server client : BoxPublicKey × BoxSecretKey) : Prop where
  sign : ∀ msg, na.verify (na.sign msg sk) pk = some msg
  box : ∀ msg nonce, na.boxOpen (na.boxSeal msg nonce server.1 client.2) nonce client.1 server.2 =
    some msg
  agree : na.diffieHellman client.2 server.1 = na.diffieHellman server.2 client.1

/-- A frame carries a message when it is what the message is written as, and is read back as it. -/
def Carries (proto : Proto) (frame : Bytes) (msg : Message) : Prop :=
  proto.writeMessage msg = some frame ∧ proto.parseMessage frame = some msg

/-- One frame to come, and a send that goes through. -/
def oneFrame (frame : Bytes) : Conn := .new [some (some (.ok frame))] [some (.ok ())]

/-- A frame that is there is taken. -/
theorem nextWithin_frame (frame : Bytes) (recvs : List (Option Arrival))
    (sends : List (Option (Except IoError Unit))) (events : List Event) :
    Conn.nextWithin box ⟨.new, some (some (.ok frame)) :: recvs, sends, events⟩ =
      (.ok (some (some (.ok frame))), ⟨.new, recvs, sends, events ++ [.took frame]⟩) := rfl

/-- A message that can be written, and whose send goes through, is sent. -/
theorem send_goes {msg : Message} {frame : Bytes} (h : proto.writeMessage msg = some frame)
    (recvs : List (Option Arrival)) (sends : List (Option (Except IoError Unit)))
    (events : List Event) :
    Conn.send proto msg ⟨.new, recvs, some (.ok ()) :: sends, events⟩ =
      (.ok (), ⟨.new, recvs, sends, events ++ [.sent msg]⟩) := by
  have hsend : Conn.sendWithin proto msg ⟨.new, recvs, some (.ok ()) :: sends, events⟩ =
      (.ok (some (.ok ())), ⟨.new, recvs, sends, events ++ [.sent msg]⟩) := by
    unfold Conn.sendWithin Conn.sendOutcome
    simp only [h]
    rfl
  exact Fallible.bind_of_eq hsend _

theorem nextMessage_frame {frame : Bytes} {msg : Message}
    (h : proto.parseMessage frame = some msg) (recvs : List (Option Arrival))
    (sends : List (Option (Except IoError Unit))) (events : List Event) :
    nextMessageForHandshake proto box ⟨.new, some (some (.ok frame)) :: recvs, sends, events⟩ =
      (.ok msg, ⟨.new, recvs, sends, events ++ [.took frame]⟩) := by
  unfold nextMessageForHandshake
  rw [Fallible.bind_of_eq (nextWithin_frame frame recvs sends events)]
  simp only [h]
  rfl

/-- The client's side of `handshake_agrees`. -/
theorem client_installs {pk : SignPublicKey} {sk : SignSecretKey}
    {server client : BoxPublicKey × BoxSecretKey} (hkeys : KeysFit na pk sk server client)
    {peerId : String} {idPkBytes : Bytes}
    (hwrite : proto.writeIdPk ⟨peerId, server.1.1⟩ = some idPkBytes)
    (hread : proto.parseIdPk idPkBytes = some ⟨peerId, server.1.1⟩)
    (genKey : SecretboxKey) {stored idFrame keyFrame : Bytes}
    (hid : Carries proto idFrame (signedIdMessage proto na peerId server.1 sk))
    (hkey : Carries proto keyFrame
      ⟨some (.publicKey client.1.1 (na.boxSeal genKey.1 zeroNonce server.1 client.2))⟩) :
    Fallible.wp (secureConnection proto na box client genKey peerId pk.1 stored)
      (fun r c => r = (computeSecurityCode na client.2 server.1, "") ∧
        c.stream = FramedStream.new.setKey genKey)
      (fun _ _ => False) (oneFrame idFrame) := by
  have hdecode : decodeIdPk proto na (na.sign idPkBytes sk) pk = .ok (peerId, server.1) := by
    simp only [decodeIdPk, hkeys.sign, hread, toFixed_val]
  have hparse : proto.parseMessage idFrame = some ⟨some (.signedId (na.sign idPkBytes sk))⟩ := by
    rw [hid.2, signedIdMessage, hwrite]
    rfl
  unfold secureConnection
  rw [Fallible.wp_bind]
  apply Fallible.wp_of_eq (nextWithin_frame idFrame _ _ _)
  dsimp only
  simp only [hparse, getInitialPublicKeyForHandshake, toFixed_val, Fallible.wp_bind,
    Fallible.wp_pure, hdecode, finishHandshake, if_true, Conn.boxSeal, Conn.record,
    Fallible.wp_modify]
  apply Fallible.wp_of_eq (send_goes hkey.1 _ _ _)
  exact ⟨rfl, rfl⟩

/-- The server's side of `handshake_agrees`. -/
theorem server_installs {pk : SignPublicKey} {sk : SignSecretKey}
    {server client : BoxPublicKey × BoxSecretKey} (hkeys : KeysFit na pk sk server client)
    (peerId : String) (genKey : SecretboxKey) {idFrame keyFrame : Bytes}
    (hid : Carries proto idFrame (signedIdMessage proto na peerId server.1 sk))
    (hkey : Carries proto keyFrame
      ⟨some (.publicKey client.1.1 (na.boxSeal genKey.1 zeroNonce server.1 client.2))⟩) :
    Fallible.wp (serverHandshake proto na box server true peerId sk.1 pk.1)
      (fun r c => r = computeSecurityCode na server.2 client.1 ∧
        c.stream = FramedStream.new.setKey genKey)
      (fun _ _ => False) (oneFrame keyFrame) := by
  have hprocess : processClientPublicKeyMessage na client.1.1
      (na.boxSeal genKey.1 zeroNonce server.1 client.2) server.2 =
        .ok (some (genKey, computeSecurityCode na server.2 client.1)) := by
    simp only [processClientPublicKeyMessage, toFixed_val, hkeys.box]
  unfold serverHandshake
  simp only [toFixed_val, Fallible.wp_bind]
  apply Fallible.wp_of_eq (send_goes hid.1 _ _ _)
  rw [Fallible.wp_bind]
  apply Fallible.wp_of_eq (nextMessage_frame hkey.2 _ _ _)
  simp only [isDirectInitialPublicKeyRequest, Bool.false_eq_true,
    if_false, takeClientKey, Fallible.wp_bind, Fallible.wp_ofExcept, hprocess, Conn.setKey,
    Fallible.wp_modify]
  exact ⟨rfl, rfl⟩

/-- The security numbers depend on the shared secret alone. -/
theorem computeSecurityCode_congr {sk sk' : BoxSecretKey} {pk pk' : BoxPublicKey}
    (h : na.diffieHellman sk pk = na.diffieHellman sk' pk') :
    computeSecurityCode na sk pk = computeSecurityCode na sk' pk' := by
  unfold computeSecurityCode
  rw [h]

/-- **Both sides install one key.** When the server's signed id reaches the client as it was sent,
and the client's key message reaches the server, both streams hold the client's fresh key, and both
sides show the same security numbers. -/
theorem handshake_agrees {pk : SignPublicKey} {sk : SignSecretKey}
    {server client : BoxPublicKey × BoxSecretKey} (hkeys : KeysFit na pk sk server client)
    {peerId : String} {idPkBytes : Bytes}
    (hwrite : proto.writeIdPk ⟨peerId, server.1.1⟩ = some idPkBytes)
    (hread : proto.parseIdPk idPkBytes = some ⟨peerId, server.1.1⟩)
    (genKey : SecretboxKey) {stored idFrame keyFrame : Bytes}
    (hid : Carries proto idFrame (signedIdMessage proto na peerId server.1 sk))
    (hkey : Carries proto keyFrame
      ⟨some (.publicKey client.1.1 (na.boxSeal genKey.1 zeroNonce server.1 client.2))⟩) :
    ∃ numbers,
      Fallible.wp (secureConnection proto na box client genKey peerId pk.1 stored)
        (fun r c => r = (numbers, "") ∧ c.stream = FramedStream.new.setKey genKey)
        (fun _ _ => False) (oneFrame idFrame) ∧
      Fallible.wp (serverHandshake proto na box server true peerId sk.1 pk.1)
        (fun r c => r = numbers ∧ c.stream = FramedStream.new.setKey genKey)
        (fun _ _ => False) (oneFrame keyFrame) := by
  refine ⟨_, client_installs hkeys hwrite hread genKey hid hkey, ?_⟩
  rw [computeSecurityCode_congr hkeys.agree]
  exact server_installs hkeys peerId genKey hid hkey

/-- What the server installs came out of a box that opened under the key the client named. -/
theorem processClientPublicKeyMessage_key {asymmetric sealedKey : Bytes} {ourSk : BoxSecretKey}
    {key : SecretboxKey} {numbers : String}
    (h : processClientPublicKeyMessage na asymmetric sealedKey ourSk =
      .ok (some (key, numbers))) :
    ∃ theirPk : BoxPublicKey, asymmetric = theirPk.1 ∧
      na.boxOpen sealedKey zeroNonce theirPk ourSk = some key.1 := by
  unfold processClientPublicKeyMessage at h
  split at h
  · rename_i theirPk htheir
    have hasym : asymmetric = theirPk.1 := by
      unfold toFixed at htheir
      split_ifs at htheir
      cases htheir
      rfl
    split at h
    · exact nomatch h
    · rename_i symmetric hopen
      split at h
      · rename_i key' hkey
        cases h
        refine ⟨theirPk, hasym, ?_⟩
        unfold toFixed at hkey
        split_ifs at hkey
        cases hkey
        exact hopen
      · exact nomatch h
  · split_ifs at h
    cases h

end HopToDesk.Handshake
