import HopToDesk.Laws.Handshake.Client

/-!
# The length of a key that arrives

The client copies a key of the other end into an array of 32 bytes in two places. The second
attempt checks the length first, as decoding a signed id does; the first one,
`get_initial_public_key_for_handshake`, does not, and `copy_from_slice` panics on another length.

The rules here are exact about what a send and a wait come to, where those of the client's laws
speak of whatever may come. With them, `handshake_panics_iff` says on which frames the client
panics: it holds no key of the peer, its request goes out, and the answer is a key of a wrong
length.
-/

set_option autoImplicit false

namespace HopToDesk.Handshake

open Kit HopToDesk.Wire

variable {proto : Proto} {na : Sodium} {box : Secretbox SecretboxKey}

/-! ## Exact outcomes -/

/-- The transport takes the next message, within the time. -/
def GoesOut (proto : Proto) (msg : Message) (sends : List (Option (Except IoError Unit))) : Prop :=
  (∃ bytes, proto.writeMessage msg = some bytes) ∧ sends.head?.join = some (.ok ())

namespace Conn

variable {c : Conn} {E : HandshakeError → Conn → Prop}

theorem wp_send_iff (h : c.stream.encrypt = none) (msg : Message) {Q : Unit → Conn → Prop}
    (hQ : GoesOut proto msg c.sends → Q () (c.afterSend msg))
    (hE : ¬ GoesOut proto msg c.sends → ∀ e c', e ≠ .panic → E e c') :
    Fallible.wp (send proto msg) Q E c := by
  have plain (bytes : Bytes) : (c.stream.sendRaw bytes).1 = c.stream := by
    unfold FramedStream.sendRaw
    rw [h]
  unfold send
  rw [Fallible.wp_bind]
  unfold Fallible.wp sendWithin sendOutcome
  cases hs : c.sends.head?.join with
  | none =>
    refine hE (fun hout => ?_) _ _ (by simp)
    rw [hout.2] at hs
    exact nomatch hs
  | some res =>
    cases hw : proto.writeMessage msg with
    | none =>
      refine hE (fun hout => ?_) _ _ (by simp)
      obtain ⟨bytes, hbytes⟩ := hout.1
      rw [hw] at hbytes
      exact nomatch hbytes
    | some bytes =>
      simp only [plain]
      rcases res with err | u
      · refine hE (fun hout => ?_) _ _ (by simp)
        rw [hout.2] at hs
        exact nomatch hs
      · exact hQ ⟨⟨bytes, hw⟩, hs⟩

/-- A wait for a frame, and what the transport had to offer. -/
theorem wp_nextWithin_eq (h : c.stream.encrypt = none) (hb : c.stream.peekBuffer = none)
    {Q : Option Arrival → Conn → Prop}
    (hQ : ∀ c', c'.stream = c.stream → c'.recvs = c.recvs.tail → c'.sends = c.sends →
      Q c.recvs.head?.join c') :
    Fallible.wp (nextWithin box) Q E c := by
  unfold Fallible.wp nextWithin
  simp only [hb]
  cases hr : c.recvs.head?.join with
  | none =>
    rw [hr] at hQ
    exact hQ _ rfl rfl rfl
  | some res =>
    simp only [next_unencrypted h hb]
    rw [hr] at hQ
    rcases res with _ | _ | _ <;> exact hQ _ rfl rfl rfl

/-- A look at the next frame. -/
theorem wp_peekWithin_eq (h : c.stream.encrypt = none) (hb : c.stream.peekBuffer = none)
    {Q : Option Arrival → Conn → Prop} (hQ : ∀ c', Q c.recvs.head?.join c') :
    Fallible.wp (peekWithin box) Q E c := by
  have given (res : Arrival) : (c.stream.peek box res).2 = res := by
    unfold FramedStream.peek FramedStream.next_
    rw [hb, h]
    rcases res with _ | _ | _ <;> rfl
  unfold Fallible.wp peekWithin
  simp only [hb]
  cases hr : c.recvs.head?.join with
  | none =>
    rw [hr] at hQ
    exact hQ _
  | some res =>
    simp only [given]
    rw [hr] at hQ
    exact hQ _

end Conn

/-- No panic, in terms of how a computation ends. -/
theorem ne_panic_iff {α : Type} {m : Step α} {c : Conn} {P : Prop}
    (h : Fallible.wp m (fun _ _ => ¬ P) (fun e _ => e = .panic ↔ P) c) :
    (m c).1 ≠ .error .panic ↔ ¬ P := by
  unfold Fallible.wp at h
  rcases hm : m c with ⟨e | a, c'⟩ <;> rw [hm] at h
  · simpa using not_congr h
  · simpa using h

/-! ## The key that is asked for -/

/-- The frame that comes next is the other end's key, and it is not one of 32 bytes. -/
def WrongKeyNext (proto : Proto) (recvs : List (Option Arrival)) : Prop :=
  ∃ frame key, recvs.head?.join = some (some (.ok frame)) ∧
    keyResponse proto frame = some key ∧ key.length ≠ 32

/-- The client holds no key of the peer, asks for one, and is answered with one of a wrong
length. -/
def WrongKeyGiven (proto : Proto) (idPk stored : Bytes) (recvs : List (Option Arrival))
    (sends : List (Option (Except IoError Unit))) : Prop :=
  idPk.length ≠ 32 ∧ stored.length ≠ 32 ∧ GoesOut proto directInitialPublicKeyRequest sends ∧
    WrongKeyNext proto recvs

theorem toFixed_eq_none {n : Nat} {bytes : Bytes} : toFixed n bytes = none ↔ bytes.length ≠ n := by
  simp [toFixed]

theorem knownPk_eq_none {idPk stored : Bytes} :
    knownPk idPk stored = none ↔ idPk.length ≠ 32 ∧ stored.length ≠ 32 := by
  unfold knownPk
  rw [← toFixed_eq_none, ← toFixed_eq_none]
  cases toFixed 32 idPk <;> simp

/-- The first key: it ends in a panic exactly where the key that comes is of a wrong length. -/
theorem getInitialPublicKey_spec {c : Conn} (h : c.stream = .new) (idPk stored : Bytes) :
    Fallible.wp (getInitialPublicKeyForHandshake proto box idPk stored)
      (fun _ _ => ¬ WrongKeyGiven proto idPk stored c.recvs c.sends)
      (fun e _ => e = .panic ↔ WrongKeyGiven proto idPk stored c.recvs c.sends) c := by
  have henc : c.stream.encrypt = none := by rw [h]; rfl
  have hbuf : c.stream.peekBuffer = none := by rw [h]; rfl
  cases hk : knownPk idPk stored with
  | some pk =>
    rw [getInitialPublicKey_known hk, Fallible.wp_pure]
    intro hw
    rw [knownPk_eq_none.mpr ⟨hw.1, hw.2.1⟩] at hk
    exact nomatch hk
  | none =>
    obtain ⟨hid, hst⟩ := knownPk_eq_none.mp hk
    unfold getInitialPublicKeyForHandshake
    simp only [toFixed_eq_none.mpr hid, toFixed_eq_none.mpr hst]
    rw [Fallible.wp_bind]
    apply Conn.wp_send_iff henc
    · intro hout
      rw [Fallible.wp_bind]
      apply Conn.wp_peekWithin_eq (c := c.afterSend directInitialPublicKeyRequest) henc hbuf
      intro c'
      have given : WrongKeyGiven proto idPk stored c.recvs c.sends ↔ WrongKeyNext proto c.recvs :=
        ⟨fun hw => hw.2.2.2, fun hw => ⟨hid, hst, hout, hw⟩⟩
      rw [given, show (c.afterSend directInitialPublicKeyRequest).recvs = c.recvs from rfl]
      unfold WrongKeyNext
      rcases c.recvs.head?.join with _ | _ | err | frame
      · simp
      · simp
      · simp
      · dsimp only
        cases hf : keyResponse proto frame with
        | none => simp [hf]
        | some key =>
          dsimp only
          unfold toFixed
          by_cases hl : key.length = 32
          · simp [hf, hl]
          · simp [hf, hl]
    · intro hout e c' he
      exact iff_of_false he fun hw => hout hw.2.2.1

/-! ## The rest of the handshake -/

theorem wp_sendWithin_any {c : Conn} {E : HandshakeError → Conn → Prop} (msg : Message)
    {Q : Option (Except IoError Unit) → Conn → Prop} (hQ : ∀ r c', Q r c') :
    Fallible.wp (Conn.sendWithin proto msg) Q E c := by
  unfold Fallible.wp Conn.sendWithin
  cases c.sends.head?.join with
  | none => exact hQ _ _
  | some res => exact hQ _ _

/-- A wait for a frame comes to something, whatever the stream holds. -/
theorem nextWithin_ok (c : Conn) : ∃ r c', Conn.nextWithin box c = (.ok r, c') := by
  unfold Conn.nextWithin
  cases c.stream.peekBuffer with
  | some peeked => exact ⟨_, _, rfl⟩
  | none =>
    dsimp only
    cases c.recvs.head?.join with
    | none => exact ⟨_, _, rfl⟩
    | some res => exact ⟨_, _, rfl⟩

theorem wp_nextWithin_any {c : Conn} {E : HandshakeError → Conn → Prop}
    {Q : Option Arrival → Conn → Prop} (hQ : ∀ r c', Q r c') :
    Fallible.wp (Conn.nextWithin box) Q E c := by
  obtain ⟨r, c', h⟩ := nextWithin_ok c
  exact Fallible.wp_of_eq h (hQ r c')

theorem sendUntimed_ne_panic {c : Conn} (msg : Message) {Q : Unit → Conn → Prop}
    (hQ : ∀ c', Q () c') :
    Fallible.wp (Conn.sendUntimed proto msg) Q (fun e _ => e ≠ .panic) c := by
  unfold Conn.sendUntimed
  rw [Fallible.wp_bind]
  refine wp_sendWithin_any msg fun r c' => ?_
  rcases r with _ | err | u
  · exact hQ _
  · exact fun he => nomatch he
  · exact hQ _

theorem send_ne_panic {c : Conn} (msg : Message) {Q : Unit → Conn → Prop} (hQ : ∀ c', Q () c') :
    Fallible.wp (Conn.send proto msg) Q (fun e _ => e ≠ .panic) c := by
  unfold Conn.send
  rw [Fallible.wp_bind]
  refine wp_sendWithin_any msg fun r c' => ?_
  rcases r with _ | err | u
  · exact fun he => nomatch he
  · exact fun he => nomatch he
  · exact hQ _

/-- The second attempt checks the length of the key it is given, and never fails. -/
theorem retryWithPeerKey_total {c : Conn} (signed : Bytes)
    (decoded : Except HandshakeError (String × BoxPublicKey)) :
    Fallible.wp (retryWithPeerKey proto na box signed decoded) (fun _ _ => True)
      (fun _ _ => False) c := by
  unfold retryWithPeerKey
  rw [Fallible.wp_bind]
  refine wp_sendWithin_any _ fun r c' => ?_
  cases r with
  | none => exact trivial
  | some res =>
    dsimp only
    rw [Fallible.wp_bind]
    refine wp_nextWithin_any fun given c'' => ?_
    rcases given with _ | _ | err | frame
    · exact trivial
    · exact trivial
    · exact trivial
    · dsimp only
      cases keyResponse proto frame with
      | none => exact trivial
      | some key =>
        dsimp only
        cases toFixed 32 key <;> exact trivial

theorem finishHandshake_ne_panic {c : Conn} (peerId : String) (pair : BoxPublicKey × BoxSecretKey)
    (genKey : SecretboxKey) (decoded : Except HandshakeError (String × BoxPublicKey)) :
    Fallible.wp (finishHandshake proto na peerId pair genKey decoded) (fun _ _ => True)
      (fun e _ => e ≠ .panic) c := by
  unfold finishHandshake
  rcases decoded with err | ⟨id, theirPk⟩
  · dsimp only
    rw [Fallible.wp_bind]
    exact wp_sendWithin_any _ fun _ _ he => nomatch he
  · dsimp only
    by_cases hid : id = peerId
    · rw [if_pos hid]
      unfold Conn.boxSeal Conn.record Conn.setKey
      simp only [Fallible.wp_bind, Fallible.wp_modify, Fallible.wp_pure]
      exact send_ne_panic _ fun _ => trivial
    · rw [if_neg hid, Fallible.wp_bind]
      exact sendUntimed_ne_panic _ fun _ => trivial

/-- A signed id is what arrives first. -/
def SignedIdFirst (proto : Proto) (recvs : List (Option Arrival)) : Prop :=
  ∃ frame signed, recvs.head?.join = some (some (.ok frame)) ∧
    proto.parseMessage frame = some ⟨some (.signedId signed)⟩

/-- The whole handshake ends in a panic exactly where its first key does, which it looks for once
a signed id has arrived. -/
theorem secureConnection_spec (idPk stored : Bytes) (recvs : List (Option Arrival))
    (sends : List (Option (Except IoError Unit))) (peerId : String)
    (pair : BoxPublicKey × BoxSecretKey) (genKey : SecretboxKey) :
    Fallible.wp (secureConnection proto na box pair genKey peerId idPk stored)
      (fun _ _ => ¬ (SignedIdFirst proto recvs ∧
        WrongKeyGiven proto idPk stored recvs.tail sends))
      (fun e _ => e = .panic ↔ SignedIdFirst proto recvs ∧
        WrongKeyGiven proto idPk stored recvs.tail sends)
      (.new recvs sends) := by
  unfold secureConnection
  rw [Fallible.wp_bind]
  apply Conn.wp_nextWithin_eq (c := .new recvs sends) rfl rfl
  intro c' hstream hrecvs hsends
  replace hrecvs : c'.recvs = recvs.tail := hrecvs
  replace hsends : c'.sends = sends := hsends
  have unsigned (h : ¬ SignedIdFirst proto recvs) :
      ¬ (SignedIdFirst proto recvs ∧ WrongKeyGiven proto idPk stored recvs.tail sends) :=
    fun hw => h hw.1
  show Fallible.wp _ _ _ c'
  rw [show (Conn.new recvs sends).recvs = recvs from rfl]
  cases hfirst : recvs.head?.join with
  | none => exact iff_of_false (fun he => nomatch he) (unsigned (by simp [SignedIdFirst, hfirst]))
  | some given =>
    rcases given with _ | err | frame
    · exact iff_of_false (fun he => nomatch he) (unsigned (by simp [SignedIdFirst, hfirst]))
    · exact iff_of_false (fun he => nomatch he) (unsigned (by simp [SignedIdFirst, hfirst]))
    · dsimp only
      split
      · rename_i signed hsigned
        have hsigned' : SignedIdFirst proto recvs := ⟨frame, signed, hfirst, hsigned⟩
        rw [Fallible.wp_bind]
        refine Fallible.wp_mono (getInitialPublicKey_spec hstream idPk stored) ?_ ?_
        · intro signPk c'' hw
          rw [hrecvs, hsends] at hw
          have hw' : ¬ (SignedIdFirst proto recvs ∧
              WrongKeyGiven proto idPk stored recvs.tail sends) := fun h => hw h.2
          have ends (e : HandshakeError) (he : e ≠ .panic) : e = .panic ↔
              SignedIdFirst proto recvs ∧ WrongKeyGiven proto idPk stored recvs.tail sends :=
            iff_of_false he hw'
          cases signPk with
          | none =>
            dsimp only
            rw [Fallible.wp_bind]
            exact Fallible.wp_mono (sendUntimed_ne_panic (Q := fun _ _ => True) _ fun _ => trivial)
              (fun _ _ _ => hw') fun e _ => ends e
          | some signPk =>
            have finish (decoded : Except HandshakeError (String × BoxPublicKey)) (c₃ : Conn) :
                Fallible.wp (finishHandshake proto na peerId pair genKey decoded)
                  (fun _ _ => ¬ (SignedIdFirst proto recvs ∧
                    WrongKeyGiven proto idPk stored recvs.tail sends))
                  (fun e _ => e = .panic ↔ SignedIdFirst proto recvs ∧
                    WrongKeyGiven proto idPk stored recvs.tail sends) c₃ :=
              Fallible.wp_mono (finishHandshake_ne_panic peerId pair genKey decoded)
                (fun _ _ _ => hw') fun e _ => ends e
            cases hd : decodeIdPk proto na signed signPk with
            | ok idPk' =>
              simp only [hd, Fallible.wp_bind, Fallible.wp_pure]
              exact finish _ _
            | error err =>
              simp only [hd, Fallible.wp_bind]
              exact Fallible.wp_mono (retryWithPeerKey_total signed _)
                (fun decoded c₃ _ => finish decoded c₃) fun _ _ h => h.elim
        · intro e c'' he
          rw [hrecvs, hsends] at he
          exact he.trans ⟨fun h => ⟨hsigned', h⟩, fun h => h.2⟩
      · rename_i hother
        have hunsigned : ¬ SignedIdFirst proto recvs := by
          rintro ⟨frame', signed, hframe, hsigned⟩
          rw [hfirst] at hframe
          cases hframe
          exact hother signed hsigned
        rw [Fallible.wp_bind]
        exact Fallible.wp_mono (sendUntimed_ne_panic (Q := fun _ _ => True) _ fun _ => trivial)
          (fun _ _ _ => unsigned hunsigned)
          fun e _ he => iff_of_false he (unsigned hunsigned)

/-- **When the client panics.** Whatever the frames, the sends and the keys, asking for a first key
does not panic exactly when the client holds a key of 32 bytes, or cannot ask for one, or is not
answered with a key of another length; and the handshake does not exactly when the same holds of
the frames after a signed id, or no signed id comes first. -/
theorem handshake_panics_iff (proto : Proto) (na : Sodium) (box : Secretbox SecretboxKey)
    (pair : BoxPublicKey × BoxSecretKey) (genKey : SecretboxKey) (peerId : String)
    (idPk stored : Bytes) (recvs : List (Option Arrival))
    (sends : List (Option (Except IoError Unit))) :
    ((getInitialPublicKeyForHandshake proto box idPk stored (.new recvs sends)).1 ≠ .error .panic ↔
        ¬ WrongKeyGiven proto idPk stored recvs sends) ∧
      ((secureConnection proto na box pair genKey peerId idPk stored (.new recvs sends)).1 ≠
          .error .panic ↔
        ¬ (SignedIdFirst proto recvs ∧ WrongKeyGiven proto idPk stored recvs.tail sends)) := by
  constructor
  · exact ne_panic_iff (getInitialPublicKey_spec rfl idPk stored)
  · exact ne_panic_iff (secureConnection_spec idPk stored recvs sends peerId pair genKey)

/-- A client without a key of the peer is sent a signed id and, in answer to its request, a key of
one byte. -/
theorem handshake_panics :
    ¬ ∀ recvs : List (Option Arrival),
      (getInitialPublicKeyForHandshake demoProto demoBox [] []
          (.new recvs [some (.ok ())])).1 ≠ .error .panic ∧
        (secureConnection demoProto demoSodium demoBox (demoKey 7, demoKey 8) (demoKey 9) "1" [] []
          (.new recvs [some (.ok ())])).1 ≠ .error .panic := by
  intro h
  exact (h [some (some (.ok (demoSignedId (demoKey 1) (demoKey 3)))),
    some (some (.ok [1, 5]))]).2 rfl

end HopToDesk.Handshake
