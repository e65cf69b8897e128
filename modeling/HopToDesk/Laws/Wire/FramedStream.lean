import HopToDesk.Wire.FramedStream
import HopToDesk.Laws.Wire.BytesCodec

/-!
# The framed stream's laws

The counters of `Encrypt` decide everything: `get_nonce` is one to one on them
(`getNonce_injective`), `enc` uses the next one, and `dec` either lets a frame of at most one byte
through as it is, or uses the next one whatever comes of the frame (`dec_cases`).
-/

set_option autoImplicit false

namespace HopToDesk.Wire

open Kit

/-! ## The nonce -/

/-- The number whose little-endian bytes are given. -/
def ofLeBytes : Bytes → Nat
  | [] => 0
  | b :: bs => b.toNat + 256 * ofLeBytes bs

theorem ofLeBytes_toLeBytes (n : UInt64) : ofLeBytes (toLeBytes n) = n.toNat := by
  have hlt := UInt64.toNat_lt n
  have byte (k : UInt64) (j : Nat) (hk : k.toNat = j) (hj : j < 64) :
      (n >>> k).toUInt8.toNat = n.toNat / 2 ^ j % 256 := by
    rw [UInt64.toNat_toUInt8, UInt64.toNat_shiftRight, Nat.shiftRight_eq_div_pow, hk,
      Nat.mod_eq_of_lt hj]
  simp only [toLeBytes, ofLeBytes]
  rw [UInt64.toNat_toUInt8, byte 8 8 rfl (by decide), byte 16 16 rfl (by decide),
    byte 24 24 rfl (by decide), byte 32 32 rfl (by decide), byte 40 40 rfl (by decide),
    byte 48 48 rfl (by decide), byte 56 56 rfl (by decide)]
  omega

theorem toLeBytes_injective : Function.Injective toLeBytes := by
  intro m n h
  apply UInt64.toNat_inj.mp
  rw [← ofLeBytes_toLeBytes, h, ofLeBytes_toLeBytes]

/-- **Counters that differ give nonces that differ.** -/
theorem getNonce_injective : Function.Injective getNonce := by
  intro m n h
  exact toLeBytes_injective (List.append_inj_left h rfl)

/-- Counters that wrapped to the same value are apart by a multiple of the word. -/
theorem getNonce_ofNat_inj {m n : Nat} :
    getNonce (.ofNat m) = getNonce (.ofNat n) ↔ m % 2 ^ 64 = n % 2 ^ 64 := by
  rw [getNonce_injective.eq_iff, ← UInt64.toNat_inj, UInt64.toNat_ofNat', UInt64.toNat_ofNat']

theorem ofNat_add_one (n : Nat) : UInt64.ofNat n + 1 = UInt64.ofNat (n + 1) :=
  (UInt64.ofNat_add n 1).symm

/-! ## The cipher -/

namespace Encrypt

variable {Key : Type} (box : Secretbox Key)

/-- What a call of `dec` does: a frame of at most one byte passes as it is and the counter stands;
any other moves the counter and is opened under it, or refused. -/
theorem dec_cases (self : Encrypt Key) (bytes : Bytes) :
    (bytes.length ≤ 1 ∧ self.dec box bytes = (self, .ok bytes)) ∨
    (1 < bytes.length ∧ ∃ msg,
      box.openWith bytes (getNonce (self.decSeq + 1)) self.key = some msg ∧
      self.dec box bytes = ({ self with decSeq := self.decSeq + 1 }, .ok msg)) ∨
    (1 < bytes.length ∧ box.openWith bytes (getNonce (self.decSeq + 1)) self.key = none ∧
      self.dec box bytes =
        ({ self with decSeq := self.decSeq + 1 }, .error ⟨.other, "decryption error"⟩)) := by
  unfold dec
  by_cases hl : bytes.length ≤ 1
  · exact .inl ⟨hl, if_pos hl⟩
  · right
    rw [if_neg hl]
    cases ho : box.openWith bytes (getNonce (self.decSeq + 1)) self.key with
    | some msg => exact .inl ⟨Nat.not_le.mp hl, msg, rfl, by simp only [ho]⟩
    | none => exact .inr ⟨Nat.not_le.mp hl, rfl, by simp only [ho]⟩

end Encrypt

end HopToDesk.Wire

/-!
## What is on the way

On an honest network one direction of a connection is a string of bytes: some in the read buffer of
the receiver and some still on the way. `Carries` says what they hold: the frames of the messages
not yet read, sealed under the receiver's next counts, and after them bytes that are in no frame,
if the sender has gone raw. A poll of the receiver gives the first of the messages or waits for more
bytes, wherever the network has cut them (`Carries.next`). A sender that is in step (`InStep`) puts
its message behind the others (`Carries.send`).

When no message is left, what is there is raw, and a receiver that goes raw has it all
(`Carries.setRaw`).
-/

namespace HopToDesk.Wire

open Kit
open BytesCodec (wire header)

variable {Key : Type}

/-! ### Frames -/

/-- Bytes that hold frames, the first of them perhaps with its header read, and then `rest`. -/
inductive Pending : BytesCodec → Bytes → List Bytes → Bytes → Prop
  | head (frames : List Bytes) (rest : Bytes) :
      Pending BytesCodec.new (wire frames ++ rest) frames rest
  | body (frame : Bytes) (frames : List Bytes) (rest : Bytes) :
      Pending { BytesCodec.new with state := .data frame.length } (frame ++ (wire frames ++ rest))
        (frame :: frames) rest

namespace Pending

variable {codec : BytesCodec} {buf net rest : Bytes} {frames : List Bytes}

theorem raw (h : Pending codec buf frames rest) : codec.raw = false := by
  cases h with
  | head => rfl
  | body => rfl

/-- One that goes on behind what was there. -/
theorem append_rest (h : Pending codec buf frames rest) (more : Bytes) :
    Pending codec (buf ++ more) frames (rest ++ more) := by
  cases h with
  | head =>
    rw [List.append_assoc]
    exact .head frames (rest ++ more)
  | body frame frames =>
    rw [List.append_assoc, List.append_assoc]
    exact .body frame frames (rest ++ more)

theorem wire_append (frames : List Bytes) (frame : Bytes) :
    wire (frames ++ [frame]) = wire frames ++ (header frame.length ++ frame) := by
  simp [wire]

theorem append_frame (h : Pending codec buf frames []) (frame : Bytes) :
    Pending codec (buf ++ (header frame.length ++ frame)) (frames ++ [frame]) [] := by
  cases h with
  | head =>
    rw [List.append_nil, ← wire_append, ← List.append_nil (wire _)]
    exact .head (frames ++ [frame]) []
  | body first frames =>
    rw [List.append_nil, List.append_assoc, ← wire_append, ← List.append_nil (wire _)]
    exact .body first (frames ++ [frame]) []

theorem wire_cons (frame : Bytes) (frames : List Bytes) (rest : Bytes) :
    wire (frame :: frames) ++ rest = header frame.length ++ frame ++ (wire frames ++ rest) := by
  simp [wire]

/-- A request that waits in front of a header has read all of it or nothing. -/
theorem pull_more {src x rest : Bytes} {n : Nat}
    (hhead : BytesCodec.new.decodeHead (src ++ x) = (.ok (some n), rest)) {codec' : BytesCodec}
    {buf' : Bytes} (hp : BytesCodec.new.pull src = .more codec' buf') :
    (codec' = .new ∧ buf' = src) ∨
      (codec' = { BytesCodec.new with state := .data n } ∧ buf' ++ x = rest) := by
  rw [BytesCodec.pull_head rfl rfl] at hp
  rcases BytesCodec.decodeHead_cases .new src with ⟨-, hd⟩ | ⟨hne, hl, ⟨-, hd⟩ | ⟨-, hd⟩⟩
  · rw [hd] at hp
    cases hp
    exact .inl ⟨rfl, rfl⟩
  · rw [hd] at hp
    cases hp
  · rw [BytesCodec.decodeHead_append .new hne hl, hd] at hhead
    cases hhead
    rw [hd] at hp
    obtain ⟨rfl, rfl⟩ := BytesCodec.pullBody_more .new _ _ hp
    exact .inr ⟨rfl, rfl⟩

/-- A request waits, or has the first frame: whatever part of the bytes is in the buffer. -/
theorem pull (h : Pending codec (buf ++ net) frames rest)
    (hsize : ∀ f ∈ frames, f.length ≤ 0x3FFFFFFF) (hmore : frames ≠ [] ∨ rest = []) :
    (∃ codec' buf', codec.pull buf = .more codec' buf' ∧
      Pending codec' (buf' ++ net) frames rest) ∨
    ∃ frame frames' codec' buf', frames = frame :: frames' ∧
      codec.pull buf = .item frame codec' buf' ∧ Pending codec' (buf' ++ net) frames' rest := by
  have hsuspends := BytesCodec.pull_suspends h.raw buf net
  generalize hbytes : buf ++ net = bytes at h hsuspends
  cases h with
  | head =>
    cases frames with
    | nil =>
      obtain rfl := hmore.resolve_left (fun he => he rfl)
      obtain ⟨rfl, rfl⟩ := List.append_eq_nil_iff.mp hbytes
      exact .inl ⟨.new, [], rfl, .head [] []⟩
    | cons frame frames =>
      have hframe := hsize frame List.mem_cons_self
      rw [wire_cons] at hbytes hsuspends
      rw [BytesCodec.pull_frame hframe] at hsuspends
      cases hp : BytesCodec.new.pull buf with
      | item f codec' buf' =>
        simp only [hp, Incremental.Pull.item.injEq] at hsuspends
        obtain ⟨rfl, rfl, hbuf⟩ := hsuspends
        refine .inr ⟨frame, frames, .new, buf', rfl, rfl, ?_⟩
        rw [← hbuf]
        exact .head frames rest
      | more codec' buf' =>
        have hhead := BytesCodec.decodeHead_frame hframe (wire frames ++ rest)
        rw [← hbytes] at hhead
        rcases pull_more hhead hp with ⟨rfl, rfl⟩ | ⟨rfl, hbuf⟩
        · refine .inl ⟨.new, buf', rfl, ?_⟩
          rw [hbytes, ← wire_cons]
          exact .head (frame :: frames) rest
        · refine .inl ⟨_, buf', rfl, ?_⟩
          rw [hbuf]
          exact .body frame frames rest
      | fail e =>
        simp only [hp] at hsuspends
        cases hsuspends
  | body frame frames =>
    have hbody : ({ BytesCodec.new with state := .data frame.length } : BytesCodec).pull
        (frame ++ (wire frames ++ rest)) = .item frame .new (wire frames ++ rest) := by
      rw [BytesCodec.pull_data rfl rfl, BytesCodec.pullBody_append _ le_rfl, List.take_length,
        List.drop_length, List.nil_append]
      rfl
    rw [hbody] at hsuspends
    cases hp : ({ BytesCodec.new with state := .data frame.length } : BytesCodec).pull buf with
    | item f codec' buf' =>
      simp only [hp, Incremental.Pull.item.injEq] at hsuspends
      obtain ⟨rfl, rfl, hbuf⟩ := hsuspends
      refine .inr ⟨frame, frames, .new, buf', rfl, rfl, ?_⟩
      rw [← hbuf]
      exact .head frames rest
    | more codec' buf' =>
      rw [BytesCodec.pull_data rfl rfl] at hp
      obtain ⟨rfl, rfl⟩ := BytesCodec.pullBody_more _ _ _ hp
      refine .inl ⟨_, buf', rfl, ?_⟩
      rw [hbytes]
      exact .body frame frames rest
    | fail e =>
      simp only [hp] at hsuspends
      cases hsuspends

/-- Without frames, what is there is the rest. -/
theorem eq_rest (h : Pending codec buf [] rest) : buf = rest ∧ codec = .new := by
  generalize hframes : ([] : List Bytes) = frames at h
  cases h with
  | head =>
    subst hframes
    exact ⟨rfl, rfl⟩
  | body => cases hframes

end Pending

/-! ### Seals -/

/-- The frame of a message under a count, or the message itself without a key. -/
def frameAt (box : Secretbox Key) : Option Key → UInt64 → Bytes → Bytes
  | none, _, msg => msg
  | some key, n, msg => box.sealWith msg (getNonce n) key

/-- The message and its seal go into a frame, whatever the count. -/
def Fits (box : Secretbox Key) (key : Option Key) (msg : Bytes) : Prop :=
  ∀ n, (frameAt box key n msg).length ≤ 0x3FFFFFFF

/-- The box opens what it has sealed, and a sealed frame is longer than one byte. -/
def Opens (box : Secretbox Key) : Option Key → Prop
  | none => True
  | some key => ∀ n msg, box.openWith (box.sealWith msg (getNonce n) key) (getNonce n) key =
      some msg ∧ 1 < (box.sealWith msg (getNonce n) key).length

/-- The frames of messages from a count on. -/
def framesFrom (box : Secretbox Key) : Option (Key × UInt64) → List Bytes → List Bytes
  | _, [] => []
  | none, msg :: msgs => msg :: framesFrom box none msgs
  | some (key, n), msg :: msgs =>
    frameAt box (some key) (n + 1) msg :: framesFrom box (some (key, n + 1)) msgs

/-- The key and the count after `k` messages. -/
def forward (k : Nat) : Option (Key × UInt64) → Option (Key × UInt64) :=
  Option.map fun (key, n) => (key, n + UInt64.ofNat k)

theorem forward_zero (at_ : Option (Key × UInt64)) : forward 0 at_ = at_ := by
  cases at_ with
  | none => rfl
  | some x => simp [forward]

theorem forward_forward (j k : Nat) (at_ : Option (Key × UInt64)) :
    forward j (forward k at_) = forward (k + j) at_ := by
  cases at_ with
  | none => rfl
  | some x => simp [forward, UInt64.add_assoc]

theorem framesFrom_append (box : Secretbox Key) (at_ : Option (Key × UInt64)) (msgs : List Bytes)
    (msg : Bytes) : framesFrom box at_ (msgs ++ [msg]) =
      framesFrom box at_ msgs ++ framesFrom box (forward msgs.length at_) [msg] := by
  induction msgs generalizing at_ with
  | nil =>
    rw [List.length_nil, forward_zero]
    cases at_ <;> rfl
  | cons m msgs ih =>
    cases at_ with
    | none => exact congrArg (m :: ·) (ih none)
    | some x =>
      obtain ⟨key, n⟩ := x
      have hnext : forward (m :: msgs).length (some (key, n)) =
          forward msgs.length (some (key, n + 1)) := by
        simp [forward, UInt64.add_assoc, UInt64.add_comm]
      rw [hnext]
      exact congrArg (_ :: ·) (ih (some (key, n + 1)))

theorem framesFrom_fits {box : Secretbox Key} {at_ : Option (Key × UInt64)} {msgs : List Bytes}
    (h : ∀ msg ∈ msgs, Fits box (at_.map Prod.fst) msg) :
    ∀ f ∈ framesFrom box at_ msgs, f.length ≤ 0x3FFFFFFF := by
  induction msgs generalizing at_ with
  | nil =>
    intro f hf
    cases at_ <;> cases hf
  | cons m msgs ih =>
    rw [List.forall_mem_cons] at h
    cases at_ with
    | none => exact List.forall_mem_cons.mpr ⟨h.1 0, ih h.2⟩
    | some x => exact List.forall_mem_cons.mpr ⟨h.1 _, ih h.2⟩

/-! ### One direction of a connection -/

namespace Tcp

/-- The key and the count of what was read last. -/
def reads (t : Tcp Key) : Option (Key × UInt64) := t.stream.encrypt.map fun e => (e.key, e.decSeq)

/-- The key and the count of what was sent last. -/
def writes (t : Tcp Key) : Option (Key × UInt64) := t.stream.encrypt.map fun e => (e.key, e.encSeq)

end Tcp

variable {box : Secretbox Key} {key : Option Key} {r s : Tcp Key} {net rest msg : Bytes}
  {msgs : List Bytes}

/-- The receiver has yet to read the messages, and then the rest. -/
structure Carries (box : Secretbox Key) (key : Option Key) (r : Tcp Key) (net : Bytes)
    (msgs : List Bytes) (rest : Bytes) : Prop where
  keyed : r.reads.map Prod.fst = key
  unpeeked : r.stream.peekBuffer = none
  pending : Pending r.stream.codec (r.buf ++ net) (framesFrom box r.reads msgs) rest
  fits : ∀ msg ∈ msgs, Fits box key msg

/-- The sender is as many messages ahead of the receiver as are on the way. -/
structure InStep (key : Option Key) (s r : Tcp Key) (msgs : List Bytes) : Prop where
  framed : s.stream.codec.raw = false
  keyed : s.writes.map Prod.fst = key
  count : s.writes = forward msgs.length r.reads

theorem decode_of_pull_item {codec codec' : BytesCodec} {buf buf' frame : Bytes}
    (h : codec.pull buf = .item frame codec' buf') :
    codec.decode buf = (.ok (some frame), codec', buf') := by
  unfold BytesCodec.pull at h
  split at h
  · rename_i heq
    cases h
    exact heq
  · cases h
  · cases h

theorem decode_of_pull_more {codec codec' : BytesCodec} {buf buf' : Bytes}
    (h : codec.pull buf = .more codec' buf') : codec.decode buf = (.ok none, codec', buf') := by
  unfold BytesCodec.pull at h
  split at h
  · cases h
  · rename_i heq
    cases h
    exact heq
  · cases h

/-- A poll that reads a frame opens it, and counts it. -/
theorem next_item {codec : BytesCodec} {buf : Bytes} (hopens : Opens box key)
    (hkey : r.reads.map Prod.fst = key) (hpeek : r.stream.peekBuffer = none) {frame : Bytes}
    {frames : List Bytes} (hframes : framesFrom box r.reads msgs = frame :: frames)
    (hp : r.stream.codec.pull r.buf = .item frame codec buf) :
    ∃ m ms r', msgs = m :: ms ∧ r.next box = (r', some (.ok m)) ∧ r'.buf = buf ∧
      r'.stream.codec = codec ∧ r'.stream.peekBuffer = none ∧ r'.reads = forward 1 r.reads ∧
      r'.writes = r.writes ∧ framesFrom box r'.reads ms = frames := by
  obtain ⟨⟨c, encrypt, peek⟩, b⟩ := r
  obtain rfl : peek = none := hpeek
  have hdecode := decode_of_pull_item hp
  cases msgs with
  | nil => cases encrypt <;> cases hframes
  | cons m ms =>
    cases encrypt with
    | none =>
      obtain ⟨rfl, rfl⟩ := List.cons.inj hframes
      refine ⟨m, ms, ⟨⟨codec, none, none⟩, buf⟩, rfl, ?_, rfl, rfl, rfl, rfl, rfl, rfl⟩
      unfold Tcp.next
      simp only [hdecode, FramedStream.next_]
    | some e =>
      obtain ⟨k, encSeq, decSeq⟩ := e
      obtain ⟨rfl, rfl⟩ := List.cons.inj hframes
      subst hkey
      obtain ⟨hopen, hlong⟩ := hopens (decSeq + 1) m
      refine ⟨m, ms, ⟨⟨codec, some ⟨k, encSeq, decSeq + 1⟩, none⟩, buf⟩, rfl, ?_, rfl, rfl, rfl,
        rfl, rfl, rfl⟩
      unfold Tcp.next
      simp only [hdecode, FramedStream.next_, Encrypt.dec, frameAt, if_neg (Nat.not_le.mpr hlong),
        hopen]

theorem next_more {codec : BytesCodec} {buf : Bytes} (hpeek : r.stream.peekBuffer = none)
    (hp : r.stream.codec.pull r.buf = .more codec buf) :
    r.next box = (⟨{ r.stream with codec }, buf⟩, none) := by
  unfold Tcp.next
  simp only [hpeek, decode_of_pull_more hp]

namespace Carries

/-- A poll waits, and nothing has changed; or it gives the first of the messages. -/
theorem next (h : Carries box key r net msgs rest) (hopens : Opens box key)
    (hmore : msgs ≠ [] ∨ rest = []) :
    (∃ r', r.next box = (r', none) ∧ Carries box key r' net msgs rest ∧ r'.reads = r.reads ∧
      r'.writes = r.writes) ∨
    ∃ m ms r', msgs = m :: ms ∧ r.next box = (r', some (.ok m)) ∧
      Carries box key r' net ms rest ∧ r'.reads = forward 1 r.reads ∧ r'.writes = r.writes := by
  have hsize : ∀ f ∈ framesFrom box r.reads msgs, f.length ≤ 0x3FFFFFFF := by
    refine framesFrom_fits fun m hm => ?_
    rw [h.keyed]
    exact h.fits m hm
  have hframes : framesFrom box r.reads msgs ≠ [] ∨ rest = [] := by
    refine hmore.imp_left fun hne => ?_
    cases msgs with
    | nil => exact absurd rfl hne
    | cons m ms =>
      cases hr : r.reads with
      | none => exact List.cons_ne_nil _ _
      | some x => exact List.cons_ne_nil _ _
  rcases h.pending.pull hsize hframes with ⟨codec, buf, hp, hpending⟩ |
    ⟨frame, frames, codec, buf, heq, hp, hpending⟩
  · exact .inl ⟨_, next_more h.unpeeked hp, ⟨h.keyed, h.unpeeked, hpending, h.fits⟩, rfl, rfl⟩
  · obtain ⟨m, ms, r', rfl, hnext, rfl, rfl, hpeek, hreads, hwrites, rfl⟩ :=
      next_item hopens h.keyed h.unpeeked heq hp
    refine .inr ⟨m, ms, r', rfl, hnext, ⟨?_, hpeek, hpending, ?_⟩, hreads, hwrites⟩
    · rw [hreads, ← h.keyed]
      cases r.reads <;> rfl
    · exact fun m' hm' => h.fits m' (List.mem_cons_of_mem m hm')

/-- Bytes arrive where the network cuts them. -/
theorem receive (h : Carries box key r net msgs rest) (n : Nat) :
    Carries box key (r.receive (net.take n)) (net.drop n) msgs rest where
  keyed := h.keyed
  unpeeked := h.unpeeked
  pending := by
    rw [Tcp.receive, List.append_assoc, List.take_append_drop]
    exact h.pending
  fits := h.fits

/-- Raw bytes follow what is there. -/
theorem append_rest (h : Carries box key r net msgs rest) (more : Bytes) :
    Carries box key r (net ++ more) msgs (rest ++ more) where
  keyed := h.keyed
  unpeeked := h.unpeeked
  pending := by
    rw [← List.append_assoc]
    exact h.pending.append_rest more
  fits := h.fits

/-- What an endpoint sends does not touch what it has yet to read. -/
theorem of_sendRaw (h : Carries box key r net msgs rest) (msg : Bytes) :
    Carries box key (r.sendRaw box msg).1 net msgs rest := by
  obtain ⟨⟨c, encrypt, peek⟩, b⟩ := r
  cases encrypt with
  | none => exact h
  | some e => exact ⟨h.keyed, h.unpeeked, h.pending, h.fits⟩

/-- Without messages, what is there is the rest. -/
theorem eq_rest (h : Carries box key r net [] rest) : r.buf ++ net = rest := by
  have hpending := h.pending
  rw [show framesFrom box r.reads [] = [] by cases r.reads <;> rfl] at hpending
  exact hpending.eq_rest.1

end Carries

/-- A framed sender counts its message and puts the frame on the wire. -/
theorem sendRaw_spec (hframed : s.stream.codec.raw = false)
    (hfits : Fits box (s.writes.map Prod.fst) msg) :
    (s.sendRaw box msg).1.stream.codec = s.stream.codec ∧
      (s.sendRaw box msg).1.writes = forward 1 s.writes ∧
      ∃ frame, framesFrom box s.writes [msg] = [frame] ∧
        (s.sendRaw box msg).2 = header frame.length ++ frame := by
  obtain ⟨⟨c, encrypt, peek⟩, b⟩ := s
  have sent {stream : FramedStream Key} {frame : Bytes} (hraw : stream.codec.raw = false)
      (hlen : frame.length ≤ 0x3FFFFFFF) :
      Tcp.sendBytes ⟨stream, b⟩ frame = header frame.length ++ frame := by
    rw [Tcp.sendBytes, BytesCodec.encode_eq hraw hlen []]
    rfl
  cases encrypt with
  | none => exact ⟨rfl, rfl, msg, rfl, sent hframed (hfits 0)⟩
  | some e => exact ⟨rfl, rfl, _, rfl, sent hframed (hfits (e.encSeq + 1))⟩

namespace InStep

/-- A message is put behind the others. -/
theorem send (hin : InStep key s r msgs) (h : Carries box key r net msgs [])
    (hfits : Fits box key msg) :
    InStep key (s.sendRaw box msg).1 r (msgs ++ [msg]) ∧
      Carries box key r (net ++ (s.sendRaw box msg).2) (msgs ++ [msg]) [] := by
  obtain ⟨hcodec, hwrites, frame, hframe, hsent⟩ :=
    sendRaw_spec hin.framed (by rw [hin.keyed]; exact hfits)
  constructor
  · refine ⟨?_, ?_, ?_⟩
    · rw [hcodec]
      exact hin.framed
    · rw [hwrites, ← hin.keyed]
      cases s.writes <;> rfl
    · rw [hwrites, hin.count, forward_forward, List.length_append]
      rfl
  · refine ⟨h.keyed, h.unpeeked, ?_, ?_⟩
    · rw [framesFrom_append, ← hin.count, hframe, hsent, ← List.append_assoc]
      exact h.pending.append_frame frame
    · intro m hm
      rcases List.mem_append.mp hm with hm | hm
      · exact h.fits m hm
      · exact List.mem_singleton.mp hm ▸ hfits

/-- The receiver waits, or reads the first of the messages. -/
theorem of_reads (hin : InStep key s r msgs) {r' : Tcp Key} (hreads : r'.reads = r.reads) :
    InStep key s r' msgs := ⟨hin.framed, hin.keyed, by rw [hreads]; exact hin.count⟩

theorem of_next {m : Bytes} {ms : List Bytes} (hin : InStep key s r (m :: ms)) {r' : Tcp Key}
    (hreads : r'.reads = forward 1 r.reads) : InStep key s r' ms := by
  refine ⟨hin.framed, hin.keyed, ?_⟩
  rw [hreads, forward_forward, hin.count, List.length_cons, Nat.add_comm]

/-- What the sender does as a receiver does not count here. -/
theorem of_writes (hin : InStep key s r msgs) {s' : Tcp Key} (hwrites : s'.writes = s.writes)
    (hframed : s'.stream.codec.raw = false) : InStep key s' r msgs :=
  ⟨hframed, hwrites ▸ hin.keyed, hwrites ▸ hin.count⟩

theorem of_sendRaw (hin : InStep key s r msgs) (box : Secretbox Key) (msg : Bytes) :
    InStep key s (r.sendRaw box msg).1 msgs := by
  obtain ⟨⟨c, encrypt, peek⟩, b⟩ := r
  cases encrypt with
  | none => exact hin
  | some e => exact ⟨hin.framed, hin.keyed, hin.count⟩

end InStep

/-- Two ends with the same key, and nothing on the way. -/
theorem Carries.new (box : Secretbox Key) (key : Option Key) :
    Carries box key (.new key) [] [] [] := by
  cases key with
  | none => exact ⟨rfl, rfl, .head [] [], by simp⟩
  | some key => exact ⟨rfl, rfl, .head [] [], by simp⟩

theorem InStep.new (key : Option Key) : InStep key (.new key) (.new key) [] := by
  cases key with
  | none => exact ⟨rfl, rfl, rfl⟩
  | some key => exact ⟨rfl, rfl, rfl⟩

/-! ### Raw bytes -/

/-- The receiver takes bytes as they are. -/
structure Raw (t : Tcp Key) : Prop where
  raw : t.stream.codec.raw = true
  plain : t.stream.encrypt = none
  unpeeked : t.stream.peekBuffer = none

theorem Raw.of_setRaw (hpeek : r.stream.peekBuffer = none) : Raw r.setRaw := ⟨rfl, rfl, hpeek⟩

/-- A poll gives all that has arrived. -/
theorem Raw.next (h : Raw r) (box : Secretbox Key) : (r.buf = [] ∧ r.next box = (r, none)) ∨
    (r.buf ≠ [] ∧ r.next box = ({ r with buf := [] }, some (.ok r.buf))) := by
  obtain ⟨⟨c, encrypt, peek⟩, b⟩ := r
  obtain ⟨hraw, hplain, hpeek⟩ := h
  dsimp only at hraw hplain hpeek
  subst hplain hpeek
  cases b with
  | nil =>
    refine .inl ⟨rfl, ?_⟩
    simp [Tcp.next, BytesCodec.decode, hraw]
  | cons x b =>
    refine .inr ⟨List.cons_ne_nil _ _, ?_⟩
    simp [Tcp.next, BytesCodec.decode, hraw, FramedStream.next_]

theorem Raw.sendBytes (h : Raw r) (data : Bytes) : r.sendBytes data = data := by
  simp [Tcp.sendBytes, BytesCodec.encode, h.raw]

end HopToDesk.Wire
