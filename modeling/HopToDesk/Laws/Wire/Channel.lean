import HopToDesk.Laws.Wire.FramedStream
import HopToDesk.Wire.Channel

/-!
# The channel's laws

What two endpoints with one key and a network that does not forge can rely on.

The record of an endpoint determines its counters (`Endpoint.Ok`): the next seal is numbered by the
payloads sent, the next opening by the frames longer than one byte that arrived. So the two
directions number their nonces alike: the n-th seal of one side and the n-th of the other share a
nonce, and no other two do (`nonces_distinct`). What is opened was sealed by one side or the other
at the place the receiver has counted to (`World.Ok`), and a network that does not hand an
endpoint's frames back to it leaves only the other side (`InStep`).
-/

set_option autoImplicit false

namespace HopToDesk.Wire.Channel

open Kit

variable {Key : Type} {box : Secretbox Key} {key : Key}

/-! ## One endpoint -/

/-- The `i`-th seal an endpoint makes, counted from zero. -/
def nthSeal (key : Key) (i : Nat) (msg : Bytes) : SealCall Key :=
  ⟨msg, getNonce (.ofNat (i + 1)), key⟩

/-- The record agrees with the stream: the counters count what was sent and what arrived, the wire
holds one seal for each payload, and what was taken has been handed over or is in the buffer. -/
structure Endpoint.Ok (key : Key) (e : Endpoint Key) : Prop where
  encrypt : e.stream.encrypt = some ⟨key, .ofNat e.sent.length, .ofNat e.longs⟩
  wire : e.wire = e.sent.mapIdx fun i msg => .sealedBy (nthSeal key i msg)
  handed : e.delivered ++ e.stream.peekBuffer.toList = e.accepted.map (·.payload)
  ascending : (e.accepted.filter Accepted.long).Pairwise (·.seq < ·.seq)
  counted : ∀ x ∈ e.accepted, x.seq ≤ e.longs

namespace Endpoint

theorem new_ok (key : Key) : (new key).Ok key where
  encrypt := rfl
  wire := rfl
  handed := rfl
  ascending := .nil
  counted := by simp [new]

theorem Ok.sendRaw {e : Endpoint Key} (h : e.Ok key) (msg : Bytes) : (e.sendRaw msg).Ok key := by
  unfold Endpoint.sendRaw FramedStream.sendRaw
  rw [h.encrypt]
  exact
    { encrypt := by simp [Encrypt.enc]
      wire := by simp [Encrypt.enc, List.mapIdx_concat, h.wire, nthSeal]
      handed := h.handed
      ascending := h.ascending
      counted := h.counted }

/-- The seals of an endpoint, in order. -/
theorem Ok.sealCalls {e : Endpoint Key} (h : e.Ok key) :
    e.sealCalls = e.sent.mapIdx (nthSeal key) := by
  have seals (l : List Bytes) (f : Nat → Bytes → SealCall Key) :
      (l.mapIdx fun i msg => Outgoing.sealedBy (f i msg)).filterMap Outgoing.sealCall? =
        l.mapIdx f := by
    induction l generalizing f with
    | nil => rfl
    | cons msg l ih =>
      rw [List.mapIdx_cons, List.mapIdx_cons, List.filterMap_cons, Outgoing.sealCall?, ih]
  rw [Endpoint.sealCalls, h.wire, seals]

theorem Ok.nonces {e : Endpoint Key} (h : e.Ok key) :
    e.nonces = (List.range e.sent.length).map fun i => getNonce (.ofNat (i + 1)) := by
  rw [Endpoint.nonces, h.sealCalls]
  apply List.ext_getElem
  · simp
  · intro i _ _
    simp [nthSeal]

/-- A seal among an endpoint's calls is the one it made for a payload it sent. -/
theorem Ok.mem_sealCalls {e : Endpoint Key} (h : e.Ok key) {c : SealCall Key} :
    c ∈ e.sealCalls ↔ ∃ i msg, e.sent[i]? = some msg ∧ c = nthSeal key i msg := by
  rw [h.sealCalls, List.mem_mapIdx]
  constructor
  · rintro ⟨i, hi, rfl⟩
    exact ⟨i, e.sent[i], List.getElem?_eq_getElem hi, rfl⟩
  · rintro ⟨i, msg, hmsg, rfl⟩
    obtain ⟨hi, rfl⟩ := List.getElem?_eq_some_iff.mp hmsg
    exact ⟨i, hi, rfl⟩

/-- The frame the endpoint put on the wire for its `i`-th payload. -/
theorem Ok.wire_bytes {e : Endpoint Key} (h : e.Ok key) (i : Nat) :
    (e.wire[i]?).map (·.bytes box) = (e.sent[i]?).map fun msg => (nthSeal key i msg).frame box := by
  rw [h.wire, List.getElem?_mapIdx, Option.map_map]
  rfl

/-- The count of long frames after one more has arrived. -/
def after (longs : Nat) (frame : Bytes) : Nat := if frame.length ≤ 1 then longs else longs + 1

/-- What a frame gives at a given count: itself, when it is short, and otherwise what it is opened
to under the next nonce. -/
def opened (box : Secretbox Key) (key : Key) (longs : Nat) (frame : Bytes) : Option Bytes :=
  if frame.length ≤ 1 then some frame
  else box.openWith frame (getNonce (.ofNat (longs + 1))) key

/-- How a request moves the record: it takes nothing, it takes a frame that gives a payload, or it
takes one that is refused. -/
inductive Took (box : Secretbox Key) (key : Key) (e : Endpoint Key) (res : Arrival)
    (e' : Endpoint Key) : Prop
  | nothing (accepted : e'.accepted = e.accepted) (longs : e'.longs = e.longs)
      (failed : e'.failed = e.failed)
  | payload {frame payload : Bytes} (arrived : res = some (.ok frame))
      (opens : opened box key e.longs frame = some payload)
      (accepted : e'.accepted = e.accepted ++ [⟨after e.longs frame, frame, payload⟩])
      (longs : e'.longs = after e.longs frame) (failed : e'.failed = e.failed)
  | refused {frame : Bytes} (arrived : res = some (.ok frame))
      (refuses : opened box key e.longs frame = none)
      (accepted : e'.accepted = e.accepted) (longs : e'.longs = after e.longs frame)
      (failed : e'.failed = true)

/-- `next_`, under a key whose counters are known. -/
theorem nextFrame_eq {stream : FramedStream Key} {sends longs : Nat}
    (h : stream.encrypt = some ⟨key, .ofNat sends, .ofNat longs⟩) (frame : Bytes) :
    stream.next_ box (some (.ok frame)) =
      ({ stream with encrypt := some ⟨key, .ofNat sends, .ofNat (after longs frame)⟩ },
        some (match opened box key longs frame with
          | some payload => .ok payload
          | none => .error ⟨.other, "decryption error"⟩)) := by
  unfold FramedStream.next_ after opened
  rw [h]
  rcases Encrypt.dec_cases box ⟨key, .ofNat sends, .ofNat longs⟩ frame with
    ⟨hl, hd⟩ | ⟨hl, msg, ho, hd⟩ | ⟨hl, ho, hd⟩
  · simp only [hd, if_pos hl]
  · have hl' : ¬ frame.length ≤ 1 := Nat.not_le.mpr hl
    rw [ofNat_add_one] at ho
    simp only [hd, if_neg hl', ho, ofNat_add_one]
  · have hl' : ¬ frame.length ≤ 1 := Nat.not_le.mpr hl
    rw [ofNat_add_one] at ho
    simp only [hd, if_neg hl', ho, ofNat_add_one]

/-- A transport that gives no frame leaves the stream as it is. -/
theorem nextFrame_idle {stream : FramedStream Key} {res : Arrival}
    (h : ∀ frame, res ≠ some (.ok frame)) : stream.next_ box res = (stream, res) := by
  unfold FramedStream.next_
  split
  · exact absurd rfl (h _)
  · rfl

theorem nextFrame_peekBuffer (stream : FramedStream Key) (res : Arrival) :
    (stream.next_ box res).1.peekBuffer = stream.peekBuffer := by
  unfold FramedStream.next_
  split <;> rfl

theorem record_delivered (e : Endpoint Key) (res given : Arrival) :
    (e.record res given).delivered = e.delivered := by
  unfold record
  split
  · dsimp only
    split <;> rfl
  · rfl

/-- One more frame keeps the count of those before it. -/
theorem Ok.snoc_accepted {e : Endpoint Key} (h : e.Ok key) (frame payload : Bytes) :
    ((e.accepted ++ [(⟨after e.longs frame, frame, payload⟩ : Accepted)]).filter
        Accepted.long).Pairwise (·.seq < ·.seq) ∧
      ∀ x ∈ e.accepted ++ [(⟨after e.longs frame, frame, payload⟩ : Accepted)],
        x.seq ≤ after e.longs frame := by
  have hle : e.longs ≤ after e.longs frame := by
    unfold after
    split_ifs <;> omega
  constructor
  · rw [List.filter_append, List.pairwise_append]
    refine ⟨h.ascending, ?_, ?_⟩
    · exact (List.pairwise_singleton _ _).filter _
    · intro x hx y hy
      rw [List.mem_filter, List.mem_singleton] at hy
      obtain ⟨rfl, hlong⟩ := hy
      have hx' := h.counted x (List.mem_of_mem_filter hx)
      simp only [Accepted.long, decide_eq_true_eq] at hlong
      rw [after, if_neg (by omega)]
      exact Nat.lt_succ_of_le hx'
  · intro x hx
    rw [List.mem_append, List.mem_singleton] at hx
    rcases hx with hx | rfl
    · exact (h.counted x hx).trans hle
    · exact Nat.le_refl _

/-- A request for a payload moves the record in one of three ways, and the record goes on agreeing
with the stream. -/
structure Moved (box : Secretbox Key) (key : Key) (e : Endpoint Key) (res : Arrival)
    (e' : Endpoint Key) : Prop where
  ok : e'.Ok key
  sent : e'.sent = e.sent
  wire : e'.wire = e.wire
  took : Took box key e res e'

/-- The payload an answer carries, if it carries one. -/
def payloads : Arrival → List Bytes
  | some (.ok payload) => [payload]
  | _ => []

/-- What `next` and `peek` share: the transport was asked, and the payload it gave, if any, is
either handed over or kept. -/
theorem Ok.fresh {e : Endpoint Key} (h : e.Ok key) (hb : e.stream.peekBuffer = none)
    {res given : Arrival} {stream : FramedStream Key}
    (hn : e.stream.next_ box res = (stream, given)) {kept : FramedStream Key}
    {delivered : List Bytes} (henc : kept.encrypt = stream.encrypt)
    (hgiven : delivered ++ kept.peekBuffer.toList = e.delivered ++ payloads given) :
    Moved box key e res { e.record res given with stream := kept, delivered } := by
  have handed := h.handed
  rw [hb, Option.toList_none, List.append_nil] at handed
  by_cases hf : ∃ frame, res = some (.ok frame)
  · obtain ⟨frame, rfl⟩ := hf
    have hle : e.longs ≤ after e.longs frame := by
      unfold after
      split_ifs <;> omega
    rw [nextFrame_eq h.encrypt] at hn
    cases ho : opened box key e.longs frame with
    | some payload =>
      simp only [ho] at hn
      obtain ⟨rfl, rfl⟩ := Prod.mk.inj hn
      obtain ⟨ascending, counted⟩ := h.snoc_accepted frame payload
      refine ⟨⟨henc, h.wire, ?_, ascending, counted⟩, rfl, rfl, .payload rfl ho rfl rfl rfl⟩
      show delivered ++ kept.peekBuffer.toList = (e.accepted ++ [_]).map _
      rw [hgiven, List.map_append, ← handed]
      rfl
    | none =>
      simp only [ho] at hn
      obtain ⟨rfl, rfl⟩ := Prod.mk.inj hn
      refine ⟨⟨henc, h.wire, ?_, h.ascending, fun x hx => (h.counted x hx).trans hle⟩, rfl, rfl,
        .refused rfl ho rfl rfl rfl⟩
      show delivered ++ kept.peekBuffer.toList = e.accepted.map _
      rw [hgiven, ← handed]
      exact List.append_nil _
  · have hf' : ∀ frame, res ≠ some (.ok frame) := fun frame he => hf ⟨frame, he⟩
    rw [nextFrame_idle hf'] at hn
    obtain ⟨rfl, rfl⟩ := Prod.mk.inj hn
    have hrec : e.record res res = e := by
      unfold record
      split
      · exact absurd rfl (hf' _)
      · rfl
    have hnone : payloads res = [] := by
      unfold payloads
      split
      · exact absurd rfl (hf' _)
      · rfl
    rw [hrec]
    refine ⟨⟨henc.trans h.encrypt, h.wire, ?_, h.ascending, h.counted⟩, rfl, rfl,
      .nothing rfl rfl rfl⟩
    show delivered ++ kept.peekBuffer.toList = e.accepted.map _
    rw [hgiven, hnone, List.append_nil, handed]

theorem Ok.next {e : Endpoint Key} (h : e.Ok key) (res : Arrival) :
    Moved box key e res (e.next box res) := by
  unfold Endpoint.next FramedStream.next recordFresh
  cases hb : e.stream.peekBuffer with
  | some bytes =>
    have handed := h.handed
    rw [hb, Option.toList_some] at handed
    refine ⟨⟨h.encrypt, h.wire, ?_, h.ascending, h.counted⟩, rfl, rfl, .nothing rfl rfl rfl⟩
    exact (List.append_nil _).trans handed
  | none =>
    rcases hn : e.stream.next_ box res with ⟨stream, given⟩
    have hbuf : stream.peekBuffer = none := by
      rw [← hb, ← show (e.stream.next_ box res).1 = stream by rw [hn]]
      exact nextFrame_peekBuffer ..
    refine h.fresh hb hn rfl ?_
    rw [hbuf]
    unfold payloads
    split <;> simp

theorem Ok.peek {e : Endpoint Key} (h : e.Ok key) (res : Arrival) :
    Moved box key e res (e.peek box res) := by
  unfold Endpoint.peek FramedStream.peek recordFresh
  cases hb : e.stream.peekBuffer with
  | some bytes =>
    have handed := h.handed
    exact ⟨⟨h.encrypt, h.wire, handed, h.ascending, h.counted⟩, rfl, rfl, .nothing rfl rfl rfl⟩
  | none =>
    rcases hn : e.stream.next_ box res with ⟨stream, given⟩
    have hbuf : stream.peekBuffer = none := by
      rw [← hb, ← show (e.stream.next_ box res).1 = stream by rw [hn]]
      exact nextFrame_peekBuffer ..
    have hrec : (e.record res given).delivered = e.delivered := record_delivered ..
    rcases given with _ | err | payload
    · exact h.fresh hb hn rfl (congrArg₂ (· ++ ·) hrec (congrArg Option.toList hbuf))
    · exact h.fresh hb hn rfl (congrArg₂ (· ++ ·) hrec (congrArg Option.toList hbuf))
    · exact h.fresh hb hn rfl (congrArg (· ++ [payload]) hrec)

end Endpoint

/-! ## Both endpoints -/

/-- Where a payload that was taken came from. A short frame is its own payload. Any other was
sealed by one of the two sides, and the receiver had counted, up to whole turns of the counter, to
the place it was sealed at. -/
def World.Origin (box : Secretbox Key) (key : Key) (w : World Key) (x : Accepted) : Prop :=
  (x.long = false → x.payload = x.frame) ∧
  (x.long = true → ∃ side i, (w side).sent[i]? = some x.payload ∧
    (i + 1) % 2 ^ 64 = x.seq % 2 ^ 64 ∧ (nthSeal key i x.payload).frame box = x.frame)

structure World.Ok (box : Secretbox Key) (key : Key) (w : World Key) : Prop where
  endpoint : ∀ side, (w side).Ok key
  origin : ∀ side, ∀ x ∈ (w side).accepted, w.Origin box key x

/-- An action moves one side, by sending or by a request. -/
inductive Moves (box : Secretbox Key) (key : Key) (w : World Key) (act : Action)
    (w' : World Key) : Prop
  | sends {side : Side} {msg : Bytes}
      (updated : w' = Function.update w side ((w side).sendRaw msg))
  | asks {side : Side} {res : Arrival} {e' : Endpoint Key}
      (brings : ∀ frame, res = some (.ok frame) → act.brings = some (side, frame))
      (moved : Endpoint.Moved box key (w side) res e')
      (updated : w' = Function.update w side e')

theorem World.Ok.moves {w : World Key} (h : w.Ok box key) (act : Action) :
    Moves box key w act (w.step box act) := by
  cases act with
  | sendRaw side msg => exact .sends rfl
  | next side res => exact .asks (by rintro frame rfl; rfl) ((h.endpoint side).next res) rfl
  | peek side res => exact .asks (by rintro frame rfl; rfl) ((h.endpoint side).peek res) rfl

/-- What was sent stays sent. -/
theorem Moves.sent {w w' : World Key} {act : Action} (h : Moves box key w act w') (side : Side) :
    (w side).sent <+: (w' side).sent := by
  cases h with
  | @sends s msg hto =>
    subst hto
    by_cases hs : side = s
    · subst hs
      rw [Function.update_self]
      exact List.prefix_append _ _
    · rw [Function.update_of_ne hs]
  | @asks s res e' _ hm hto =>
    subst hto
    by_cases hs : side = s
    · subst hs
      rw [Function.update_self, hm.sent]
    · rw [Function.update_of_ne hs]

theorem getElem?_of_prefix {l l' : List Bytes} (h : l <+: l') {i : Nat} {msg : Bytes}
    (hi : l[i]? = some msg) : l'[i]? = some msg := by
  obtain ⟨t, rfl⟩ := h
  obtain ⟨hlt, -⟩ := List.getElem?_eq_some_iff.mp hi
  rw [List.getElem?_append_left hlt, hi]

theorem World.Origin.mono {w w' : World Key} {act : Action} (hw : Moves box key w act w')
    {x : Accepted} (h : w.Origin box key x) : w'.Origin box key x := by
  refine ⟨h.1, fun hl => ?_⟩
  obtain ⟨side, i, hsent, hseq, hframe⟩ := h.2 hl
  exact ⟨side, i, getElem?_of_prefix (hw.sent side) hsent, hseq, hframe⟩

/-- The calls of `seal` so far, on both sides. -/
def World.sealCalls (w : World Key) : List (SealCall Key) :=
  (w .a).sealCalls ++ (w .b).sealCalls

theorem World.Ok.mem_sealCalls {w : World Key} (h : w.Ok box key) {c : SealCall Key} :
    c ∈ w.sealCalls ↔
      ∃ side i msg, (w side).sent[i]? = some msg ∧ c = nthSeal key i msg := by
  rw [World.sealCalls, List.mem_append, (h.endpoint .a).mem_sealCalls,
    (h.endpoint .b).mem_sealCalls]
  constructor
  · rintro (hc | hc)
    · exact ⟨.a, hc⟩
    · exact ⟨.b, hc⟩
  · rintro ⟨_ | _, hc⟩
    · exact .inl hc
    · exact .inr hc

/-- What a frame is opened to was sealed by one of the sides. -/
theorem World.Ok.opened_origin {w : World Key} (h : w.Ok box key) {longs : Nat}
    {frame payload : Bytes} (hideal : box.Ideal key w.sealCalls frame)
    (ho : Endpoint.opened box key longs frame = some payload) :
    w.Origin box key ⟨Endpoint.after longs frame, frame, payload⟩ := by
  unfold Endpoint.opened at ho
  unfold Endpoint.after
  by_cases hs : frame.length ≤ 1
  · rw [if_pos hs] at ho
    refine ⟨fun _ => (Option.some.inj ho).symm, fun hl => ?_⟩
    simp only [Accepted.long, decide_eq_true_eq] at hl
    exact absurd hs (Nat.not_le.mpr hl)
  · rw [if_neg hs] at ho
    rw [if_neg hs]
    refine ⟨fun hl => ?_, fun _ => ?_⟩
    · simp only [Accepted.long, decide_eq_false_iff_not] at hl
      exact absurd (Nat.not_le.mp hs) hl
    · obtain ⟨c, hc, hnonce, -, hmsg, hframe⟩ := (hideal _ _).mp ho
      obtain ⟨side, i, msg, hsent, rfl⟩ := h.mem_sealCalls.mp hc
      obtain rfl : msg = payload := hmsg
      exact ⟨side, i, hsent, getNonce_ofNat_inj.mp hnonce, hframe⟩

theorem new_ok : World.Ok box key fun _ => Endpoint.new key where
  endpoint _ := Endpoint.new_ok key
  origin _ x hx := by simp [Endpoint.new] at hx

/-- A step of `ok`: the records go on agreeing with the streams, and a payload taken in it has an
origin. -/
theorem World.Ok.step {w : World Key} (h : w.Ok box key) {act : Action}
    (hu : w.Unforged box key act) : (w.step box act).Ok box key := by
  have hmoves := h.moves act
  have keeps : ∀ side, ∀ x ∈ (w side).accepted, (w.step box act).Origin box key x :=
    fun side x hx => (h.origin side x hx).mono hmoves
  have keeps_new {x : Accepted} (hx : w.Origin box key x) :
      (w.step box act).Origin box key x := hx.mono hmoves
  cases hmoves with
  | @sends s msg hto =>
    rw [hto] at keeps ⊢
    constructor
    · intro side
      by_cases hs : side = s
      · subst hs
        rw [Function.update_self]
        exact (h.endpoint side).sendRaw msg
      · rw [Function.update_of_ne hs]
        exact h.endpoint side
    · intro side x hx
      by_cases hs : side = s
      · subst hs
        rw [Function.update_self] at hx
        exact keeps side x hx
      · rw [Function.update_of_ne hs] at hx
        exact keeps side x hx
  | @asks s res e' hbrings hm hto =>
    rw [hto] at keeps keeps_new ⊢
    constructor
    · intro side
      by_cases hs : side = s
      · subst hs
        rw [Function.update_self]
        exact hm.ok
      · rw [Function.update_of_ne hs]
        exact h.endpoint side
    · intro side x hx
      by_cases hs : side = s
      · subst hs
        rw [Function.update_self] at hx
        cases hm.took with
        | nothing haccepted => exact keeps side x (haccepted ▸ hx)
        | refused _ _ haccepted => exact keeps side x (haccepted ▸ hx)
        | payload hres hopens haccepted =>
          rw [haccepted, List.mem_append, List.mem_singleton] at hx
          rcases hx with hx | rfl
          · exact keeps side x hx
          · exact keeps_new (h.opened_origin (hu side _ (hbrings _ hres)) hopens)
      · rw [Function.update_of_ne hs] at hx
        exact keeps side x hx

/-- The records agree with the streams, and every payload has an origin, in every run. -/
theorem ok {w : World Key} (h : (channel box key).Reachable w) : w.Ok box key := by
  refine h.invariant ?_ ?_
  · rintro s rfl
    exact new_ok
  · rintro s act s' hs ⟨hu, rfl⟩
    exact hs.step hu

/-! ## Nonces -/

namespace Endpoint

variable {e e' : Endpoint Key}

theorem Ok.nonces_length (h : e.Ok key) : e.nonces.length = e.sent.length := by
  rw [h.nonces, List.length_map, List.length_range]

theorem Ok.nonces_getElem? (h : e.Ok key) (i : Nat) (nonce : Bytes) :
    e.nonces[i]? = some nonce ↔ i < e.sent.length ∧ getNonce (.ofNat (i + 1)) = nonce := by
  rw [h.nonces, List.getElem?_map, Option.map_eq_some_iff]
  constructor
  · rintro ⟨k, hk, rfl⟩
    obtain ⟨hlt, rfl⟩ := List.getElem?_eq_some_iff.mp hk
    rw [List.length_range] at hlt
    rw [List.getElem_range]
    exact ⟨hlt, rfl⟩
  · rintro ⟨hi, rfl⟩
    exact ⟨i, List.getElem?_range hi, rfl⟩

/-- Places below the word's size that give one nonce are one place. -/
theorem place_eq {i j : Nat} (hi : i + 1 < 2 ^ 64) (hj : j + 1 < 2 ^ 64)
    (h : getNonce (.ofNat (i + 1)) = getNonce (.ofNat (j + 1))) : i = j := by
  have hmod := getNonce_ofNat_inj.mp h
  rw [Nat.mod_eq_of_lt hi, Nat.mod_eq_of_lt hj] at hmod
  exact Nat.succ.inj hmod

theorem Ok.nonces_nodup (h : e.Ok key) (hlt : e.sent.length < 2 ^ 64) : e.nonces.Nodup := by
  rw [h.nonces]
  refine List.Nodup.map_on ?_ List.nodup_range
  intro i hi j hj hij
  rw [List.mem_range] at hi hj
  exact place_eq (by omega) (by omega) hij

/-- Two endpoints give one nonce at one place, and at no two places. -/
theorem Ok.nonces_shared (h : e.Ok key) (h' : e'.Ok key) (hlt : e.sent.length < 2 ^ 64)
    (hlt' : e'.sent.length < 2 ^ 64) {i j : Nat} {nonce : Bytes}
    (hi : e.nonces[i]? = some nonce) :
    e'.nonces[j]? = some nonce ↔ i = j ∧ j < e'.nonces.length := by
  obtain ⟨hil, rfl⟩ := (h.nonces_getElem? i nonce).mp hi
  rw [h'.nonces_getElem?, h'.nonces_length]
  constructor
  · rintro ⟨hjl, hn⟩
    exact ⟨place_eq (by omega) (by omega) hn.symm, hjl⟩
  · rintro ⟨rfl, hjl⟩
    exact ⟨hjl, rfl⟩

end Endpoint

/-- The key of the runs below. -/
def demoKey : Bytes := [7]

/-- Sending needs no leave of the network. -/
theorem reach_sends (msgs : List (Side × Bytes)) :
    (channel SecretBox.transparent demoKey).Reachable
      ((msgs.map fun m => Action.sendRaw m.1 m.2).foldl (World.step SecretBox.transparent)
        fun _ => Endpoint.new demoKey) := by
  induction msgs using List.reverseRecOn with
  | nil => exact ⟨[], System.guarded_start⟩
  | append_singleton msgs m ih =>
    obtain ⟨as, hrun⟩ := ih
    refine ⟨as ++ [.sendRaw m.1 m.2], ?_⟩
    rw [List.map_append, List.foldl_append]
    exact hrun.guarded_snoc (.sendRaw m.1 m.2) (by intro side frame h; exact nomatch h)

/-- **Each side's nonces are its own order; the two sides' orders are the same.** Under one key,
with fewer than `2 ^ 64` payloads sent on each side, an endpoint makes one seal for each payload
and never repeats a nonce, and two seals of different sides share a nonce exactly when they have
the same place in their sides' orders. So all nonces are distinct only while one side is silent. -/
theorem nonces_distinct {w : World Key} (h : (channel box key).Reachable w)
    (hlt : ∀ side, (w side).sent.length < 2 ^ 64) :
    (∀ side, (w side).nonces.length = (w side).sent.length ∧ (w side).nonces.Nodup ∧
      ∀ call ∈ (w side).sealCalls, call.key = key) ∧
    (∀ i j nonce, (w .a).nonces[i]? = some nonce →
      ((w .b).nonces[j]? = some nonce ↔ i = j ∧ j < (w .b).nonces.length)) ∧
    (((w .a).nonces ++ (w .b).nonces).Nodup ↔ (w .a).sent = [] ∨ (w .b).sent = []) := by
  have ha := (ok h).endpoint .a
  have hb := (ok h).endpoint .b
  have own (side : Side) := (ok h).endpoint side
  have shared {i j : Nat} {nonce : Bytes} (hi : (w .a).nonces[i]? = some nonce) :=
    ha.nonces_shared hb (hlt .a) (hlt .b) (j := j) hi
  refine ⟨fun side => ⟨(own side).nonces_length, (own side).nonces_nodup (hlt side), ?_⟩,
    fun i j nonce hi => shared hi, ?_⟩
  · intro call hcall
    obtain ⟨i, msg, -, rfl⟩ := (own side).mem_sealCalls.mp hcall
    rfl
  · have nil (side : Side) : (w side).nonces = [] ↔ (w side).sent = [] := by
      rw [← List.length_eq_zero_iff, (own side).nonces_length, List.length_eq_zero_iff]
    rw [← nil .a, ← nil .b]
    constructor
    · intro hnodup
      by_contra hne
      obtain ⟨hane, hbne⟩ := not_or.mp hne
      -- the first seal of each side
      obtain ⟨nonce, as, has⟩ := List.exists_cons_of_ne_nil hane
      have hb0 : (w .b).nonces[0]? = some nonce :=
        (shared (i := 0) (by rw [has]; rfl)).mpr ⟨rfl, List.length_pos_iff.mpr hbne⟩
      have hmem : nonce ∈ (w .b).nonces := List.mem_of_getElem? hb0
      rw [List.nodup_append] at hnodup
      exact hnodup.2.2 nonce (by rw [has]; exact List.mem_cons_self) nonce hmem rfl
    · rintro (hnil | hnil)
      · rw [hnil, List.nil_append]
        exact hb.nonces_nodup (hlt .b)
      · rw [hnil, List.append_nil]
        exact ha.nonces_nodup (hlt .a)

/-- Two payloads on one side and one on the other: the first nonces are the same. -/
theorem nonces_distinct_two_one :
    ∃ w, (channel SecretBox.transparent demoKey).Reachable w ∧
      (w .a).nonces[0]? = some (getNonce 1) ∧ (w .b).nonces[0]? = some (getNonce 1) ∧
      (w .a).nonces[1]? = some (getNonce 2) ∧ (w .a).nonces.Nodup := by
  have hrun := reach_sends [(.a, [10]), (.b, [20]), (.a, [30])]
  have hdistinct := nonces_distinct hrun (by intro side; cases side <;> decide)
  exact ⟨_, hrun, by decide, (hdistinct.2.1 0 0 (getNonce 1) (by decide)).mpr (by decide),
    by decide, (hdistinct.1 .a).2.1⟩

/-- The two directions share a nonce: each side sends one payload, and both seals use the nonce of
counter one. -/
theorem nonces_not_distinct :
    ¬ ∀ w, (channel SecretBox.transparent demoKey).Reachable w →
      (∀ side, (w side).sent.length < 2 ^ 64) → ((w .a).nonces ++ (w .b).nonces).Nodup := by
  intro h
  have hdup := h _ (reach_sends [(.a, [10]), (.b, [20])]) (by intro side; cases side <;> decide)
  exact absurd hdup (by decide)

/-! ## Payloads -/

/-- Without reflection, what a long frame is opened to was sealed by the other side. -/
theorem World.Ok.from_other {w : World Key} (h : w.Ok box key) {side : Side} {longs : Nat}
    {frame payload : Bytes} (hideal : box.Ideal key w.sealCalls frame)
    (hother : ∀ i : Nat, ((w side).wire[i]?).map (·.bytes box) = some frame →
      ((w side.other).wire[i]?).map (·.bytes box) = some frame)
    (hlong : 1 < frame.length) (ho : Endpoint.opened box key longs frame = some payload) :
    ∃ i, (w side.other).sent[i]? = some payload ∧ (i + 1) % 2 ^ 64 = (longs + 1) % 2 ^ 64 := by
  obtain ⟨-, horigin⟩ := h.opened_origin hideal ho
  obtain ⟨s, i, hsent, hseq, hframe⟩ := horigin (decide_eq_true hlong)
  rw [Endpoint.after, if_neg (Nat.not_le.mpr hlong)] at hseq
  by_cases hs : s = side
  · subst hs
    have hwire : ((w s).wire[i]?).map (·.bytes box) = some frame := by
      rw [(h.endpoint s).wire_bytes, hsent]
      exact congrArg some hframe
    have hwire' := hother i hwire
    rw [(h.endpoint s.other).wire_bytes, Option.map_eq_some_iff] at hwire'
    obtain ⟨msg, hmsg, hframe'⟩ := hwire'
    obtain rfl : payload = msg :=
      hideal.msg_eq (h.mem_sealCalls.mpr ⟨s, i, payload, hsent, rfl⟩)
        (h.mem_sealCalls.mpr ⟨s.other, i, msg, hmsg, rfl⟩) rfl rfl rfl hframe hframe'
    exact ⟨i, hmsg, hseq⟩
  · have hs' : s = side.other := by
      cases s <;> cases side <;> first | rfl | exact absurd rfl hs
    exact ⟨i, hs' ▸ hsent, hseq⟩

/-- While nothing has been refused, the receiver has got out of long frames what the other side
sent first, as much of it as the frames it has counted. -/
def InStep (side : Side) (w : World Key) : Prop :=
  (∀ t, (w t).sent.length < 2 ^ 64) → (w side).failed = false →
    (w side).longs ≤ (w side.other).sent.length ∧
    (w side).fromLong = (w side.other).sent.take (w side).longs

theorem Side.other_ne (side : Side) : side.other ≠ side := by cases side <;> decide

/-- A place that agrees with the count up to whole turns of the counter is the place. -/
theorem eq_of_mod_eq {i longs bound : Nat} (hi : i < bound) (hlongs : longs ≤ bound)
    (hbound : bound < 2 ^ 64) (h : (i + 1) % 2 ^ 64 = (longs + 1) % 2 ^ 64) : i = longs := by
  omega

/-- A step of `inStep`. -/
theorem InStep.step {w : World Key} (hok : w.Ok box key) {side : Side} (h : InStep side w)
    {act : Action} (hu : w.Unforged box key act) (hr : w.NotReflected box side act) :
    InStep side (w.step box act) := by
  have hmoves := hok.moves act
  intro hlt hfail
  have hlt' : ∀ t, (w t).sent.length < 2 ^ 64 := fun t =>
    (hmoves.sent t).length_le.trans_lt (hlt t)
  cases hmoves with
  | @sends s msg hto =>
    rw [hto] at hfail ⊢
    by_cases hs : side = s
    · subst hs
      rw [Function.update_self] at hfail
      rw [Function.update_self, Function.update_of_ne side.other_ne]
      exact h hlt' hfail
    · rw [Function.update_of_ne hs] at hfail
      obtain ⟨hle, heq⟩ := h hlt' hfail
      have hs' : side.other = s := by
        cases s <;> cases side <;> first | rfl | exact absurd rfl hs
      rw [Function.update_of_ne hs, hs', Function.update_self]
      rw [hs'] at hle heq
      refine ⟨?_, ?_⟩
      · show (w side).longs ≤ ((w s).sent ++ [msg]).length
        rw [List.length_append]
        omega
      · show (w side).fromLong = ((w s).sent ++ [msg]).take (w side).longs
        rw [List.take_append_of_le_length hle, heq]
  | @asks s res e' hbrings hm hto =>
    rw [hto] at hfail ⊢
    by_cases hs : side = s
    · subst hs
      rw [Function.update_self] at hfail
      rw [Function.update_self, Function.update_of_ne side.other_ne]
      cases hm.took with
      | nothing haccepted hlongs hfailed =>
        rw [Endpoint.fromLong, haccepted, hlongs]
        exact h hlt' (hfailed ▸ hfail)
      | refused _ _ _ _ hfailed => exact absurd (hfailed.symm.trans hfail) (by decide)
      | @payload frame payload hres hopens haccepted hlongs hfailed =>
        obtain ⟨hle, heq⟩ := h hlt' (hfailed ▸ hfail)
        rw [Endpoint.fromLong, haccepted, hlongs, List.filter_append, List.map_append,
          ← Endpoint.fromLong, heq]
        by_cases hshort : frame.length ≤ 1
        · have hlong : Accepted.long ⟨Endpoint.after (w side).longs frame, frame, payload⟩ = false :=
            decide_eq_false (Nat.not_lt.mpr hshort)
          rw [Endpoint.after, if_pos hshort]
          rw [Endpoint.after, if_pos hshort] at hlong
          rw [List.filter_cons_of_neg (by rw [hlong]; decide)]
          exact ⟨hle, List.append_nil _⟩
        · have hlong : Accepted.long ⟨Endpoint.after (w side).longs frame, frame, payload⟩ = true :=
            decide_eq_true (Nat.not_le.mp hshort)
          obtain ⟨i, hsent, hseq⟩ := hok.from_other (hu side frame (hbrings _ hres))
            (hr frame (hbrings _ hres)) (Nat.not_le.mp hshort) hopens
          obtain ⟨hi, hget⟩ := List.getElem?_eq_some_iff.mp hsent
          obtain rfl := eq_of_mod_eq hi hle (hlt' side.other) hseq
          rw [Endpoint.after, if_neg hshort]
          rw [Endpoint.after, if_neg hshort] at hlong
          rw [List.filter_cons_of_pos hlong]
          refine ⟨hi, ?_⟩
          rw [List.take_add_one, hsent]
          rfl
    · rw [Function.update_of_ne hs] at hfail ⊢
      obtain ⟨hle, heq⟩ := h hlt' hfail
      have hsent : (Function.update w s e' side.other).sent = (w side.other).sent := by
        by_cases ho : side.other = s
        · rw [ho, Function.update_self, hm.sent]
        · rw [Function.update_of_ne ho]
      rw [hsent]
      exact ⟨hle, heq⟩

theorem inStep {side : Side} {w : World Key}
    (h : ((channel box key).restrict (World.NotReflected box side)).Reachable w) :
    InStep side w := by
  have both : w.Ok box key ∧ InStep side w := by
    refine h.invariant (I := fun w => w.Ok box key ∧ InStep side w) ?_ ?_
    · rintro s rfl
      exact ⟨new_ok, fun _ _ => ⟨Nat.zero_le _, rfl⟩⟩
    · rintro s act s' ⟨hok, hin⟩ ⟨hr, hu, rfl⟩
      exact ⟨hok.step hu, hin.step hok hu hr⟩
  exact both.2

/-- What has been handed over is the first part of what has been taken. -/
theorem Endpoint.Ok.delivered {e : Endpoint Key} (h : e.Ok key) :
    ∃ taken, taken <+: e.accepted ∧ e.delivered = taken.map (·.payload) := by
  refine ⟨e.accepted.take e.delivered.length, List.take_prefix _ _, ?_⟩
  rw [List.map_take, ← h.handed, List.take_left]

/-- **What `next` delivers, and in what order.** In every run, an endpoint hands over the payloads
of the frames it took, in their order. A frame of at most one byte is its own payload. Any other
was sealed by one of the two endpoints, at the place in that endpoint's order that the receiver has
counted to (up to whole turns of the counter), and the counts only rise. And while nothing has been
refused, if no frame of the endpoint's own is handed back to it and neither side has sent `2 ^ 64`
payloads, the payloads from long frames are the first ones the other endpoint sent. -/
theorem delivered_in_order (side : Side) :
    (∀ w : World Key, (channel box key).Reachable w →
      ∃ taken, taken <+: (w side).accepted ∧ (w side).delivered = taken.map (·.payload) ∧
        (taken.filter Accepted.long).Pairwise (·.seq < ·.seq) ∧
        ∀ x ∈ taken,
          (x.long = false → x.payload = x.frame) ∧
          (x.long = true → ∃ s i, (w s).sent[i]? = some x.payload ∧
            (i + 1) % 2 ^ 64 = x.seq % 2 ^ 64)) ∧
    (∀ w : World Key,
      ((channel box key).restrict (World.NotReflected box side)).Reachable w →
      (∀ t, (w t).sent.length < 2 ^ 64) → (w side).failed = false →
      ∃ taken, taken <+: (w side).accepted ∧ (w side).delivered = taken.map (·.payload) ∧
        (taken.filter Accepted.long).map (·.payload) <+: (w side.other).sent) := by
  constructor
  · intro w h
    have hok := ok h
    obtain ⟨taken, htaken, hdel⟩ := (hok.endpoint side).delivered
    refine ⟨taken, htaken, hdel, ?_, ?_⟩
    · exact (hok.endpoint side).ascending.sublist (htaken.sublist.filter _)
    · intro x hx
      obtain ⟨hshort, hlong⟩ := hok.origin side x (htaken.subset hx)
      refine ⟨hshort, fun hl => ?_⟩
      obtain ⟨s, i, hsent, hseq, -⟩ := hlong hl
      exact ⟨s, i, hsent, hseq⟩
  · intro w h hlt hfail
    obtain ⟨taken, htaken, hdel⟩ := ((ok h.of_restrict).endpoint side).delivered
    obtain ⟨-, heq⟩ := inStep h hlt hfail
    refine ⟨taken, htaken, hdel, ?_⟩
    have hfrom : (taken.filter Accepted.long).map (·.payload) <+: (w side).fromLong :=
      (htaken.filter _).map _
    rw [heq] at hfrom
    exact hfrom.trans (List.take_prefix _ _)

/-- A frame that the transparent box has made, or that reads as nothing it could have made. -/
theorem unforged_next {w : World Bytes} (side : Side) (frame : Bytes)
    (hcalls : ∀ i ≤ frame.length, (frame.drop i).take demoKey.length = demoKey →
      ⟨frame.drop (i + demoKey.length), frame.take i, demoKey⟩ ∈ w.sealCalls) :
    w.Unforged SecretBox.transparent demoKey (.next side (some (.ok frame))) := by
  intro side' frame' h
  obtain ⟨rfl, rfl⟩ := Prod.mk.inj (Option.some.inj h)
  exact SecretBox.transparent_ideal hcalls

/-- A run of the network over the transparent box, one frame further. -/
theorem reach_next {w : World Bytes} (h : (channel SecretBox.transparent demoKey).Reachable w)
    (side : Side) (frame : Bytes)
    (hcalls : ∀ i ≤ frame.length, (frame.drop i).take demoKey.length = demoKey →
      ⟨frame.drop (i + demoKey.length), frame.take i, demoKey⟩ ∈ w.sealCalls) :
    (channel SecretBox.transparent demoKey).Reachable
      (w.step SecretBox.transparent (.next side (some (.ok frame)))) := by
  obtain ⟨as, hrun⟩ := h
  exact ⟨_, hrun.guarded_snoc (.next side (some (.ok frame))) (unforged_next side frame hcalls)⟩

/-- The frame the transparent box makes of a payload at a count. -/
def demoFrame (n : UInt64) (msg : Bytes) : Bytes := getNonce n ++ demoKey ++ msg

/-- The other side sends two payloads, one byte from no one comes in between, and the first two
frames arrive. -/
theorem delivered_in_order_two :
    ∃ w, ((channel SecretBox.transparent demoKey).restrict
        (World.NotReflected SecretBox.transparent .a)).Reachable w ∧
      (w .a).delivered = [[10], [9], [20]] ∧
      ∃ taken, taken <+: (w .a).accepted ∧ (w .a).delivered = taken.map (·.payload) ∧
        (taken.filter Accepted.long).map (·.payload) <+: (w .b).sent := by
  have quiet {w : World Bytes} (hw : (w .a).wire = []) (act : Action) :
      w.NotReflected SecretBox.transparent .a act := by
    intro frame _ i hi
    rw [hw] at hi
    exact nomatch hi
  have sends {w : World Bytes} (side : Side) (msg : Bytes) :
      w.Unforged SecretBox.transparent demoKey (.sendRaw side msg) := by
    intro _ _ h
    exact nomatch h
  have run := System.Run.start (S := (channel SecretBox.transparent demoKey).restrict
    (World.NotReflected SecretBox.transparent .a)) rfl
  have run1 := run.snoc (a := .sendRaw .b [10]) ⟨quiet rfl _, sends .b [10], rfl⟩
  have run2 := run1.snoc (a := .sendRaw .b [20]) ⟨quiet rfl _, sends .b [20], rfl⟩
  have run3 := run2.snoc (a := .next .a (some (.ok (demoFrame 1 [10]))))
    ⟨quiet rfl _, unforged_next .a _ (by decide), rfl⟩
  have run4 := run3.snoc (a := .next .a (some (.ok [9])))
    ⟨quiet rfl _, unforged_next .a _ (by decide), rfl⟩
  have run5 := run4.snoc (a := .next .a (some (.ok (demoFrame 2 [20]))))
    ⟨quiet rfl _, unforged_next .a _ (by decide), rfl⟩
  exact ⟨_, ⟨_, run5⟩, by decide, (delivered_in_order .a).2 _ ⟨_, run5⟩
    (by intro t; cases t <;> decide) (by decide)⟩

/-- What arrives need not be what the other side sent, in three ways. A frame of one byte is
delivered as it is, from no one. An endpoint's own frame, handed back, is delivered to it. And a
frame that is refused has moved the count, so that the second payload can be the first delivered. -/
theorem delivered_not_prefix :
    (¬ ∀ w, (channel SecretBox.transparent demoKey).Reachable w → ∀ side,
      (w side).delivered <+: (w side.other).sent) ∧
    (∃ w, (channel SecretBox.transparent demoKey).Reachable w ∧
      (w .a).delivered = [[9]] ∧ (w .a).sent = [] ∧ (w .b).sent = []) ∧
    (∃ w, (channel SecretBox.transparent demoKey).Reachable w ∧
      (w .a).delivered = [[10]] ∧ (w .a).sent = [[10]] ∧ (w .b).sent = []) ∧
    (∃ w, (channel SecretBox.transparent demoKey).Reachable w ∧
      (w .a).delivered = [[20]] ∧ (w .b).sent = [[10], [20]]) := by
  have short := reach_next (reach_sends []) .a [9] (by decide)
  have reflected := reach_next (reach_sends [(.a, [10])]) .a (demoFrame 1 [10]) (by decide)
  have skipped := reach_next (reach_next (reach_sends [(.b, [10]), (.b, [20])]) .a [0, 0]
    (by decide)) .a (demoFrame 2 [20]) (by decide)
  refine ⟨fun h => ?_, ⟨_, short, by decide⟩, ⟨_, reflected, by decide⟩, ⟨_, skipped, by decide⟩⟩
  exact absurd (h _ short .a) (by decide)

end HopToDesk.Wire.Channel
