import HopToDesk.Clipboard.FileContents

/-!
# What the peer makes of a read

`readNode` cuts a 64-bit offset into two halves of 32 bits and the peer puts them together again,
but it widens each half by its sign. The high half of an offset below 2⁶³ is never negative, and the
shift drops what widening it put on top. The low half is negative whenever bit 31 of the offset is
set, and then the bits above it come out all set, whatever the high half was. The length has no
second half, so it comes out as asked exactly when it is below 2³¹.
-/

set_option autoImplicit false

namespace HopToDesk.Clipboard

/-! ## Halves of a word -/

section Words

variable (x : BitVec 64)

/-- The high half as `(x >> 32) as i32` computes it. -/
theorem getLsbD_high (i : Nat) (hi : i < 32) :
    ((x.sshiftRight 32).signExtend 32).getLsbD i = x.getLsbD (32 + i) := by
  have hlt : 32 + i < 64 := by omega
  simp only [BitVec.getLsbD_signExtend, BitVec.getLsbD_sshiftRight, hi, decide_true,
    Bool.true_and, hlt, if_true]
  rw [if_pos (by omega)]
  simp only [show ¬ 64 ≤ i by omega, decide_false, Bool.not_false, Bool.true_and]

/-- The low half as `(x & u32::MAX) as i32` computes it. -/
theorem getLsbD_low (i : Nat) (hi : i < 32) :
    ((x &&& 0xffffffff#64).signExtend 32).getLsbD i = x.getLsbD i := by
  have hmask : (0xffffffff#64).getLsbD i = true := by
    have hall : ∀ j : Fin 32, (0xffffffff#64).getLsbD j = true := by decide
    exact hall ⟨i, hi⟩
  simp only [BitVec.getLsbD_signExtend, BitVec.getLsbD_and, hi, decide_true, Bool.true_and,
    show i < 64 by omega, if_true, hmask, Bool.and_true]

/-- Widening the low half by its sign and putting the high half above it gives the word back up to
bit 31; above it, the sign of the low half is added. -/
theorem getLsbD_join (hi lo : BitVec 32) (i : Nat) (h : i < 64) :
    (hi.signExtend 64 <<< 32 ||| lo.signExtend 64).getLsbD i =
      if i < 32 then lo.getLsbD i else (hi.getLsbD (i - 32) || lo.getLsbD 31) := by
  simp only [BitVec.getLsbD_or, BitVec.getLsbD_shiftLeft, BitVec.getLsbD_signExtend, h,
    decide_true, Bool.true_and, BitVec.msb_eq_getLsbD_last]
  by_cases hlow : i < 32
  · simp only [hlow, decide_true, Bool.not_true, Bool.false_and, Bool.false_or, if_true]
  · have h32 : i - 32 < 32 := by omega
    have h64 : i - 32 < 64 := by omega
    simp only [hlow, h32, h64, decide_false, decide_true, Bool.not_false, Bool.true_and, if_true,
      if_false]

/-- **The halves join to the word they were cut from iff the low half is not negative.** -/
theorem join_halves (hx : x.getLsbD 63 = false) :
    ((x.sshiftRight 32).signExtend 32).signExtend 64 <<< 32 |||
        ((x &&& 0xffffffff#64).signExtend 32).signExtend 64 = x ↔ x.getLsbD 31 = false := by
  constructor
  · intro h
    -- the top bit of the word is the first to be spoiled by a negative low half
    have htop := congrArg (fun y => BitVec.getLsbD y 63) h
    simp only [getLsbD_join _ _ 63 (by decide), getLsbD_high x 31 (by decide),
      getLsbD_low x 31 (by decide), hx] at htop
    simpa using htop
  · intro h
    apply BitVec.eq_of_getLsbD_eq
    intro i hi
    rw [getLsbD_join _ _ i hi, getLsbD_low x 31 (by decide), h, Bool.or_false]
    by_cases hlow : i < 32
    · rw [if_pos hlow, getLsbD_low x i hlow]
    · rw [if_neg hlow, getLsbD_high x (i - 32) (by omega)]
      congr 1
      omega

/-- Widening an `i32` that holds the bits of a `u32` keeps its value iff the sign bit is clear. -/
theorem toNat_signExtend_iff (y : BitVec 32) :
    (y.signExtend 64).toNat = y.toNat ↔ y.toNat < 2 ^ 31 := by
  rw [BitVec.toNat_signExtend, BitVec.msb_eq_decide]
  have hy := y.isLt
  have hsmall : (y.setWidth 64).toNat = y.toNat := by
    rw [BitVec.toNat_setWidth, Nat.mod_eq_of_lt (by omega)]
  rw [hsmall]
  by_cases h : 2 ^ (32 - 1) ≤ y.toNat
  · simp only [h, decide_true, if_true]
    omega
  · simp only [h, decide_false, Bool.false_eq_true, if_false]
    omega

end Words

/-! ## Across the wire -/

/-- A clipboard file that has a message of its own comes back as it was sent. -/
theorem msg2Clip_clip2Msg (metadata : String → Option UInt64) (clip : ClipboardFile)
    (union : Option CliprdrUnion) (h : clip2Msg metadata clip = .cliprdr union)
    (hfiles : ∀ files, clip ≠ .files files) : msg2Clip union = some clip := by
  cases clip <;> cases h
  case formatList formats =>
    have hpairs : (formats.map fun v => (⟨v.1, v.2⟩ : CliprdrFormat)).map
        (fun v => (v.id, v.format)) = formats := by
      rw [List.map_map]
      exact List.map_id' formats
    exact congrArg (fun pairs => some (ClipboardFile.formatList pairs)) hpairs
  case files files => exact absurd rfl (hfiles files)
  all_goals rfl

theorem asU64_toBitVec (x : Int32) : (asU64 x).toBitVec = x.toBitVec.signExtend 64 :=
  Int32.toBitVec_toInt64 x

/-- What the peer decodes the request of a read to. -/
theorem decodeMessage_readNode (metadata : String → Option UInt64) (node : FuseNode)
    (offset : Int64) (size : UInt32) :
    decodeMessage (clip2Msg metadata (readNode node offset size)) =
      some (.ok (.range node.streamId (asU64 node.index.toUInt32.toInt32)
        (asU64 (offset >>> 32).toInt32 <<< 32 ||| asU64 (offset &&& 0xffffffff).toInt32)
        (asU64 size.toInt32))) := rfl

theorem decoded_offset (o : Nat) (ho : o < 2 ^ 63) :
    (asU64 (Int64.ofNat o >>> 32).toInt32 <<< 32 |||
      asU64 (Int64.ofNat o &&& 0xffffffff).toInt32).toNat = o ↔ o.testBit 31 = false := by
  have hbits : (Int64.ofNat o).toBitVec = BitVec.ofNat 64 o := rfl
  have hnat : (BitVec.ofNat 64 o).toNat = o := Nat.mod_eq_of_lt (by omega)
  have hbit : ∀ i, i < 64 → (BitVec.ofNat 64 o).getLsbD i = o.testBit i := by
    intro i hi
    rw [BitVec.getLsbD_ofNat, decide_eq_true hi, Bool.true_and]
  have htop : (BitVec.ofNat 64 o).getLsbD 63 = false := by
    rw [hbit 63 (by decide), Nat.testBit_lt_two_pow ho]
  have hjoin := join_halves (BitVec.ofNat 64 o) htop
  rw [hbit 31 (by decide)] at hjoin
  rw [← hjoin, ← BitVec.toNat_inj, hnat, ← UInt64.toNat_toBitVec]
  simp only [UInt64.toBitVec_or, UInt64.toBitVec_shiftLeft, asU64_toBitVec,
    Int64.toBitVec_toInt32, Int64.toBitVec_shiftRight, Int64.toBitVec_and, hbits]
  rfl

theorem decoded_length (size : UInt32) :
    (asU64 size.toInt32).toNat = size.toNat ↔ size.toNat < 2 ^ 31 := by
  have hbits : (asU64 size.toInt32).toBitVec = size.toBitVec.signExtend 64 := asU64_toBitVec _
  rw [← UInt64.toNat_toBitVec, hbits]
  exact toNat_signExtend_iff size.toBitVec

/-- **A read arrives as it was asked exactly when bit 31 of the offset is clear and the length is
below 2³¹.** -/
theorem readNode_decoded_iff (metadata : String → Option UInt64) (node : FuseNode) (o : Nat)
    (ho : o < 2 ^ 63) (s : UInt32) :
    (∃ streamId fileIdx offset length,
      decodeMessage (clip2Msg metadata (readNode node (Int64.ofNat o) s)) =
          some (.ok (.range streamId fileIdx offset length)) ∧
        offset.toNat = o ∧ length.toNat = s.toNat) ↔
      o.testBit 31 = false ∧ s.toNat < 2 ^ 31 := by
  rw [decodeMessage_readNode, ← decoded_offset o ho, ← decoded_length s]
  constructor
  · intro h
    obtain ⟨_, _, _, _, hdecoded, hoffset, hlength⟩ := h
    cases hdecoded
    exact ⟨hoffset, hlength⟩
  · intro h
    exact ⟨_, _, _, _, rfl, h⟩

theorem readNode_decoded_small :
    0 < 2 ^ 63 ∧ ((∃ streamId fileIdx offset length,
      decodeMessage (clip2Msg (fun _ => none) (readNode ⟨1, 7, 0⟩ (Int64.ofNat 0) 4096)) =
          some (.ok (.range streamId fileIdx offset length)) ∧
        offset.toNat = 0 ∧ length.toNat = (4096 : UInt32).toNat) ↔
      (0 : Nat).testBit 31 = false ∧ (4096 : UInt32).toNat < 2 ^ 31) :=
  ⟨by decide, readNode_decoded_iff (fun _ => none) ⟨1, 7, 0⟩ 0 (by decide) 4096⟩

/-- A read at 2³¹ asks the peer for an offset close to 2⁶⁴. -/
theorem readNode_not_decoded :
    ¬ ∀ (metadata : String → Option UInt64) (node : FuseNode) (o : Nat), o < 2 ^ 63 →
      ∀ s : UInt32, ∃ streamId fileIdx offset length,
        decodeMessage (clip2Msg metadata (readNode node (Int64.ofNat o) s)) =
            some (.ok (.range streamId fileIdx offset length)) ∧
          offset.toNat = o ∧ length.toNat = s.toNat := by
  intro h
  obtain ⟨streamId, fileIdx, offset, length, hdecoded, hoffset, -⟩ :=
    h (fun _ => none) ⟨1, 7, 0⟩ (2 ^ 31) (by decide) 4096
  have hrange : decodeMessage (clip2Msg (fun _ => none) (readNode ⟨1, 7, 0⟩ (Int64.ofNat (2 ^ 31))
      4096)) = some (.ok (.range 7 0 0xffffffff80000000 4096)) := by decide
  rw [hrange] at hdecoded
  cases hdecoded
  revert hoffset
  decide

end HopToDesk.Clipboard

/-!
## Whose data a read returns

A reply names its stream id only. What a read returns is the answer to its own request as long as
whatever else is outstanding under that stream id asks for the same: then it does not matter which
of these requests a reply answers. A read that begins alone stays alone, for its retries ask for the
same again.
-/

namespace HopToDesk.Clipboard

open Kit

namespace FuseReader

variable {ν : Type} {fields : ν → FuseNode} {s s' : FuseReader ν}

/-- What is outstanding with the stream id of the read under way asks for the same, replies carry
the stream id of what they answer, and every read so far got its own data. -/
structure Inv (fields : ν → FuseNode) (s : FuseReader ν) : Prop where
  alone : ∀ r n, s.reading = some (r, n) → ∀ r', s.Outstanding r' →
    (fields r'.node).streamId = (fields r.node).streamId → r' = r
  replies : ∀ reply ∈ s.rx, ∃ msgFlags data,
    reply.clip = .fileContentsResponse msgFlags (fields reply.answers.node).streamId data
  matched : s.Matches

theorem outstanding_send {r r' : Read ν} (h : (s.send fields r).Outstanding r') :
    r' = r ∨ s.Outstanding r' := by
  rcases h with ⟨connId, hmem⟩ | hreply
  · simp only [send, Function.update_apply] at hmem
    split at hmem
    next hconn =>
      rcases List.mem_append.mp hmem with hmem | hmem
      · exact .inr (.inl ⟨_, hmem⟩)
      · exact .inl (List.mem_singleton.mp hmem)
    next => exact .inr (.inl ⟨connId, hmem⟩)
  · exact .inr (.inr hreply)

/-- A reply whose data a read takes carries its stream id. -/
theorem onReply_done {streamId : Int32} {retryTimes : Nat} {msgFlags replyStreamId : Int32}
    {requestedData data : List UInt8}
    (h : onReply streamId retryTimes (.fileContentsResponse msgFlags replyStreamId requestedData) =
      .done data) : replyStreamId = streamId := by
  by_contra hne
  simp only [onReply, ne_eq, hne, not_false_eq_true, if_true, reduceCtorEq] at h

theorem matches_finish {r : Read ν} {result : Except ReadError (List UInt8 × Read ν)}
    (h : s.Matches) (hr : ∀ data answers, result = .ok (data, answers) → answers = r) :
    (s.finish r result).Matches := by
  intro o ho data answers hresult
  rcases List.mem_append.mp ho with ho | ho
  · exact h o ho data answers hresult
  · cases List.mem_singleton.mp ho
    exact hr data answers hresult

/-- A read that is over leaves the rest as it is. -/
theorem Inv.finish {r : Read ν} {result : Except ReadError (List UInt8 × Read ν)}
    (h : Inv fields s) (hr : ∀ data answers, result = .ok (data, answers) → answers = r) :
    Inv fields (s.finish r result) where
  alone := by
    intro r n hreading
    cases hreading
  replies := h.replies
  matched := matches_finish h.matched hr

theorem Inv.finish_error {r : Read ν} {e : ReadError} (h : Inv fields s) :
    Inv fields (s.finish r (.error e)) := by
  apply h.finish
  intro data answers hresult
  cases hresult

/-- The request of a read is sent, for the first time or again. -/
theorem Inv.send {r : Read ν} {n : Nat} (h : Inv fields s)
    (halone : ∀ r', s.Outstanding r' →
      (fields r'.node).streamId = (fields r.node).streamId → r' = r) :
    Inv fields { s.send fields r with reading := some (r, n) } where
  alone := by
    intro r₀ n₀ hreading r' hr' hid
    cases hreading
    rcases outstanding_send hr' with rfl | hr'
    · rfl
    · exact halone r' hr' hid
  replies := h.replies
  matched := h.matched

theorem Inv.answer {connId msgFlags : Int32} {requestedData : List UInt8} (h : Inv fields s)
    (hstep : s.next fields (.answer connId msgFlags requestedData) = some s') :
    Inv fields s' := by
  cases hpending : s.pending connId with
  | nil => simp only [FuseReader.next, hpending, reduceCtorEq] at hstep
  | cons r rest =>
    simp only [FuseReader.next, hpending, request, readNode, replyTo, Option.map_some,
      Option.some.injEq] at hstep
    subst hstep
    -- what was pending is in the channel now
    refine ⟨?_, ?_, h.matched⟩
    · intro r₀ n hreading r' hr' hid
      refine h.alone r₀ n hreading r' ?_ hid
      rcases hr' with ⟨connId', hmem⟩ | ⟨reply, hreply, rfl⟩
      · simp only [Function.update_apply] at hmem
        split at hmem
        next hconn =>
          refine .inl ⟨connId, ?_⟩
          rw [hpending]
          exact List.mem_cons_of_mem _ hmem
        next => exact .inl ⟨connId', hmem⟩
      · rcases List.mem_append.mp hreply with hreply | hreply
        · exact .inr ⟨reply, hreply, rfl⟩
        · cases List.mem_singleton.mp hreply
          refine .inl ⟨connId, ?_⟩
          rw [hpending]
          exact List.mem_cons_self
    · intro reply hreply
      rcases List.mem_append.mp hreply with hreply | hreply
      · exact h.replies reply hreply
      · cases List.mem_singleton.mp hreply
        exact ⟨_, _, rfl⟩

/-- The first reply is taken from the channel. -/
theorem Inv.taken {reply : Reply ν} {rx : List (Reply ν)} (h : Inv fields s)
    (hrx : s.rx = reply :: rx) : Inv fields { s with rx := rx } where
  alone := by
    intro r n hreading r' hr' hid
    refine h.alone r n hreading r' ?_ hid
    rcases hr' with hpending | ⟨reply', hmem, hanswers⟩
    · exact .inl hpending
    · refine .inr ⟨reply', ?_, hanswers⟩
      rw [hrx]
      exact List.mem_cons_of_mem _ hmem
  replies := by
    intro reply' hmem
    apply h.replies
    rw [hrx]
    exact List.mem_cons_of_mem _ hmem
  matched := h.matched

theorem Inv.receive {sent : Except String Unit} (h : Inv fields s)
    (hstep : s.next fields (.receive sent) = some s') : Inv fields s' := by
  rcases hreading : s.reading with _ | ⟨r, retryTimes⟩
  · simp only [FuseReader.next, hreading, reduceCtorEq] at hstep
  cases hrx : s.rx with
  | nil => simp only [FuseReader.next, hreading, hrx, reduceCtorEq] at hstep
  | cons reply rx =>
  have htaken := h.taken hrx
  simp only [FuseReader.next, hreading, hrx] at hstep
  cases hreply : onReply (fields r.node).streamId retryTimes reply.clip with
  | ignore =>
    simp only [hreply, Option.some.injEq] at hstep
    subst hstep
    simpa only [hreading] using htaken
  | resend retryTimes' =>
    cases sent with
    | ok u =>
      simp only [hreply, Option.some.injEq] at hstep
      subst hstep
      exact htaken.send fun r' hr' => htaken.alone r retryTimes hreading r' hr'
    | error e =>
      simp only [hreply, Option.some.injEq] at hstep
      subst hstep
      exact htaken.finish_error
  | fail e =>
    simp only [hreply, Option.some.injEq] at hstep
    subst hstep
    exact htaken.finish_error
  | done data =>
    simp only [hreply, Option.some.injEq] at hstep
    subst hstep
    apply htaken.finish
    intro data' answers hresult
    cases hresult
    -- the reply carries the stream id of the read, so it answers the same request
    have hmem : reply ∈ s.rx := by
      rw [hrx]
      exact List.mem_cons_self
    obtain ⟨msgFlags, requestedData, hclip⟩ := h.replies reply hmem
    rw [hclip] at hreply
    exact h.alone r retryTimes hreading _ (.inr ⟨reply, hmem, rfl⟩) (onReply_done hreply)

/-- One step, where a read begins alone. -/
theorem Inv.next {step : ReaderStep ν} (h : Inv fields s) (halone : s.Alone fields step)
    (hstep : s.next fields step = some s') : Inv fields s' := by
  cases step with
  | start r sent =>
    cases hreading : s.reading with
    | some x => simp only [FuseReader.next, hreading, reduceCtorEq] at hstep
    | none =>
      cases sent with
      | ok u =>
        simp only [FuseReader.next, hreading, Option.some.injEq] at hstep
        subst hstep
        exact h.send halone
      | error e =>
        simp only [FuseReader.next, hreading, Option.some.injEq] at hstep
        subst hstep
        exact h.finish_error
  | answer connId msgFlags requestedData => exact h.answer hstep
  | receive sent => exact h.receive hstep
  | timeout description =>
    rcases hreading : s.reading with _ | ⟨r, retryTimes⟩
    · simp only [FuseReader.next, hreading, reduceCtorEq] at hstep
    cases hrx : s.rx with
    | nil =>
      simp only [FuseReader.next, hreading, hrx, Option.some.injEq] at hstep
      subst hstep
      exact h.finish_error
    | cons reply rx => simp only [FuseReader.next, hreading, hrx, reduceCtorEq] at hstep

/-- **Reads that begin alone return their own data.** -/
theorem matches_of_alone (fields : ν → FuseNode) {steps : List (ReaderStep ν)}
    {s : FuseReader ν} (h : ((system fields).restrict (Alone fields)).Run steps s) :
    s.Matches := by
  have hinv : Inv fields s := by
    refine h.invariant (I := Inv fields) ?_ ?_
    · intro s hs
      cases hs
      refine ⟨?_, ?_, ?_⟩
      · intro r n hreading
        cases hreading
      · intro reply hreply
        cases hreply
      · intro o ho
        cases ho
    · intro s step s' hs hstep
      exact hs.next hstep.1 hstep.2
  exact hinv.matched

/-! ### A late reply -/

/-- One file on one connection, at two offsets. -/
def readAt (offset : Int64) : Read Unit := ⟨(), offset, 4⟩

/-- The read fails once, and is asked again. -/
theorem matches_of_alone_retry :
    ∃ s, ((system fun _ : Unit => ⟨1, 7, 0⟩).restrict (Alone fun _ => ⟨1, 7, 0⟩)).Run
        [.start (readAt 0) (.ok ()), .answer 1 2 [], .receive (.ok ()), .answer 1 1 [5],
          .receive (.ok ())] s ∧
      s.outcomes.length = 1 ∧ s.Matches := by
  have hstart : ((system fun _ : Unit => ⟨1, 7, 0⟩).restrict (Alone fun _ => ⟨1, 7, 0⟩)).Run []
      start := .start rfl
  have hasked := hstart.stepping_snoc (.start (readAt 0) (.ok ())) (by
    intro r' hr' _
    rcases hr' with ⟨_, hmem⟩ | ⟨_, hmem, _⟩ <;> cases hmem) rfl
  have hagain := (hasked.stepping_snoc (.answer 1 2 []) trivial rfl).stepping_snoc
    (.receive (.ok ())) trivial rfl
  have hread := (hagain.stepping_snoc (.answer 1 1 [5]) trivial rfl).stepping_snoc
    (.receive (.ok ())) trivial rfl
  exact ⟨_, hread, rfl, matches_of_alone _ hread⟩

/-- A read times out, and the next one of the file, at another offset, takes its answer. -/
theorem not_matches : ¬ ∀ (ν : Type) (fields : ν → FuseNode) (s : FuseReader ν),
    (system fields).Reachable s → s.Matches := by
  intro h
  have hrun : ((system fun _ : Unit => ⟨1, 7, 0⟩).restrict fun _ _ => True).Run
      [.start (readAt 0) (.ok ()), .timeout "", .start (readAt 4) (.ok ()), .answer 1 1 [5],
        .receive (.ok ())] _ := .of_follow rfl rfl
  have hmatches := h Unit _ _ ⟨_, hrun.of_restrict⟩ ⟨readAt 4, .ok ([5], readAt 0)⟩
    (List.mem_cons_of_mem _ List.mem_cons_self) [5] (readAt 0) rfl
  revert hmatches
  decide

end FuseReader

end HopToDesk.Clipboard
