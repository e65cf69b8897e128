import HopToDesk.Host.Recorder
import HopToDesk.Kit.Log

/-!
# What a recording is

Every file that a recorder leaves has one size and one codec, begins with a key frame and does not
go back in time, and there is one end between two beginnings (`Sound`), whatever comes: a change of
the size or the codec starts a file before the frame is looked at, and timestamps that go back start
one in the middle of a call. What is not kept from the muxer is the timestamp itself, so that all
this holds as long as the timestamps that reach it are in range (`wellRecorded_iff`).
-/

set_option autoImplicit false

namespace HopToDesk.Host.Recording

open Kit Codec

/-! ## Timestamps -/

theorem timestamp_eq_none_iff {pts : Int64} : timestamp pts = none ↔ ¬ PtsInRange pts := by
  have hbits : pts.toInt = ((pts.toUInt64.toNat : Nat) : Int).bmod (2 ^ 64) :=
    BitVec.toInt_eq_toNat_bmod _
  have hlt := pts.toUInt64.toNat_lt
  rw [Int.bmod_def] at hbits
  unfold timestamp unsigned PtsInRange
  split_ifs at hbits ⊢ <;> simp <;> omega

/-! ## Events -/

theorem endsSince_snoc (events : List RecordState) (e : RecordState) :
    endsSince (events ++ [e]) =
      if e.isNewFile then some 0 else if e.endsFile then (endsSince events).map (· + 1)
      else endsSince events := by
  unfold endsSince
  rw [List.foldl_append]
  rfl

theorem OneEndEach.nil : OneEndEach [] := by
  intro before filename after h
  exact absurd h.symm (List.append_ne_nil_of_right_ne_nil _ (List.cons_ne_nil _ _))

theorem OneEndEach.snoc {events : List RecordState} {e : RecordState} (h : OneEndEach events)
    (hnew : e.isNewFile = true → ∀ n ∈ endsSince events, n = 1) : OneEndEach (events ++ [e]) := by
  intro before filename after heq
  rcases Kit.snoc_eq_append_cons heq with ⟨rfl, rfl, -⟩ | ⟨rest, hbefore, -⟩
  · exact hnew rfl
  · exact h before filename rest hbefore

/-! ## The invariant -/

/-- The formats that go to a `WebmRecorder`. -/
def IsWebm (format : CodecFormat) : Prop := format = .vp8 ∨ format = .vp9

/-- A file that is written, with the recorder's context and last timestamp. -/
structure FileSound (ctx2 : Option RecorderContext2) (pts : Option Int64) (inner : FileRecorder) :
    Prop where
  ctx2 : ctx2 = some inner.ctx2
  webm : inner.webm = true ↔ IsWebm inner.ctx2.format
  came : ∀ x ∈ inner.received, x.width = inner.ctx2.width ∧ x.height = inner.ctx2.height ∧
    x.format = inner.ctx2.format
  head : ∀ x ∈ inner.received.head?, x.frame.key = true
  sorted : inner.received.Pairwise fun x y => x.frame.pts ≤ y.frame.pts
  last : ∀ x ∈ inner.received, ∃ p ∈ pts, x.frame.pts ≤ p
  key : inner.key = true ↔ inner.received ≠ []

structure Sound (r : Recorder) : Prop where
  files : ∀ received ∈ r.files, GoodFile received
  events : OneEndEach r.events
  ended : ∀ n ∈ endsSince r.events, n = if r.inner.isSome then 0 else 1
  overflowed : r.overflowed = false
  inner : ∀ inner ∈ r.inner, FileSound r.ctx2 r.pts inner

theorem FileSound.good {ctx2 : Option RecorderContext2} {pts : Option Int64} {inner : FileRecorder}
    (h : FileSound ctx2 pts inner) : GoodFile inner.received where
  same x hx y hy := by
    obtain ⟨hw, hh, hf⟩ := h.came x hx
    obtain ⟨hw', hh', hf'⟩ := h.came y hy
    exact ⟨hw.trans hw'.symm, hh.trans hh'.symm, hf.trans hf'.symm⟩
  key := h.head
  pts := h.sorted

theorem Sound.wellRecorded {r : Recorder} (h : Sound r) : WellRecorded r where
  files := h.files
  inner inner hinner := (h.inner inner hinner).good
  events := h.events
  overflowed := h.overflowed

theorem Sound.new : Sound .new where
  files _ h := nomatch h
  events := .nil
  ended _ h := nomatch h
  overflowed := rfl
  inner _ h := nomatch h

variable {io : RecordIo} {hwcodec : Bool} {r : Recorder} {w h : UInt64} {format : CodecFormat}

/-- Dropping the file leaves its frames as they are, and says that it ended. -/
theorem Sound.dropInner (hr : Sound r) (ctx2 : Option RecorderContext2) (pts : Option Int64) :
    Sound (Recorder.dropInner io { r with ctx2 := ctx2, pts := pts }) := by
  unfold Recorder.dropInner
  cases hinner : r.inner with
  | none =>
    have hended := hr.ended
    rw [hinner] at hended
    exact ⟨hr.files, hr.events, hended, hr.overflowed, nofun⟩
  | some inner =>
    have hended := hr.ended
    simp only [hinner, Option.isSome_some, if_true] at hended
    have hfile := hr.inner inner hinner
    have hends : ∀ b : Bool, (if b then RecordState.removeFile else .writeTail).endsFile = true ∧
        (if b then RecordState.removeFile else .writeTail).isNewFile = false := by decide
    refine ⟨?_, hr.events.snoc ?_, ?_, hr.overflowed, ?_⟩
    · intro received hreceived
      obtain hold | hnew := List.mem_append.mp hreceived
      · exact hr.files received hold
      · obtain rfl := List.mem_singleton.mp hnew
        exact hfile.good
    · intro hnew
      rw [(hends _).2] at hnew
      cases hnew
    · intro n hn
      rw [endsSince_snoc, (hends _).1, (hends _).2] at hn
      simp only [Bool.false_eq_true, if_false, if_true, Option.mem_def,
        Option.map_eq_some_iff] at hn
      obtain ⟨n', hn', rfl⟩ := hn
      rw [hended n' hn']
      rfl
    · intro inner hnone
      cases hnone

@[simp] theorem dropInner_inner : (r.dropInner io).inner = none := by
  unfold Recorder.dropInner
  cases hinner : r.inner with
  | none => exact hinner
  | some inner => rfl

@[simp] theorem dropInner_ctx2 : (r.dropInner io).ctx2 = r.ctx2 := by
  unfold Recorder.dropInner
  cases r.inner <;> rfl

/-- Without a file the context and the last timestamp are free. -/
theorem Sound.setIdle (hr : Sound r) (hidle : r.inner = none) (ctx2 : Option RecorderContext2)
    (pts : Option Int64) : Sound { r with ctx2 := ctx2, pts := pts } where
  files := hr.files
  events := hr.events
  ended := hr.ended
  overflowed := hr.overflowed
  inner inner hinner := by
    rw [hidle] at hinner
    cases hinner

/-- A timestamp that is not earlier than what the file has. -/
theorem Sound.setPts (hr : Sound r) {pts : Int64}
    (hle : ∀ inner ∈ r.inner, ∀ x ∈ inner.received, x.frame.pts ≤ pts) :
    Sound { r with pts := some pts } where
  files := hr.files
  events := hr.events
  ended := hr.ended
  overflowed := hr.overflowed
  inner inner hinner :=
    { hr.inner inner hinner with last := fun x hx => ⟨pts, rfl, hle inner hinner x hx⟩ }

theorem Sound.setCheckFailed (hr : Sound r) : Sound { r with checkFailed := true } :=
  ⟨hr.files, hr.events, hr.ended, hr.overflowed, hr.inner⟩

theorem Sound.newFrame (hr : Sound r) : Sound { r with events := r.events ++ [.newFrame] } where
  files := hr.files
  events := hr.events.snoc nofun
  ended n hn := by
    rw [endsSince_snoc] at hn
    exact hr.ended n hn
  overflowed := hr.overflowed
  inner := hr.inner

/-- A file is made, and it is said so. -/
theorem Sound.install (hr : Sound r) (hidle : r.inner = none) {webm : Bool}
    {ctx2 : RecorderContext2} (hctx2 : r.ctx2 = some ctx2)
    (hwebm : webm = true ↔ IsWebm ctx2.format) :
    Sound { r with
      inner := some ⟨webm, ctx2, false, false, []⟩
      pts := none
      events := r.events ++ [.newFile ctx2.filename] } where
  files := hr.files
  events := hr.events.snoc fun _ n hn => by
    rw [hr.ended n hn, hidle]
    rfl
  ended n hn := by
    rw [endsSince_snoc] at hn
    exact (Option.some.inj hn).symm
  overflowed := hr.overflowed
  inner inner hinner := by
    obtain rfl := Option.some.inj hinner
    refine ⟨hctx2, hwebm, ?_, ?_, .nil, ?_, ?_⟩
    · intro x hx
      cases hx
    · intro x hx
      cases hx
    · intro x hx
      cases hx
    · exact iff_of_false Bool.false_ne_true (not_not_intro rfl)

/-! ## The checks -/

/-- A file is written that has the size and the codec, after the timestamp `x.1`, and `x.2` says
whether there was a key frame in it. -/
def Open (w h : UInt64) (format : CodecFormat) (x : Option Int64 × Bool) (r : Recorder) : Prop :=
  ∃ inner, r.inner = some inner ∧
    (inner.ctx2.width = w ∧ inner.ctx2.height = h ∧ inner.ctx2.format = format) ∧
    r.pts = x.1 ∧ inner.key = x.2

/-- The context has the size and the codec, and there is the file that goes on with them, or none.
-/
structure Matched (w h : UInt64) (format : CodecFormat) (x : Option Int64 × Bool) (r : Recorder) :
    Prop where
  ctx2 : ∃ ctx2, r.ctx2 = some ctx2 ∧ ctx2.width = w ∧ ctx2.height = h ∧ ctx2.format = format
  inner : Open w h format x r ∨ r.inner = none ∧ x = (none, false)

theorem wp_setCtx2 (hr : Sound r) (hx : r.goesOn w h format = (none, false)) :
    Fallible.wp (setCtx2 io w h format)
      (fun _ r' => Sound r' ∧ Matched w h format (r.goesOn w h format) r')
      (fun _ _ => False) r := by
  unfold setCtx2
  rw [Fallible.wp_modify]
  exact ⟨hr.dropInner _ _, ⟨_, dropInner_ctx2, rfl, rfl, rfl⟩, .inr ⟨dropInner_inner, hx⟩⟩

theorem wp_matchCtx2 (hr : Sound r) : Fallible.wp (matchCtx2 io w h format)
    (fun _ r' => Sound r' ∧ Matched w h format (r.goesOn w h format) r') (fun _ _ => False) r := by
  unfold matchCtx2
  rw [Fallible.wp_bind, Fallible.wp_get]
  cases hctx2 : r.ctx2 with
  | none =>
    refine wp_setCtx2 hr ?_
    unfold Recorder.goesOn
    cases hinner : r.inner with
    | none => rfl
    | some inner =>
      have hnone := (hr.inner inner hinner).ctx2
      rw [hctx2] at hnone
      cases hnone
  | some ctx2 =>
    have hinnerCtx2 : ∀ inner, r.inner = some inner → inner.ctx2 = ctx2 := by
      intro inner hinner
      have hsome := (hr.inner inner hinner).ctx2
      rw [hctx2] at hsome
      exact (Option.some.inj hsome).symm
    by_cases hsame : ctx2.width = w ∧ ctx2.height = h ∧ ctx2.format = format
    · dsimp only
      rw [if_neg (by tauto), Fallible.wp_pure]
      refine ⟨hr, ⟨ctx2, hctx2, hsame⟩, ?_⟩
      unfold Recorder.goesOn
      cases hinner : r.inner with
      | none => exact .inr ⟨rfl, rfl⟩
      | some inner =>
        dsimp only
        rw [hinnerCtx2 inner hinner, if_pos hsame]
        exact .inl ⟨inner, hinner, (hinnerCtx2 inner hinner).symm ▸ hsame, rfl, rfl⟩
    · dsimp only
      rw [if_pos (by tauto)]
      refine wp_setCtx2 hr ?_
      unfold Recorder.goesOn
      cases hinner : r.inner with
      | none => rfl
      | some inner =>
        dsimp only
        rw [hinnerCtx2 inner hinner, if_neg hsame]

/-- The formats that a build records. -/
def Recorded (hwcodec : Bool) (format : CodecFormat) : Prop := IsWebm format ∨ hwcodec = true

theorem wp_install (hr : Sound r) (hidle : r.inner = none) {webm : Bool} {ctx2 : RecorderContext2}
    (hctx2 : r.ctx2 = some ctx2) (hwebm : webm = true ↔ IsWebm ctx2.format) :
    Fallible.wp (install webm ctx2)
      (fun _ r' => Sound r' ∧ Open ctx2.width ctx2.height ctx2.format (none, false) r')
      (fun _ _ => False) r := by
  unfold install sendState
  rw [Fallible.wp_bind, Fallible.wp_modify, Fallible.wp_modify]
  exact ⟨hr.install hidle hctx2 hwebm, _, rfl, ⟨rfl, rfl, rfl⟩, rfl, rfl⟩

theorem wp_makeInner {x : Option Int64 × Bool} (hr : Sound r) (hmatched : Matched w h format x r) :
    Fallible.wp (makeInner hwcodec format) (fun _ r' => Sound r' ∧ Open w h format x r')
      (fun _ r' => Sound r' ∧ ¬ Recorded hwcodec format) r := by
  obtain ⟨⟨ctx2, hctx2, rfl, rfl, rfl⟩, hinner⟩ := hmatched
  unfold makeInner
  rw [Fallible.wp_bind, Fallible.wp_get]
  simp only [hctx2]
  obtain hopen | ⟨hidle, rfl⟩ := hinner
  · obtain ⟨inner, hsome, hrest⟩ := hopen
    rw [hsome, Option.isNone_some, if_neg Bool.false_ne_true, Fallible.wp_pure]
    exact ⟨hr, inner, hsome, hrest⟩
  · rw [hidle, Option.isNone_none, if_pos rfl]
    have hmade : ∀ webm : Bool, (webm = true ↔ IsWebm ctx2.format) →
        Fallible.wp (install webm ctx2)
          (fun _ r' => Sound r' ∧ Open ctx2.width ctx2.height ctx2.format (none, false) r')
          (fun _ r' => Sound r' ∧ ¬ Recorded hwcodec ctx2.format) r := fun webm hwebm =>
      Fallible.wp_mono (wp_install hr hidle hctx2 hwebm) (fun _ _ => id) fun _ _ => False.elim
    cases hformat : ctx2.format with
    | vp8 | vp9 =>
      rw [hformat] at hmade
      exact hmade true (by simp [IsWebm])
    | h264 | h265 | unknown =>
      rw [hformat] at hmade
      cases hwcodec with
      | true => exact hmade false (by simp [IsWebm])
      | false => exact ⟨hr, by simp [Recorded, IsWebm]⟩

/-- **What `check` does**: the file that goes on with the size and the codec, or a new one; it fails
only where the build does not record the codec. -/
theorem wp_checkOrFail (hr : Sound r) : Fallible.wp (checkOrFail io hwcodec w h format)
    (fun _ r' => Sound r' ∧ Open w h format (r.goesOn w h format) r')
    (fun _ r' => Sound r' ∧ ¬ Recorded hwcodec format) r := by
  unfold checkOrFail check
  rw [Fallible.wp_bind, Fallible.wp_attempt, Fallible.wp_bind]
  refine Fallible.wp_mono (wp_matchCtx2 hr) ?_ fun _ _ => False.elim
  rintro - r₁ ⟨hr₁, hmatched⟩
  refine Fallible.wp_mono (wp_makeInner hr₁ hmatched) ?_ ?_
  · rintro - r₂ hopen
    exact hopen
  · rintro e r₂ ⟨hr₂, hnot⟩
    exact ⟨hr₂.setCheckFailed, hnot⟩

/-! ## Frames -/

variable {frame : EncodedVideoFrame} {pts : Option Int64} {key : Bool}

/-- **What `check_pts` does**: it stops at a first frame that is not a key frame, and otherwise
there is the same file, or a new one if the timestamps go back. -/
theorem wp_checkPts (hr : Sound r) (hopen : Open w h format (pts, key) r) :
    Fallible.wp (checkPts io hwcodec frame w h format)
      (fun _ r' => ¬ (pts = none ∧ frame.key = false) ∧ Sound r' ∧
        Open w h format (some frame.pts, key && decide (pts.getD 0 ≤ frame.pts)) r')
      (fun _ r' => Sound r' ∧ (Recorded hwcodec format → pts = none ∧ frame.key = false)) r := by
  obtain ⟨inner, hinner, hsame, rfl, rfl⟩ := hopen
  unfold checkPts
  rw [Fallible.wp_bind, Fallible.wp_get]
  by_cases hfirst : r.pts = none ∧ frame.key = false
  · rw [if_pos (by simp [hfirst])]
    exact ⟨hr, fun _ => hfirst⟩
  · rw [if_neg (by simpa using hfirst), Fallible.wp_bind, Fallible.wp_modify]
    by_cases hback : frame.pts < r.pts.getD 0
    · have hle : ¬ r.pts.getD 0 ≤ frame.pts := Int64.not_le.mpr hback
      rw [if_pos hback, Fallible.wp_bind, Fallible.wp_modify, Fallible.wp_bind]
      have hdropped : Sound { Recorder.dropInner io { r with pts := some frame.pts } with
          ctx2 := none } :=
        (hr.dropInner r.ctx2 (some frame.pts)).setIdle dropInner_inner none _
      refine Fallible.wp_mono (wp_checkOrFail hdropped) ?_ ?_
      · rintro - r₁ ⟨hr₁, inner₁, hinner₁, hsame₁, hpts₁, hkey₁⟩
        rw [Recorder.goesOn, dropInner_inner] at hpts₁ hkey₁
        rw [Fallible.wp_modify, decide_eq_false hle, Bool.and_false]
        refine ⟨hfirst, hr₁.setPts ?_, inner₁, hinner₁, hsame₁, rfl, hkey₁⟩
        -- the file is new, and there is nothing in it
        intro inner hsome x hx
        obtain rfl := Option.some.inj (hinner₁.symm.trans hsome)
        have hempty := mt (hr₁.inner inner₁ hinner₁).key.mpr (hkey₁ ▸ Bool.false_ne_true)
        rw [not_not.mp hempty] at hx
        cases hx
      · rintro e r₁ ⟨hr₁, hnot⟩
        exact ⟨hr₁, fun hrec => absurd hrec hnot⟩
    · have hle : r.pts.getD 0 ≤ frame.pts := Int64.not_lt.mp hback
      rw [if_neg hback, Fallible.wp_pure, decide_eq_true hle, Bool.and_true]
      refine ⟨hfirst, hr.setPts ?_, inner, hinner, hsame, rfl, rfl⟩
      intro inner hsome x hx
      obtain ⟨p, hp, hxp⟩ := (hr.inner inner hsome).last x hx
      rw [Option.mem_def.mp hp] at hle
      exact Int64.le_trans hxp hle

/-- One frame more in the file. -/
theorem FileSound.append {ctx2 : Option RecorderContext2} {inner : FileRecorder} {b : Bool}
    (hfile : FileSound ctx2 (some frame.pts) inner)
    (hkey : (inner.key || frame.key) = true) :
    FileSound ctx2 (some frame.pts)
      { inner with
        key := true
        written := b
        received := inner.received ++
          [⟨frame, inner.ctx2.width, inner.ctx2.height, inner.ctx2.format⟩] } where
  ctx2 := hfile.ctx2
  webm := hfile.webm
  came x hx := by
    obtain hx | hx := List.mem_append.mp hx
    · exact hfile.came x hx
    · obtain rfl := List.mem_singleton.mp hx
      exact ⟨rfl, rfl, rfl⟩
  head x hx := by
    cases hreceived : inner.received with
    | nil =>
      have hnot : inner.key = false := by
        rw [← Bool.not_eq_true, hfile.key, not_not, hreceived]
      rw [hnot, Bool.false_or] at hkey
      rw [hreceived] at hx
      obtain rfl := Option.some.inj hx
      exact hkey
    | cons y ys =>
      rw [hreceived] at hx
      exact hfile.head x (by rwa [hreceived])
  sorted := by
    refine List.pairwise_append.mpr ⟨hfile.sorted, List.pairwise_singleton .., ?_⟩
    intro x hx y hy
    obtain rfl := List.mem_singleton.mp hy
    obtain ⟨p, hp, hle⟩ := hfile.last x hx
    obtain rfl := Option.some.inj hp
    exact hle
  last x hx := by
    obtain hx | hx := List.mem_append.mp hx
    · exact hfile.last x hx
    · obtain rfl := List.mem_singleton.mp hx
      exact ⟨_, rfl, Int64.le_refl _⟩
  key := iff_of_true rfl (List.append_ne_nil_of_right_ne_nil _ (List.cons_ne_nil _ _))

/-- **What `write_video` does**: from the first key frame on the muxer gets the frame, and in a
`WebmRecorder` its timestamp may overflow. -/
theorem wp_writeVideo (hr : Sound r) (hopen : Open w h format (some frame.pts, key) r) :
    Fallible.wp (writeVideo io frame w h format)
      (fun _ r' => (IsWebm format → (key || frame.key) = true → PtsInRange frame.pts) ∧
        Sound r' ∧ Open w h format (some frame.pts, key || frame.key) r')
      (fun _ r' => IsWebm format ∧ (key || frame.key) = true ∧ ¬ PtsInRange frame.pts ∧
        r'.overflowed = true) r := by
  obtain ⟨inner, hinner, ⟨rfl, rfl, rfl⟩, hpts, rfl⟩ := hopen
  have hfile := hr.inner inner hinner
  unfold writeVideo
  rw [Fallible.wp_bind, Fallible.wp_get]
  simp only [hinner]
  by_cases hkey : (inner.key || frame.key) = true
  · rw [if_pos hkey]
    by_cases hover : inner.webm = true ∧ timestamp frame.pts = none
    · rw [if_pos hover, Fallible.wp_bind, Fallible.wp_modify, Fallible.wp_fail]
      exact ⟨hfile.webm.mp hover.1, hkey, timestamp_eq_none_iff.mp hover.2, rfl⟩
    · rw [if_neg hover, Fallible.wp_modify]
      rw [hpts] at hfile
      refine ⟨?_, ⟨hr.files, hr.events, ?_, hr.overflowed, ?_⟩, _, rfl, ⟨rfl, rfl, rfl⟩, hpts, ?_⟩
      · intro hwebm _
        by_contra hnot
        exact hover ⟨hfile.webm.mpr hwebm, timestamp_eq_none_iff.mpr hnot⟩
      · have hended := hr.ended
        rwa [hinner] at hended
      · intro inner' hsome
        obtain rfl := Option.some.inj hsome
        rw [hpts]
        exact hfile.append hkey
      · exact hkey.symm
  · rw [if_neg hkey, Fallible.wp_pure]
    have hnot : inner.key = false := by
      rw [Bool.not_eq_true, Bool.or_eq_false_iff] at hkey
      exact hkey.1
    refine ⟨fun _ h => absurd h hkey, hr, inner, hinner, ⟨rfl, rfl, rfl⟩, hpts, ?_⟩
    exact hnot.trans (Bool.eq_false_iff.mpr hkey).symm

/-- The first frame, if it is not refused, and the others. -/
theorem muxed_cons (hfirst : ¬ (pts = none ∧ frame.key = false))
    (frames : List EncodedVideoFrame) :
    muxed pts key (frame :: frames) =
      (if (key && decide (pts.getD 0 ≤ frame.pts) || frame.key) = true then [frame] else []) ++
        muxed (some frame.pts) (key && decide (pts.getD 0 ≤ frame.pts) || frame.key) frames := by
  rw [muxed, if_neg hfirst, Bool.or_comm frame.key]

theorem muxed_refused (hfirst : pts = none ∧ frame.key = false) (frames : List EncodedVideoFrame) :
    muxed pts key (frame :: frames) = [] := if_pos hfirst

/-- What the muxer gets of the frames has timestamps in range. -/
def AllInRange (pts : Option Int64) (key : Bool) (frames : List EncodedVideoFrame) : Prop :=
  ∀ frame ∈ muxed pts key frames, PtsInRange frame.pts

theorem allInRange_nil : AllInRange pts key [] := by
  intro frame hframe
  rw [muxed] at hframe
  cases hframe

theorem allInRange_cons (hfirst : ¬ (pts = none ∧ frame.key = false))
    (frames : List EncodedVideoFrame) :
    AllInRange pts key (frame :: frames) ↔
      ((key && decide (pts.getD 0 ≤ frame.pts) || frame.key) = true → PtsInRange frame.pts) ∧
        AllInRange (some frame.pts) (key && decide (pts.getD 0 ≤ frame.pts) || frame.key)
          frames := by
  unfold AllInRange
  rw [muxed_cons hfirst, List.forall_mem_append]
  refine and_congr_left' ?_
  cases key && decide (pts.getD 0 ≤ frame.pts) || frame.key with
  | true => simp only [if_true, List.forall_mem_singleton, true_imp_iff]
  | false => simp only [Bool.false_eq_true, if_false, List.not_mem_nil, false_imp_iff, implies_true]

/-- **The frames of a call**: a timestamp overflows exactly when one that reaches the muxer, which
takes timestamps, is out of range; otherwise all stays well. -/
theorem wp_writeFrames (frames : List EncodedVideoFrame) (hrec : Recorded hwcodec format)
    (hr : Sound r) (hopen : Open w h format (pts, key) r) :
    Fallible.wp (writeFrames io hwcodec w h format frames)
      (fun _ r' => (IsWebm format → AllInRange pts key frames) ∧ Sound r')
      (fun _ r' => (IsWebm format → AllInRange pts key frames) ∧ Sound r' ∨
        (IsWebm format ∧ ¬ AllInRange pts key frames) ∧ r'.overflowed = true) r := by
  induction frames generalizing pts key r with
  | nil =>
    unfold writeFrames
    rw [Fallible.wp_pure]
    exact ⟨fun _ => allInRange_nil, hr⟩
  | cons frame frames ih =>
    unfold writeFrames
    rw [Fallible.wp_bind]
    refine Fallible.wp_mono (wp_checkPts hr hopen) ?_ ?_
    · rintro - r₁ ⟨hfirst, hr₁, hopen₁⟩
      rw [allInRange_cons hfirst, Fallible.wp_bind]
      refine Fallible.wp_mono (wp_writeVideo hr₁ hopen₁) ?_ ?_
      · rintro - r₂ ⟨hrange, hr₂, hopen₂⟩
        refine Fallible.wp_mono (ih hr₂ hopen₂) ?_ ?_
        · rintro - r₃ ⟨hrest, hr₃⟩
          exact ⟨fun hwebm => ⟨hrange hwebm, hrest hwebm⟩, hr₃⟩
        · rintro e r₃ (⟨hrest, hr₃⟩ | ⟨⟨hwebm, hrest⟩, hover⟩)
          · exact .inl ⟨fun hwebm => ⟨hrange hwebm, hrest hwebm⟩, hr₃⟩
          · exact .inr ⟨⟨hwebm, fun hall => hrest hall.2⟩, hover⟩
      · rintro e r₂ ⟨hwebm, hkey, hnot, hover⟩
        exact .inr ⟨⟨hwebm, fun hall => hnot (hall.1 hkey)⟩, hover⟩
    · rintro e r₁ ⟨hr₁, hfirst⟩
      refine .inl ⟨fun _ => ?_, hr₁⟩
      unfold AllInRange
      rw [muxed_refused (hfirst hrec)]
      intro x hx
      cases hx

/-! ## Calls -/

/-- The frames that go to a `WebmRecorder`. -/
def VideoFrame.webmFrames : VideoFrame → List EncodedVideoFrame
  | .vp8s frames | .vp9s frames => frames
  | _ => []

theorem inRange_iff {c : Call} : r.InRange c ↔ (r.checkFailed = false →
    AllInRange (r.goesOn c.width c.height c.frame.format).1
      (r.goesOn c.width c.height c.frame.format).2 c.frame.webmFrames) := by
  unfold Recorder.InRange
  split
  next frames heq => rw [heq]; rfl
  next frames heq => rw [heq]; rfl
  next hvp8 hvp9 =>
    refine iff_of_true trivial fun _ => ?_
    have hnone : c.frame.webmFrames = [] := by
      unfold VideoFrame.webmFrames
      split
      next frames heq => exact absurd heq (hvp8 frames)
      next frames heq => exact absurd heq (hvp9 frames)
      next => rfl
    rw [hnone]
    exact allInRange_nil

theorem wp_writeFrames_webm (frames : List EncodedVideoFrame) (hwebm : IsWebm format)
    (hr : Sound r) (hopen : Open w h format (pts, key) r) :
    Fallible.wp (writeFrames io hwcodec w h format frames)
      (fun _ r' => AllInRange pts key frames ∧ Sound r')
      (fun _ r' => AllInRange pts key frames ∧ Sound r' ∨
        ¬ AllInRange pts key frames ∧ r'.overflowed = true) r := by
  refine Fallible.wp_mono (wp_writeFrames frames (.inl hwebm) hr hopen) ?_ ?_
  · rintro - r' ⟨hrange, hr'⟩
    exact ⟨hrange hwebm, hr'⟩
  · rintro e r' (⟨hrange, hr'⟩ | ⟨⟨-, hrange⟩, hover⟩)
    · exact .inl ⟨hrange hwebm, hr'⟩
    · exact .inr ⟨hrange, hover⟩

theorem wp_writeFrames_hw (frames : List EncodedVideoFrame) (hnot : ¬ IsWebm format)
    (hr : Sound r) (hopen : Open w h format (pts, key) r) :
    Fallible.wp (writeFrames io true w h format frames) (fun _ => Sound) (fun _ => Sound) r := by
  refine Fallible.wp_mono (wp_writeFrames frames (.inr rfl) hr hopen) ?_ ?_
  · rintro - r' ⟨-, hr'⟩
    exact hr'
  · rintro e r' (⟨-, hr'⟩ | ⟨⟨hwebm, -⟩, -⟩)
    · exact hr'
    · exact absurd hwebm hnot

theorem wp_writeUnion {frame : VideoFrame} (hknown : frame.format ≠ .unknown) (hr : Sound r)
    (hopen : Open w h frame.format (pts, key) r) :
    Fallible.wp (writeUnion io hwcodec frame w h)
      (fun _ r' => AllInRange pts key frame.webmFrames ∧ Sound r')
      (fun _ r' => AllInRange pts key frame.webmFrames ∧ Sound r' ∨
        ¬ AllInRange pts key frame.webmFrames ∧ r'.overflowed = true) r := by
  have hsound : ∀ {m : Rec Unit}, Fallible.wp m (fun _ => Sound) (fun _ => Sound) r →
      Fallible.wp m (fun _ r' => AllInRange pts key [] ∧ Sound r')
        (fun _ r' => AllInRange pts key [] ∧ Sound r' ∨
          ¬ AllInRange pts key [] ∧ r'.overflowed = true) r := fun hm =>
    Fallible.wp_mono hm (fun _ _ h => ⟨allInRange_nil, h⟩) fun _ _ h => .inl ⟨allInRange_nil, h⟩
  cases frame with
  | vp8s frames => exact wp_writeFrames_webm frames (.inl rfl) hr hopen
  | vp9s frames => exact wp_writeFrames_webm frames (.inr rfl) hr hopen
  | av1s frames | rgb compress | yuv compress => exact absurd rfl hknown
  | h264s frames | h265s frames =>
    cases hwcodec with
    | false => exact hsound hr
    | true => exact hsound (wp_writeFrames_hw frames (by simp [IsWebm, VideoFrame.format]) hr hopen)

variable (hwcodec) in
/-- **What a call does**: all stays well, or a timestamp out of range reached the muxer. -/
theorem next_cases (hr : Sound r) (c : Call) :
    r.InRange c ∧ Sound (r.next hwcodec c) ∨
      ¬ r.InRange c ∧ (r.next hwcodec c).overflowed = true := by
  rw [inRange_iff]
  unfold Recorder.next
  refine Fallible.wp_state
    (P := fun r' => (r.checkFailed = false → AllInRange _ _ _) ∧ Sound r' ∨
      ¬ (r.checkFailed = false → AllInRange _ _ _) ∧ r'.overflowed = true) |>.mp ?_
  unfold writeFrame
  rw [Fallible.wp_bind, Fallible.wp_get]
  cases hfailed : r.checkFailed with
  | true =>
    rw [if_pos rfl, Fallible.wp_fail]
    exact .inl ⟨nofun, hr⟩
  | false =>
    rw [if_neg Bool.false_ne_true]
    by_cases hunknown : c.frame.format = .unknown
    · have hnone : c.frame.webmFrames = [] := by
        cases hframe : c.frame <;> rw [hframe] at hunknown <;> first | rfl | cases hunknown
      rw [if_pos hunknown, Fallible.wp_fail, hnone]
      exact .inl ⟨fun _ => allInRange_nil, hr⟩
    · rw [if_neg hunknown, Fallible.wp_bind]
      refine Fallible.wp_mono (wp_checkOrFail hr) ?_ ?_
      · rintro - r₁ ⟨hr₁, hopen⟩
        rw [Fallible.wp_bind]
        refine Fallible.wp_mono (wp_writeUnion hunknown hr₁ hopen) ?_ ?_
        · rintro - r₂ ⟨hrange, hr₂⟩
          exact .inl ⟨fun _ => hrange, hr₂.newFrame⟩
        · rintro e r₂ (⟨hrange, hr₂⟩ | ⟨hrange, hover⟩)
          · exact .inl ⟨fun _ => hrange, hr₂⟩
          · exact .inr ⟨fun h => hrange (h rfl), hover⟩
      · rintro e r₁ ⟨hr₁, hnot⟩
        refine .inl ⟨fun _ => ?_, hr₁⟩
        have hnone : c.frame.webmFrames = [] := by
          cases hframe : c.frame with
          | vp8s frames => exact absurd (.inl (.inl (hframe ▸ rfl))) hnot
          | vp9s frames => exact absurd (.inl (.inr (hframe ▸ rfl))) hnot
          | _ => rfl
        rw [hnone]
        exact allInRange_nil

/-- **A recording is well formed exactly when its timestamps are in range.** Whatever frames come,
in which calls, whatever the muxer answers and however long the files go on: every file has one size
and one codec, begins with a key frame and does not go back in time, no timestamp overflows, and one
end stands between two beginnings, all along, exactly when of the frames in VP8 and VP9 those that
reach the muxer have timestamps in range. -/
theorem wellRecorded_iff (hwcodec : Bool) (tr : List (Recorder × Call)) (r : Recorder)
    (h : (recorder hwcodec).Trace tr r) :
    System.Always WellRecorded tr r ↔ ∀ x ∈ tr, x.1.InRange x.2 := by
  refine System.Trace.always_iff (I := Sound) ?_ (fun h => h.wellRecorded) ?_ ?_ h
  · rintro r rfl
    exact .new
  · rintro r c r' hr rfl hrange
    obtain ⟨-, hr'⟩ | ⟨hnot, -⟩ := next_cases hwcodec hr c
    · exact hr'
    · exact absurd hrange hnot
  · rintro r c r' hr rfl hwell
    obtain ⟨hrange, -⟩ | ⟨-, hover⟩ := next_cases hwcodec hr c
    · exact hrange
    · rw [hwell.overflowed] at hover
      cases hover

/-- A call with one key frame. -/
def callWith (pts : Int64) : Call where
  io := ⟨fun _ _ => "incoming.webm", fun _ _ => true, fun _ => true⟩
  frame := .vp9s [⟨[], true, pts⟩]
  width := 1
  height := 1

theorem wellRecorded_iff_one :
    System.Always WellRecorded [(.new, callWith 0)] (Recorder.new.next false (callWith 0)) ↔
      ∀ x ∈ [(Recorder.new, callWith 0)], x.1.InRange x.2 :=
  wellRecorded_iff false _ _ (.snoc (.start rfl) rfl)

/-- A key frame at -1: its timestamp overflows. -/
theorem negative_pts_overflows : ¬ ∀ (hwcodec : Bool) (tr : List (Recorder × Call)) (r : Recorder),
    (recorder hwcodec).Trace tr r → System.Always WellRecorded tr r := by
  intro hall
  have hwell := (hall false _ _ (.snoc (.start rfl) (a := callWith (-1)) rfl)).2
  have hover : (Recorder.new.next false (callWith (-1))).overflowed = true := by decide +kernel
  rw [hwell.overflowed] at hover
  cases hover

end HopToDesk.Host.Recording
