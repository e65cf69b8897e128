import HopToDesk.Client.AudioBuffer

/-!
# What is dropped of the audio

The ring never holds more than it can, and what it holds are the newest samples, however they were
dropped. Whole frames and the 600 ms are another matter. The scan finds the first counter that is
not zero and the first of the highest ones (`scan_spec`), whatever the ring holds by then, and the
number of samples to drop is made even, which is whole frames for one channel and for two.

`always_trimmed_iff` says what it takes: a ring that is kept when the channels change holds whole
frames of the new ones, and whatever the counters drop is whole frames, of 600 ms at least.
-/

set_option autoImplicit false

namespace HopToDesk.Client

open Kit RingBuffer

/-! ## The counters -/

/-- The counters up to `z` are zero, and the one at `z` is not. -/
structure Leading (h : Histogram) (z : Nat) : Prop where
  le : z ≤ 30
  zeros : ∀ j < z, h j = 0
  stop : z < 30 → h z ≠ 0

/-- Of the counters above the lowest, the first that is as high as any. -/
structure Busiest (h : Histogram) (x : Nat) : Prop where
  pos : 0 < x
  lt : x < 30
  hit : 0 < h x
  most : ∀ j, 0 < j → j < 30 → h j ≤ h x
  first : ∀ j, 0 < j → j < x → h j < h x

theorem Leading.unique {h : Histogram} {z z' : Nat} (hz : Leading h z) (hz' : Leading h z') :
    z = z' := by
  have le {a b : Nat} (ha : Leading h a) (hb : Leading h b) : a ≤ b := by
    by_contra hlt
    have hlt' : b < a := Nat.not_le.mp hlt
    exact hb.stop (Nat.lt_of_lt_of_le hlt' ha.le) (ha.zeros b hlt')
  exact Nat.le_antisymm (le hz hz') (le hz' hz)

theorem Busiest.unique {h : Histogram} {x x' : Nat} (hx : Busiest h x) (hx' : Busiest h x') :
    x = x' := by
  have le {a b : Nat} (ha : Busiest h a) (hb : Busiest h b) : a ≤ b := by
    by_contra hlt
    have hlt' : b < a := Nat.not_le.mp hlt
    have hless := ha.first b hb.pos hlt'
    have hmost := hb.most a ha.pos ha.lt
    omega
  exact Nat.le_antisymm (le hx hx') (le hx' hx)

/-- What the scan has found among the first `n` counters. -/
structure Scanned (h : Histogram) (n : Nat) (marks : WaterMarks) : Prop where
  rest : ∀ j, n ≤ j → marks.histogram j = h j
  zero_le : marks.zero ≤ n
  zeros : ∀ j < marks.zero, h j = 0
  zero_stop : marks.zero < n → h marks.zero ≠ 0
  max_zero : marks.max = 0 → 0 < n → marks.histogram 0 = 0 ∧ ∀ j, 0 < j → j < n → h j = 0
  max_pos : 0 < marks.max → marks.max < n ∧ 0 < h marks.max ∧
    marks.histogram marks.max = h marks.max ∧
    ∀ j, 0 < j → j < n → h j ≤ h marks.max ∧ (j < marks.max → h j < h marks.max)

theorem scanned_start (h : Histogram) : Scanned h 0 ⟨h, 0, 0⟩ where
  rest _ _ := rfl
  zero_le := Nat.le_refl 0
  zeros j hj := absurd hj (Nat.not_lt_zero j)
  zero_stop hlt := absurd hlt (Nat.lt_irrefl 0)
  max_zero _ hlt := absurd hlt (Nat.lt_irrefl 0)
  max_pos hlt := absurd hlt (Nat.lt_irrefl 0)

/-- The first round clears the lowest counter. -/
theorem scanned_one (h : Histogram) : Scanned h 1 (WaterMarks.scanOne ⟨h, 0, 0⟩ 0) := by
  have hone : WaterMarks.scanOne ⟨h, 0, 0⟩ 0 =
      ⟨Function.update h 0 0, if h 0 = 0 then 1 else 0, 0⟩ := by
    simp [WaterMarks.scanOne]
  rw [hone]
  refine ⟨fun j hj => ?_, ?_, fun j hj => ?_, fun hlt => ?_, fun _ _ => ⟨?_, ?_⟩, fun hlt => ?_⟩
  · show Function.update h 0 0 j = h j
    exact Function.update_of_ne (Nat.ne_of_gt hj) _ _
  · dsimp only
    split <;> omega
  · dsimp only at hj
    split at hj
    · obtain rfl : j = 0 := by omega
      assumption
    · omega
  · dsimp only at hlt ⊢
    split at hlt
    · omega
    · rw [if_neg (by assumption)]
      assumption
  · show Function.update h 0 0 0 = 0
    exact Function.update_self _ _ _
  · intro j hj hj'
    omega
  · exact absurd hlt (Nat.lt_irrefl 0)

section

variable {h : Histogram} {n : Nat} {marks : WaterMarks}

theorem Scanned.at_next (hs : Scanned h n marks) : marks.histogram n = h n :=
  hs.rest n (Nat.le_refl n)

theorem Scanned.max_lt (hs : Scanned h n marks) (hn : 0 < n) : marks.max < n := by
  rcases Nat.eq_zero_or_pos marks.max with hz | hp
  · omega
  · exact (hs.max_pos hp).1

/-- The low water mark does not depend on the high one. -/
theorem Scanned.zero_scanOne (hs : Scanned h n marks) :
    (marks.scanOne n).zero = if h n = 0 ∧ marks.zero = n then marks.zero + 1 else marks.zero := by
  simp only [WaterMarks.scanOne, hs.at_next]
  split <;> rfl

/-- The low water mark after a round. -/
theorem Scanned.zero_next (hs : Scanned h n marks) :
    (marks.scanOne n).zero ≤ n + 1 ∧ (∀ j < (marks.scanOne n).zero, h j = 0) ∧
      ((marks.scanOne n).zero < n + 1 → h (marks.scanOne n).zero ≠ 0) := by
  have hle := hs.zero_le
  rw [hs.zero_scanOne]
  split
  next hz =>
    refine ⟨by omega, fun j hj => ?_, fun hlt => by omega⟩
    rcases Nat.lt_or_ge j marks.zero with hj' | hj'
    · exact hs.zeros j hj'
    · obtain rfl : j = n := by omega
      exact hz.1
  next hz =>
    refine ⟨by omega, hs.zeros, fun hlt => ?_⟩
    rcases Nat.lt_or_ge marks.zero n with hlt' | hge
    · exact hs.zero_stop hlt'
    · have heq : marks.zero = n := by omega
      rw [heq]
      exact fun hn0 => hz ⟨hn0, heq⟩

/-- A counter above the high water mark is above all that were scanned, but the first. -/
theorem Scanned.above (hs : Scanned h n marks)
    (hgt : marks.histogram n > marks.histogram marks.max) {j : Nat} (hj : 0 < j) (hjn : j < n) :
    h j < h n := by
  rw [hs.at_next] at hgt
  rcases Nat.eq_zero_or_pos marks.max with hz | hp
  · obtain ⟨hz0, hall⟩ := hs.max_zero hz (by omega)
    rw [hz, hz0] at hgt
    rw [hall j hj hjn]
    exact hgt
  · obtain ⟨-, -, hm, hall⟩ := hs.max_pos hp
    rw [hm] at hgt
    exact Nat.lt_of_le_of_lt (hall j hj hjn).1 hgt

/-- A round after the first. -/
theorem Scanned.next (hs : Scanned h n marks) (hn : 0 < n) :
    Scanned h (n + 1) (marks.scanOne n) := by
  have hat := hs.at_next
  have hmax := hs.max_lt hn
  have hzero := hs.zero_scanOne
  have low := hs.zero_next
  by_cases hgt : marks.histogram n > marks.histogram marks.max
  · have hnext : marks.scanOne n =
        ⟨Function.update marks.histogram marks.max 0, (marks.scanOne n).zero, n⟩ := by
      conv_lhs => rw [WaterMarks.scanOne]
      rw [if_pos hgt, hzero, hat]
    rw [hnext]
    refine ⟨fun j hj => ?_, low.1, low.2.1, low.2.2, fun h0 => ?_, fun _ => ?_⟩
    · show Function.update marks.histogram marks.max 0 j = h j
      rw [Function.update_of_ne (by omega)]
      exact hs.rest j (by omega)
    · exact absurd h0 (Nat.ne_of_gt hn)
    · refine ⟨Nat.lt_succ_self n, ?_, ?_, fun j hj hjn => ⟨?_, hs.above hgt hj⟩⟩
      · rw [← hat]
        exact Nat.zero_lt_of_lt hgt
      · show Function.update marks.histogram marks.max 0 n = h n
        rw [Function.update_of_ne (Nat.ne_of_gt hmax), hat]
      · rcases Nat.lt_succ_iff_lt_or_eq.mp hjn with hlt | rfl
        · exact Nat.le_of_lt (hs.above hgt hj hlt)
        · exact Nat.le_refl _
  · have hnext : marks.scanOne n =
        ⟨Function.update marks.histogram n 0, (marks.scanOne n).zero, marks.max⟩ := by
      conv_lhs => rw [WaterMarks.scanOne]
      rw [if_neg hgt, hzero, hat]
    rw [hnext]
    refine ⟨fun j hj => ?_, low.1, low.2.1, low.2.2, fun h0 _ => ?_, fun hp => ?_⟩
    · show Function.update marks.histogram n 0 j = h j
      rw [Function.update_of_ne (by omega)]
      exact hs.rest j (by omega)
    · obtain ⟨hz0, hall⟩ := hs.max_zero h0 hn
      have h0' : marks.max = 0 := h0
      rw [h0', hz0, hat] at hgt
      refine ⟨?_, fun j hj hjn => ?_⟩
      · show Function.update marks.histogram n 0 0 = 0
        rw [Function.update_of_ne (Nat.ne_of_lt hn)]
        exact hz0
      · rcases Nat.lt_succ_iff_lt_or_eq.mp hjn with hlt | rfl
        · exact hall j hj hlt
        · omega
    · obtain ⟨-, hhit, hm, hall⟩ := hs.max_pos hp
      have hm' : marks.max < n := hmax
      refine ⟨Nat.lt_succ_of_lt hm', hhit, ?_, fun j hj hjn => ?_⟩
      · show Function.update marks.histogram n 0 marks.max = h marks.max
        rw [Function.update_of_ne (Nat.ne_of_lt hm')]
        exact hm
      · show h j ≤ h marks.max ∧ (j < marks.max → h j < h marks.max)
        rcases Nat.lt_succ_iff_lt_or_eq.mp hjn with hlt | rfl
        · exact hall j hj hlt
        · rw [hm, hat] at hgt
          exact ⟨Nat.not_lt.mp hgt, fun hlt => absurd hlt (Nat.lt_asymm hm')⟩

end

theorem scanned_foldl (h : Histogram) (n : Nat) :
    Scanned h n ((List.range n).foldl WaterMarks.scanOne ⟨h, 0, 0⟩) := by
  induction n with
  | zero => exact scanned_start h
  | succ n ih =>
    rw [List.range_succ, List.foldl_append]
    rcases Nat.eq_zero_or_pos n with rfl | hn
    · exact scanned_one h
    · exact ih.next hn

/-- **What the scan finds**: the first counter that is not zero, and the first of the highest,
unless no counter above the lowest is hit. -/
theorem scan_spec (h : Histogram) : Leading h (WaterMarks.scan h).zero ∧
    ∀ x, 0 < x → ((WaterMarks.scan h).max = x ↔ Busiest h x) := by
  have hs : Scanned h 30 (WaterMarks.scan h) := scanned_foldl h 30
  have hbusy (hp : 0 < (WaterMarks.scan h).max) : Busiest h (WaterMarks.scan h).max := by
    obtain ⟨hlt, hhit, -, hall⟩ := hs.max_pos hp
    exact ⟨hp, hlt, hhit, fun j hj hj' => (hall j hj hj').1,
      fun j hj hj' => (hall j hj (Nat.lt_trans hj' hlt)).2 hj'⟩
  refine ⟨⟨hs.zero_le, hs.zeros, hs.zero_stop⟩, fun x hx => ⟨?_, fun hb => ?_⟩⟩
  · rintro rfl
    exact hbusy hx
  · rcases Nat.eq_zero_or_pos (WaterMarks.scan h).max with hz | hp
    · have hnone := (hs.max_zero hz (by omega)).2 x hx hb.lt
      have hhit := hb.hit
      omega
    · exact (hbusy hp).unique hb

/-! ## One call -/

/-- How many samples the counters drop of a level, if any: with the first that is not zero at `z`
and the first of the highest at `x`, `x` fortieths of a second or `4 * (z * 2 / 3)` of them,
whichever is less, rounded to an even number, of a level of more than three times as many. -/
structure DropsBy (h : Histogram) (rate level k : Nat) : Prop where
  marks : ∃ z x, Leading h z ∧ Busiest h x ∧ 6 ≤ x ∧
    k = (rate * min x (z * 2 / 3 * 4) / 40 + 1) / 2 * 2
  pos : 0 < k
  level : 3 * k < level

variable {α : Type} {ring : RingBuffer α}

namespace AudioBuffer

/-- What `append_pcm2` leaves: the last samples that there is room for. -/
theorem appendPcm2_spec (hring : ring.Standard) (self : AudioBuffer ring) (buffer : List α) :
    ring.items (self.appendPcm2 buffer).1.rb =
        lastItems (ring.capacity self.rb) (ring.items self.rb ++ buffer) ∧
      ring.capacity (self.appendPcm2 buffer).1.rb = ring.capacity self.rb ∧
      (self.appendPcm2 buffer).1.rate = self.rate ∧
      (self.appendPcm2 buffer).1.histogram = self.histogram ∧
      (self.appendPcm2 buffer).2 = (ring.items (self.appendPcm2 buffer).1.rb).length := by
  unfold appendPcm2
  dsimp only
  by_cases hbig : buffer.length > ring.capacity self.rb
  · rw [if_pos hbig]
    refine ⟨hring.items_push _ _, hring.capacity_push _ _, rfl, rfl, ?_⟩
    rw [hring.items_push, length_lastItems, List.length_append]
    omega
  · rw [if_neg hbig]
    dsimp only
    rw [hring.occupiedLen_eq, hring.occupiedLen_eq, hring.items_push, hring.capacity_push]
    by_cases hover : (ring.items self.rb).length + buffer.length > ring.capacity self.rb
    · rw [if_pos hover, hring.capacity_skip, hring.items_skip]
      refine ⟨?_, rfl, rfl, rfl, rfl⟩
      -- what is skipped is what there is no room for
      have hfits : ((ring.items self.rb).drop ((ring.items self.rb).length + buffer.length -
          ring.capacity self.rb) ++ buffer).length ≤ ring.capacity self.rb := by
        rw [List.length_append, List.length_drop]
        omega
      rw [lastItems_of_le hfits, lastItems, List.length_append,
        List.drop_append_of_le_length (by omega)]
    · rw [if_neg hover]
      exact ⟨rfl, rfl, rfl, rfl, rfl⟩

/-- What the counters drop, and that they drop nothing else. -/
theorem dropByWaterMarks_spec (hring : ring.Standard) (self : AudioBuffer ring)
    (hcap : ring.capacity self.rb = 3 * self.rate) (dt : Int) :
    (self.dropByWaterMarks dt).buffer.rate = self.rate ∧
      ring.capacity (self.dropByWaterMarks dt).buffer.rb = ring.capacity self.rb ∧
      ring.items (self.dropByWaterMarks dt).buffer.rb =
        (ring.items self.rb).drop (self.dropByWaterMarks dt).dropped ∧
      ∀ k, 0 < k → ((self.dropByWaterMarks dt).dropped = k ↔
        DropsBy self.histogram self.rate (ring.items self.rb).length k) := by
  obtain ⟨hlead, hbusy⟩ := scan_spec self.histogram
  set z := (WaterMarks.scan self.histogram).zero with hz
  set x := (WaterMarks.scan self.histogram).max with hx
  -- the marks of any drop are those of the scan
  have marks {rate level k : Nat} (hd : DropsBy self.histogram rate level k) :
      6 ≤ x ∧ k = (rate * min x (z * 2 / 3 * 4) / 40 + 1) / 2 * 2 := by
    obtain ⟨z', x', hz', hx', h6, hk⟩ := hd.marks
    obtain rfl : z = z' := hlead.unique hz'
    obtain rfl : x = x' := (hbusy x' hx'.pos).mpr hx'
    exact ⟨h6, hk⟩
  have hamount (m : Nat) : 3 * self.rate * m / (30 * 4) = self.rate * m / 40 := by
    rw [Nat.mul_assoc, show 30 * 4 = 3 * 40 from rfl, Nat.mul_div_mul_left _ _ (by omega)]
  have hmin : (if x > z * 2 / 3 * 4 then z * 2 / 3 * 4 else x) = min x (z * 2 / 3 * 4) := by
    split <;> omega
  unfold dropByWaterMarks shrinkN
  simp only [← hz, ← hx, hmin, hcap, hamount, hring.occupiedLen_eq]
  by_cases h6 : x < 6
  · rw [if_pos h6]
    refine ⟨rfl, hcap, rfl, fun k hk => iff_of_false (Nat.ne_of_lt hk) fun hd => ?_⟩
    have := (marks hd).1
    omega
  · rw [if_neg h6]
    set skip := (self.rate * min x (z * 2 / 3 * 4) / 40 + 1) / 2 * 2 with hskip
    by_cases hdrop : (ring.items self.rb).length > skip * 3 ∧ skip > 0
    · rw [if_pos hdrop]
      refine ⟨rfl, (hring.capacity_skip _ _).trans hcap, hring.items_skip _ _,
        fun k hk => ⟨?_, fun hd => ?_⟩⟩
      · rintro rfl
        refine ⟨⟨z, x, hlead, (hbusy x (by omega)).mp rfl, by omega, hskip⟩, hk, ?_⟩
        show 3 * skip < _
        omega
      · exact ((marks hd).2.trans hskip.symm).symm
    · rw [if_neg hdrop]
      refine ⟨rfl, hcap, rfl, fun k hk => iff_of_false (Nat.ne_of_lt hk) fun hd => hdrop ?_⟩
      have hk' : k = skip := (marks hd).2
      have hlevel := hd.level
      have hpos := hd.pos
      rw [hk'] at hlevel hpos
      exact ⟨by omega, hpos⟩

/-- `try_shrink` drops what the counters say, when they are due. -/
theorem tryShrink_spec (hring : ring.Standard) {self : AudioBuffer ring}
    (hcap : ring.capacity self.rb = 3 * self.rate) {tms dt : Int} {shrunk : Shrunk ring}
    (h : self.tryShrink tms dt (ring.items self.rb).length = some shrunk) :
    shrunk.buffer.rate = self.rate ∧
      ring.capacity shrunk.buffer.rb = ring.capacity self.rb ∧
      ring.items shrunk.buffer.rb = (ring.items self.rb).drop shrunk.dropped ∧
      ∀ k, 0 < k → (shrunk.dropped = k ↔ tms ≠ 0 ∧ tms + 12000 ≤ dt ∧
        DropsBy (self.count (ring.items self.rb).length).histogram self.rate
          (ring.items self.rb).length k) := by
  unfold tryShrink at h
  split_ifs at h with hrate hzero hearly
  · obtain rfl := Option.some.inj h
    exact ⟨rfl, rfl, rfl, fun k hk => iff_of_false (Nat.ne_of_lt hk) fun hd => hd.1 hzero⟩
  · obtain rfl := Option.some.inj h
    refine ⟨rfl, rfl, rfl, fun k hk => iff_of_false (Nat.ne_of_lt hk) fun hd => ?_⟩
    exact absurd hd.2.1 (Int.not_le.mpr hearly)
  · obtain rfl := Option.some.inj h
    obtain ⟨hrate', hcap', hitems, hdrop⟩ := dropByWaterMarks_spec hring
      (self.count (ring.items self.rb).length) hcap dt
    refine ⟨hrate', hcap', hitems, fun k hk => (hdrop k hk).trans ?_⟩
    exact ⟨fun hd => ⟨hzero, Int.not_lt.mp hearly, hd⟩, fun hd => hd.2.2⟩

end AudioBuffer

namespace AudioRun

/-- The level that the ring reaches with more samples. -/
def level (s : AudioRun ring) (buffer : List α) : Nat :=
  min (ring.capacity s.buffer.rb) (s.items.length + buffer.length)

/-- Twelve seconds have passed, and the counters drop some of the samples. -/
structure Drops (s : AudioRun ring) (buffer : List α) (dt : Int) (k : Nat) : Prop where
  started : s.tms ≠ 0
  due : s.tms + 12000 ≤ dt
  drops : DropsBy (s.buffer.count (s.level buffer)).histogram s.buffer.rate (s.level buffer) k

/-- A ring that is kept for other channels holds whole frames of theirs. What the counters drop is
whole frames, of 600 ms or more. -/
def Careful (s : AudioRun ring) : AudioCall α → Prop
  | .resize sampleRate channels =>
    sampleRate * channels = s.buffer.rate → channels ∣ s.items.length
  | .appendPcm buffer dt => ∀ k, s.Drops buffer dt k →
    s.channels ∣ k ∧ 600 * s.buffer.rate ≤ s.level buffer * 1000

/-- What is trimmed, with the size of the ring: three seconds of whole frames. -/
structure Sound (s : AudioRun ring) : Prop extends Trimmed s where
  capacity : ring.capacity s.buffer.rb = 3 * s.buffer.rate
  rate : s.channels ∣ s.buffer.rate

theorem capacity_of_rate (n : Nat) : n * audioBufferMs / 1000 = 3 * n := by
  rw [audioBufferMs]
  omega

theorem sound_start (hring : ring.Standard) (tms : Int) : (start tms : AudioRun ring).Sound where
  within := by
    show (ring.items (ring.new _)).length ≤ _
    rw [hring.items_new]
    exact Nat.zero_le _
  frames := by
    show _ ∣ (ring.items (ring.new _)).length
    rw [hring.items_new]
    exact dvd_zero _
  newest := by
    show ring.items (ring.new _) <:+ []
    rw [hring.items_new]
  unhurried := rfl
  capacity := (hring.capacity_new _).trans (capacity_of_rate (48000 * 2))
  rate := by
    show 2 ∣ 48000 * 2
    decide

/-- A ring that is made anew is empty, and one that is kept has to be of whole frames. -/
theorem sound_resize (hring : ring.Standard) {s s' : AudioRun ring} (hs : s.Sound)
    {sampleRate channels : Nat} (h : s.next (.resize sampleRate channels) = some s') :
    (s.Careful (.resize sampleRate channels) → s'.Sound) ∧
      (s'.Trimmed → s.Careful (.resize sampleRate channels)) := by
  cases h
  have hcap := hs.capacity
  unfold Careful AudioBuffer.resize
  dsimp only
  rw [capacity_of_rate, hcap]
  by_cases hsame : sampleRate * channels = s.buffer.rate
  · rw [if_neg (by omega), if_neg (by omega)]
    constructor
    · intro hcareful
      exact ⟨⟨hs.within, hcareful hsame, hs.newest, hs.unhurried⟩, hcap,
        ⟨sampleRate, by rw [← hsame]; exact Nat.mul_comm _ _⟩⟩
    · exact fun ht _ => ht.frames
  · rw [if_pos (by omega), if_pos (by omega)]
    refine ⟨fun _ => ⟨⟨?_, ?_, ?_, hs.unhurried⟩, ?_, ?_⟩, fun _ h => absurd h hsame⟩
    · show (ring.items (ring.new _)).length ≤ _
      rw [hring.items_new]
      exact Nat.zero_le _
    · show _ ∣ (ring.items (ring.new _)).length
      rw [hring.items_new]
      exact dvd_zero _
    · show ring.items (ring.new _) <:+ []
      rw [hring.items_new]
    · exact hring.capacity_new _
    · exact Dvd.intro_left _ rfl

/-- What a call of `append_pcm` does: it drops what there is no room for, and then what the counters
say. -/
theorem appendPcm_spec (hring : ring.Standard) {s s' : AudioRun ring} (hs : s.Sound)
    {buffer : List α} {dt : Int} (h : s.next (.appendPcm buffer dt) = some s') :
    s.channels ∣ buffer.length ∧ s'.channels = s.channels ∧ s'.buffer.rate = s.buffer.rate ∧
      ring.capacity s'.buffer.rb = ring.capacity s.buffer.rb ∧
      s'.appended = s.appended ++ buffer ∧
      ∃ dropped, s'.items =
          (lastItems (ring.capacity s.buffer.rb) (s.items ++ buffer)).drop dropped ∧
        s'.hasty = (decide (dropped > 0) && decide (s.level buffer * 1000 < 600 * s.buffer.rate)) ∧
        ∀ k, 0 < k → (dropped = k ↔ s.Drops buffer dt k) := by
  simp only [next] at h
  split_ifs at h with hframes
  obtain ⟨shrunk, hshrunk, rfl⟩ := Option.map_eq_some_iff.mp h
  obtain ⟨hitems, hcapacity, hrate, hhist, hret⟩ :=
    AudioBuffer.appendPcm2_spec hring s.buffer buffer
  have hlevel : (ring.items (s.buffer.appendPcm2 buffer).1.rb).length = s.level buffer := by
    rw [hitems, length_lastItems, List.length_append]
    rfl
  unfold AudioBuffer.appendPcm at hshrunk
  dsimp only at hshrunk
  rw [hret] at hshrunk
  obtain ⟨hrate', hcapacity', hitems', hdrop⟩ := AudioBuffer.tryShrink_spec hring
    (by rw [hcapacity, hrate]; exact hs.capacity) hshrunk
  refine ⟨Nat.dvd_of_mod_eq_zero hframes, rfl, hrate'.trans hrate, hcapacity'.trans hcapacity, rfl,
    shrunk.dropped, ?_, ?_, fun k hk => ?_⟩
  · show ring.items shrunk.buffer.rb = _
    rw [hitems', hitems]
    rfl
  · show (s.hasty || _) = _
    rw [hs.unhurried, hring.occupiedLen_eq, hlevel, Bool.false_or]
  · rw [hdrop k hk, hlevel, hrate]
    have hcount : ((s.buffer.appendPcm2 buffer).1.count (s.level buffer)).histogram =
        (s.buffer.count (s.level buffer)).histogram := by
      unfold AudioBuffer.count
      rw [hrate, hhist]
    rw [hcount]
    exact ⟨fun hd => ⟨hd.1, hd.2.1, hd.2.2⟩, fun hd => ⟨hd.started, hd.due, hd.drops⟩⟩

theorem sound_appendPcm (hring : ring.Standard) {s s' : AudioRun ring} (hs : s.Sound)
    {buffer : List α} {dt : Int} (h : s.next (.appendPcm buffer dt) = some s') :
    (s.Careful (.appendPcm buffer dt) → s'.Sound) ∧
      (s'.Trimmed → s.Careful (.appendPcm buffer dt)) := by
  obtain ⟨hbuffer, hchannels, hrate, hcapacity, happended, dropped, hitems, hhasty, hdrops⟩ :=
    appendPcm_spec hring hs h
  -- the level, too, is whole frames
  have hlevel : s.channels ∣ s.level buffer := by
    unfold level
    rcases Nat.le_total (ring.capacity s.buffer.rb) (s.items.length + buffer.length) with hl | hl
    · rw [Nat.min_eq_left hl, hs.capacity]
      exact Dvd.dvd.mul_left hs.rate 3
    · rw [Nat.min_eq_right hl]
      exact Nat.dvd_add hs.frames hbuffer
  have hlength : s'.items.length = s.level buffer - dropped := by
    rw [hitems, List.length_drop, length_lastItems, List.length_append]
    rfl
  constructor
  · intro hcareful
    have hkept : s.channels ∣ dropped ∧ s'.hasty = false := by
      rcases Nat.eq_zero_or_pos dropped with h0 | hpos
      · subst h0
        exact ⟨dvd_zero _, hhasty⟩
      · obtain ⟨hdvd, hlate⟩ := hcareful dropped ((hdrops dropped hpos).mp rfl)
        refine ⟨hdvd, ?_⟩
        rw [hhasty, decide_eq_false (Nat.not_lt.mpr hlate), Bool.and_false]
    refine ⟨⟨?_, ?_, ?_, hkept.2⟩, by rw [hcapacity, hrate]; exact hs.capacity,
      by rw [hchannels, hrate]; exact hs.rate⟩
    · rw [hlength, hcapacity]
      exact Nat.le_trans (Nat.sub_le _ _) (Nat.min_le_left _ _)
    · rw [hlength, hchannels]
      exact Nat.dvd_sub hlevel hkept.1
    · rw [hitems, happended]
      have hall : s.items ++ buffer <:+ s.appended ++ buffer := by
        obtain ⟨before, hbefore⟩ := hs.newest
        exact ⟨before, by rw [← hbefore, List.append_assoc]⟩
      exact ((List.drop_suffix _ _).trans (lastItems_suffix _ _)).trans hall
  · intro ht k hk
    have hpos := hk.drops.pos
    obtain rfl : dropped = k := (hdrops k hpos).mpr hk
    constructor
    · have hframes := ht.frames
      rw [hlength, hchannels] at hframes
      have hle : dropped ≤ s.level buffer := by
        have := hk.drops.level
        omega
      have hsub := Nat.dvd_sub hlevel hframes
      rwa [Nat.sub_sub_self hle] at hsub
    · have hunhurried := ht.unhurried
      rw [hhasty, decide_eq_true hpos, Bool.true_and, decide_eq_false_iff_not] at hunhurried
      exact Nat.not_lt.mp hunhurried

/-- One call keeps what is trimmed exactly where it is careful. -/
theorem sound_next (hring : ring.Standard) {s s' : AudioRun ring} (hs : s.Sound)
    {call : AudioCall α} (h : s.next call = some s') :
    (s.Careful call → s'.Sound) ∧ (s'.Trimmed → s.Careful call) := by
  cases call with
  | resize sampleRate channels => exact sound_resize hring hs h
  | appendPcm buffer dt => exact sound_appendPcm hring hs h

/-- **When the audio is trimmed as it should be.** All along a trace of calls, at any times, the
ring holds no more than it can, whole frames and the newest samples, and nothing is dropped of less
than 600 ms, exactly when every call is careful. -/
theorem always_trimmed_iff (hring : ring.Standard) {tr : List (AudioRun ring × AudioCall α)}
    {s : AudioRun ring} (h : system.Trace tr s) :
    System.Always Trimmed tr s ↔ ∀ x ∈ tr, x.1.Careful x.2 := by
  refine System.Trace.always_iff (I := Sound) ?_ Sound.toTrimmed ?_ ?_ h
  · rintro s ⟨tms, rfl⟩
    exact sound_start hring tms
  · exact fun hs hnext => (sound_next hring hs hnext).1
  · exact fun hs hnext => (sound_next hring hs hnext).2

/-- A ring of samples that are all the same. -/
abbrev unitRing : RingBuffer Unit := RingBuffer.list

/-- Three channels of ten samples a second, and two seconds of samples that stay for more than
twelve. -/
def threeChannels : List (AudioCall Unit) :=
  [.resize 10 3, .appendPcm (List.replicate 63 ()) 1, .appendPcm [] 20000]

/-- Sixteen of the samples are dropped. -/
theorem foldlM_threeChannels :
    (threeChannels.foldlM next (start 0 : AudioRun unitRing)).map
      (fun s => (s.channels, s.items.length)) = some (3, 47) := by
  decide +kernel

theorem exists_trace_threeChannels :
    ∃ tr s, (system : System (AudioRun unitRing) _).Trace tr s ∧
      tr.map Prod.snd = threeChannels ∧ s.channels = 3 ∧ s.items.length = 47 := by
  obtain ⟨s, hs, hend⟩ := Option.map_eq_some_iff.mp foldlM_threeChannels
  obtain ⟨tr, htr, hlabels⟩ := (System.Trace.start ⟨0, rfl⟩ :
    (system : System (AudioRun unitRing) _).Trace [] (start 0)).of_foldlM
      (fun {_ _ _} hnext => hnext) hs
  exact ⟨tr, s, htr, hlabels, congrArg Prod.fst hend, congrArg Prod.snd hend⟩

/-- What is left is not whole frames. -/
theorem not_always_trimmed :
    ¬ ∀ (tr : List (AudioRun unitRing × AudioCall Unit))
      (s : AudioRun unitRing), system.Trace tr s →
        System.Always Trimmed tr s := by
  intro h
  obtain ⟨tr, s, htr, -, hchannels, hlength⟩ := exists_trace_threeChannels
  have hframes := (h tr s htr).2.frames
  rw [hchannels, hlength] at hframes
  exact absurd hframes (by decide)

theorem always_trimmed_threeChannels :
    ∃ tr s, (system : System (AudioRun unitRing) _).Trace tr s ∧
      tr.map Prod.snd = threeChannels ∧
      (System.Always Trimmed tr s ↔ ∀ x ∈ tr, x.1.Careful x.2) := by
  obtain ⟨tr, s, htr, hlabels, -⟩ := exists_trace_threeChannels
  exact ⟨tr, s, htr, hlabels, always_trimmed_iff RingBuffer.list_standard htr⟩

end AudioRun

end HopToDesk.Client
