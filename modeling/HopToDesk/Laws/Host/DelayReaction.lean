import HopToDesk.Laws.Host.VideoQos

/-!
# How a rate follows the delay

Of two delays from the same state the longer one should not give the higher rate. Within each band
of delays, and from each to the next, the rate falls (`rateOfDelay_antitone`), but for one step: up
to 300 ms the rate is divided by how often the delay is over the threshold, and from there on it is
what the delay allows for, even where that is more than the rate was. A user whose rate is low gets
a higher one as their network gets worse (`Overtakes`).

Ratios and ceilings are exact here.
-/

set_option autoImplicit false

namespace HopToDesk.Host

open Kit

namespace VideoQoS

/-- `devide_fps` of a rate and a delay that is not zero, with exact ratios. -/
theorem devideFps_eq (fps : Nat) {avgDelay : Nat} (hpos : 0 < avgDelay) :
    devideFps id fps avgDelay = min ((150 * fps + avgDelay - 1) / avgDelay) (2 ^ 32 - 1) := by
  have hdiv := Nat.div_add_mod (150 * fps + avgDelay - 1) avgDelay
  have hmod := Nat.mod_lt (150 * fps + avgDelay - 1) hpos
  set ceiling := (150 * fps + avgDelay - 1) / avgDelay
  have hle : 150 * fps ≤ avgDelay * ceiling := by omega
  have hlt : avgDelay * ceiling < 150 * fps + avgDelay := by omega
  have hposQ : (0 : ℚ) < avgDelay := by exact_mod_cast hpos
  have hratio : (fps : ℚ) / ((avgDelay : ℚ) / (150 : Nat)) = 150 * fps / avgDelay := by
    push_cast
    field_simp
  have hceil : ⌈(150 * fps / avgDelay : ℚ)⌉ = (ceiling : Int) := by
    rw [Int.ceil_eq_iff]
    push_cast
    constructor
    · rw [lt_div_iff₀ hposQ]
      have hltQ : (avgDelay * ceiling : ℚ) < 150 * fps + avgDelay := by exact_mod_cast hlt
      linarith
    · rw [div_le_iff₀ hposQ]
      have hleQ : (150 * fps : ℚ) ≤ avgDelay * ceiling := by exact_mod_cast hle
      linarith
  unfold devideFps asU32
  simp only [id]
  rw [delayThreshold150ms, hratio, hceil, Int.floor_intCast, Int.toNat_natCast]

theorem devideFps_antitone (fps : Nat) {d₁ d₂ : Nat} (hpos : 0 < d₁) (hle : d₁ ≤ d₂) :
    devideFps id fps d₂ ≤ devideFps id fps d₁ := by
  have hceiling : ∀ d, 0 < d → (150 * fps + d - 1) / d = if fps = 0 then 0 else
      (150 * fps - 1) / d + 1 := by
    intro d hd
    split
    next hzero =>
      rw [hzero, Nat.mul_zero, Nat.zero_add]
      exact Nat.div_eq_of_lt (Nat.sub_lt hd Nat.one_pos)
    next hne =>
      have hsum : 150 * fps + d - 1 = 150 * fps - 1 + d := by omega
      rw [hsum, Nat.add_div_right _ hd]
  have hfloor : (150 * fps - 1) / d₂ ≤ (150 * fps - 1) / d₁ := Nat.div_le_div_left hle hpos
  rw [devideFps_eq fps (hpos.trans_le hle), devideFps_eq fps hpos, hceiling d₂ (hpos.trans_le hle),
    hceiling d₁ hpos]
  split
  · omega
  · omega

/-- Over the threshold the rate is not raised. -/
theorem devideFps_le {fps d : Nat} (hd : delayThreshold150ms ≤ d) : devideFps id fps d ≤ fps := by
  have hpos : 0 < d := Nat.lt_of_lt_of_le (by decide) hd
  have hmul : 150 * fps ≤ d * fps := Nat.mul_le_mul_right fps hd
  have hceiling : (150 * fps + d - 1) / d ≤ fps := by
    rw [Nat.div_le_iff_le_mul_add_pred hpos]
    omega
  rw [devideFps_eq fps hpos]
  omega

/-- What is added to the rate for a delay below the threshold. -/
def stepOfDelay (normalFps fps oldAvgDelay quickCount avgDelay : Nat) : Nat :=
  if avgDelay < 50 then if quickCount + 1 ≥ 3 then 5 else if fps < normalFps then 1 else 0
  else if avgDelay < 100 then
    if avgDelay < oldAvgDelay then if fps < normalFps then 1 else 0 else 0
  else 0

/-- The rate for a delay, where nothing overflows. -/
def rateOfDelay (minFps normalFps fps oldAvgDelay quickCount avgDelay : Nat) : Nat :=
  if avgDelay < 150 then
    max minFps (fps + stepOfDelay normalFps fps oldAvgDelay quickCount avgDelay)
  else if avgDelay < 200 then max minFps (devideFps id fps avgDelay)
  else if avgDelay < 300 then min minFps (devideFps id fps avgDelay)
  else if avgDelay < 600 then 150 * minFps / avgDelay
  else min (150 * minFps / avgDelay) (devideFps id fps avgDelay)

theorem rateOfDelay_eq {minFps normalFps fps oldAvgDelay avgDelay quickCount rate quick : Nat}
    (h : fpsOfDelay id minFps normalFps fps oldAvgDelay avgDelay quickCount = some (rate, quick)) :
    rate = rateOfDelay minFps normalFps fps oldAvgDelay quickCount avgDelay := by
  have hthreshold : delayThreshold150ms = 150 := rfl
  unfold fpsOfDelay at h
  unfold rateOfDelay
  rw [hthreshold] at h
  by_cases hfast : avgDelay < 50
  · rw [if_pos hfast] at h
    obtain ⟨count, hcount, h⟩ := Option.bind_eq_some_iff.mp h
    obtain ⟨-, rfl⟩ := unsigned_eq_some_iff.mp hcount
    obtain ⟨sum, hsum, h⟩ := Option.bind_eq_some_iff.mp h
    obtain ⟨-, rfl⟩ := unsigned_eq_some_iff.mp hsum
    have hbelow : avgDelay < 150 := by omega
    cases h
    rw [if_pos hbelow, stepOfDelay, if_pos hfast]
  rw [if_neg hfast] at h
  by_cases hgood : avgDelay < 100
  · rw [if_pos hgood] at h
    obtain ⟨sum, hsum, h⟩ := Option.bind_eq_some_iff.mp h
    obtain ⟨-, rfl⟩ := unsigned_eq_some_iff.mp hsum
    have hbelow : avgDelay < 150 := by omega
    cases h
    rw [if_pos hbelow, stepOfDelay, if_neg hfast, if_pos hgood]
  rw [if_neg hgood] at h
  by_cases hfair : avgDelay < 150
  · rw [if_pos hfair] at h
    cases h
    rw [if_pos hfair, stepOfDelay, if_neg hfast, if_neg hgood, Nat.add_zero]
  rw [if_neg hfair] at h ⊢
  by_cases hlate : avgDelay < 200
  · rw [if_pos hlate] at h
    cases h
    rw [if_pos hlate]
  rw [if_neg hlate] at h ⊢
  by_cases hbad : avgDelay < 300
  · rw [if_pos hbad] at h
    cases h
    rw [if_pos hbad]
  rw [if_neg hbad] at h ⊢
  obtain ⟨dividend, hdividend, h⟩ := Option.bind_eq_some_iff.mp h
  obtain ⟨-, rfl⟩ := unsigned_eq_some_iff.mp hdividend
  obtain ⟨divided, hdivided, h⟩ := Option.bind_eq_some_iff.mp h
  have hpos : 0 < avgDelay := by omega
  rw [checkedDiv_of_pos hpos, Option.some.injEq] at hdivided
  subst hdivided
  by_cases hworse : avgDelay < 600
  · rw [if_pos hworse] at h
    cases h
    rw [if_pos hworse]
  · rw [if_neg hworse] at h
    cases h
    rw [if_neg hworse]

/-- The delays the rate rises between: the rate is divided at the first, and at the second it is
what the delay allows for. -/
def Between (d₁ d₂ : Nat) : Prop := 200 ≤ d₁ ∧ d₁ < 300 ∧ 300 ≤ d₂ ∧ d₂ < 600

instance (d₁ d₂ : Nat) : Decidable (Between d₁ d₂) := inferInstanceAs (Decidable (_ ∧ _))

/-- The longer the delay, the less is added. -/
theorem stepOfDelay_antitone (normalFps fps oldAvgDelay quickCount : Nat) {d₁ d₂ : Nat}
    (hle : d₁ ≤ d₂) :
    stepOfDelay normalFps fps oldAvgDelay quickCount d₂ ≤
      stepOfDelay normalFps fps oldAvgDelay quickCount d₁ := by
  unfold stepOfDelay
  split_ifs <;> omega

section Bands

variable {minFps normalFps fps oldAvgDelay quickCount d : Nat}

theorem rateOfDelay_good (hd : d < 150) :
    rateOfDelay minFps normalFps fps oldAvgDelay quickCount d =
      max minFps (fps + stepOfDelay normalFps fps oldAvgDelay quickCount d) := if_pos hd

theorem rateOfDelay_late (hd : 150 ≤ d) (hd' : d < 200) :
    rateOfDelay minFps normalFps fps oldAvgDelay quickCount d =
      max minFps (devideFps id fps d) := by
  unfold rateOfDelay
  rw [if_neg (by omega), if_pos hd']

theorem rateOfDelay_divided (hd : 200 ≤ d) (hd' : d < 300) :
    rateOfDelay minFps normalFps fps oldAvgDelay quickCount d =
      min minFps (devideFps id fps d) := by
  unfold rateOfDelay
  rw [if_neg (by omega), if_neg (by omega), if_pos hd']

theorem rateOfDelay_allowed (hd : 300 ≤ d) (hd' : d < 600) :
    rateOfDelay minFps normalFps fps oldAvgDelay quickCount d = 150 * minFps / d := by
  unfold rateOfDelay
  rw [if_neg (by omega), if_neg (by omega), if_neg (by omega), if_pos hd']

theorem rateOfDelay_worst (hd : 600 ≤ d) :
    rateOfDelay minFps normalFps fps oldAvgDelay quickCount d =
      min (150 * minFps / d) (devideFps id fps d) := by
  unfold rateOfDelay
  rw [if_neg (by omega), if_neg (by omega), if_neg (by omega), if_neg (by omega)]

/-- What a delay over the threshold allows for. -/
theorem allowed_le (minFps : Nat) (hd : 300 ≤ d) : 150 * minFps / d ≤ minFps / 2 := by
  rw [Nat.div_le_iff_le_mul_add_pred (by omega)]
  have hmul := Nat.mul_le_mul_right (minFps / 2) hd
  have hhalf := Nat.div_add_mod minFps 2
  have hmod := Nat.mod_lt minFps Nat.two_pos
  omega

end Bands

/-- A longer delay gives no higher rate, within each band and from each to any other but one. -/
theorem rateOfDelay_antitone (minFps normalFps fps oldAvgDelay quickCount : Nat) {d₁ d₂ : Nat}
    (hpos : 0 < d₁) (hle : d₁ ≤ d₂) (hnot : ¬ Between d₁ d₂) :
    rateOfDelay minFps normalFps fps oldAvgDelay quickCount d₂ ≤
      rateOfDelay minFps normalFps fps oldAvgDelay quickCount d₁ := by
  have hdevide := devideFps_antitone fps hpos hle
  have hallowed : 150 * minFps / d₂ ≤ 150 * minFps / d₁ := Nat.div_le_div_left hle hpos
  have hstep := stepOfDelay_antitone normalFps fps oldAvgDelay quickCount hle
  unfold Between at hnot
  -- the band of the longer delay, and then those the shorter one can be in
  rcases Nat.lt_or_ge d₂ 150 with hgood | hlate
  · rw [rateOfDelay_good hgood, rateOfDelay_good (Nat.lt_of_le_of_lt hle hgood)]
    omega
  have hraised : d₁ < 150 → max minFps fps ≤
      rateOfDelay minFps normalFps fps oldAvgDelay quickCount d₁ := by
    intro h₁
    rw [rateOfDelay_good h₁]
    omega
  rcases Nat.lt_or_ge d₂ 200 with hlate' | hbad
  · have hfps : devideFps id fps d₂ ≤ fps := devideFps_le hlate
    rw [rateOfDelay_late hlate hlate']
    rcases Nat.lt_or_ge d₁ 150 with h₁ | h₁
    · have hraised' := hraised h₁
      omega
    · rw [rateOfDelay_late h₁ (Nat.lt_of_le_of_lt hle hlate')]
      omega
  have hkept : d₁ < 200 → minFps ≤
      rateOfDelay minFps normalFps fps oldAvgDelay quickCount d₁ := by
    intro h₁
    rcases Nat.lt_or_ge d₁ 150 with h₁' | h₁'
    · have hraised' := hraised h₁'
      omega
    · rw [rateOfDelay_late h₁' h₁]
      omega
  rcases Nat.lt_or_ge d₂ 300 with hbad' | hworse
  · rw [rateOfDelay_divided hbad hbad']
    rcases Nat.lt_or_ge d₁ 200 with h₁ | h₁
    · have hkept' := hkept h₁
      omega
    · rw [rateOfDelay_divided h₁ (Nat.lt_of_le_of_lt hle hbad')]
      omega
  have hhalf := allowed_le minFps hworse
  rcases Nat.lt_or_ge d₂ 600 with hworse' | hworst
  · rw [rateOfDelay_allowed hworse hworse']
    rcases Nat.lt_or_ge d₁ 200 with h₁ | h₁
    · have hkept' := hkept h₁
      omega
    · rw [rateOfDelay_allowed (by omega) (Nat.lt_of_le_of_lt hle hworse')]
      exact hallowed
  · rw [rateOfDelay_worst hworst]
    rcases Nat.lt_or_ge d₁ 200 with h₁ | h₁
    · have hkept' := hkept h₁
      omega
    rcases Nat.lt_or_ge d₁ 300 with h₁' | h₁'
    · rw [rateOfDelay_divided h₁ h₁']
      omega
    rcases Nat.lt_or_ge d₁ 600 with h₁'' | h₁''
    · rw [rateOfDelay_allowed h₁' h₁'']
      omega
    · rw [rateOfDelay_worst h₁'']
      omega

/-- The rate a delay assigns: that of the averaged delay, one more after three good samples, and
clamped. -/
theorem fps_of_assignFps {fps highestFps : Nat} {targetRatio : ℚ} {delay oldAvgDelay avgDelay : Nat}
    {d d' : UserDelay} (h : assignFps id fps highestFps targetRatio delay d = some d')
    (hold : d.avgDelay = some oldAvgDelay)
    (havg : (d.addDelay id (max delay 10)).avgDelay = some avgDelay) :
    d'.fps = some (clamp minFPS highestFps
      (rateOfDelay (fpsOfRatio id targetRatio).1 (fpsOfRatio id targetRatio).2 fps oldAvgDelay
        d.quickIncreaseFpsCount (max avgDelay 10) +
          if max avgDelay 10 < 150 ∧ d.increaseFpsCount + 1 ≥ 3 then 1 else 0)) := by
  unfold assignFps at h
  simp only [hold, havg, Option.bind_eq_bind, Option.bind_some] at h
  obtain ⟨⟨rate, quick⟩, hrate, h⟩ := Option.bind_eq_some_iff.mp h
  obtain ⟨count, hcount, h⟩ := Option.bind_eq_some_iff.mp h
  obtain ⟨fps', hfps', h⟩ := Option.bind_eq_some_iff.mp h
  cases h
  have hrate' : rate = rateOfDelay (fpsOfRatio id targetRatio).1 (fpsOfRatio id targetRatio).2 fps
      oldAvgDelay d.quickIncreaseFpsCount (max avgDelay 10) := rateOfDelay_eq hrate
  dsimp only
  rw [← hrate']
  have hthreshold : delayThreshold150ms = 150 := rfl
  rw [hthreshold] at hcount
  by_cases hgood : max avgDelay 10 < 150
  · rw [if_pos hgood] at hcount
    obtain ⟨-, rfl⟩ := unsigned_eq_some_iff.mp hcount
    by_cases hthird : d.increaseFpsCount + 1 ≥ 3
    · have hthird' : (d.addDelay id (max delay 10)).increaseFpsCount + 1 ≥ 3 := hthird
      rw [if_pos hthird'] at hfps'
      obtain ⟨-, rfl⟩ := unsigned_eq_some_iff.mp hfps'
      rw [if_pos ⟨hgood, hthird⟩]
    · have hthird' : ¬ (d.addDelay id (max delay 10)).increaseFpsCount + 1 ≥ 3 := hthird
      rw [if_neg hthird'] at hfps'
      cases hfps'
      rw [if_neg fun hboth => hthird hboth.2, Nat.add_zero]
  · rw [if_neg hgood] at hcount
    cases hcount
    rw [if_neg (by decide)] at hfps'
    cases hfps'
    rw [if_neg fun hboth => hgood hboth.1, Nat.add_zero]

/-! ## Two runs -/

variable (self : VideoQoS)

/-- What a network delay of a user is averaged to. -/
def averagedDelay (userId : Int) (delay : Nat) : Option Nat := do
  let user ← self.users.lookup userId
  let avgDelay ← (withDelay id user delay).avgDelay
  some (max avgDelay 10)

/-- The rate of a user. -/
def assignedFps (userId : Int) : Option Nat := do
  let user ← self.users.lookup userId
  user.delay.fps

/-- The rate that is the least while the network is good. -/
def minFps : Nat := (fpsOfRatio id (self.latestQuality.ratio id)).1

/-- The second delay allows for a higher rate than the first one leaves of the rate of all. -/
def Overtakes (d₁ d₂ : Nat) : Prop :=
  Between d₁ d₂ ∧
    max 1 ((150 * self.fps + d₁ - 1) / d₁) < min self.highestFps (150 * self.minFps / d₂)

instance (d₁ d₂ : Nat) : Decidable (self.Overtakes d₁ d₂) :=
  inferInstanceAs (Decidable (_ ∧ _))

variable {self}

/-- What a network delay assigns to its user. -/
theorem assignedFps_userNetworkDelay {self' : VideoQoS} {linuxOrFreebsd : Bool} {userId : Int}
    {delay now d : Nat} (h : self.userNetworkDelay id linuxOrFreebsd userId delay now = some self')
    (hd : self.averagedDelay userId delay = some d) :
    ∃ user oldAvgDelay, self.users.lookup userId = some user ∧
      user.delay.avgDelay = some oldAvgDelay ∧ 0 < d ∧
      self'.assignedFps userId = some (clamp minFPS self.highestFps
        (rateOfDelay self.minFps (fpsOfRatio id (self.latestQuality.ratio id)).2 self.fps
          oldAvgDelay user.delay.quickIncreaseFpsCount d +
            if d < 150 ∧ user.delay.increaseFpsCount + 1 ≥ 3 then 1 else 0)) := by
  obtain ⟨user, hlookup, hd⟩ := Option.bind_eq_some_iff.mp hd
  obtain ⟨avgDelay, havg, hd⟩ := Option.bind_eq_some_iff.mp hd
  cases hd
  unfold userNetworkDelay at h
  simp only [hlookup] at h
  obtain ⟨delays, hassign, hrest⟩ := Option.bind_eq_some_iff.mp h
  obtain ⟨oldAvgDelay, hold⟩ := UserDelay.exists_avgDelay_iff.mpr (fits_of_assignFps hassign).1
  have hfps := fps_of_assignFps hassign hold havg
  have hadjusted :
      ((self.modifyUser userId ({ · with delay := delays })).adjustFps now).users.lookup userId =
        some { user with delay := delays } := by
    refine (lookup_mapValues _ _ userId).trans ?_
    rw [hlookup, Option.map_some, if_pos rfl]
  have husers : self'.users =
      ((self.modifyUser userId ({ · with delay := delays })).adjustFps now).users := by
    split at hrest
    · exact (adjustRatio_frame hrest).1
    · cases hrest
      rfl
  refine ⟨user, oldAvgDelay, hlookup, hold, by omega, ?_⟩
  unfold assignedFps
  rw [husers, hadjusted]
  exact hfps

/-- A longer delay gives no higher rate exactly where it does not overtake. -/
theorem fps_le_iff {q₁ q₂ : VideoQoS} {linuxOrFreebsd : Bool} {userId : Int}
    {delay₁ delay₂ now₁ now₂ d₁ d₂ f₁ f₂ : Nat}
    (h₁ : self.userNetworkDelay id linuxOrFreebsd userId delay₁ now₁ = some q₁)
    (h₂ : self.userNetworkDelay id linuxOrFreebsd userId delay₂ now₂ = some q₂)
    (hd₁ : self.averagedDelay userId delay₁ = some d₁)
    (hd₂ : self.averagedDelay userId delay₂ = some d₂) (hle : d₁ ≤ d₂)
    (hf₁ : q₁.assignedFps userId = some f₁) (hf₂ : q₂.assignedFps userId = some f₂) :
    f₂ ≤ f₁ ↔ ¬ self.Overtakes d₁ d₂ := by
  obtain ⟨user, oldAvgDelay, hlookup, hold, hpos₁, hfps₁⟩ := assignedFps_userNetworkDelay h₁ hd₁
  obtain ⟨user', oldAvgDelay', hlookup', hold', -, hfps₂⟩ := assignedFps_userNetworkDelay h₂ hd₂
  cases hlookup.symm.trans hlookup'
  cases hold.symm.trans hold'
  cases hf₁.symm.trans hfps₁
  cases hf₂.symm.trans hfps₂
  have hhighest := self.highestFps_bounds
  have hmin : minFPS = 1 := rfl
  have hmax : maxFPS = 120 := rfl
  by_cases hbetween : Between d₁ d₂
  · obtain ⟨hdivided, hdivided', hallowed, hallowed'⟩ := hbetween
    have hlong : (150 * self.fps + d₁ - 1) / d₁ ≤ self.fps := by
      rw [Nat.div_le_iff_le_mul_add_pred hpos₁]
      have hmul : 150 * self.fps ≤ d₁ * self.fps := Nat.mul_le_mul_right _ (by omega)
      omega
    have hhalf := allowed_le self.minFps hallowed
    rw [rateOfDelay_divided hdivided hdivided', rateOfDelay_allowed hallowed hallowed',
      devideFps_eq self.fps hpos₁, if_neg (by omega), if_neg (by omega), Nat.add_zero, Nat.add_zero]
    unfold clamp Overtakes Between
    omega
  · have hantitone := rateOfDelay_antitone self.minFps
      (fpsOfRatio id (self.latestQuality.ratio id)).2 self.fps oldAvgDelay
      user.delay.quickIncreaseFpsCount hpos₁ hle hbetween
    refine iff_of_true ?_ fun hover => hbetween hover.1
    have hthird : (if d₂ < 150 ∧ user.delay.increaseFpsCount + 1 ≥ 3 then 1 else 0) ≤
        if d₁ < 150 ∧ user.delay.increaseFpsCount + 1 ≥ 3 then 1 else 0 := by
      split
      next hboth => rw [if_pos ⟨Nat.lt_of_le_of_lt hle hboth.1, hboth.2⟩]
      next => exact Nat.zero_le _
    unfold clamp
    omega

/-- A user answers after three seconds, which leaves two frames a second, and another one opens. -/
def lateAndOpened : VideoQoS :=
  let opened := (new id 0).onConnectionOpen 1 true 0
  (opened.userDelayResponseElapsed id 1 3000 1).onConnectionOpen 2 true 2

/-- At 299 ms the new user is given the two frames. -/
theorem lateAndOpened_divided :
    ∃ q, lateAndOpened.userNetworkDelay id true 2 299 3 = some q ∧ q.assignedFps 2 = some 2 := by
  refine Option.bind_eq_some_iff.mp ?_
  decide +kernel

/-- At 300 ms they are given five. -/
theorem lateAndOpened_allowed :
    ∃ q, lateAndOpened.userNetworkDelay id true 2 300 3 = some q ∧ q.assignedFps 2 = some 5 := by
  refine Option.bind_eq_some_iff.mp ?_
  decide +kernel

/-- A network that gets worse from 240 to 299 ms gives no higher rate. -/
theorem fps_le_lateAndOpened : 2 ≤ 2 ↔ ¬ lateAndOpened.Overtakes 240 299 := by
  have hshorter : ∃ q, lateAndOpened.userNetworkDelay id true 2 240 3 = some q ∧
      q.assignedFps 2 = some 2 := by
    refine Option.bind_eq_some_iff.mp ?_
    decide +kernel
  obtain ⟨q₁, h₁, hf₁⟩ := hshorter
  obtain ⟨q₂, h₂, hf₂⟩ := lateAndOpened_divided
  exact fps_le_iff h₁ h₂ (by decide) (by decide) (by decide) hf₁ hf₂

/-- A network that gets worse by a millisecond gives a higher rate. -/
theorem not_fps_le_overtaking :
    ¬ ∀ (self q₁ q₂ : VideoQoS) (linuxOrFreebsd : Bool) (userId : Int)
        (delay₁ delay₂ now₁ now₂ d₁ d₂ f₁ f₂ : Nat),
      self.userNetworkDelay id linuxOrFreebsd userId delay₁ now₁ = some q₁ →
      self.userNetworkDelay id linuxOrFreebsd userId delay₂ now₂ = some q₂ →
      self.averagedDelay userId delay₁ = some d₁ → self.averagedDelay userId delay₂ = some d₂ →
      d₁ ≤ d₂ → q₁.assignedFps userId = some f₁ → q₂.assignedFps userId = some f₂ → f₂ ≤ f₁ := by
  intro hall
  obtain ⟨q₁, h₁, hf₁⟩ := lateAndOpened_divided
  obtain ⟨q₂, h₂, hf₂⟩ := lateAndOpened_allowed
  have hle := hall _ _ _ _ _ _ _ _ _ 299 300 _ _ h₁ h₂ (by decide) (by decide) (by decide) hf₁ hf₂
  exact absurd hle (by decide)

end VideoQoS

end HopToDesk.Host
