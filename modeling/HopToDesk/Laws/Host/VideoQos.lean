import HopToDesk.Host.VideoQos
import HopToDesk.Kit.Fallible

/-!
# What a rate of frames stays within

Every rate is clamped before it is stored, and the bounds of the clamp are bounds whatever the users
have asked for (`highestFps_bounds`), so the rates stay within theirs. The histories of a user are
short, and their counters small, because each operation that makes them longer looks at them first.

What can overflow is the sum of the delays kept of a user, each of which may be any `u32`. An
operation that averages them fails exactly where it does (`avgDelay_eq_none_iff`), and nothing else
overflows.
-/

set_option autoImplicit false

namespace HopToDesk.Host

open Kit VideoQoS

/-! ## Rates -/

namespace VideoQoS

theorem clamp_bounds {lo hi : Nat} (h : lo ≤ hi) (n : Nat) :
    lo ≤ clamp lo hi n ∧ clamp lo hi n ≤ hi := by
  unfold clamp
  omega

variable (self : VideoQoS)

theorem highestFps_bounds : minFPS ≤ self.highestFps ∧ self.highestFps ≤ maxFPS :=
  clamp_bounds (by decide) _

/-- `adjust_fps` sets the rate, and nothing else. -/
theorem adjustFps_spec (now : Nat) :
    ∃ fps, self.adjustFps now = { self with fps } ∧ minFPS ≤ fps ∧ fps ≤ self.highestFps :=
  ⟨_, rfl, clamp_bounds self.highestFps_bounds.1 _⟩

end VideoQoS

/-! ## The delays of a user -/

/-- What holds of the delays of a user. -/
structure UserDelay.Sound (d : UserDelay) : Prop where
  fps : ∀ fps, d.fps = some fps → minFPS ≤ fps ∧ fps ≤ maxFPS
  history : d.delayHistory.length ≤ historyDelayLen + 1
  samples : d.rttCalculator.samples.length ≤ RttCalculator.windowSamples

namespace UserDelay

variable {d : UserDelay}

/-- The delays kept have a sum. -/
def Fits (d : UserDelay) : Prop := d.delayHistory.sum < 2 ^ 32

instance (d : UserDelay) : Decidable d.Fits := inferInstanceAs (Decidable (_ < _))

/-- The delays are averaged where they have a sum. -/
theorem exists_avgDelay_iff : (∃ avgDelay, d.avgDelay = some avgDelay) ↔ d.Fits := by
  unfold avgDelay Fits
  rw [checkedSum_eq]
  by_cases hfits : d.delayHistory.sum < 2 ^ 32
  · refine iff_of_true ?_ hfits
    by_cases hlen : d.delayHistory.length > 0
    · rw [if_pos hlen, unsigned_of_lt hfits, Option.bind_eq_bind, Option.bind_some,
        checkedDiv_of_pos hlen, Option.bind_some]
      split
      · split
        next hlt => exact ⟨_, checkedSub_of_le (Nat.le_of_lt hlt)⟩
        · exact ⟨_, rfl⟩
      · exact ⟨_, rfl⟩
    · rw [if_neg hlen]
      exact ⟨_, rfl⟩
  · refine iff_of_false ?_ hfits
    have hlen : d.delayHistory.length > 0 := by
      refine List.length_pos_of_ne_nil ?_
      intro hnil
      rw [hnil] at hfits
      exact hfits (by decide)
    rw [if_pos hlen, unsigned, if_neg hfits]
    rintro ⟨avgDelay, havg⟩
    cases havg

theorem samples_update (round : ℚ → ℚ) {c : RttCalculator}
    (h : c.samples.length ≤ RttCalculator.windowSamples) (delay : Nat) :
    (c.update round delay).samples.length ≤ RttCalculator.windowSamples := by
  have hwindow : RttCalculator.windowSamples = 60 := rfl
  unfold RttCalculator.update
  dsimp only
  rw [List.length_append, List.length_singleton]
  split
  · rw [List.length_tail]
    omega
  · omega

theorem Sound.addDelay (h : d.Sound) (round : ℚ → ℚ) (delay : Nat) :
    (d.addDelay round delay).Sound where
  fps := h.fps
  history := by
    have hhistory := h.history
    have hlen : historyDelayLen = 2 := rfl
    unfold UserDelay.addDelay
    dsimp only
    rw [List.length_append, List.length_singleton]
    split
    · rw [List.length_tail]
      omega
    · omega
  samples := samples_update round h.samples delay

end UserDelay

/-- The counters of a user are small: a third good sample resets them. -/
structure UserDelay.Counted (d : UserDelay) : Prop where
  quick : d.quickIncreaseFpsCount < 3
  increase : d.increaseFpsCount < 3

namespace VideoQoS

/-- The rate for a delay is found, and the counter stays small, where the rate of all is. -/
theorem exists_fpsOfDelay (round : ℚ → ℚ) {minFps fps avgDelay quick : Nat}
    (normalFps oldAvgDelay : Nat) (hfps : fps ≤ maxFPS) (hmin : minFps ≤ 12) (hquick : quick < 3)
    (hpos : 0 < avgDelay) :
    ∃ fps' quick', fpsOfDelay round minFps normalFps fps oldAvgDelay avgDelay quick =
      some (fps', quick') ∧ quick' < 3 ∧ (avgDelay < delayThreshold150ms → fps' ≤ maxFPS + 5) := by
  have hmax : maxFPS = 120 := rfl
  have hthreshold : delayThreshold150ms = 150 := rfl
  have hbits : (2 : Nat) ^ 32 = 4294967296 := by norm_num
  unfold fpsOfDelay
  split
  · have hcount : quick + 1 < 2 ^ 64 := by omega
    rw [unsigned_of_lt hcount, Option.bind_eq_bind, Option.bind_some]
    dsimp only
    set step := if quick + 1 ≥ 3 then 5 else if fps < normalFps then 1 else 0 with hstep
    have hsmall : step ≤ 5 := by
      rw [hstep]
      split
      · omega
      · split
        · omega
        · omega
    have hsum : fps + step < 2 ^ 32 := by omega
    rw [unsigned_of_lt hsum, Option.bind_some]
    refine ⟨_, _, rfl, ?_, ?_⟩
    · split
      · omega
      · omega
    · intro _
      omega
  split
  · dsimp only
    set step := if avgDelay < oldAvgDelay then if fps < normalFps then 1 else 0 else 0 with hstep
    have hsmall : step ≤ 5 := by
      rw [hstep]
      split
      · split
        · omega
        · omega
      · omega
    have hsum : fps + step < 2 ^ 32 := by omega
    rw [unsigned_of_lt hsum, Option.bind_eq_bind, Option.bind_some]
    refine ⟨_, _, rfl, hquick, ?_⟩
    intro _
    omega
  split
  · refine ⟨_, _, rfl, hquick, ?_⟩
    intro _
    omega
  next hlarge =>
  -- from the threshold on nothing is added to the rate
  have hover (fps' : Nat) : avgDelay < delayThreshold150ms → fps' ≤ maxFPS + 5 :=
    fun hless => absurd hless hlarge
  split
  · exact ⟨_, _, rfl, hquick, hover _⟩
  split
  · exact ⟨_, _, rfl, hquick, hover _⟩
  · have hdividend : delayThreshold150ms * minFps < 2 ^ 32 := by
      rw [hthreshold]
      omega
    rw [unsigned_of_lt hdividend, Option.bind_eq_bind, Option.bind_some, checkedDiv_of_pos hpos,
      Option.bind_some]
    split
    · exact ⟨_, _, rfl, hquick, hover _⟩
    · exact ⟨_, _, rfl, hquick, hover _⟩

theorem fpsOfRatio_le (round : ℚ → ℚ) (targetRatio : ℚ) :
    (fpsOfRatio round targetRatio).1 ≤ 12 := by
  unfold fpsOfRatio
  split
  · decide
  split
  · decide
  · decide

/-- A delay is taken in only where the delays of the user have a sum, before it and with it. -/
theorem fits_of_assignFps {round : ℚ → ℚ} {fps highestFps : Nat} {targetRatio : ℚ} {delay : Nat}
    {d d' : UserDelay} (h : assignFps round fps highestFps targetRatio delay d = some d') :
    d.Fits ∧ (d.addDelay round (max delay 10)).Fits := by
  unfold assignFps at h
  obtain ⟨oldAvgDelay, hold, h⟩ := Option.bind_eq_some_iff.mp h
  obtain ⟨avgDelay, havg, -⟩ := Option.bind_eq_some_iff.mp h
  exact ⟨UserDelay.exists_avgDelay_iff.mp ⟨_, hold⟩, UserDelay.exists_avgDelay_iff.mp ⟨_, havg⟩⟩

theorem history_of_assignFps {round : ℚ → ℚ} {fps highestFps : Nat} {targetRatio : ℚ} {delay : Nat}
    {d d' : UserDelay} (h : assignFps round fps highestFps targetRatio delay d = some d') :
    d'.delayHistory = (d.addDelay round (max delay 10)).delayHistory := by
  unfold assignFps at h
  obtain ⟨oldAvgDelay, -, h⟩ := Option.bind_eq_some_iff.mp h
  obtain ⟨avgDelay, -, h⟩ := Option.bind_eq_some_iff.mp h
  obtain ⟨⟨fps', quick'⟩, -, h⟩ := Option.bind_eq_some_iff.mp h
  obtain ⟨count, -, h⟩ := Option.bind_eq_some_iff.mp h
  obtain ⟨fps'', -, h⟩ := Option.bind_eq_some_iff.mp h
  cases h
  rfl

/-- Where they have, a delay is taken in, and the rate is within the bounds. -/
theorem exists_assignFps (round : ℚ → ℚ) {fps highestFps : Nat} (targetRatio : ℚ) {delay : Nat}
    {d : UserDelay} (hfps : fps ≤ maxFPS) (hhighest : minFPS ≤ highestFps ∧ highestFps ≤ maxFPS)
    (h : d.Sound) (hc : d.Counted) (hold : d.Fits)
    (hnew : (d.addDelay round (max delay 10)).Fits) :
    ∃ d', assignFps round fps highestFps targetRatio delay d = some d' ∧ d'.Sound ∧ d'.Counted := by
  obtain ⟨oldAvgDelay, hold⟩ := UserDelay.exists_avgDelay_iff.mpr hold
  obtain ⟨avgDelay, havg⟩ := UserDelay.exists_avgDelay_iff.mpr hnew
  have hadded := h.addDelay round (max delay 10)
  have havgPos : 0 < max avgDelay 10 := by omega
  have hquick : (d.addDelay round (max delay 10)).quickIncreaseFpsCount < 3 := hc.quick
  have hincrease : (d.addDelay round (max delay 10)).increaseFpsCount < 3 := hc.increase
  obtain ⟨fps', quick', hrate, hquick', hless⟩ :=
    exists_fpsOfDelay round (fpsOfRatio round targetRatio).2 oldAvgDelay hfps
      (fpsOfRatio_le round targetRatio) hquick havgPos
  have hcount : (d.addDelay round (max delay 10)).increaseFpsCount + 1 < 2 ^ 64 := by omega
  have hmax : maxFPS = 120 := rfl
  -- whatever rate is assigned in the end, it is clamped
  have hdone (fps quick increase : Nat) (hq : quick < 3) (hi : increase < 3) :
      UserDelay.Sound { d.addDelay round (max delay 10) with
        quickIncreaseFpsCount := quick
        increaseFpsCount := increase
        fps := some (clamp minFPS highestFps fps) } ∧
      UserDelay.Counted { d.addDelay round (max delay 10) with
        quickIncreaseFpsCount := quick
        increaseFpsCount := increase
        fps := some (clamp minFPS highestFps fps) } := by
    refine ⟨⟨?_, hadded.history, hadded.samples⟩, hq, hi⟩
    intro fps' hassigned
    cases hassigned
    have hclamp := clamp_bounds hhighest.1 fps
    exact ⟨hclamp.1, hclamp.2.trans hhighest.2⟩
  have hquickEnd : (if max avgDelay 10 > 50 then 0 else quick') < 3 := by
    split
    · decide
    · exact hquick'
  unfold assignFps
  simp only [hold, havg, hrate, Option.bind_eq_bind, Option.bind_some]
  split
  next hgood =>
    have hfps' := hless hgood
    have hsum : fps' + 1 < 2 ^ 32 := by omega
    rw [unsigned_of_lt hcount, Option.bind_some]
    split
    · rw [unsigned_of_lt hsum, Option.bind_some]
      exact ⟨_, rfl, hdone _ _ _ hquickEnd (by decide)⟩
    next hfew =>
      exact ⟨_, rfl, hdone _ _ _ hquickEnd (Nat.lt_of_not_ge hfew)⟩
  next =>
    exact ⟨_, rfl, hdone _ _ _ hquickEnd (by decide)⟩

/-! ## The users -/

/-- The delays of every user are kept within their bounds. -/
def UsersKept (self : VideoQoS) : Prop :=
  ∀ id user, self.users.lookup id = some user → user.delay.Sound ∧ user.delay.Counted

variable {self self' : VideoQoS}

theorem UsersKept.congr (h : self.UsersKept) (husers : self'.users = self.users) :
    self'.UsersKept := by
  intro id user huser
  rw [husers] at huser
  exact h id user huser

/-- A change of one user, where it keeps the delays of that user within their bounds. -/
theorem UsersKept.modifyUser (h : self.UsersKept) (id : Int) {f : UserData → UserData}
    (hf : ∀ user, self.users.lookup id = some user →
      (f user).delay.Sound ∧ (f user).delay.Counted) :
    (self.modifyUser id f).UsersKept := by
  intro i user huser
  rw [VideoQoS.modifyUser, lookup_mapValues, Option.map_eq_some_iff] at huser
  obtain ⟨before, hbefore, rfl⟩ := huser
  split
  next heq =>
    subst heq
    exact hf before hbefore
  next => exact h i before hbefore

theorem UsersKept.insert (h : self.UsersKept) (id : Int) :
    UsersKept { self with users := self.users.insert id .new } := by
  intro i user huser
  rcases lookup_insert_eq_some huser with ⟨rfl, rfl⟩ | ⟨-, hold⟩
  · refine ⟨⟨?_, by decide, by decide⟩, by decide, by decide⟩
    intro fps hfps
    cases hfps
  · exact h i user hold

theorem UsersKept.erase (h : self.UsersKept) (id : Int) :
    UsersKept { self with users := self.users.erase id } := by
  intro i user huser
  exact h i user (lookup_erase_eq_some huser).2

theorem mem_userData {user : UserData} :
    user ∈ self.userData ↔ ∃ id, self.users.lookup id = some user := by
  rw [userData, List.mem_map]
  constructor
  · rintro ⟨⟨id, user⟩, hmem, rfl⟩
    exact ⟨id, AList.mem_lookup_iff.mpr hmem⟩
  · rintro ⟨id, hlookup⟩
    exact ⟨⟨id, user⟩, AList.mem_lookup_iff.mp hlookup, rfl⟩

/-- The delays kept of every user have a sum. -/
def UsersFit (self : VideoQoS) : Prop :=
  ∀ id user, self.users.lookup id = some user → user.delay.Fits

/-! ## adjust_ratio -/

/-- The ratio is adjusted where the delays of all users are averaged. -/
theorem exists_adjustRatio_iff (round : ℚ → ℚ) (dynamicScreen : Bool) (now : Nat) :
    (∃ self', self.adjustRatio round dynamicScreen now = some self') ↔
      (self.inVbrState = true → self.UsersFit) := by
  have hmapM : (∃ delays, self.userData.mapM (fun user => user.delay.avgDelay) = some delays) ↔
      self.UsersFit := by
    rw [exists_mapM_iff]
    constructor
    · intro hall id user hlookup
      exact UserDelay.exists_avgDelay_iff.mp (hall user (mem_userData.mpr ⟨id, hlookup⟩))
    · intro hfit user hmem
      obtain ⟨id, hlookup⟩ := mem_userData.mp hmem
      exact UserDelay.exists_avgDelay_iff.mpr (hfit id user hlookup)
  unfold adjustRatio
  cases hvbr : self.inVbrState with
  | false => exact iff_of_true ⟨self, rfl⟩ fun h => absurd h Bool.false_ne_true
  | true =>
    rw [Bool.not_true, if_neg Bool.false_ne_true, ← hmapM]
    constructor
    · rintro ⟨self', hself⟩ -
      obtain ⟨delays, hdelays, -⟩ := Option.bind_eq_some_iff.mp hself
      exact ⟨delays, hdelays⟩
    · intro h
      obtain ⟨delays, hdelays⟩ := h rfl
      rw [hdelays, Option.bind_eq_bind, Option.bind_some]
      split
      · exact ⟨_, rfl⟩
      · exact ⟨_, rfl⟩

/-- `adjust_ratio` sets the ratio, and nothing about the users. -/
theorem adjustRatio_frame {round : ℚ → ℚ} {dynamicScreen : Bool} {now : Nat}
    (h : self.adjustRatio round dynamicScreen now = some self') :
    self'.users = self.users ∧ self'.fps = self.fps := by
  unfold adjustRatio at h
  split at h
  · cases h
    exact ⟨rfl, rfl⟩
  · obtain ⟨delays, -, hrest⟩ := Option.bind_eq_some_iff.mp h
    split at hrest
    · cases hrest
      exact ⟨rfl, rfl⟩
    · cases hrest
      exact ⟨rfl, rfl⟩

theorem highestFps_congr (h : self'.users = self.users) : self'.highestFps = self.highestFps := by
  unfold highestFps userData
  rw [h]

/-! ## One operation -/

/-- What an operation that adjusts the rate leaves. -/
structure Adjusted (self' : VideoQoS) : Prop where
  users : self'.UsersKept
  least : minFPS ≤ self'.fps
  highest : self'.fps ≤ self'.highestFps

theorem UsersKept.adjustFps (h : self.UsersKept) (now : Nat) : (self.adjustFps now).Adjusted := by
  obtain ⟨fps, heq, hleast, hhighest⟩ := self.adjustFps_spec now
  rw [heq]
  exact ⟨h.congr rfl, hleast, hhighest⟩

theorem Adjusted.congr (h : self.Adjusted) (husers : self'.users = self.users)
    (hfps : self'.fps = self.fps) : self'.Adjusted where
  users := h.users.congr husers
  least := hfps ▸ h.least
  highest := by
    rw [hfps, highestFps_congr husers]
    exact h.highest

/-- The delays of a user with one more. -/
def withDelay (round : ℚ → ℚ) (user : UserData) (delay : Nat) : UserDelay :=
  user.delay.addDelay round (max delay 10)

/-- What it takes for a network delay not to overflow: the delays kept of the user have a sum,
before it and with it, and where the ratio is adjusted too, so have those of every user. -/
def NetworkDelayFits (round : ℚ → ℚ) (linuxOrFreebsd : Bool) (self : VideoQoS) (id : Int)
    (delay : Nat) : Prop :=
  ∀ user, self.users.lookup id = some user →
    user.delay.Fits ∧ (withDelay round user delay).Fits ∧
      (user.delay.fps = none → linuxOrFreebsd = false → self.inVbrState = true → self.UsersFit)

/-- The users that are left to average once a user has a delay more. -/
theorem usersFit_modifyUser {id : Int} {user : UserData} {delays : UserDelay} (now : Nat)
    (hlookup : self.users.lookup id = some user) (hold : user.delay.Fits) (hnew : delays.Fits) :
    ((self.modifyUser id ({ · with delay := delays })).adjustFps now).UsersFit ↔ self.UsersFit := by
  have hafter (i : Int) :
      ((self.modifyUser id ({ · with delay := delays })).adjustFps now).users.lookup i =
        (self.users.lookup i).map fun user =>
          if i = id then { user with delay := delays } else user :=
    lookup_mapValues _ _ i
  constructor
  · intro h i other hother
    by_cases heq : i = id
    · subst heq
      rw [hlookup, Option.some.injEq] at hother
      exact hother ▸ hold
    · refine h i other ?_
      rw [hafter, hother, Option.map_some, if_neg heq]
  · intro h i other hother
    rw [hafter, Option.map_eq_some_iff] at hother
    obtain ⟨before, hbefore, rfl⟩ := hother
    split
    · exact hnew
    · exact h i before hbefore

/-- Where it does not overflow, a network delay is taken in, and the rate adjusted. -/
theorem exists_userNetworkDelay (round : ℚ → ℚ) {linuxOrFreebsd : Bool} {id : Int} {delay : Nat}
    (now : Nat) (hfps : self.fps ≤ maxFPS) (h : self.UsersKept)
    (hfits : NetworkDelayFits round linuxOrFreebsd self id delay) :
    ∃ self', self.userNetworkDelay round linuxOrFreebsd id delay now = some self' ∧
      self'.Adjusted := by
  unfold userNetworkDelay
  cases hlookup : self.users.lookup id with
  | none => exact ⟨_, rfl, h.adjustFps now⟩
  | some user =>
    obtain ⟨hold, hnew, hall⟩ := hfits user hlookup
    obtain ⟨hsound, hcounted⟩ := h id user hlookup
    obtain ⟨delays, hassign, hsound', hcounted'⟩ :=
      exists_assignFps round (self.latestQuality.ratio round) hfps self.highestFps_bounds hsound
        hcounted hold hnew
    have hadjusted := (h.modifyUser id (f := ({ · with delay := delays }))
      fun _ _ => ⟨hsound', hcounted'⟩).adjustFps now
    simp only [hassign, Option.bind_eq_bind, Option.bind_some]
    split
    next hratio =>
      obtain ⟨hfirst, hother⟩ := Bool.and_eq_true_iff.mp hratio
      have hnone : user.delay.fps = none := Option.isNone_iff_eq_none.mp hfirst
      have hfits' : delays.Fits := by
        rw [UserDelay.Fits, history_of_assignFps hassign]
        exact hnew
      obtain ⟨self', hself'⟩ := (exists_adjustRatio_iff round false now).mpr fun hvbr =>
        (usersFit_modifyUser now hlookup hold hfits').mpr (hall hnone (by simpa using hother) hvbr)
      obtain ⟨husers, hfps'⟩ := adjustRatio_frame hself'
      exact ⟨self', hself', hadjusted.congr husers hfps'⟩
    next => exact ⟨_, rfl, hadjusted⟩

/-- A network delay that is taken in does not overflow. -/
theorem fits_of_userNetworkDelay {round : ℚ → ℚ} {linuxOrFreebsd : Bool} {id : Int}
    {delay now : Nat} (h : self.userNetworkDelay round linuxOrFreebsd id delay now = some self') :
    NetworkDelayFits round linuxOrFreebsd self id delay := by
  intro user hlookup
  unfold userNetworkDelay at h
  simp only [hlookup] at h
  obtain ⟨delays, hassign, hrest⟩ := Option.bind_eq_some_iff.mp h
  obtain ⟨hold, hnew⟩ := fits_of_assignFps hassign
  refine ⟨hold, hnew, ?_⟩
  intro hnone hother hvbr
  have hfits' : delays.Fits := by
    rw [UserDelay.Fits, history_of_assignFps hassign]
    exact hnew
  rw [hnone, hother, Option.isNone_none, Bool.not_false, Bool.and_true, if_pos rfl] at hrest
  exact (usersFit_modifyUser now hlookup hold hfits').mp
    ((exists_adjustRatio_iff round false now).mp ⟨self', hrest⟩ hvbr)

/-- What it takes for an update of a display not to overflow: where the ratio is adjusted, the
delays kept of every user have a sum. -/
def DisplayDataFits (self : VideoQoS) (now : Nat) : Prop :=
  self.inVbrState = true → elapsedSecs now self.adjustRatioInstant ≥ adjustRatioInterval →
    self.UsersFit

/-- Displays that support what they did before. -/
theorem inVbrState_mapValues {f : String → DisplayData → DisplayData}
    (hconfig : self'.abrConfig = self.abrConfig)
    (hdisplays : self'.displays = mapValues f self.displays)
    (hf : ∀ name display,
      (f name display).supportChangingQuality = display.supportChangingQuality) :
    self'.inVbrState = self.inVbrState := by
  unfold inVbrState displayData
  rw [hconfig, hdisplays, mapValues, List.map_map, List.all_map, List.all_map]
  congr 2
  funext e
  exact hf e.1 e.2

/-- An update of a display averages the delays of all users where it comes to the ratio, and adjusts
the rate. -/
theorem updateDisplayData_spec (round : ℚ → ℚ) (name : String) (sendCounter now : Nat)
    (h : self.UsersKept) :
    ((∃ self', self.updateDisplayData round name sendCounter now = some self') ↔
      self.DisplayDataFits now) ∧
    ∀ self', self.updateDisplayData round name sendCounter now = some self' → self'.Adjusted := by
  unfold updateDisplayData DisplayDataFits
  dsimp only
  set counted := (self.modifyDisplay name fun display =>
    { display with sendCounter := display.sendCounter + sendCounter }).adjustFps now with hcounted
  have hkept : (self.modifyDisplay name fun display =>
      { display with sendCounter := display.sendCounter + sendCounter }).UsersKept := h.congr rfl
  have hadjusted : counted.Adjusted := hkept.adjustFps now
  have hvbr : counted.inVbrState = self.inVbrState := by
    refine inVbrState_mapValues (f := fun n display => if n = name then
      { display with sendCounter := display.sendCounter + sendCounter } else display) rfl rfl ?_
    intro n display
    split
    · rfl
    · rfl
  have husers : counted.UsersFit ↔ self.UsersFit := Iff.rfl
  have hinstant : counted.adjustRatioInstant = self.adjustRatioInstant := rfl
  rw [hvbr, hinstant]
  cases hon : self.inVbrState with
  | false =>
    rw [if_neg Bool.false_ne_true]
    refine ⟨iff_of_true ⟨_, rfl⟩ fun hf => absurd hf Bool.false_ne_true, ?_⟩
    intro self' hself
    cases hself
    exact hadjusted.congr rfl rfl
  | true =>
    rw [if_pos rfl]
    by_cases hdue : elapsedSecs now self.adjustRatioInstant ≥ adjustRatioInterval
    · rw [if_pos hdue]
      set zeroed : VideoQoS := { counted with
        displays := mapValues (fun _ display => { display with sendCounter := 0 })
          counted.displays } with hzeroed
      have hvbr' : zeroed.inVbrState = true := by
        have hsame : zeroed.inVbrState = counted.inVbrState :=
          inVbrState_mapValues (f := fun _ display => { display with sendCounter := 0 }) rfl rfl
            fun _ _ => rfl
        rw [hsame, hvbr, hon]
      constructor
      · rw [exists_adjustRatio_iff]
        exact ⟨fun hfit _ _ => hfit hvbr', fun hfit _ => hfit rfl hdue⟩
      · intro self' hself
        obtain ⟨husers', hfps⟩ := adjustRatio_frame hself
        have hzero : zeroed.Adjusted := hadjusted.congr rfl rfl
        exact hzero.congr husers' hfps
    · rw [if_neg hdue]
      refine ⟨iff_of_true ⟨_, rfl⟩ fun _ hf => absurd hf hdue, ?_⟩
      intro self' hself
      cases hself
      exact hadjusted

/-- What an operation that is not about the rate leaves. -/
structure Quiet (self self' : VideoQoS) : Prop where
  users : self'.UsersKept
  fps : self'.fps = self.fps

/-- A change of one user that is not about their delays. -/
theorem UsersKept.quiet_modifyUser (h : self.UsersKept) (id : Int) {f : UserData → UserData}
    (hf : ∀ user, (f user).delay = user.delay) : Quiet self (self.modifyUser id f) where
  users := by
    refine h.modifyUser id fun user huser => ?_
    rw [hf user]
    exact h id user huser
  fps := rfl

/-- A response that is late, or no longer is. -/
theorem UsersKept.delayed (h : self.UsersKept) (id : Int) (responseDelayed : Bool) :
    (self.modifyUser id fun user =>
      { user with delay := { user.delay with responseDelayed } }).UsersKept := by
  refine h.modifyUser id fun user huser => ?_
  obtain ⟨hsound, hcounted⟩ := h id user huser
  exact ⟨⟨hsound.fps, hsound.history, hsound.samples⟩, hcounted.quick, hcounted.increase⟩

/-- An operation that neither adjusts the rate nor starts over. -/
theorem UsersKept.quiet_apply (h : self.UsersKept) (round : ℚ → ℚ) (linuxOrFreebsd : Bool)
    (now : Nat) {op : QosOp} (hadjusts : self.adjusts op = false)
    (hstarts : self.startsOver op = false)
    (happly : self.apply round linuxOrFreebsd now op = some self') : Quiet self self' := by
  cases op with
  | connectionOpen id enableAbr =>
    cases happly
    exact ⟨(h.insert id).congr rfl, rfl⟩
  | connectionClose id =>
    cases happly
    have hleft : ¬ (self.users.erase id).entries.isEmpty = true := Bool.eq_false_iff.mp hstarts
    have hclose :
        self.onConnectionClose round id now = { self with users := self.users.erase id } :=
      if_neg hleft
    rw [hclose]
    exact ⟨h.erase id, rfl⟩
  | customFps id fps =>
    cases happly
    unfold userCustomFps
    split
    · exact ⟨h, rfl⟩
    · exact h.quiet_modifyUser id fun _ => rfl
  | autoAdjustFps id fps =>
    cases happly
    unfold userAutoAdjustFps
    split
    · exact ⟨h, rfl⟩
    · exact h.quiet_modifyUser id fun _ => rfl
  | imageQuality id imageQuality time =>
    cases happly
    unfold userImageQuality
    split
    · obtain ⟨husers, hfps⟩ := h.quiet_modifyUser id
        (f := ({ · with quality := some (time, convertQuality round imageQuality) })) fun _ => rfl
      exact ⟨husers.congr rfl, hfps⟩
    · exact ⟨h, rfl⟩
  | record id v =>
    cases happly
    exact h.quiet_modifyUser id fun _ => rfl
  | networkDelay id delay => cases hadjusts
  | delayResponseElapsed id elapsed =>
    cases happly
    unfold userDelayResponseElapsed
    split
    next hmem =>
      have hsoon : decide (elapsed > 2000) = false := by
        have hboth : (decide (id ∈ self.users) && decide (elapsed > 2000)) = false := hadjusts
        rwa [decide_eq_true hmem, Bool.true_and] at hboth
      simp only [hsoon, Bool.false_eq_true, if_false]
      exact ⟨h.delayed id false, rfl⟩
    next => exact ⟨h, rfl⟩
  | newDisplay name | removeDisplay name | setSupportChangingQuality name support
  | storeBitrate bitrate =>
    cases happly
    exact ⟨h.congr rfl, rfl⟩
  | updateDisplayData name sendCounter => cases hadjusts
  | checkRatio =>
    cases happly
    unfold checkRatio
    split
    · exact ⟨h.congr rfl, rfl⟩
    · exact ⟨h, rfl⟩

/-- What it takes for an operation not to overflow. -/
def Fits (round : ℚ → ℚ) (linuxOrFreebsd : Bool) (self : VideoQoS) (now : Nat) : QosOp → Prop
  | .networkDelay id delay => NetworkDelayFits round linuxOrFreebsd self id delay
  | .updateDisplayData _ _ => self.DisplayDataFits now
  | _ => True

/-- An operation overflows exactly where it averages delays that have no sum. -/
theorem exists_apply_iff (round : ℚ → ℚ) (linuxOrFreebsd : Bool) (now : Nat) (op : QosOp)
    (hfps : self.fps ≤ maxFPS) (h : self.UsersKept) :
    (∃ self', self.apply round linuxOrFreebsd now op = some self') ↔
      Fits round linuxOrFreebsd self now op := by
  cases op with
  | networkDelay id delay =>
    constructor
    · rintro ⟨self', hself⟩
      exact fits_of_userNetworkDelay hself
    · intro hfits
      obtain ⟨self', hself, -⟩ := exists_userNetworkDelay round now hfps h hfits
      exact ⟨self', hself⟩
  | updateDisplayData name sendCounter =>
    exact (updateDisplayData_spec round name sendCounter now h).1
  | _ => exact iff_of_true ⟨_, rfl⟩ trivial

/-- What an operation leaves that adjusts the rate. -/
theorem UsersKept.adjusted_apply (h : self.UsersKept) (round : ℚ → ℚ) (linuxOrFreebsd : Bool)
    (now : Nat) {op : QosOp} (hfps : self.fps ≤ maxFPS) (hadjusts : self.adjusts op = true)
    (happly : self.apply round linuxOrFreebsd now op = some self') : self'.Adjusted := by
  cases op with
  | networkDelay id delay =>
    obtain ⟨after, hafter, hadjusted⟩ :=
      exists_userNetworkDelay round now hfps h (fits_of_userNetworkDelay happly)
    cases hafter.symm.trans happly
    exact hadjusted
  | updateDisplayData name sendCounter =>
    exact (updateDisplayData_spec round name sendCounter now h).2 self' happly
  | delayResponseElapsed id elapsed =>
    cases happly
    obtain ⟨hmem, hlate⟩ := Bool.and_eq_true_iff.mp hadjusts
    unfold userDelayResponseElapsed
    rw [if_pos (of_decide_eq_true hmem)]
    simp only [hlate, if_true]
    have hdelayed := h.delayed id true
    refine (hdelayed.modifyUser id ?_).adjustFps now
    intro user huser
    obtain ⟨hsound, hcounted⟩ := hdelayed id user huser
    exact ⟨hsound.addDelay round _, hcounted.quick, hcounted.increase⟩
  | _ => cases hadjusts

end VideoQoS

/-! ## Any operations -/

namespace QosRun

variable {round : ℚ → ℚ} {linuxOrFreebsd : Bool}

/-- What is claimed of a controller in use. -/
structure Sound (s : QosRun) : Prop where
  fps : minFPS ≤ s.qos.fps ∧ s.qos.fps ≤ maxFPS
  highest : s.qos.fps ≤ s.highest
  users : ∀ id user, s.qos.users.lookup id = some user → user.delay.Sound

/-- The operations so far have not overflowed, and the controller is sound. -/
def Survives (s : Option QosRun) : Prop := ∃ q, s = some q ∧ q.Sound

/-- The operation does not average delays that have no sum. -/
def FitsIn (round : ℚ → ℚ) (linuxOrFreebsd : Bool) (s : Option QosRun) (e : QosOp × Nat) : Prop :=
  ∀ q, s = some q → Fits round linuxOrFreebsd q.qos e.2 e.1

/-- What a run keeps: a sound controller, with small counters. -/
structure Steady (s : QosRun) : Prop where
  sound : s.Sound
  counted : s.qos.UsersKept

/-- A controller without users is steady. -/
theorem steady_new (round : ℚ → ℚ) (now : Nat) : Steady ⟨.new round now, FPS⟩ := by
  have hfps : minFPS ≤ FPS ∧ FPS ≤ maxFPS := by decide
  refine ⟨⟨hfps, Nat.le_refl FPS, ?_⟩, ?_⟩
  · intro id user huser
    cases huser
  · intro id user huser
    cases huser

theorem exists_apply_of_next {s s' : QosRun} {op : QosOp} {now : Nat}
    (h : s.next round linuxOrFreebsd op now = some s') :
    ∃ qos, s.qos.apply round linuxOrFreebsd now op = some qos := by
  obtain ⟨qos, happly, -⟩ := Option.bind_eq_some_iff.mp h
  exact ⟨qos, happly⟩

theorem Steady.next {s s' : QosRun} (h : s.Steady) {op : QosOp} {now : Nat}
    (hnext : s.next round linuxOrFreebsd op now = some s') : s'.Steady := by
  obtain ⟨qos, happly, heq⟩ := Option.bind_eq_some_iff.mp hnext
  cases heq
  have hkept (husers : qos.UsersKept) : ∀ id user, qos.users.lookup id = some user →
      user.delay.Sound := fun id user huser => (husers id user huser).1
  cases hadjusts : s.qos.adjusts op with
  | true =>
    have hadjusted :=
      h.counted.adjusted_apply round linuxOrFreebsd now h.sound.fps.2 hadjusts happly
    have hmax := qos.highestFps_bounds.2
    exact ⟨⟨⟨hadjusted.least, hadjusted.highest.trans hmax⟩, hadjusted.highest,
      hkept hadjusted.users⟩, hadjusted.users⟩
  | false =>
    cases hstarts : s.qos.startsOver op with
    | true =>
      cases op with
      | connectionClose id =>
        cases happly
        have hclose : s.qos.onConnectionClose round id now = .new round now := if_pos hstarts
        rw [hclose]
        exact steady_new round now
      | _ => cases hstarts
    | false =>
      obtain ⟨husers, hfps⟩ :=
        h.counted.quiet_apply round linuxOrFreebsd now hadjusts hstarts happly
      refine ⟨⟨?_, ?_, hkept husers⟩, husers⟩
      · rw [hfps]
        exact h.sound.fps
      · rw [hfps]
        exact h.sound.highest

/-- In every run the controller is sound and nothing overflows, exactly as long as no operation
averages delays that have no sum. -/
theorem survives_iff_fits {tr : List (Option QosRun × (QosOp × Nat))} {s : Option QosRun}
    (h : (system round linuxOrFreebsd).Trace tr s) :
    System.Always Survives tr s ↔ ∀ x ∈ tr, FitsIn round linuxOrFreebsd x.1 x.2 := by
  have hnext (q : QosRun) (op : QosOp) (now : Nat) (hq : q.Steady) :
      (∃ q', q.next round linuxOrFreebsd op now = some q') ↔
        Fits round linuxOrFreebsd q.qos now op := by
    rw [← exists_apply_iff round linuxOrFreebsd now op hq.sound.fps.2 hq.counted]
    constructor
    · rintro ⟨q', hq'⟩
      exact exists_apply_of_next hq'
    · rintro ⟨qos, happly⟩
      exact ⟨_, Option.bind_eq_some_iff.mpr ⟨qos, happly, rfl⟩⟩
  refine h.always_iff (I := fun s => ∃ q, s = some q ∧ q.Steady) ?_ ?_ ?_ ?_
  · rintro s ⟨now, rfl⟩
    exact ⟨_, rfl, steady_new round now⟩
  · rintro s ⟨q, rfl, hq⟩
    exact ⟨q, rfl, hq.sound⟩
  · rintro s e s' ⟨q, rfl, hq⟩ ⟨q', heq, rfl⟩ hfits
    cases heq
    obtain ⟨q'', hq''⟩ := (hnext q e.1 e.2 hq).mpr (hfits q rfl)
    exact ⟨q'', hq'', hq.next hq''⟩
  · rintro s e s' ⟨q, rfl, hq⟩ ⟨q', heq, rfl⟩ ⟨q'', hq'', -⟩
    cases heq
    rintro q' heq
    cases heq
    exact (hnext q e.1 e.2 hq).mp ⟨q'', hq''⟩

/-- A user with a good network. -/
theorem survives_good_network :
    System.Always Survives
      [(some ⟨.new id 0, FPS⟩, (QosOp.connectionOpen 1 true, 0)),
        (some ⟨(VideoQoS.new id 0).onConnectionOpen 1 true 0, FPS⟩, (.networkDelay 1 20, 5))]
      (QosRun.next id true ⟨(VideoQoS.new id 0).onConnectionOpen 1 true 0, FPS⟩
        (.networkDelay 1 20) 5) := by
  have hnew : (system id true).Trace [] (some ⟨.new id 0, FPS⟩) := .start ⟨0, rfl⟩
  have hopen : (system id true).Trace [(some ⟨.new id 0, FPS⟩, (QosOp.connectionOpen 1 true, 0))]
      (some ⟨(VideoQoS.new id 0).onConnectionOpen 1 true 0, FPS⟩) := hnew.snoc ⟨_, rfl, rfl⟩
  refine (survives_iff_fits (hopen.snoc ⟨_, rfl, rfl⟩)).mpr ?_
  rintro x hx q heq
  simp only [List.mem_append, List.mem_singleton] at hx
  rcases hx with rfl | rfl
  · exact trivial
  · cases heq
    intro user huser
    cases huser
    refine ⟨by decide, by decide, ?_⟩
    intro _ hother
    cases hother

/-- A user who answers after 25 days, and after 25 days again. -/
theorem not_survives_late :
    ¬ ∀ (tr : List (Option QosRun × (QosOp × Nat))) (s : Option QosRun),
      (system id true).Trace tr s → System.Always Survives tr s := by
  intro hall
  let opened := (VideoQoS.new id 0).onConnectionOpen 1 true 0
  let late := opened.userDelayResponseElapsed id 1 2147483648 1
  let again := late.userDelayResponseElapsed id 1 2147483648 2
  have hnew : (system id true).Trace [] (some ⟨.new id 0, FPS⟩) := .start ⟨0, rfl⟩
  have hopen : (system id true).Trace _ (some ⟨opened, FPS⟩) :=
    hnew.snoc (a := (.connectionOpen 1 true, 0)) ⟨_, rfl, rfl⟩
  have hlate : (system id true).Trace _ (some ⟨late, late.highestFps⟩) :=
    hopen.snoc (a := (.delayResponseElapsed 1 2147483648, 1)) ⟨_, rfl, rfl⟩
  have hagain : (system id true).Trace _ (some ⟨again, again.highestFps⟩) :=
    hlate.snoc (a := (.delayResponseElapsed 1 2147483648, 2)) ⟨_, rfl, rfl⟩
  have hanswer := hall _ _ (hagain.snoc (a := (.networkDelay 1 20, 3)) ⟨_, rfl, rfl⟩)
  obtain ⟨q, heq, -⟩ := hanswer.2
  obtain ⟨qos, happly⟩ := exists_apply_of_next heq
  have htaken : again.userNetworkDelay id true 1 20 3 = some qos := happly
  obtain ⟨hfits, -⟩ := fits_of_userNetworkDelay htaken _ rfl
  revert hfits
  decide

end QosRun

end HopToDesk.Host
