import HopToDesk.Host.Codec

/-!
# What codec is chosen

`Encoder::update` counts the preferences that can be met, and takes VP9 to be one that always can: a
viewer whose VP9 decoder has failed says so, but its `ability_vp9` is not read. So a choice fits the
viewers exactly if VP9 does not come out of it where some viewer lacks it and another codec would
do. `negotiated_agreed_iff` says when that is. The second clause of `Agreed` always holds: a
codec that most viewers prefer is chosen if it can be.

A vote between level codecs goes to the one that the hash map yields first. `check_determined_iff`:
the choice depends on the set of viewers alone exactly if no two codecs can win.
-/

set_option autoImplicit false

namespace HopToDesk.Host.Codec

open Kit

/-! ## What a codec is to a set of viewers -/

namespace CodecFormat

def ability : CodecFormat → SupportedDecoding → Int32
  | vp8, d => d.abilityVp8
  | vp9, d => d.abilityVp9
  | h264, d => d.abilityH264
  | h265, d => d.abilityH265
  | unknown, _ => 0

/-- The preference for a codec. -/
def preference : CodecFormat → PreferCodec
  | vp8 => .vp8
  | vp9 => .vp9
  | h264 => .h264
  | h265 => .h265
  | unknown => .auto

end CodecFormat

/-- This side has an encoder for the codec. VP9 is not in what it tells, since it is always there. -/
def Machine.Encodes (m : Machine) : CodecFormat → Prop
  | .vp8 => m.supportedEncoding.vp8 = true
  | .vp9 => True
  | .h264 => m.supportedEncoding.h264 = true
  | .h265 => m.supportedEncoding.h265 = true
  | .unknown => False

def PreferCodec.format? : PreferCodec → Option CodecFormat
  | auto => none
  | vp9 => some .vp9
  | h264 => some .h264
  | h265 => some .h265
  | vp8 => some .vp8

/-- The codec that a viewer prefers, if it prefers one. -/
def SupportedDecoding.preferred (d : SupportedDecoding) : Option CodecFormat :=
  (PreferCodec.fromValue d.prefer).bind PreferCodec.format?

section

variable (m : Machine) (ds : List SupportedDecoding) (c : CodecFormat)

def SupportedByAll : Prop := ∀ d ∈ ds, 0 < c.ability d

/-- This side can encode the codec, and every viewer can decode it. -/
def Usable : Prop := m.Encodes c ∧ SupportedByAll ds c

/-- How many viewers prefer the codec. -/
def preferring : Nat := ds.countP fun d => decide (d.preferred = some c)

/-- Some viewer prefers the codec, and no other is preferred by more. -/
def MostPreferred : Prop := 0 < preferring ds c ∧ ∀ c', preferring ds c' ≤ preferring ds c

/-- What the codec of a set of viewers should be. -/
structure Agreed : Prop where
  supported : (∃ c', Usable m ds c') → SupportedByAll ds c
  preferred : ∀ c', Usable m ds c' → MostPreferred ds c' → MostPreferred ds c

/-- Preferences for the codec are counted. -/
def Counted : Prop := c = .vp9 ∨ Usable m ds c

/-- The codec can win the vote: some counted codec is preferred, and none by more viewers. -/
def CanWin : Prop :=
  Counted m ds c ∧ 0 < preferring ds c ∧
    ∀ c', Counted m ds c' → preferring ds c' ≤ preferring ds c

/-- A codec other than VP9 is chosen where there is no vote. -/
def AutoOther : Prop :=
  Usable m ds .h264 ∨ Usable m ds .h265 ∨
    Usable m ds .vp8 ∧ m.totalMemory ≤ 4 * 1024 * 1024 * 1024

/-- Every viewer has VP9, or no codec would do, or one that would is preferred by more viewers than
VP9 is, or none prefers VP9 and what is chosen by itself is another. -/
def Fits : Prop :=
  SupportedByAll ds .vp9 ∨
    (∀ c, ¬ Usable m ds c) ∨
    (∃ c, Usable m ds c ∧ preferring ds .vp9 < preferring ds c) ∨
    (preferring ds .vp9 = 0 ∧ AutoOther m ds)

/-- No two codecs can win the vote. -/
def Untied : Prop := ∀ c c', CanWin m ds c → CanWin m ds c' → c = c'

end

/-! ## Preferences -/

theorem PreferCodec.fromValue_eq_some (n : EnumOrUnknown) (p : PreferCodec) :
    fromValue n = some p ↔ p.value = n := by
  constructor
  · intro h
    simpa using List.find?_some h
  · rintro rfl
    cases p <;> rfl

theorem SupportedDecoding.preferred_eq_some (d : SupportedDecoding) (c : CodecFormat) :
    d.preferred = some c ↔ c ≠ .unknown ∧ d.prefer = c.preference.value := by
  rw [preferred, Option.bind_eq_some_iff]
  constructor
  · rintro ⟨p, hp, hformat⟩
    rw [PreferCodec.fromValue_eq_some] at hp
    cases p <;> cases hformat <;> exact ⟨by decide, hp.symm⟩
  · rintro ⟨hc, hprefer⟩
    refine ⟨c.preference, (PreferCodec.fromValue_eq_some _ _).mpr hprefer.symm, ?_⟩
    cases c
    case unknown => exact absurd rfl hc
    all_goals rfl

/-! ## The abilities that are read -/

section

variable {m : Machine} {ds ds' : List SupportedDecoding} {c c' : CodecFormat}

theorem allSupport_iff (ability : SupportedDecoding → Int32) (hne : ds ≠ []) :
    allSupport ability ds = true ↔ ∀ d ∈ ds, 0 < ability d := by
  simp [allSupport, List.length_pos_iff.mpr hne]

theorem vp8Useable_iff (hne : ds ≠ []) : vp8Useable ds = true ↔ Usable m ds .vp8 := by
  rw [vp8Useable, allSupport_iff _ hne]
  exact ⟨fun h => ⟨rfl, h⟩, And.right⟩

theorem h264Encoding_iff :
    (h264VramEncoding m ds || (h264HwEncoding m ds).isSome) = true ↔
      allSupport (·.abilityH264) ds = true ∧ m.supportedEncoding.h264 = true := by
  cases h : allSupport (·.abilityH264) ds <;> cases he : m.enableHwcodecOption <;>
    simp [h264VramEncoding, h264HwEncoding, Machine.supportedEncoding, h, he, or_comm]

theorem h265Encoding_iff :
    (h265VramEncoding m ds || (h265HwEncoding m ds).isSome) = true ↔
      allSupport (·.abilityH265) ds = true ∧ m.supportedEncoding.h265 = true := by
  cases h : allSupport (·.abilityH265) ds <;> cases he : m.enableHwcodecOption <;>
    simp [h265VramEncoding, h265HwEncoding, Machine.supportedEncoding, h, he, or_comm]

theorem h264Encoding_iff_usable (hne : ds ≠ []) :
    (h264VramEncoding m ds || (h264HwEncoding m ds).isSome) = true ↔ Usable m ds .h264 := by
  rw [h264Encoding_iff, allSupport_iff _ hne, and_comm]
  rfl

theorem h265Encoding_iff_usable (hne : ds ≠ []) :
    (h265VramEncoding m ds || (h265HwEncoding m ds).isSome) = true ↔ Usable m ds .h265 := by
  rw [h265Encoding_iff, allSupport_iff _ hne, and_comm]
  rfl

theorem h264Useable_iff (hne : ds ≠ []) : h264Useable m ds = true ↔ Usable m ds .h264 := by
  rw [h264Useable, Bool.and_eq_true, h264Encoding_iff_usable hne, allSupport_iff _ hne]
  exact and_iff_right_of_imp And.right

theorem h265Useable_iff (hne : ds ≠ []) : h265Useable m ds = true ↔ Usable m ds .h265 := by
  rw [h265Useable, Bool.and_eq_true, h265Encoding_iff_usable hne, allSupport_iff _ hne]
  exact and_iff_right_of_imp And.right

/-! ## The preferences that are counted -/

theorem not_counted_unknown : ¬ Counted m ds .unknown := by
  rintro (h | h)
  · cases h
  · exact h.1

theorem canBeMet_iff (hne : ds ≠ []) (n : EnumOrUnknown) :
    canBeMet m ds n = true ↔ ∃ c, Counted m ds c ∧ n = c.preference.value := by
  simp only [canBeMet, Bool.or_eq_true, Bool.and_eq_true, decide_eq_true_eq,
    vp8Useable_iff (m := m) hne, h264Useable_iff hne, h265Useable_iff hne]
  constructor
  · rintro (((h | ⟨h, hu⟩) | ⟨h, hu⟩) | ⟨h, hu⟩)
    · exact ⟨.vp9, .inl rfl, h⟩
    · exact ⟨.vp8, .inr hu, h⟩
    · exact ⟨.h264, .inr hu, h⟩
    · exact ⟨.h265, .inr hu, h⟩
  · rintro ⟨c, rfl | hu, rfl⟩
    · exact .inl (.inl (.inl rfl))
    · cases c with
      | vp8 => exact .inl (.inl (.inr ⟨rfl, hu⟩))
      | vp9 => exact .inl (.inl (.inl rfl))
      | h264 => exact .inl (.inr ⟨rfl, hu⟩)
      | h265 => exact .inr ⟨rfl, hu⟩
      | unknown => exact hu.1.elim

/-- A preference that is counted is some viewer's, for a counted codec. -/
theorem of_mem_preferences (hne : ds ≠ []) {n : EnumOrUnknown} (hn : n ∈ preferences m ds) :
    ∃ c, Counted m ds c ∧ n = c.preference.value := by
  obtain ⟨d, hd, rfl⟩ := List.mem_map.mp hn
  exact (canBeMet_iff hne _).mp (List.mem_filter.mp hd).2

/-- As many preferences for a counted codec are counted as there are. -/
theorem count_preferences (hne : ds ≠ []) (hc : Counted m ds c) :
    (preferences m ds).count c.preference.value = preferring ds c := by
  rw [preferences, List.count, List.countP_map, List.countP_filter, preferring]
  apply List.countP_congr
  intro d _
  have hunknown : c ≠ .unknown := by
    rintro rfl
    exact not_counted_unknown hc
  have hmet : canBeMet m ds c.preference.value = true := (canBeMet_iff hne _).mpr ⟨c, hc, rfl⟩
  simp only [Function.comp_apply, Bool.and_eq_true, beq_iff_eq, decide_eq_true_eq,
    d.preferred_eq_some, hunknown, ne_eq, not_false_eq_true, true_and]
  constructor
  · exact And.left
  · intro hprefer
    exact ⟨hprefer, hprefer ▸ hmet⟩

/-! ## What comes out -/

/-- A counted codec wins with its preference. -/
theorem negotiate_of_winner (hne : ds ≠ []) (hc : Counted m ds c)
    (hwin : winner (preferences m ds) = some c.preference.value) : negotiate m ds = c := by
  have hpreference : preference m ds = c.preference := by
    rw [preference, hwin, Option.getD_some, PreferCodec.enumValueOr,
      (PreferCodec.fromValue_eq_some _ _).mpr rfl, Option.getD_some]
  rw [negotiate, hpreference]
  cases c with
  | vp8 => rfl
  | vp9 => rfl
  | h264 => exact if_pos ((h264Encoding_iff_usable hne).mpr (hc.resolve_left (by decide)))
  | h265 => exact if_pos ((h265Encoding_iff_usable hne).mpr (hc.resolve_left (by decide)))
  | unknown => exact absurd hc not_counted_unknown

theorem negotiate_of_none (hwin : winner (preferences m ds) = none) :
    negotiate m ds = autoCodec m ds := by
  rw [negotiate, preference, hwin]
  rfl

/-- What is chosen by itself is VP9 or a usable codec. -/
theorem autoCodec_spec (hne : ds ≠ []) :
    AutoOther m ds ∧ Usable m ds (autoCodec m ds) ∨
      ¬ AutoOther m ds ∧ autoCodec m ds = .vp9 := by
  rw [AutoOther, ← h264Useable_iff hne, ← h265Useable_iff hne, ← vp8Useable_iff hne]
  cases h4 : h264Useable m ds with
  | true =>
    refine .inl ⟨.inl rfl, ?_⟩
    cases h5 : h265Useable m ds with
    | true => simpa [autoCodec, h4, h5] using (h265Useable_iff hne).mp h5
    | false => simpa [autoCodec, h4, h5] using (h264Useable_iff hne).mp h4
  | false =>
    cases h5 : h265Useable m ds with
    | true =>
      refine .inl ⟨.inr (.inl rfl), ?_⟩
      simpa [autoCodec, h4, h5] using (h265Useable_iff hne).mp h5
    | false =>
      by_cases h8 : vp8Useable ds = true ∧ m.totalMemory ≤ 4 * 1024 * 1024 * 1024
      · refine .inl ⟨.inr (.inr h8), ?_⟩
        simpa [autoCodec, h4, h5, h8] using (vp8Useable_iff hne).mp h8.1
      · refine .inr ⟨by simpa using h8, ?_⟩
        simp only [autoCodec, h4, h5, Bool.and_eq_true, decide_eq_true_eq, h8]
        rfl

/-- The codec wins the vote, or there is no vote and it is chosen by itself. -/
theorem negotiate_spec (hne : ds ≠ []) :
    CanWin m ds (negotiate m ds) ∨
      (∀ c, Counted m ds c → preferring ds c = 0) ∧ negotiate m ds = autoCodec m ds := by
  cases hwin : winner (preferences m ds) with
  | some n =>
    left
    obtain ⟨hmem, hmax⟩ := winner_spec hwin
    obtain ⟨c, hc, rfl⟩ := of_mem_preferences hne hmem
    rw [negotiate_of_winner hne hc hwin]
    refine ⟨hc, ?_, fun c' hc' => ?_⟩
    · rw [← count_preferences hne hc]
      exact List.count_pos_iff.mpr hmem
    · rw [← count_preferences hne hc, ← count_preferences hne hc']
      exact hmax _
  | none =>
    right
    refine ⟨fun c hc => ?_, negotiate_of_none hwin⟩
    have hnil : preferences m ds = [] := by
      by_contra hvotes
      obtain ⟨n, hn⟩ := exists_winner hvotes
      rw [hn] at hwin
      cases hwin
    rw [← count_preferences hne hc, hnil]
    rfl

/-! ## One order of the viewers and another -/

theorem supportedByAll_of_perm (h : ds.Perm ds') : SupportedByAll ds c ↔ SupportedByAll ds' c :=
  forall_congr' fun _ => imp_congr_left h.mem_iff

theorem usable_of_perm (h : ds.Perm ds') : Usable m ds c ↔ Usable m ds' c :=
  and_congr_right fun _ => supportedByAll_of_perm h

theorem preferring_of_perm (h : ds.Perm ds') (c : CodecFormat) :
    preferring ds c = preferring ds' c :=
  h.countP_eq _

theorem counted_of_perm (h : ds.Perm ds') : Counted m ds c ↔ Counted m ds' c :=
  or_congr_right (usable_of_perm h)

theorem canWin_of_perm (h : ds.Perm ds') : CanWin m ds c ↔ CanWin m ds' c := by
  simp only [CanWin, counted_of_perm h, preferring_of_perm h]

theorem agreed_of_perm (h : ds.Perm ds') : Agreed m ds c ↔ Agreed m ds' c := by
  have hone : ∀ {ds ds' : List SupportedDecoding}, ds.Perm ds' → Agreed m ds c →
      Agreed m ds' c := by
    intro ds ds' h hagreed
    constructor
    · rintro ⟨c', hc'⟩
      rw [← supportedByAll_of_perm h]
      exact hagreed.supported ⟨c', (usable_of_perm h).mpr hc'⟩
    · intro c' hc'
      have hpreferred := hagreed.preferred c' ((usable_of_perm h).mpr hc')
      simpa only [MostPreferred, preferring_of_perm h] using hpreferred
  exact ⟨hone h, hone h.symm⟩

/-- The encodings that are usable do not depend on the order. -/
theorem usableEncoding_of_perm (h : ds.Perm ds') : usableEncoding m ds = usableEncoding m ds' := by
  have hall (ability : SupportedDecoding → Int32) :
      allSupport ability ds = allSupport ability ds' := by
    rw [allSupport, allSupport, h.length_eq]
    congr 1
    rw [Bool.eq_iff_iff, List.all_eq_true, List.all_eq_true]
    exact forall_congr' fun _ => imp_congr_left h.mem_iff
  simp only [usableEncoding, vp8Useable, h264Useable, h265Useable, h264VramEncoding,
    h265VramEncoding, h264HwEncoding, h265HwEncoding, hall]

/-- A codec that can win does so where a viewer that prefers it goes first. -/
theorem negotiate_of_front {d : SupportedDecoding} (hcan : CanWin m (d :: ds) c)
    (hprefers : d.preferred = some c) : negotiate m (d :: ds) = c := by
  have hne : d :: ds ≠ [] := List.cons_ne_nil d ds
  obtain ⟨hc, -, hmax⟩ := hcan
  apply negotiate_of_winner hne hc
  have hprefer := ((d.preferred_eq_some c).mp hprefers).2
  have hmet : canBeMet m (d :: ds) d.prefer = true := (canBeMet_iff hne _).mpr ⟨c, hc, hprefer⟩
  obtain ⟨votes, hvotes⟩ : ∃ votes, preferences m (d :: ds) = c.preference.value :: votes := by
    rw [preferences, List.filter_cons_of_pos (by exact hmet), List.map_cons, hprefer]
    exact ⟨_, rfl⟩
  rw [hvotes]
  apply winner_of_front
  intro n
  rw [← hvotes]
  by_cases hn : n ∈ preferences m (d :: ds)
  · obtain ⟨c', hc', rfl⟩ := of_mem_preferences hne hn
    rw [count_preferences hne hc, count_preferences hne hc']
    exact hmax c' hc'
  · rw [List.count_eq_zero_of_not_mem hn]
    exact Nat.zero_le _

theorem exists_negotiate (hcan : CanWin m ds c) :
    ∃ ds', ds'.Perm ds ∧ ds' ≠ [] ∧ negotiate m ds' = c := by
  obtain ⟨d, hd, hprefers⟩ := List.countP_pos_iff.mp hcan.2.1
  have hperm : (d :: ds.erase d).Perm ds := (List.perm_cons_erase hd).symm
  refine ⟨d :: ds.erase d, hperm, List.cons_ne_nil _ _, ?_⟩
  exact negotiate_of_front ((canWin_of_perm hperm).mpr hcan) (of_decide_eq_true hprefers)

theorem autoCodec_of_perm (h : ds.Perm ds') : autoCodec m ds = autoCodec m ds' := by
  have husable := usableEncoding_of_perm (m := m) h
  have h8 : vp8Useable ds = vp8Useable ds' := congrArg SupportedEncoding.vp8 husable
  have h4 : h264Useable m ds = h264Useable m ds' := congrArg SupportedEncoding.h264 husable
  have h5 : h265Useable m ds = h265Useable m ds' := congrArg SupportedEncoding.h265 husable
  rw [autoCodec, autoCodec, h8, h4, h5]

/-! ## When every order will do -/

theorem agreed_of_fits (hne : ds ≠ []) (hfits : Fits m ds) : Agreed m ds (negotiate m ds) := by
  constructor
  · rintro ⟨c, hc⟩
    rcases negotiate_spec (m := m) hne with hcan | ⟨hnone, hauto⟩
    · rcases hcan.1 with hvp9 | husable
      · rw [hvp9] at hcan ⊢
        obtain ⟨-, hpos, hmax⟩ := hcan
        rcases hfits with hall | hno | ⟨c', hc', hlt⟩ | ⟨hzero, -⟩
        · exact hall
        · exact absurd hc (hno c)
        · exact absurd (hmax c' (.inr hc')) (Nat.not_le.mpr hlt)
        · exact absurd hzero (Nat.pos_iff_ne_zero.mp hpos)
      · exact husable.2
    · rw [hauto]
      rcases autoCodec_spec (m := m) hne with ⟨-, husable⟩ | ⟨hother, hvp9⟩
      · exact husable.2
      · rw [hvp9]
        rcases hfits with hall | hno | ⟨c', hc', hlt⟩ | ⟨-, hauto⟩
        · exact hall
        · exact absurd hc (hno c)
        · rw [hnone c' (.inr hc')] at hlt
          exact absurd hlt (Nat.not_lt_zero _)
        · exact absurd hauto hother
  · rintro c hc ⟨hpos, hmost⟩
    rcases negotiate_spec (m := m) hne with ⟨-, hpos', hmax⟩ | ⟨hnone, -⟩
    · exact ⟨hpos', fun c' => (hmost c').trans (hmax c (.inr hc))⟩
    · rw [hnone c (.inr hc)] at hpos
      exact absurd hpos (Nat.lt_irrefl 0)

/-- Where the viewers do not fit, some order makes VP9 the choice. -/
theorem exists_vp9_of_not_fits (hfits : ¬ Fits m ds) :
    ∃ ds', ds'.Perm ds ∧ ds' ≠ [] ∧ negotiate m ds' = .vp9 := by
  simp only [Fits, not_or, not_forall, not_not, not_exists, not_and, Nat.not_lt] at hfits
  obtain ⟨hvp9, -, hmost, hauto⟩ := hfits
  have hne : ds ≠ [] := by
    rintro rfl
    exact hvp9 fun d hd => absurd hd List.not_mem_nil
  have hmax : ∀ c, Counted m ds c → preferring ds c ≤ preferring ds .vp9 := by
    rintro c (rfl | hc)
    · exact Nat.le_refl _
    · exact hmost c hc
  rcases Nat.eq_zero_or_pos (preferring ds .vp9) with hzero | hpos
  · refine ⟨ds, .refl ds, hne, ?_⟩
    rcases negotiate_spec (m := m) hne with ⟨hc, hpos, -⟩ | ⟨-, hchosen⟩
    · have hle := hmax _ hc
      omega
    · rcases autoCodec_spec (m := m) hne with ⟨hother, -⟩ | ⟨-, heq⟩
      · exact absurd hother (hauto hzero)
      · rw [hchosen, heq]
  · exact exists_negotiate ⟨.inl rfl, hpos, hmax⟩

theorem forall_perm_agreed_iff :
    (∀ ds', ds'.Perm ds → ds' ≠ [] → Agreed m ds (negotiate m ds')) ↔ Fits m ds := by
  constructor
  · intro hall
    by_contra hfits
    obtain ⟨ds', hperm, hne, hvp9⟩ := exists_vp9_of_not_fits hfits
    have hagreed := hall ds' hperm hne
    rw [hvp9] at hagreed
    apply hfits
    by_cases hsome : ∃ c, Usable m ds c
    · exact .inl (hagreed.supported hsome)
    · exact .inr (.inl (not_exists.mp hsome))
  · intro hfits ds' hperm hne
    have hfits' : Fits m ds' := by
      simpa only [Fits, AutoOther, supportedByAll_of_perm hperm, usable_of_perm hperm,
        preferring_of_perm hperm] using hfits
    exact (agreed_of_perm hperm).mp (agreed_of_fits hne hfits')

theorem forall_perm_negotiate_iff :
    (∀ ds', ds'.Perm ds → negotiate m ds' = negotiate m ds) ↔ Untied m ds := by
  constructor
  · intro hall c c' hc hc'
    obtain ⟨ds₁, hperm₁, -, rfl⟩ := exists_negotiate hc
    obtain ⟨ds₂, hperm₂, -, rfl⟩ := exists_negotiate hc'
    rw [hall ds₁ hperm₁, hall ds₂ hperm₂]
  · intro huntied ds' hperm
    by_cases hne : ds = []
    · subst hne
      rw [List.perm_nil.mp hperm]
    · have hne' : ds' ≠ [] := fun h => hne (List.nil_perm.mp (h ▸ hperm))
      rcases negotiate_spec (m := m) hne with hwin | ⟨hnone, hauto⟩
      · rcases negotiate_spec (m := m) hne' with hwin' | ⟨hnone', -⟩
        · exact huntied _ _ ((canWin_of_perm hperm).mp hwin') hwin
        · have hzero := hnone' _ ((counted_of_perm hperm).mpr hwin.1)
          rw [preferring_of_perm hperm] at hzero
          exact absurd hzero (Nat.pos_iff_ne_zero.mp hwin.2.1)
      · rcases negotiate_spec (m := m) hne' with hwin' | ⟨-, hauto'⟩
        · have hzero := hnone _ ((counted_of_perm hperm).mp hwin'.1)
          rw [← preferring_of_perm hperm] at hzero
          exact absurd hzero (Nat.pos_iff_ne_zero.mp hwin'.2.1)
        · rw [hauto, hauto', autoCodec_of_perm hperm]

end

/-! ## Runs of calls -/

section

variable {entries entries' : List (Sigma fun _ : Int32 => SupportedDecoding)}

/-- The order that yields the entries in the order given. -/
def IterationOrder.yielding (h : entries'.Perm entries) : IterationOrder where
  arrange l := if l = entries then entries' else l
  perm l := by
    split
    case isTrue heq => exact heq ▸ h
    case isFalse => exact .refl l

theorem IterationOrder.arrange_yielding (h : entries'.Perm entries) :
    (yielding h).arrange entries = entries' := if_pos rfl

end

/-- Some iteration order yields the decodings in the order given. -/
theorem IterationOrder.exists_of_perm (peers : PeerDecodings) {ds : List SupportedDecoding}
    (hperm : ds.Perm (values peers)) :
    ∃ order : IterationOrder, (order.arrange peers.entries).map (·.2) = ds := by
  have hvalues : List.Forall₂ (fun d e => d = e.2) (values peers) peers.entries := by
    rw [values, List.forall₂_map_left_iff, List.forall₂_same]
    exact fun _ _ => rfl
  obtain ⟨entries, hentries, hperm'⟩ := List.perm_comp_forall₂ hperm hvalues
  refine ⟨yielding hperm', ?_⟩
  rw [arrange_yielding, ← List.forall₂_eq_eq_eq, List.forall₂_map_left_iff]
  exact hentries.flip.imp fun _ _ h => h.symm

theorem IterationOrder.values_perm (order : IterationOrder) (peers : PeerDecodings) :
    ((order.arrange peers.entries).map (·.2)).Perm (values peers) :=
  (order.perm peers.entries).map _

namespace Encoder

section

variable (m : Machine) (calls : List Call) (order : IterationOrder) (u : EncodingUpdate)

theorem run_append_singleton :
    run (calls ++ [⟨m, order, u⟩]) = (run calls).update m order u := by
  rw [run, List.foldl_append]
  rfl

/-- After any calls, and one more: the codec agrees with what the viewers can do and prefer, in
whatever order they are met, exactly if they fit. -/
theorem negotiated_agreed_iff :
    (∀ order,
      let s := run (calls ++ [⟨m, order, u⟩])
      values s.peerDecodings ≠ [] → Agreed m (values s.peerDecodings) s.encodeCodecFormat) ↔
      Fits m (values (u.apply (run calls).peerDecodings)) := by
  rw [← forall_perm_agreed_iff]
  simp only [run_append_singleton]
  constructor
  · intro hall ds' hperm hne
    obtain ⟨order, rfl⟩ := IterationOrder.exists_of_perm _ hperm
    refine hall order fun hnil => hne ?_
    exact List.perm_nil.mp (hnil ▸ hperm)
  · intro hall order hne
    have hperm := order.values_perm (u.apply (run calls).peerDecodings)
    refine hall _ hperm fun hnil => hne ?_
    exact List.nil_perm.mp (hnil ▸ hperm)

/-- The same viewers are registered, with the same decodings. -/
def SamePeers (s s' : Encoder) : Prop :=
  ∀ id, s.peerDecodings.lookup id = s'.peerDecodings.lookup id

theorem SamePeers.perm {s s' : Encoder} (h : SamePeers s s') :
    (values s.peerDecodings).Perm (values s'.peerDecodings) := by
  refine List.Perm.map _ (List.lookup_ext s.peerDecodings.nodupKeys s'.peerDecodings.nodupKeys ?_)
  intro id decoding
  exact iff_of_eq (congrArg (decoding ∈ ·) (h id))

/-- Two histories that end with the same viewers: a check gives the same, in whatever orders the
viewers are met, exactly if no two codecs can win. -/
theorem check_determined_iff :
    (∀ (calls' : List Call) (order order' : IterationOrder),
      SamePeers (run calls') (run calls) →
      let s := run (calls ++ [⟨m, order, .check⟩])
      let s' := run (calls' ++ [⟨m, order', .check⟩])
      s'.encodeCodecFormat = s.encodeCodecFormat ∧ s'.usableEncoding = s.usableEncoding) ↔
      Untied m (values (run calls).peerDecodings) := by
  rw [← forall_perm_negotiate_iff]
  simp only [run_append_singleton]
  constructor
  · intro hall ds' hperm
    obtain ⟨order', rfl⟩ := IterationOrder.exists_of_perm _ hperm
    obtain ⟨order, horder⟩ := IterationOrder.exists_of_perm (run calls).peerDecodings (.refl _)
    have hsame := (hall calls order order' fun _ => rfl).1
    simp only [update, EncodingUpdate.apply, horder] at hsame
    exact hsame
  · intro hall calls' order order' hsame
    have hperm := order.values_perm (run calls).peerDecodings
    have hperm' := (order'.values_perm (run calls').peerDecodings).trans hsame.perm
    constructor
    · exact (hall _ hperm').trans (hall _ hperm).symm
    · exact congrArg some (usableEncoding_of_perm (hperm'.trans hperm.symm))

end

/-! ## What goes wrong -/

/-- No encoder in hardware, and eight gigabytes of memory. -/
def plain : Machine where
  enableVramOption := false
  vramAvailable _ := 0
  enableHwcodecOption := false
  hwTryGet _ := none
  totalMemory := 8 * 1024 * 1024 * 1024

def asStored : IterationOrder := ⟨id, fun _ => .refl _⟩

def reversed : IterationOrder := ⟨List.reverse, fun _ => List.reverse_perm _⟩

/-- The VP9 decoder of the one viewer has failed, and it gets VP9, though it has VP8. -/
theorem not_agreed :
    ¬ ∀ (m : Machine) (calls : List Call) (u : EncodingUpdate) (order : IterationOrder),
      let s := run (calls ++ [⟨m, order, u⟩])
      values s.peerDecodings ≠ [] →
        Agreed m (values s.peerDecodings) s.encodeCodecFormat := by
  intro hall
  have hagreed := hall plain [] (.update 1 (supportedDecodings .auto false false [.vp9])) asStored
    (List.cons_ne_nil _ _)
  have hvp8 : Usable plain [supportedDecodings .auto false false [.vp9]] .vp8 :=
    ⟨rfl, fun d hd => by rw [List.mem_singleton.mp hd]; decide⟩
  have hvp9 := hagreed.supported ⟨.vp8, hvp8⟩ _ List.mem_cons_self
  exact absurd hvp9 (by decide)

/-- One viewer prefers VP8 and one VP9. -/
def tied : List Call :=
  [⟨plain, asStored, .update 1 (supportedDecodings .vp8 false false [])⟩,
    ⟨plain, asStored, .update 2 (supportedDecodings .vp9 false false [])⟩]

theorem not_determined :
    ¬ ∀ (m : Machine) (calls calls' : List Call) (order order' : IterationOrder),
      SamePeers (run calls') (run calls) →
      let s := run (calls ++ [⟨m, order, .check⟩])
      let s' := run (calls' ++ [⟨m, order', .check⟩])
      s'.encodeCodecFormat = s.encodeCodecFormat ∧ s'.usableEncoding = s.usableEncoding := by
  intro hall
  have hsame := (hall plain tied tied asStored reversed fun _ => rfl).1
  exact absurd hsame (by decide)

end Encoder

end HopToDesk.Host.Codec
