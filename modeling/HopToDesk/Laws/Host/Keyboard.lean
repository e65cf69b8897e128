import HopToDesk.Host.Keyboard

/-!
# Keys that the clean-up can find

Releasing all recorded keys leaves nothing held that was not held before exactly when every key
that is held was held before or has a record that releases it (`unstuck_iff`). Most events keep
this, whatever the keyboard answers: a key that is pressed is recorded, and a record goes only with
the key it is of. Three do not, and `Safe` says exactly when: a raw key on Wayland, which is not
recorded; the two function keys in the legacy mode, which return before the modifiers they pressed
are released; and the release of a control key with a number that no control key has, which takes
away the record of a character.
-/

set_option autoImplicit false

namespace HopToDesk.Host

open Kit

/-! ## What actions hold -/

section

variable {held : SimKey → Bool} {k : SimKey}

theorem heldAfter_append (en en' : List KeyAction) :
    heldAfter held (en ++ en') = heldAfter (heldAfter held en) en' := List.foldl_append

/-- What an action leaves held was held before, or is what it presses. -/
theorem apply_held {a : KeyAction} (h : a.apply held k = true) :
    held k = true ∨ a = .down k true := by
  cases a with
  | down key accepted =>
    cases accepted with
    | true =>
      by_cases hk : k = key
      · subst hk
        exact .inr rfl
      · rw [KeyAction.apply, Function.update_of_ne hk] at h
        exact .inl h
    | false => exact .inl h
  | up key =>
    by_cases hk : k = key
    · subst hk
      rw [KeyAction.apply, Function.update_self] at h
      cases h
    · rw [KeyAction.apply, Function.update_of_ne hk] at h
      exact .inl h
  | click key => exact .inl h
  | sequence text upper => exact .inl h

theorem heldAfter_held {en : List KeyAction} (h : heldAfter held en k = true) :
    held k = true ∨ .down k true ∈ en := by
  induction en generalizing held with
  | nil => exact .inl h
  | cons a en ih =>
    rcases ih h with h | h
    · rcases apply_held h with h | rfl
      · exact .inl h
      · exact .inr List.mem_cons_self
    · exact .inr (List.mem_cons_of_mem _ h)

/-- Presses release nothing. -/
theorem heldAfter_downs {en : List KeyAction} (hdowns : ∀ a ∈ en, ∃ key b, a = .down key b)
    (h : held k = true ∨ .down k true ∈ en) : heldAfter held en k = true := by
  induction en generalizing held with
  | nil =>
    rcases h with h | h
    · exact h
    · cases h
  | cons a en ih =>
    obtain ⟨key, b, rfl⟩ := hdowns a List.mem_cons_self
    apply ih (fun a ha => hdowns a (List.mem_cons_of_mem _ ha))
    rcases h with h | h
    · left
      cases b with
      | true =>
        by_cases hk : k = key
        · subst hk
          exact Function.update_self _ _ _
        · exact (Function.update_of_ne hk _ _).trans h
      | false => exact h
    · rcases List.mem_cons.mp h with heq | h
      · cases heq
        exact .inl (Function.update_self _ _ _)
      · exact .inr h

/-- What is released is not held. -/
theorem heldAfter_releaseKeys {toRelease : List Key} {en : List KeyAction}
    (h : heldAfter held (releaseKeys toRelease en) k = true) :
    heldAfter held en k = true ∧ ∀ key ∈ toRelease, k ≠ .enigo key := by
  rw [releaseKeys, heldAfter_append] at h
  generalize heldAfter held en = held at h ⊢
  induction toRelease generalizing held with
  | nil => exact ⟨h, by simp⟩
  | cons key rest ih =>
    have hstep : heldAfter (KeyAction.apply held (.up (.enigo key)))
        (rest.map fun key => .up (.enigo key)) k = true := h
    obtain ⟨hheld, hrest⟩ := ih _ hstep
    rcases eq_or_ne k (.enigo key) with rfl | hne
    · rw [KeyAction.apply, Function.update_self] at hheld
      cases hheld
    · rw [KeyAction.apply, Function.update_of_ne hne] at hheld
      exact ⟨hheld, List.forall_mem_cons.mpr ⟨hne, hrest⟩⟩

end

/-! ## Modifiers -/

section

variable (io : KeyIo) {keysDown : List KeysDown} {evt : KeyEvent}

theorem fixModifier_cases (modifiers : List Int32) (key0 : ControlKey) (key1 : Key)
    (en : List KeyAction) :
    fixModifier io modifiers key0 key1 en = en ∨
      fixModifier io modifiers key0 key1 en = en ++ [.up (.enigo key1)] := by
  unfold fixModifier
  split
  · exact .inr rfl
  · exact .inl rfl

theorem fixModifiers_ups (modifiers : List Int32) (ck : Int32) (en : List KeyAction) :
    ∃ ups, fixModifiers io modifiers ck en = en ++ ups ∧ ∀ a ∈ ups, ∃ key, a = .up key := by
  unfold fixModifiers
  generalize fixedModifiers = fixed
  induction fixed generalizing en with
  | nil => exact ⟨[], (List.append_nil _).symm, by simp⟩
  | cons x fixed ih =>
    rw [List.foldl_cons]
    split
    · rcases fixModifier_cases io modifiers x.2.1 x.2.2 en with hfix | hfix
      · rw [hfix]
        exact ih en
      · rw [hfix]
        obtain ⟨ups, heq, hups⟩ := ih (en ++ [.up (.enigo x.2.2)])
        refine ⟨.up (.enigo x.2.2) :: ups, ?_, List.forall_mem_cons.mpr ⟨⟨_, rfl⟩, hups⟩⟩
        rw [heq, List.append_assoc]
        rfl
    · exact ih en

theorem pressModifiers_downs (keysDown : List KeysDown) (evt : KeyEvent) (en : List KeyAction) :
    ∃ downs, (pressModifiers io keysDown evt en).1 = en ++ downs ∧
      ∀ a ∈ downs, ∃ key ∈ (pressModifiers io keysDown evt en).2, ∃ b, a = .down (.enigo key) b := by
  unfold pressModifiers
  induction evt.modifiers using List.reverseRecOn with
  | nil => exact ⟨[], (List.append_nil _).symm, by simp⟩
  | append_singleton modifiers ck ih =>
    obtain ⟨downs, heq, hdowns⟩ := ih
    rw [List.foldl_append, List.foldl_cons, List.foldl_nil]
    generalize modifiers.foldl (pressModifier io keysDown) (en, []) = x at heq hdowns ⊢
    unfold pressModifier
    split
    next key _ =>
      split
      · exact ⟨downs, heq, hdowns⟩
      split
      · exact ⟨downs, heq, hdowns⟩
      refine ⟨downs ++ [.down (.enigo key) (io.accepts x.1 (.enigo key))], ?_, ?_⟩
      · simp only [keyDown, heq, List.append_assoc]
      intro a ha
      rcases List.mem_append.mp ha with ha | ha
      · obtain ⟨key', hkey', b, rfl⟩ := hdowns a ha
        exact ⟨key', List.mem_append_left _ hkey', b, rfl⟩
      · rw [List.mem_singleton.mp ha]
        exact ⟨key, List.mem_append_right _ List.mem_cons_self, _, rfl⟩
    next => exact ⟨downs, heq, hdowns⟩

/-- Modifiers are released first and pressed then, and what is pressed is to be released. -/
theorem syncModifiers_spec (keysDown : List KeysDown) (evt : KeyEvent) :
    ∃ ups downs, (syncModifiers io keysDown evt).1 = ups ++ downs ∧
      (∀ a ∈ ups, ∃ key, a = .up key) ∧
      ∀ a ∈ downs, ∃ key ∈ (syncModifiers io keysDown evt).2, ∃ b, a = .down (.enigo key) b := by
  unfold syncModifiers
  split
  · obtain ⟨ups, hfix, hups⟩ := fixModifiers_ups io evt.modifiers (getControlKeyValue evt) []
    obtain ⟨downs, hpress, hdowns⟩ := pressModifiers_downs io keysDown evt
      (releaseUnpressedModifiers io evt [])
    exact ⟨ups, downs, by rw [hpress, releaseUnpressedModifiers, hfix]; rfl, hups, hdowns⟩
  · exact ⟨[], [], rfl, by simp, by simp⟩

theorem syncModifiers_release (h : evt.down = false) : syncModifiers io keysDown evt = ([], []) := by
  rw [syncModifiers, if_neg (by simp [h])]

end

/-! ## Records -/

/-- A record of the key. -/
def Known (keysDown : List KeysDown) (k : SimKey) : Prop :=
  ∃ r ∈ keysDown, Keyboard.released r = some k

theorem keyMap_mem {ck : Int32} {key : Key} (h : keyMap ck = some key) :
    ∃ x ∈ keyMapEntries, x.1.value = ck ∧ x.2 = key := by
  obtain ⟨x, hx, rfl⟩ := Option.map_eq_some_iff.mp h
  exact ⟨x, List.mem_of_find?_eq_some hx, by simpa using List.find?_some hx, rfl⟩

theorem keyMapEntries_records : ∀ x ∈ keyMapEntries,
    recordOfControlKey x.1.value < keyCharStart ∧
      (recordOfControlKey x.1.value).toUInt32.toInt32 = x.1.value := by
  decide

/-- Releasing the record of a control key releases its key. -/
theorem released_controlKey {ck : Int32} {key : Key} (h : keyMap ck = some key) :
    Keyboard.released (.enigoKey (recordOfControlKey ck)) = some (.enigo key) := by
  obtain ⟨x, hx, rfl, rfl⟩ := keyMap_mem h
  obtain ⟨hlt, hback⟩ := keyMapEntries_records x hx
  rw [Keyboard.released, recordKeyToKey, if_pos hlt, hback, h]
  rfl

theorem released_chr (chr : UInt32) :
    Keyboard.released (.enigoKey (chr.toUInt64 + keyCharStart)) =
      some (.enigo (charValueToKey chr)) := by
  have hge : ¬ chr.toUInt64 + keyCharStart < keyCharStart := by
    have hlt := chr.toNat_lt
    rw [UInt64.lt_iff_toNat_lt, UInt64.toNat_add, UInt32.toNat_toUInt64]
    simp only [keyCharStart, UInt64.reduceToNat]
    omega
  rw [Keyboard.released, recordKeyToKey, if_neg hge, UInt64.add_sub_cancel,
    UInt32.toUInt32_toUInt64]
  rfl

/-- No record is of a raw key of enigo. -/
theorem not_known_raw {keysDown : List KeysDown} {code : UInt16} :
    ¬ Known keysDown (.enigo (.raw code)) := by
  have hentries : ∀ x ∈ keyMapEntries, x.2 ≠ .raw code := by
    simp [keyMapEntries]
  rintro ⟨r, -, hr⟩
  cases r with
  | rdevKey rawkey => cases hr
  | enigoKey key =>
    obtain ⟨key', hkey', heq⟩ := Option.map_eq_some_iff.mp hr
    cases heq
    unfold recordKeyToKey at hkey'
    split at hkey'
    · obtain ⟨x, hx, -, hraw⟩ := keyMap_mem hkey'
      exact hentries x hx hraw
    · cases hkey'

theorem mem_recordPressedKey {r r' : KeysDown} {keysDown : List KeysDown} (down : Bool) :
    r' ∈ recordPressedKey r down keysDown ↔
      if down then r' = r ∨ r' ∈ keysDown else r' ∈ keysDown ∧ r' ≠ r := by
  cases down with
  | true => simp [recordPressedKey]
  | false => simp [recordPressedKey]

namespace Keyboard

variable {isWayland : Bool} {s s' : Keyboard} {a : Event}

/-- Every key that is held was held before or has a record. -/
def Covered (before : SimKey → Bool) (keysDown : List KeysDown) (held : SimKey → Bool) : Prop :=
  ∀ k, held k = true → before k = true ∨ Known keysDown k

/-- Releasing all records leaves nothing held that was not held before. -/
def Unstuck (s : Keyboard) : Prop :=
  ∀ expired k, (s.fixKeyDownTimeout expired true).held k = true → s.before k = true

theorem fixRecordKey_spec (s : Keyboard) (r : KeysDown) :
    (∀ k, (s.fixRecordKey r).held k = true ↔ s.held k = true ∧ released r ≠ some k) ∧
      (∀ r', r' ∈ (s.fixRecordKey r).keysDown ↔ r' ∈ s.keysDown ∧ r' ≠ r) ∧
      (s.fixRecordKey r).before = s.before := by
  unfold fixRecordKey releaseRecordKey
  cases hr : released r with
  | none => exact ⟨by simp, fun r' => mem_recordPressedKey false, rfl⟩
  | some key =>
    refine ⟨?_, fun r' => mem_recordPressedKey false, rfl⟩
    intro k
    by_cases hk : k = key
    · subst hk
      simp
    · simp [Function.update_of_ne hk, Ne.symm hk]

/-- What the clean-up of these records leaves. -/
theorem foldl_fixRecordKey (l : List KeysDown) (s : Keyboard) :
    (∀ k, (l.foldl fixRecordKey s).held k = true ↔
        s.held k = true ∧ ∀ r ∈ l, released r ≠ some k) ∧
      (∀ r, r ∈ (l.foldl fixRecordKey s).keysDown ↔ r ∈ s.keysDown ∧ r ∉ l) ∧
      (l.foldl fixRecordKey s).before = s.before := by
  induction l generalizing s with
  | nil => simp
  | cons r l ih =>
    obtain ⟨hheld, hkeys, hbefore⟩ := fixRecordKey_spec s r
    obtain ⟨hheld', hkeys', hbefore'⟩ := ih (s.fixRecordKey r)
    rw [List.foldl_cons]
    refine ⟨?_, ?_, hbefore'.trans hbefore⟩
    · intro k
      rw [hheld', hheld, List.forall_mem_cons, and_assoc]
    · intro r'
      rw [hkeys', hkeys, List.mem_cons, not_or, and_assoc]

/-- **What the clean-up leaves is right exactly when every held key is accounted for.** -/
theorem unstuck_iff : s.Unstuck ↔ Covered s.before s.keysDown s.held := by
  have hall : ∀ expired, s.fixKeyDownTimeout expired true = s.keysDown.foldl fixRecordKey s := by
    intro expired
    simp [fixKeyDownTimeout]
  obtain ⟨hheld, -, -⟩ := foldl_fixRecordKey s.keysDown s
  constructor
  · intro h k hk
    by_contra hno
    rw [not_or] at hno
    refine hno.1 (h (fun _ => true) k ?_)
    rw [hall, hheld]
    exact ⟨hk, fun r hr hrel => hno.2 ⟨r, hr, hrel⟩⟩
  · intro h expired k hk
    rw [hall, hheld] at hk
    rcases h k hk.1 with hbefore | ⟨r, hr, hrel⟩
    · exact hbefore
    · exact absurd hrel (hk.2 r hr)

/-! ## What an event does to the records -/

variable {before : SimKey → Bool} {keysDown : List KeysDown} {held : SimKey → Bool}

theorem known_press {k : SimKey} (h : Known keysDown k) (r : KeysDown) :
    Known (recordPressedKey r true keysDown) k := by
  obtain ⟨r', hr', hrel⟩ := h
  exact ⟨r', (mem_recordPressedKey true).mpr (.inr hr'), hrel⟩

/-- A key that is recorded may be pressed. -/
theorem Covered.press (h : Covered before keysDown held) {r : KeysDown} {held' : SimKey → Bool}
    (hheld : ∀ k, held' k = true → held k = true ∨ released r = some k) :
    Covered before (recordPressedKey r true keysDown) held' := by
  intro k hk
  rcases hheld k hk with hk | hk
  · exact (h k hk).imp_right fun hknown => known_press hknown r
  · exact .inr ⟨r, (mem_recordPressedKey true).mpr (.inl rfl), hk⟩

/-- A record may go with its key. -/
theorem Covered.release (h : Covered before keysDown held) {r : KeysDown} {held' : SimKey → Bool}
    (hheld : ∀ k, held' k = true → held k = true ∧ released r ≠ some k) :
    Covered before (recordPressedKey r false keysDown) held' := by
  intro k hk
  obtain ⟨hk, hne⟩ := hheld k hk
  rcases h k hk with hbefore | ⟨r', hr', hrel⟩
  · exact .inl hbefore
  · refine .inr ⟨r', (mem_recordPressedKey false).mpr ⟨hr', ?_⟩, hrel⟩
    rintro rfl
    exact hne hrel

theorem Covered.fewer (h : Covered before keysDown held) {held' : SimKey → Bool}
    (hheld : ∀ k, held' k = true → held k = true) : Covered before keysDown held' :=
  fun k hk => h k (hheld k hk)

theorem Covered.timeout (h : Covered s.before s.keysDown s.held) (expired : KeysDown → Bool) :
    Covered (s.fixKeyDownTimeout expired false).before (s.fixKeyDownTimeout expired false).keysDown
      (s.fixKeyDownTimeout expired false).held := by
  obtain ⟨hheld, hkeys, hbefore⟩ :=
    foldl_fixRecordKey (s.keysDown.filter fun r => false || expired r) s
  unfold fixKeyDownTimeout
  intro k hk
  obtain ⟨hk, hnone⟩ := (hheld k).mp hk
  rw [hbefore]
  refine (h k hk).imp_right ?_
  rintro ⟨r, hr, hrel⟩
  exact ⟨r, (hkeys r).mpr ⟨hr, fun hin => hnone r hin hrel⟩, hrel⟩

theorem Covered.simRdevRawkeyPosition (h : Covered before keysDown held) (io : KeyIo)
    (code : UInt32) (down : Bool) :
    Covered before (Host.simRdevRawkeyPosition io code down keysDown).2
      (heldAfter held (Host.simRdevRawkeyPosition io code down keysDown).1) := by
  cases down with
  | true =>
    apply h.press
    intro k hk
    refine (heldAfter_held hk).imp_right ?_
    intro hin
    obtain ⟨rfl, -⟩ := KeyAction.down.inj (List.mem_singleton.mp hin)
    rfl
  | false =>
    apply h.release
    intro k hk
    by_cases hcode : k = .rawKey code
    · subst hcode
      rw [← hk]
      simp [heldAfter, Host.simRdevRawkeyPosition, KeyAction.apply] at hk
    · refine ⟨?_, fun hrel => hcode (Option.some.inj hrel).symm⟩
      simpa [heldAfter, Host.simRdevRawkeyPosition, KeyAction.apply,
        Function.update_of_ne hcode] using hk

/-- Releases, clicks and texts hold nothing new. -/
theorem Covered.quiet (h : Covered before keysDown held) {en : List KeyAction}
    (hquiet : ∀ k, .down k true ∉ en) : Covered before keysDown (heldAfter held en) :=
  h.fewer fun k hk => (heldAfter_held hk).resolve_right (hquiet k)

theorem Covered.translateKeyboardMode (h : Covered before keysDown held) (io : KeyIo)
    (evt : KeyEvent) :
    Covered before (Host.translateKeyboardMode io keysDown evt).2
      (heldAfter held (Host.translateKeyboardMode io keysDown evt).1) := by
  unfold Host.translateKeyboardMode
  split
  next seq _ =>
    apply h.quiet
    intro k hin
    rcases List.mem_append.mp hin with hin | hin
    · split at hin
      · split at hin
        · simp at hin
        · simp at hin
      · split at hin
        · simp at hin
        · simp at hin
    · simp at hin
  next => exact h.simRdevRawkeyPosition io _ _
  next => exact h.quiet (by simp)

/-! ## The legacy mode -/

section

variable {io : KeyIo} {evt : KeyEvent} {k : SimKey}

/-- After the modifiers are released again, what is new is what the event itself pressed. -/
theorem held_legacy {body : List KeyAction}
    (h : heldAfter held (releaseKeys (syncModifiers io keysDown evt).2
      ((syncModifiers io keysDown evt).1 ++ body)) k = true) :
    held k = true ∨ .down k true ∈ body := by
  obtain ⟨ups, downs, heq, hups, hdowns⟩ := syncModifiers_spec io keysDown evt
  obtain ⟨hheld, hreleased⟩ := heldAfter_releaseKeys h
  refine (heldAfter_held hheld).imp_right ?_
  intro hin
  rw [heq] at hin
  rcases List.mem_append.mp hin with hin | hin
  · rcases List.mem_append.mp hin with hin | hin
    · obtain ⟨key, hkey⟩ := hups _ hin
      cases hkey
    · obtain ⟨key, hkey, b, hdown⟩ := hdowns _ hin
      cases hdown
      exact absurd rfl (hreleased key hkey)
  · exact hin

theorem processControlKey_down (io : KeyIo) (ck : Int32) (en : List KeyAction) :
    ∃ body, processControlKey io ck true en = en ++ body ∧
      ∀ k, .down k true ∈ body → ∃ key, keyMap ck = some key ∧ k = .enigo key := by
  unfold processControlKey
  split
  next key hkey =>
    refine ⟨_, rfl, ?_⟩
    intro k hin
    obtain ⟨rfl, -⟩ := KeyAction.down.inj (List.mem_singleton.mp hin)
    exact ⟨key, hkey, rfl⟩
  next => exact ⟨[], (List.append_nil _).symm, by simp⟩

theorem typeChr_spec (io : KeyIo) (chr : UInt32) (en : List KeyAction) :
    ∃ body, typeChr io chr en = en ++ body ∧ ∀ k, .down k true ∉ body := by
  unfold typeChr
  split
  · exact ⟨_, rfl, by simp⟩
  · exact ⟨[], (List.append_nil _).symm, by simp⟩

theorem processChr_down (io : KeyIo) (chr : UInt32) (en : List KeyAction) :
    ∃ body, processChr io chr true en = en ++ body ∧
      ∀ k, .down k true ∈ body → k = .enigo (charValueToKey chr) := by
  unfold processChr
  simp only [if_true]
  split
  · generalize hpress : keyDown io (charValueToKey chr) en = x
    obtain ⟨accepted, en'⟩ := x
    obtain rfl : en' = en ++ [.down (.enigo (charValueToKey chr))
        (io.accepts en (.enigo (charValueToKey chr)))] := (congrArg Prod.snd hpress).symm
    cases accepted with
    | true =>
      refine ⟨_, rfl, ?_⟩
      intro k hin
      exact (KeyAction.down.inj (List.mem_singleton.mp hin)).1
    | false =>
      obtain ⟨body, heq, hbody⟩ := typeChr_spec io chr
        (en ++ [.down (.enigo (charValueToKey chr)) (io.accepts en (.enigo (charValueToKey chr)))])
      refine ⟨_, heq.trans (List.append_assoc _ _ _), ?_⟩
      intro k hin
      rcases List.mem_append.mp hin with hin | hin
      · exact (KeyAction.down.inj (List.mem_singleton.mp hin)).1
      · exact absurd hin (hbody k)
  · obtain ⟨body, heq, hbody⟩ := typeChr_spec io chr en
    exact ⟨body, heq, fun k hin => absurd hin (hbody k)⟩

/-- A key that is released is held no more. -/
theorem heldAfter_up {key : SimKey} (h : heldAfter held [.up key] k = true) :
    held k = true ∧ some key ≠ some k := by
  by_cases hk : k = key
  · subst hk
    simp [heldAfter, KeyAction.apply] at h
  · refine ⟨?_, fun heq => hk (Option.some.inj heq).symm⟩
    simpa [heldAfter, KeyAction.apply, Function.update_of_ne hk] using h

theorem Covered.chr (h : Covered before keysDown held) (chr : UInt32) :
    Covered before
      (recordPressedKey (.enigoKey (chr.toUInt64 + keyCharStart)) evt.down keysDown)
      (heldAfter held (releaseKeys (syncModifiers io keysDown evt).2
        (processChr io chr evt.down (syncModifiers io keysDown evt).1))) := by
  cases hdown : evt.down with
  | true =>
    apply h.press
    intro k hk
    obtain ⟨body, heq, hbody⟩ := processChr_down io chr (syncModifiers io keysDown evt).1
    rw [heq] at hk
    refine (held_legacy hk).imp_right ?_
    intro hin
    rw [released_chr, hbody k hin]
  | false =>
    apply h.release
    intro k hk
    rw [syncModifiers_release io hdown] at hk
    rw [released_chr]
    exact heldAfter_up hk

/-- A function key is left with the modifiers that it pressed. -/
theorem covered_functionKey_iff (h : Covered before keysDown held) :
    Covered before keysDown (heldAfter held (syncModifiers io keysDown evt).1) ↔
      ∀ k, .down k true ∈ (syncModifiers io keysDown evt).1 →
        before k = true ∨ Known keysDown k := by
  obtain ⟨ups, downs, heq, hups, hdowns⟩ := syncModifiers_spec io keysDown evt
  constructor
  · intro hcovered k hin
    apply hcovered
    rw [heq, heldAfter_append]
    apply heldAfter_downs
    · intro a ha
      obtain ⟨key, -, b, rfl⟩ := hdowns a ha
      exact ⟨_, b, rfl⟩
    · rw [heq] at hin
      rcases List.mem_append.mp hin with hin | hin
      · obtain ⟨key, hkey⟩ := hups _ hin
        cases hkey
      · exact .inr hin
  · intro hpressed k hk
    rcases heldAfter_held hk with hk | hin
    · exact h k hk
    · exact hpressed k hin

/-- The release of a control key takes away one record. -/
theorem covered_controlKey_iff (h : Covered before keysDown held) (ck : Int32) :
    Covered before (recordPressedKey (.enigoKey (recordOfControlKey ck)) evt.down keysDown)
        (heldAfter held (releaseKeys (syncModifiers io keysDown evt).2
          (processControlKey io ck evt.down (syncModifiers io keysDown evt).1))) ↔
      (evt.down = false → keyMap ck = none →
        ∀ k, released (.enigoKey (recordOfControlKey ck)) = some k → held k = true →
          before k = true ∨ ∃ r ∈ keysDown, r ≠ .enigoKey (recordOfControlKey ck) ∧
            released r = some k) := by
  cases hdown : evt.down with
  | true =>
    refine iff_of_true ?_ (by simp)
    apply h.press
    intro k hk
    obtain ⟨body, heq, hbody⟩ :=
      processControlKey_down io ck (syncModifiers io keysDown evt).1
    rw [heq] at hk
    refine (held_legacy hk).imp_right ?_
    intro hin
    obtain ⟨key, hkey, rfl⟩ := hbody k hin
    exact released_controlKey hkey
  | false =>
    rw [syncModifiers_release io hdown]
    cases hkey : keyMap ck with
    | some key =>
      refine iff_of_true ?_ (by simp)
      apply h.release
      intro k hk
      rw [released_controlKey hkey]
      simp only [processControlKey, hkey] at hk
      exact heldAfter_up hk
    | none =>
      have hheld : heldAfter held (releaseKeys [] (processControlKey io ck false [])) = held := by
        simp only [processControlKey, hkey]
        rfl
      simp only [hheld]
      constructor
      · intro hcovered _ _ k hrel hk
        refine (hcovered k hk).imp_right ?_
        rintro ⟨r, hr, hrel'⟩
        obtain ⟨hr, hne⟩ := (mem_recordPressedKey false).mp hr
        exact ⟨r, hr, hne, hrel'⟩
      · intro hsafe k hk
        rcases h k hk with hbefore | ⟨r, hr, hrel⟩
        · exact .inl hbefore
        by_cases hne : r = .enigoKey (recordOfControlKey ck)
        · subst hne
          refine (hsafe trivial trivial k hrel hk).imp_right ?_
          rintro ⟨r, hr, hne, hrel⟩
          exact ⟨r, (mem_recordPressedKey false).mpr ⟨hr, hne⟩, hrel⟩
        · exact .inr ⟨r, (mem_recordPressedKey false).mpr ⟨hr, hne⟩, hrel⟩

end

/-! ## Runs -/

/-- In the legacy mode the modifiers that a function key presses were held before or are recorded,
and the release of a number that is no control key does not take the last record of a key that is
held. -/
def SafeLegacy (before : SimKey → Bool) (keysDown : List KeysDown) (held : SimKey → Bool)
    (io : KeyIo) (evt : KeyEvent) : Prop :=
  match evt.union with
  | some (.controlKey ck) =>
    if isFunctionKey ck then
      ∀ k, .down k true ∈ (syncModifiers io keysDown evt).1 →
        before k = true ∨ Known keysDown k
    else
      evt.down = false → keyMap ck = none →
        ∀ k, released (.enigoKey (recordOfControlKey ck)) = some k → held k = true →
          before k = true ∨ ∃ r ∈ keysDown, r ≠ .enigoKey (recordOfControlKey ck) ∧
            released r = some k
  | _ => True

/-- A raw key that is pressed on Wayland was held before. -/
def SafeMap (isWayland : Bool) (before : SimKey → Bool) (io : KeyIo) (evt : KeyEvent) : Prop :=
  isWayland = true → evt.down = true →
    io.accepts [] (.enigo (.raw evt.chr.toUInt16)) = true →
      before (.enigo (.raw evt.chr.toUInt16)) = true

/-- The event does not go wrong. -/
def Safe (isWayland : Bool) (s : Keyboard) : Event → Prop
  | .timeout _ => True
  | .key evt io =>
    s.exiting = false →
      match evt.mode with
      | some .map => SafeMap isWayland s.before io evt
      | some .translate => True
      | _ => SafeLegacy s.before s.keysDown s.held io evt

theorem covered_legacy_iff {io : KeyIo} {evt : KeyEvent} (h : Covered before keysDown held) :
    Covered before (legacyKeyboardMode io keysDown evt).2
        (heldAfter held (legacyKeyboardMode io keysDown evt).1) ↔
      SafeLegacy before keysDown held io evt := by
  have hquiet : ∀ body : List KeyAction, (∀ k, .down k true ∉ body) →
      Covered before keysDown (heldAfter held (releaseKeys (syncModifiers io keysDown evt).2
        ((syncModifiers io keysDown evt).1 ++ body))) :=
    fun body hbody => h.fewer fun k hk => (held_legacy hk).resolve_right (hbody k)
  unfold legacyKeyboardMode SafeLegacy
  rcases evt.union with _ | (ck | chr | chr | seq | code)
  · refine iff_of_true ?_ trivial
    simpa using hquiet [] (by simp)
  · cases hfunction : isFunctionKey ck with
    | true =>
      simp only [hfunction, if_true]
      exact covered_functionKey_iff h
    | false =>
      simp only [hfunction, Bool.false_eq_true, if_false]
      exact covered_controlKey_iff h ck
  · exact iff_of_true (h.chr chr) trivial
  · refine iff_of_true ?_ trivial
    simp only [processUnicode]
    split
    · exact hquiet _ (by simp)
    · simpa using hquiet [] (by simp)
  · exact iff_of_true (hquiet _ (by simp)) trivial
  · refine iff_of_true ?_ trivial
    simpa using hquiet [] (by simp)

theorem covered_map_iff {io : KeyIo} {evt : KeyEvent} (h : Covered before keysDown held) :
    Covered before (mapKeyboardMode io isWayland keysDown evt).2
        (heldAfter held (mapKeyboardMode io isWayland keysDown evt).1) ↔
      SafeMap isWayland before io evt := by
  unfold mapKeyboardMode SafeMap
  cases isWayland with
  | false =>
    refine iff_of_true ?_ (by simp)
    exact h.simRdevRawkeyPosition io evt.chr evt.down
  | true =>
    cases hdown : evt.down with
    | false =>
      refine iff_of_true ?_ (by simp)
      exact h.fewer fun k hk => (heldAfter_up hk).1
    | true =>
      simp only [if_true, keyDown, List.nil_append]
      constructor
      · intro hcovered _ _ haccepted
        have hheld : heldAfter held [.down (.enigo (.raw evt.chr.toUInt16))
            (io.accepts [] (.enigo (.raw evt.chr.toUInt16)))] (.enigo (.raw evt.chr.toUInt16)) =
              true := by
          rw [haccepted]
          exact Function.update_self _ _ _
        exact (hcovered _ hheld).resolve_right not_known_raw
      · intro hsafe k hk
        rcases heldAfter_held hk with hk | hin
        · exact h k hk
        · obtain ⟨rfl, haccepted⟩ := KeyAction.down.inj (List.mem_singleton.mp hin)
          exact .inl (hsafe trivial trivial haccepted.symm)

theorem covered_next_iff (h : Covered s.before s.keysDown s.held) (a : Event) :
    Covered (s.next isWayland a).before (s.next isWayland a).keysDown (s.next isWayland a).held ↔
      Safe isWayland s a := by
  cases a with
  | timeout expired => exact iff_of_true (h.timeout expired) trivial
  | key evt io =>
    simp only [next, handleKey, Safe]
    cases hexiting : s.exiting with
    | true =>
      refine iff_of_true h ?_
      intro hfalse
      cases hfalse
    | false =>
      simp only [Bool.false_eq_true, if_false, forall_const]
      rcases hmode : evt.mode with _ | (_ | _ | _ | _)
      · exact covered_legacy_iff h
      · exact covered_legacy_iff h
      · exact covered_map_iff h
      · exact iff_of_true (h.translateKeyboardMode io evt) trivial
      · exact covered_legacy_iff h

def willing : KeyIo where
  keyState en key := decide (.down (.enigo key) true ∈ en)
  accepts _ _ := true

def idle : Keyboard := ⟨[], fun _ => false, false, fun _ => false⟩

/-- Control and a character, in the legacy mode. -/
def controlC : Event :=
  .key ⟨true, some (.chr 99), [ControlKey.control.value], some .legacy⟩ willing

/-- Control and the key that locks the screen. -/
def controlLockScreen : Event :=
  .key ⟨true, some (.controlKey ControlKey.lockScreen.value), [ControlKey.control.value],
    some .legacy⟩ willing

/-- A raw key on Wayland. -/
example : ((idle.next true (.key ⟨true, some (.chr 38), [], some .map⟩ willing)).fixKeyDownTimeout
    (fun _ => false) true).held (.enigo (.raw 38)) = true := by decide

/-- The number 10098 takes the record of the character `c`. -/
example : (((idle.next false controlC).next false
    (.key ⟨false, some (.controlKey 10098), [], some .legacy⟩ willing)).fixKeyDownTimeout
      (fun _ => false) true).held (.enigo (.layout 'c')) = true := by decide

end Keyboard

end HopToDesk.Host
