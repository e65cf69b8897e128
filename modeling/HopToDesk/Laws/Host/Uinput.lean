import HopToDesk.Host.Uinput

/-!
# Which keys the virtual keyboard holds afterwards

What an event does to a key of the device is one of three things (`Applied`): it lets it go, presses
it, or leaves it alone. Where every press of a key is followed by a release, the key is up
afterwards if there was one at all, and otherwise as before (`heldAfter_of_settled`). A key that
goes down and up settles its own key, but not the Shift that its character took: that stays down
unless something else lets it go (`heldAfter_of_leavesShift`).
-/

set_option autoImplicit false

namespace HopToDesk.Host

namespace Uinput

section

variable (code : EvdevKey → UInt16)

/-- The key of the device goes down, by itself or as the Shift of a character. -/
def DataKeyboard.Presses (d : UInt16) : DataKeyboard → Prop
  | .keyDown key =>
    deviceCode code key = some d ∨
      (DataKeyboard.keyDown key).TypesShifted ∧ code .leftShift = d
  | _ => False

/-- What an event did to the keys. -/
structure Applied (held : UInt16 → Bool) (data : DataKeyboard) (held' : UInt16 → Bool) : Prop where
  released : ∀ d, data.Releases code d → held' d = false
  pressed : ∀ d, data.Presses code d → held' d = true
  kept : ∀ d, ¬ data.Releases code d → ¬ data.Presses code d → held' d = held d

end

variable {code : EvdevKey → UInt16} {held held' : UInt16 → Bool} {x : Answers × DataKeyboard}
  {xs : List (Answers × DataKeyboard)} {data : DataKeyboard} {key : Key} {d : UInt16}

/-! ## One event -/

theorem Applied.of_nothing (hrel : ∀ d, ¬ data.Releases code d)
    (hpress : ∀ d, ¬ data.Presses code d) : Applied code held data held where
  released d h := absurd h (hrel d)
  pressed d h := absurd h (hpress d)
  kept _ _ _ := rfl

/-- One key of the device goes down. -/
theorem Applied.of_press (hdevice : deviceCode code key = some d)
    (hplain : ¬ (DataKeyboard.keyDown key).TypesShifted) :
    Applied code held (.keyDown key) (Function.update held d true) where
  released _ h := h.elim
  pressed d' h := by
    obtain h | ⟨h, -⟩ := h
    · rw [hdevice, Option.some.injEq] at h
      rw [h, Function.update_self]
    · exact absurd h hplain
  kept d' _ h :=
    Function.update_of_ne (fun heq => h (.inl (hdevice.trans (congrArg some heq.symm)))) _ _

/-- Shift goes down, and then the key. -/
theorem Applied.of_shifted (hdevice : deviceCode code key = some d)
    (hshift : (DataKeyboard.keyDown key).TypesShifted) :
    Applied code held (.keyDown key)
      (Function.update (Function.update held (code .leftShift) true) d true) where
  released _ h := h.elim
  pressed d' h := by
    obtain h | ⟨-, rfl⟩ := h
    · rw [hdevice, Option.some.injEq] at h
      rw [h, Function.update_self]
    · rw [Function.update_apply, Function.update_self, ite_self]
  kept d' _ h := by
    rw [Function.update_of_ne (fun heq => h (.inl (hdevice.trans (congrArg some heq.symm)))),
      Function.update_of_ne (fun heq => h (.inr ⟨hshift, heq.symm⟩))]

/-- One key of the device goes up. -/
theorem Applied.of_release (hpress : ∀ d, ¬ data.Presses code d)
    (hrel : ∀ d', data.Releases code d' ↔ d = d') :
    Applied code held data (Function.update held d false) where
  released d' h := by rw [(hrel d').mp h, Function.update_self]
  pressed d' h := absurd h (hpress d')
  kept d' h _ := Function.update_of_ne (fun heq => h ((hrel d').mpr heq.symm)) _ _

variable (code) in
theorem deviceCode_of_mapKey {evdev : EvdevKey} {isShift : Bool}
    (h : mapKey key = some (evdev, isShift)) : deviceCode code key = some (code evdev) := by
  unfold deviceCode
  split
  next c => cases h
  next => rw [h, Option.map_some]

theorem deviceCode_of_mapKey_none (hraw : ∀ c, key ≠ .raw c) (h : mapKey key = none) :
    deviceCode code key = none := by
  unfold deviceCode
  split
  next c => exact absurd rfl (hraw c)
  next => rw [h, Option.map_none]

theorem typesShifted_iff {evdev : EvdevKey} {isShift : Bool}
    (h : mapKey key = some (evdev, isShift)) :
    (DataKeyboard.keyDown key).TypesShifted ↔ isShift = true := by
  simp only [DataKeyboard.TypesShifted, h, Option.some.injEq, Prod.mk.injEq, exists_eq_left']

variable (code held) in
/-- **What an event does**: where it does not underflow, its keys of the device go up or down, and
the others stay. -/
theorem next_apply (device : Answers) (hraw : data.RawInRange) :
    ∃ held', next code held (device, data) = some held' ∧ Applied code held data held' := by
  cases data with
  | sequence seq => exact ⟨held, rfl, .of_nothing (fun _ => id) (fun _ => id)⟩
  | getKeyState key => exact ⟨held, rfl, .of_nothing (fun _ => id) (fun _ => id)⟩
  | keyDown key =>
    by_cases hkey : ∃ c, key = .raw c
    · obtain ⟨c, rfl⟩ := hkey
      have hcode : rawCode c = some (c - 8) := if_pos hraw
      refine ⟨_, ?_, .of_press hcode ?_⟩
      · simp only [next, handleKeyboard, hcode, Option.map_some]
        rfl
      · rintro ⟨evdev, h⟩
        cases h
    · rw [not_exists] at hkey
      cases hmap : mapKey key with
      | none =>
        refine ⟨held, ?_, .of_nothing (fun _ => id) ?_⟩
        · simp only [next, handleKeyboard, hmap, Option.map_some, List.foldl_nil]
        · rintro d (h | ⟨⟨evdev, h⟩, -⟩)
          · rw [deviceCode_of_mapKey_none hkey hmap] at h
            cases h
          · rw [hmap] at h
            cases h
      | some found =>
        obtain ⟨evdev, isShift⟩ := found
        have hdevice := deviceCode_of_mapKey code hmap
        cases isShift with
        | false =>
          refine ⟨_, ?_, .of_press hdevice fun h => ?_⟩
          · simp only [next, handleKeyboard, hmap, Option.map_some]
            rfl
          · exact Bool.false_ne_true ((typesShifted_iff hmap).mp h)
        | true =>
          refine ⟨_, ?_, .of_shifted hdevice ((typesShifted_iff hmap).mpr rfl)⟩
          simp only [next, handleKeyboard, hmap, Option.map_some]
          rfl
  | keyUp key =>
    by_cases hkey : ∃ c, key = .raw c
    · obtain ⟨c, rfl⟩ := hkey
      have hcode : rawCode c = some (c - 8) := if_pos hraw
      refine ⟨_, ?_, .of_release (fun _ => id) (d := c - 8) fun d' => ?_⟩
      · simp only [next, handleKeyboard, hcode, Option.map_some]
        rfl
      · simp only [DataKeyboard.Releases, deviceCode, hcode, Option.some.injEq]
    · rw [not_exists] at hkey
      cases hmap : mapKey key with
      | none =>
        refine ⟨held, ?_, .of_nothing (fun d h => ?_) (fun _ => id)⟩
        · simp only [next, handleKeyboard, hmap, Option.map_some, List.foldl_nil]
        · have hdevice : deviceCode code key = some d := h
          rw [deviceCode_of_mapKey_none hkey hmap] at hdevice
          cases hdevice
      | some found =>
        obtain ⟨evdev, isShift⟩ := found
        refine ⟨_, ?_, .of_release (fun _ => id) (d := code evdev) fun d' => ?_⟩
        · simp only [next, handleKeyboard, hmap, Option.map_some]
          rfl
        · simp only [DataKeyboard.Releases, deviceCode_of_mapKey code hmap, Option.some.injEq]
  | keyClick key =>
    cases hmap : mapKey key with
    | none =>
      refine ⟨held, ?_, .of_nothing (fun d h => ?_) (fun _ => id)⟩
      · simp only [next, handleKeyboard, hmap, Option.map_some, List.foldl_nil]
      · rw [DataKeyboard.Releases, hmap] at h
        cases h
    | some found =>
      obtain ⟨evdev, isShift⟩ := found
      refine ⟨_, ?_, .of_release (fun _ => id) (d := code evdev) fun d' => ?_⟩
      · simp only [next, handleKeyboard, hmap, Option.map_some]
        exact congrArg some (Function.update_idem ..)
      · simp only [DataKeyboard.Releases, hmap, Option.map_some, Option.some.injEq]

theorem next_eq_none {device : Answers} (hraw : ¬ data.RawInRange) :
    next code held (device, data) = none := by
  cases data with
  | sequence seq => exact absurd trivial hraw
  | getKeyState key => exact absurd trivial hraw
  | keyClick key => exact absurd trivial hraw
  | keyDown key | keyUp key =>
    cases key with
    | raw c =>
      have hcode : rawCode c = none := if_neg hraw
      simp only [next, handleKeyboard, hcode, Option.map_none]
    | _ => exact absurd trivial hraw

/-! ## Many events -/

@[simp] theorem heldAfter_nil : heldAfter code held [] = some held := rfl

/-- The first event, and the others. -/
theorem heldAfter_cons_eq_some :
    heldAfter code held (x :: xs) = some held' ↔ x.2.RawInRange ∧
      ∃ held₁, Applied code held x.2 held₁ ∧ heldAfter code held₁ xs = some held' := by
  obtain ⟨device, data⟩ := x
  have hcons : heldAfter code held ((device, data) :: xs) =
      (next code held (device, data)).bind fun held₁ => heldAfter code held₁ xs := rfl
  rw [hcons]
  constructor
  · intro h
    by_cases hraw : data.RawInRange
    · obtain ⟨held₁, hnext, happlied⟩ := next_apply code held device hraw
      rw [hnext, Option.bind_some] at h
      exact ⟨hraw, held₁, happlied, h⟩
    · rw [next_eq_none hraw, Option.bind_none] at h
      cases h
  · rintro ⟨hraw, held₁, happlied, h⟩
    obtain ⟨held₂, hnext, happlied'⟩ := next_apply code held device hraw
    have heq : held₂ = held₁ := by
      funext d
      by_cases hrel : data.Releases code d
      · rw [happlied.released d hrel, happlied'.released d hrel]
      by_cases hpress : data.Presses code d
      · rw [happlied.pressed d hpress, happlied'.pressed d hpress]
      · rw [happlied.kept d hrel hpress, happlied'.kept d hrel hpress]
    rw [hnext, heq, Option.bind_some, h]

/-- The events underflow nowhere exactly when the raw codes are in range. -/
theorem exists_heldAfter_iff (held : UInt16 → Bool) :
    (∃ held', heldAfter code held xs = some held') ↔ ∀ x ∈ xs, x.2.RawInRange := by
  induction xs generalizing held with
  | nil => exact iff_of_true ⟨held, rfl⟩ fun x hx => nomatch hx
  | cons x xs ih =>
    rw [List.forall_mem_cons]
    constructor
    · rintro ⟨held', h⟩
      obtain ⟨hraw, held₁, -, hrest⟩ := heldAfter_cons_eq_some.mp h
      exact ⟨hraw, (ih held₁).mp ⟨held', hrest⟩⟩
    · rintro ⟨hraw, hrest⟩
      obtain ⟨held₁, -, happlied⟩ := next_apply code held x.1 hraw
      obtain ⟨held', h⟩ := (ih held₁).mpr hrest
      exact ⟨held', heldAfter_cons_eq_some.mpr ⟨hraw, held₁, happlied, h⟩⟩

/-- Every press of the key of the device is followed by a release. -/
def Settled (code : EvdevKey → UInt16) (d : UInt16) (xs : List (Answers × DataKeyboard)) : Prop :=
  ∀ pre x post, xs = pre ++ x :: post → x.2.Presses code d → ∃ y ∈ post, y.2.Releases code d

theorem Settled.tail (h : Settled code d (x :: xs)) : Settled code d xs := by
  rintro pre y post rfl hpress
  exact h (x :: pre) y post rfl hpress

theorem Settled.head (h : Settled code d (x :: xs)) (hpress : x.2.Presses code d) :
    ∃ y ∈ xs, y.2.Releases code d := h [] x xs rfl hpress

/-- A key whose presses are settled is up if it was let go at all, and otherwise as it was. -/
theorem heldAfter_of_settled (hsettled : Settled code d xs)
    (h : heldAfter code held xs = some held') :
    ((∃ x ∈ xs, x.2.Releases code d) → held' d = false) ∧
      ((∀ x ∈ xs, ¬ x.2.Releases code d) → held' d = held d) := by
  induction xs generalizing held with
  | nil =>
    obtain rfl := Option.some.inj h
    exact ⟨fun ⟨x, hx, _⟩ => (by cases hx), fun _ => rfl⟩
  | cons x xs ih =>
    obtain ⟨-, held₁, happlied, hrest⟩ := heldAfter_cons_eq_some.mp h
    obtain ⟨hrel, hkept⟩ := ih hsettled.tail hrest
    -- a press has its release after it, so that the first event is a release if no other is
    by_cases hlater : ∃ y ∈ xs, y.2.Releases code d
    · refine ⟨fun _ => hrel hlater, fun hnone => ?_⟩
      obtain ⟨y, hy, hyrel⟩ := hlater
      exact absurd hyrel (hnone y (List.mem_cons_of_mem _ hy))
    · have hnot : ¬ x.2.Presses code d := fun hpress => hlater (hsettled.head hpress)
      have hsame : held' d = held₁ d := hkept fun y hy hyrel => hlater ⟨y, hy, hyrel⟩
      rw [hsame]
      constructor
      · rintro ⟨y, hy, hyrel⟩
        obtain rfl | hy := List.mem_cons.mp hy
        · exact happlied.released d hyrel
        · exact absurd ⟨y, hy, hyrel⟩ hlater
      · intro hnone
        exact happlied.kept d (hnone x List.mem_cons_self) hnot

/-- A key that nothing lets go stays down. -/
theorem heldAfter_of_held (hdown : held d = true) (hnone : ∀ x ∈ xs, ¬ x.2.Releases code d)
    (h : heldAfter code held xs = some held') : held' d = true := by
  induction xs generalizing held with
  | nil =>
    obtain rfl := Option.some.inj h
    exact hdown
  | cons x xs ih =>
    obtain ⟨-, held₁, happlied, hrest⟩ := heldAfter_cons_eq_some.mp h
    rw [List.forall_mem_cons] at hnone
    refine ih ?_ hnone.2 hrest
    by_cases hpress : x.2.Presses code d
    · exact happlied.pressed d hpress
    · rw [happlied.kept d hnone.1 hpress, hdown]

theorem heldAfter_append_eq_some {ys : List (Answers × DataKeyboard)} :
    heldAfter code held (xs ++ ys) = some held' ↔
      ∃ held₁, heldAfter code held xs = some held₁ ∧ heldAfter code held₁ ys = some held' := by
  unfold heldAfter
  rw [List.foldlM_append, Option.bind_eq_bind, Option.bind_eq_some_iff]

/-- The Shift of a character that nothing lets go is down afterwards. -/
theorem heldAfter_of_leavesShift (hshift : LeavesShift code xs)
    (h : heldAfter code held xs = some held') : held' (code .leftShift) = true := by
  obtain ⟨pre, x, post, rfl, htypes, hnone⟩ := hshift
  obtain ⟨held₁, -, hrest⟩ := heldAfter_append_eq_some.mp h
  obtain ⟨-, held₂, happlied, hpost⟩ := heldAfter_cons_eq_some.mp hrest
  refine heldAfter_of_held (happlied.pressed _ ?_) hnone hpost
  obtain ⟨device, data⟩ := x
  cases data with
  | keyDown key => exact .inr ⟨htypes, rfl⟩
  | _ => exact htypes.elim

/-! ## Keys that go down and up -/

/-- A press is one of the key, which goes up later, or of the Shift of a character. -/
theorem Balanced.presses (hbalanced : Balanced xs) {pre post : List (Answers × DataKeyboard)}
    (heq : xs = pre ++ x :: post) (hpress : x.2.Presses code d) :
    (∃ y ∈ post, y.2.Releases code d) ∨ x.2.TypesShifted ∧ code .leftShift = d := by
  obtain ⟨device, data⟩ := x
  cases data with
  | keyDown key =>
    obtain hdevice | hshift := hpress
    · obtain ⟨device', hup⟩ := hbalanced pre device key post heq
      exact .inl ⟨_, hup, hdevice⟩
    · exact .inr hshift
  | _ => exact hpress.elim

theorem Balanced.settled (hbalanced : Balanced xs) (hd : d ≠ code .leftShift) :
    Settled code d xs := by
  intro pre x post heq hpress
  obtain h | ⟨-, h⟩ := hbalanced.presses heq hpress
  · exact h
  · exact absurd h.symm hd

theorem Balanced.settled_shift (hbalanced : Balanced xs) (hnot : ¬ LeavesShift code xs) :
    Settled code (code .leftShift) xs := by
  intro pre x post heq hpress
  obtain h | ⟨htypes, -⟩ := hbalanced.presses heq hpress
  · exact h
  · by_contra hnone
    push Not at hnone
    exact hnot ⟨pre, x, post, heq, htypes, hnone⟩

/-- **What is held afterwards.** Whatever the codes of the device are, what is held before, and
which keys go down and up in which order, each going up after it goes down: the keys that are held
are the same afterwards, without an underflow, exactly when the raw codes are at least 8, no key
that is let go was held before, and Shift was held before if a character leaves it down. -/
theorem heldAfter_eq_iff (code : EvdevKey → UInt16) (held : UInt16 → Bool)
    (xs : List (Answers × DataKeyboard)) (hbalanced : Balanced xs) :
    heldAfter code held xs = some held ↔ KeepsHeld code held xs := by
  constructor
  · intro h
    refine ⟨(exists_heldAfter_iff held).mp ⟨held, h⟩, ?_, ?_, ?_⟩
    · intro d hd x hx hrel
      exact (heldAfter_of_settled (hbalanced.settled hd) h).1 ⟨x, hx, hrel⟩
    · intro hshift
      exact heldAfter_of_leavesShift hshift h
    · intro hnot x hx hrel
      exact (heldAfter_of_settled (hbalanced.settled_shift hnot) h).1 ⟨x, hx, hrel⟩
  · intro hkeeps
    obtain ⟨held', h⟩ := (exists_heldAfter_iff held).mpr hkeeps.raw
    rw [h, Option.some.injEq]
    -- a settled key is as it was, because it was up if it was let go
    have hsame : ∀ d, Settled code d xs → (∀ x ∈ xs, x.2.Releases code d → held d = false) →
        held' d = held d := by
      intro d hsettled hup
      obtain ⟨hrel, hkept⟩ := heldAfter_of_settled hsettled h
      by_cases hany : ∃ x ∈ xs, x.2.Releases code d
      · obtain ⟨x, hx, hxrel⟩ := hany
        rw [hrel ⟨x, hx, hxrel⟩, hup x hx hxrel]
      · exact hkept fun x hx hxrel => hany ⟨x, hx, hxrel⟩
    funext d
    by_cases hd : d = code .leftShift
    · subst hd
      by_cases hshift : LeavesShift code xs
      · rw [heldAfter_of_leavesShift hshift h, hkeeps.shiftLeft hshift]
      · exact hsame _ (hbalanced.settled_shift hshift) (hkeeps.shiftReleased hshift)
    · exact hsame d (hbalanced.settled hd) (hkeeps.released d hd)

/-- Two keys of the device under their codes. -/
def codeOfShiftAndA : EvdevKey → UInt16
  | .leftShift => 42
  | .a => 30
  | _ => 0

/-- A letter down and up. -/
def tapped (key : Key) : List (Answers × DataKeyboard) :=
  [(⟨none, none⟩, .keyDown key), (⟨none, none⟩, .keyUp key)]

theorem balanced_tapped (key : Key) : Balanced (tapped key) := by
  intro pre device key' post heq
  obtain _ | ⟨y, pre⟩ := pre
  · simp only [tapped, List.nil_append, List.cons.injEq, Prod.mk.injEq,
      DataKeyboard.keyDown.injEq] at heq
    obtain ⟨⟨-, rfl⟩, rfl⟩ := heq
    exact ⟨_, List.mem_singleton_self _⟩
  · obtain _ | ⟨z, pre⟩ := pre <;> simp [tapped] at heq

theorem heldAfter_eq_iff_a :
    heldAfter codeOfShiftAndA (fun _ => false) (tapped (.layout 'a')) = some (fun _ => false) ↔
      KeepsHeld codeOfShiftAndA (fun _ => false) (tapped (.layout 'a')) :=
  heldAfter_eq_iff codeOfShiftAndA _ _ (balanced_tapped _)

/-- A capital letter goes down and up, and Shift stays down. -/
theorem heldAfter_capital : ¬ ∀ (code : EvdevKey → UInt16) (held : UInt16 → Bool)
    (xs : List (Answers × DataKeyboard)), Balanced xs → heldAfter code held xs = some held := by
  intro hall
  have h := hall codeOfShiftAndA (fun _ => false) _ (balanced_tapped (.layout 'A'))
  have hshift := congrArg (Option.map fun held' => held' 42) h
  exact absurd hshift (by decide)

end Uinput

end HopToDesk.Host
