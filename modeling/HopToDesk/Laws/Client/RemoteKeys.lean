import HopToDesk.Client.RemoteKeys

/-!
# No key left down

A key code that is down on the other side should belong to a key in `TO_RELEASE`, and a modifier
that is marked down should be there too, whenever no call is in progress; a release then leaves
nothing down. While calls are in progress a key may instead be about to be released, or its press
about to be recorded (`Held`).

Three things go wrong. A key that is recorded after the copy of `TO_RELEASE` is taken, and before
`TO_RELEASE` is cleared, is forgotten. A release can take a key off the record while a press of the
same key is between two of its accesses. And of two keyboard keys that are one key to rdev only the
one pressed last is on record. What avoids them is `Undisturbed`.
-/

set_option autoImplicit false

namespace HopToDesk.Client

open Kit

/-! ## Calls -/

/-- Among these events is a release of the key. -/
def Releases (events : List RdevEvent) (key : RdevKey) : Prop :=
  ∃ event ∈ events, event.down = false ∧ event.key = key

theorem Releases.mono {events events' : List RdevEvent} {key : RdevKey} (h : Releases events key)
    (hsub : ∀ event ∈ events, event.down = false → event.key = key → event ∈ events') :
    Releases events' key := by
  obtain ⟨event, hmem, hup, hkey⟩ := h
  exact ⟨event, hsub event hmem hup hkey, hup, hkey⟩

/-- A press at the head releases nothing, nor does the release of another key. -/
theorem Releases.of_cons {event : RdevEvent} {rest : List RdevEvent} {key : RdevKey}
    (h : Releases (event :: rest) key) (hhead : event.down = true ∨ event.key ≠ key) :
    Releases rest key := by
  refine h.mono fun other hmem hup hkey => ?_
  rcases List.mem_cons.mp hmem with rfl | hmem
  · rcases hhead with hdown | hne
    · exact absurd (hup.symm.trans hdown) Bool.false_ne_true
    · exact absurd hkey hne
  · exact hmem

theorem not_releases_nil (key : RdevKey) : ¬ Releases [] key := by
  rintro ⟨event, hmem, -⟩
  cases hmem

namespace KeyCall

/-- The events whose key code is yet to be sent. -/
def unsent : KeyCall → List RdevEvent
  | .processing _ event rest => event :: rest
  | _ => []

/-- The events that `TO_RELEASE` is yet to follow. -/
def unrecorded : KeyCall → List RdevEvent
  | .processing .send _ rest => rest
  | .processing _ event rest => event :: rest
  | _ => []

/-- The events that `MODIFIERS_STATE` is yet to follow. -/
def unmarked : KeyCall → List RdevEvent
  | .processing .isLongPress event rest => event :: rest
  | .processing .updateModifiersState event rest => event :: rest
  | .processing _ _ rest => rest
  | _ => []

/-- It is about to put the key on record. -/
def Records (call : KeyCall) (key : RdevKey) : Prop :=
  ∃ event rest, call = .processing .updateToRelease event rest ∧ event.down = true ∧
    event.key = key

/-- It is about to send a press of the key. -/
def Sends (call : KeyCall) (key : RdevKey) : Prop :=
  ∃ event rest, call = .processing .send event rest ∧ event.down = true ∧ event.key = key

variable (events : List RdevEvent) (key : RdevKey)

@[simp]
theorem unsent_start : (start events).unsent = events := by cases events <;> rfl

@[simp]
theorem unrecorded_start : (start events).unrecorded = events := by cases events <;> rfl

@[simp]
theorem unmarked_start : (start events).unmarked = events := by cases events <;> rfl

@[simp]
theorem not_records_start : ¬ (start events).Records key := by
  cases events <;> rintro ⟨_, _, ⟨⟩, _⟩

@[simp]
theorem not_sends_start : ¬ (start events).Sends key := by
  cases events <;> rintro ⟨_, _, ⟨⟩, _⟩

end KeyCall

theorem Releases.unsent_of_unrecorded {now : KeyCall} {key : RdevKey}
    (h : Releases now.unrecorded key) : Releases now.unsent key := by
  cases now with
  | idle => exact h
  | copied copy => exact h
  | processing stage event rest =>
    cases stage with
    | send => exact h.mono fun other hmem _ _ => List.mem_cons_of_mem _ hmem
    | _ => exact h

namespace RemoteKeys

variable {keycode : UInt32 → Option UInt32} {κ : RdevKey → Option UInt32} {s s' : RemoteKeys}

/-! ## A call goes on -/

section

variable {call : Nat} {now : KeyCall}

theorem setCall_calls (s : RemoteKeys) (call : Nat) (now : KeyCall) (other : Nat) :
    other = call ∧ (s.setCall call now).calls other = now ∨
      other ≠ call ∧ (s.setCall call now).calls other = s.calls other := by
  by_cases hsame : other = call
  · subst hsame
    exact .inl ⟨rfl, Function.update_self _ _ _⟩
  · exact .inr ⟨hsame, Function.update_of_ne hsame _ _⟩

@[simp]
theorem setCall_calls_self (s : RemoteKeys) : (s.setCall call now).calls call = now :=
  Function.update_self _ _ _

theorem setCall_calls_of_ne (s : RemoteKeys) {other : Nat} (h : other ≠ call) :
    (s.setCall call now).calls other = s.calls other :=
  Function.update_of_ne h _ _

theorem processEvent_calls_of_ne {event : RdevEvent} {rest : List RdevEvent} {stage : KeyStage}
    {other : Nat} (h : other ≠ call) :
    (s.processEvent keycode call event rest stage).calls other = s.calls other := by
  cases stage with
  | isLongPress =>
    simp only [processEvent]
    split
    · exact setCall_calls_of_ne _ h
    · exact setCall_calls_of_ne _ h
  | _ => exact setCall_calls_of_ne _ h

/-- What some call does, some call still does, unless the call that goes on was the one. -/
theorem exists_setCall {R : KeyCall → RdevKey → Prop} {key : RdevKey}
    (h : ∃ other, R (s.calls other) key) (hnow : R (s.calls call) key → R now key) :
    ∃ other, R ((s.setCall call now).calls other) key := by
  obtain ⟨other, hother⟩ := h
  refine ⟨other, ?_⟩
  rcases setCall_calls s call now other with ⟨rfl, heq⟩ | ⟨-, heq⟩
  · rw [heq]
    exact hnow hother
  · rw [heq]
    exact hother

theorem releases_setCall {part : KeyCall → List RdevEvent} {key : RdevKey}
    (h : ∃ other, Releases (part (s.calls other)) key)
    (hnow : Releases (part (s.calls call)) key → Releases (part now) key) :
    ∃ other, Releases (part ((s.setCall call now).calls other)) key :=
  exists_setCall (R := fun call key => Releases (part call) key) h hnow

end

/-! ## What was sent -/

theorem isPressed_cons {code code' : UInt32} {down : Bool} {sent : List (UInt32 × Bool)} :
    ((((code', down) :: sent).find? fun x => x.1 == code).map Prod.snd = some true) ↔
      code' = code ∧ down = true ∨
        code' ≠ code ∧ (sent.find? fun x => x.1 == code).map Prod.snd = some true := by
  by_cases hsame : code' = code
  · simp [hsame]
  · simp [hsame]

/-! ## The invariant -/

/-- What holds while calls are in progress. A key code that is down belongs to a key that is on
record or about to be released; a modifier that is marked is on record, or about to be released or
recorded; a press that is about to be sent is on record, unless the release that is to take it off
is still to come. -/
structure Held (κ : RdevKey → Option UInt32) (keycode : UInt32 → Option UInt32) (s : RemoteKeys) :
    Prop where
  pressed : ∀ code, s.IsPressed code → ∃ key, κ key = some code ∧
    (key ∈ s.toRelease ∨ ∃ call, Releases (s.calls call).unsent key)
  marked : ∀ key, s.modifiersState key = true →
    key ∈ s.toRelease ∨ (∃ call, Releases (s.calls call).unmarked key) ∨
      ∃ call, (s.calls call).Records key
  sending : ∀ call key, (s.calls call).Sends key →
    key ∈ s.toRelease ∨ ∃ other, Releases (s.calls other).unrecorded key
  modifiers : ∀ key, s.modifiersState key = true → key.isModifier = true
  recorded : ∀ key event, s.toRelease.lookup key = some event →
    keycode event.positionCode = κ key
  copied : ∀ call copy, s.calls call = .copied copy → ∀ key event, copy.lookup key = some event →
    keycode event.positionCode = κ key
  events : ∀ call, ∀ event ∈ (s.calls call).unsent, keycode event.positionCode = κ event.key

/-- The conditions on a step. Every event of a key has one key code. `TO_RELEASE` is cleared when
all its keys are in the copy. And when a release takes its key off the record, no other call is
about to send a press of the key, and the key is not marked, unless another call is about to record
it. -/
def Undisturbed (κ : RdevKey → Option UInt32) (keycode : UInt32 → Option UInt32) (s : RemoteKeys) :
    Step → Prop
  | .event _ event => keycode event.positionCode = κ event.key
  | .release _ => True
  | .clear call _ => ∀ copy, s.calls call = .copied copy → ∀ key ∈ s.toRelease, key ∈ copy
  | .process call => ∀ event rest, s.calls call = .processing .updateToRelease event rest →
      event.down = false → (∀ other ≠ call, ¬ (s.calls other).Sends event.key) ∧
        (s.modifiersState event.key = true → ∃ other ≠ call, (s.calls other).Records event.key)

theorem held_start : Held κ keycode start where
  pressed code h := by cases h
  marked key h := by cases h
  sending call key h := by
    obtain ⟨event, rest, hcall, -⟩ := h
    cases hcall
  modifiers key h := by cases h
  recorded key event h := by cases h
  copied call copy h := by cases h
  events call event h := by cases h

/-- Every event of a release is of its key, with its code, and one of them releases it. -/
theorem mem_releaseEvents {x : Sigma fun _ : RdevKey => RdevEvent} {event : RdevEvent}
    (h : event ∈ releaseEvents x) :
    event.key = x.1 ∧ event.positionCode = x.2.positionCode := by
  unfold releaseEvents at h
  split at h
  · simp only [List.mem_cons, List.not_mem_nil, or_false] at h
    rcases h with rfl | rfl | rfl
    · exact ⟨rfl, rfl⟩
    · exact ⟨rfl, rfl⟩
    · exact ⟨rfl, rfl⟩
  · rw [List.mem_singleton] at h
    subst h
    exact ⟨rfl, rfl⟩

theorem releases_releaseEvents (x : Sigma fun _ : RdevKey => RdevEvent) :
    Releases (releaseEvents x) x.1 := by
  refine ⟨{ x.2 with down := false, key := x.1 }, ?_, rfl, rfl⟩
  unfold releaseEvents
  split
  · exact List.mem_cons_self
  · exact List.mem_cons_self

/-- A key in the copy is released. -/
theorem releases_of_mem_copy {copy : ToRelease} {order : List (Sigma fun _ : RdevKey => RdevEvent)}
    (horder : order.Perm copy.entries) {key : RdevKey} (hkey : key ∈ copy) :
    Releases (order.flatMap releaseEvents) key := by
  obtain ⟨event, hlookup⟩ := Option.isSome_iff_exists.mp (AList.lookup_isSome.mpr hkey)
  have hmem := horder.mem_iff.mpr (AList.mem_lookup_iff.mp hlookup)
  refine (releases_releaseEvents ⟨key, event⟩).mono fun event' hevent' _ _ => ?_
  exact List.mem_flatMap.mpr ⟨⟨key, event⟩, hmem, hevent'⟩

/-! ## Steps -/

section

variable {t : RemoteKeys} {call other : Nat} {now : KeyCall}

theorem sends_setCall (hcalls : t.calls = s.calls) {key : RdevKey}
    (hsend : ((t.setCall call now).calls other).Sends key) :
    now.Sends key ∨ other ≠ call ∧ (s.calls other).Sends key := by
  rcases setCall_calls t call now other with ⟨-, heq⟩ | ⟨hne, heq⟩
  · exact .inl (heq ▸ hsend)
  · rw [heq, hcalls] at hsend
    exact .inr ⟨hne, hsend⟩

theorem Held.copied_setCall (h : Held κ keycode s) (hcalls : t.calls = s.calls)
    (hnow : ∀ copy, now = .copied copy → ∀ key event, copy.lookup key = some event →
      keycode event.positionCode = κ key) {copy : ToRelease}
    (hcopy : (t.setCall call now).calls other = .copied copy) {key : RdevKey} {event : RdevEvent}
    (hlookup : copy.lookup key = some event) : keycode event.positionCode = κ key := by
  rcases setCall_calls t call now other with ⟨-, heq⟩ | ⟨-, heq⟩
  · exact hnow copy (heq.symm.trans hcopy) key event hlookup
  · rw [heq, hcalls] at hcopy
    exact h.copied other copy hcopy key event hlookup

theorem Held.events_setCall (h : Held κ keycode s) (hcalls : t.calls = s.calls)
    (hnow : ∀ event ∈ now.unsent, keycode event.positionCode = κ event.key) {event : RdevEvent}
    (hmem : event ∈ ((t.setCall call now).calls other).unsent) :
    keycode event.positionCode = κ event.key := by
  rcases setCall_calls t call now other with ⟨-, heq⟩ | ⟨-, heq⟩
  · rw [heq] at hmem
    exact hnow event hmem
  · rw [heq, hcalls] at hmem
    exact h.events other event hmem

end

/-- A call goes on without an access that changes a table. -/
theorem Held.setCall (h : Held κ keycode s) {call : Nat} {now : KeyCall}
    (hunsent : ∀ key, Releases (s.calls call).unsent key → Releases now.unsent key)
    (hunmarked : ∀ key, Releases (s.calls call).unmarked key → Releases now.unmarked key)
    (hunrecorded : ∀ key, Releases (s.calls call).unrecorded key → Releases now.unrecorded key)
    (hrecords : ∀ key, (s.calls call).Records key → now.Records key)
    (hsends : ∀ key, now.Sends key → (s.calls call).Sends key)
    (hcopied : ∀ copy, now = .copied copy → ∀ key event, copy.lookup key = some event →
      keycode event.positionCode = κ key)
    (hevents : ∀ event ∈ now.unsent, keycode event.positionCode = κ event.key) :
    Held κ keycode (s.setCall call now) where
  pressed code hcode := by
    obtain ⟨key, hkey, hheld⟩ := h.pressed code hcode
    refine ⟨key, hkey, ?_⟩
    rcases hheld with hmem | hex
    · exact .inl hmem
    · exact .inr (releases_setCall hex (hunsent key))
  marked key hkey := by
    rcases h.marked key hkey with hmem | hex | hex
    · exact .inl hmem
    · exact .inr (.inl (releases_setCall hex (hunmarked key)))
    · exact .inr (.inr (exists_setCall hex (hrecords key)))
  sending other key hsend := by
    have hold : key ∈ s.toRelease ∨ ∃ other, Releases (s.calls other).unrecorded key := by
      rcases sends_setCall rfl hsend with hnow | ⟨-, hold⟩
      · exact h.sending call key (hsends key hnow)
      · exact h.sending other key hold
    exact hold.imp_right fun hex => releases_setCall hex (hunrecorded key)
  modifiers := h.modifiers
  recorded := h.recorded
  copied other copy hcopy key event := h.copied_setCall rfl hcopied hcopy
  events other event := h.events_setCall rfl hevents

/-- A call that is not in progress begins. -/
theorem Held.begin (h : Held κ keycode s) {call : Nat} {now : KeyCall}
    (hcall : s.calls call = .idle)
    (hsends : ∀ key, ¬ now.Sends key)
    (hcopied : ∀ copy, now = .copied copy → ∀ key event, copy.lookup key = some event →
      keycode event.positionCode = κ key)
    (hevents : ∀ event ∈ now.unsent, keycode event.positionCode = κ event.key) :
    Held κ keycode (s.setCall call now) := by
  have hnone : ∀ key, ¬ Releases [] key := not_releases_nil
  apply h.setCall
  · rw [hcall]
    exact fun key hrel => absurd hrel (hnone key)
  · rw [hcall]
    exact fun key hrel => absurd hrel (hnone key)
  · rw [hcall]
    exact fun key hrel => absurd hrel (hnone key)
  · rw [hcall]
    rintro key ⟨_, _, ⟨⟩, _⟩
  · exact fun key hsend => absurd hsend (hsends key)
  · exact hcopied
  · exact hevents

theorem start_ne_copied (events : List RdevEvent) (copy : ToRelease) :
    KeyCall.start events ≠ .copied copy := by
  cases events with
  | nil => exact fun heq => nomatch heq
  | cons event rest => exact fun heq => nomatch heq

theorem stage_of_start {events : List RdevEvent} {stage : KeyStage} {event : RdevEvent}
    {rest : List RdevEvent} (h : KeyCall.start events = .processing stage event rest) :
    stage = .isLongPress := by
  cases events with
  | nil => cases h
  | cons event rest =>
    cases h
    rfl

/-- What is forgotten is in the copy, and so about to be released. -/
theorem Held.clear (h : Held κ keycode s) {call : Nat} {copy : ToRelease}
    {order : List (Sigma fun _ : RdevKey => RdevEvent)} (hcall : s.calls call = .copied copy)
    (horder : order.Perm copy.entries) (hcopy : ∀ key ∈ s.toRelease, key ∈ copy) :
    Held κ keycode
      ({ s with toRelease := ∅ }.setCall call (.start (order.flatMap releaseEvents))) := by
  have hnone : ∀ key, ¬ Releases [] key := not_releases_nil
  have hnew : ∀ key ∈ s.toRelease, Releases (order.flatMap releaseEvents) key :=
    fun key hkey => releases_of_mem_copy horder (hcopy key hkey)
  constructor
  · intro code hcode
    obtain ⟨key, hkey, hheld⟩ := h.pressed code hcode
    refine ⟨key, hkey, .inr ?_⟩
    rcases hheld with hmem | hex
    · refine ⟨call, ?_⟩
      rw [setCall_calls_self, KeyCall.unsent_start]
      exact hnew key hmem
    · refine releases_setCall hex ?_
      rw [hcall]
      exact fun hrel => absurd hrel (hnone key)
  · intro key hkey
    right
    rcases h.marked key hkey with hmem | hex | hex
    · refine .inl ⟨call, ?_⟩
      rw [setCall_calls_self, KeyCall.unmarked_start]
      exact hnew key hmem
    · refine .inl (releases_setCall hex ?_)
      rw [hcall]
      exact fun hrel => absurd hrel (hnone key)
    · refine .inr (exists_setCall hex ?_)
      rw [hcall]
      rintro ⟨_, _, ⟨⟩, _⟩
  · intro other key hsend
    right
    rcases sends_setCall rfl hsend with hnow | ⟨-, hold⟩
    · exact absurd hnow (KeyCall.not_sends_start _ key)
    · rcases h.sending other key hold with hmem | hex
      · refine ⟨call, ?_⟩
        rw [setCall_calls_self, KeyCall.unrecorded_start]
        exact hnew key hmem
      · refine releases_setCall hex ?_
        rw [hcall]
        exact fun hrel => absurd hrel (hnone key)
  · exact h.modifiers
  · intro key event hlookup
    cases hlookup
  · exact fun other copy' hcopy' key event =>
      h.copied_setCall rfl (fun copy'' heq => absurd heq (start_ne_copied _ copy'')) hcopy'
  · refine fun other event => h.events_setCall rfl fun event hmem => ?_
    rw [KeyCall.unsent_start] at hmem
    obtain ⟨x, hx, hevent⟩ := List.mem_flatMap.mp hmem
    obtain ⟨hkey, hposition⟩ := mem_releaseEvents hevent
    rw [hkey, hposition]
    exact h.copied call copy hcall x.1 x.2 (AList.mem_lookup_iff.mpr (horder.mem_iff.mp hx))

/-! ### An event is processed -/

section

variable {call : Nat} {event : RdevEvent} {rest : List RdevEvent}

theorem Held.check (h : Held κ keycode s)
    (hcall : s.calls call = .processing .isLongPress event rest) :
    Held κ keycode (s.processEvent keycode call event rest .isLongPress) := by
  have hevents := h.events call
  rw [hcall] at hevents
  simp only [processEvent]
  split
  next hlong =>
    -- only a press is left out
    have hdown : event.down = true := (Bool.and_eq_true_iff.mp hlong).1
    apply h.setCall
    · rw [hcall, KeyCall.unsent_start]
      exact fun key hrel => hrel.of_cons (.inl hdown)
    · rw [hcall, KeyCall.unmarked_start]
      exact fun key hrel => hrel.of_cons (.inl hdown)
    · rw [hcall, KeyCall.unrecorded_start]
      exact fun key hrel => hrel.of_cons (.inl hdown)
    · rw [hcall]
      rintro key ⟨_, _, ⟨⟩, _⟩
    · exact fun key hsend => absurd hsend (KeyCall.not_sends_start _ key)
    · exact fun copy hcopy => absurd hcopy (start_ne_copied _ copy)
    · rw [KeyCall.unsent_start]
      exact fun event' hmem => hevents event' (List.mem_cons_of_mem _ hmem)
  next =>
    apply h.setCall
    · rw [hcall]
      exact fun key hrel => hrel
    · rw [hcall]
      exact fun key hrel => hrel
    · rw [hcall]
      exact fun key hrel => hrel
    · rw [hcall]
      rintro key ⟨_, _, ⟨⟩, _⟩
    · rintro key ⟨_, _, ⟨⟩, _⟩
    · intro copy hcopy
      cases hcopy
    · exact hevents

theorem updateModifiersState_apply (keys : ModifiersState) (event : RdevEvent) (key : RdevKey) :
    updateModifiersState keys event key =
      if key = event.key ∧ key.isModifier then event.down else keys key := by
  unfold updateModifiersState
  by_cases hmod : event.key.isModifier = true
  · rw [if_pos hmod]
    by_cases hsame : key = event.key
    · subst hsame
      rw [Function.update_self, if_pos ⟨rfl, hmod⟩]
    · rw [Function.update_of_ne hsame, if_neg fun hboth => hsame hboth.1]
  · rw [if_neg hmod, if_neg]
    rintro ⟨rfl, hkey⟩
    exact hmod hkey

/-- A press that is marked is about to be recorded; a release marks its key up. -/
theorem Held.mark (h : Held κ keycode s)
    (hcall : s.calls call = .processing .updateModifiersState event rest) :
    Held κ keycode (s.processEvent keycode call event rest .updateModifiersState) := by
  have hmodifiers : ∀ key, updateModifiersState s.modifiersState event key = true →
      key.isModifier = true := by
    intro key hkey
    rw [updateModifiersState_apply] at hkey
    split at hkey
    next hboth => exact hboth.2
    next => exact h.modifiers key hkey
  rw [processEvent]
  constructor
  · intro code hcode
    obtain ⟨key, hkey, hheld⟩ := h.pressed code hcode
    refine ⟨key, hkey, hheld.imp_right fun hex => releases_setCall hex ?_⟩
    rw [hcall]
    exact fun hrel => hrel
  · intro key hkey
    have hmod := hmodifiers key hkey
    have hnow := (updateModifiersState_apply s.modifiersState event key).symm.trans hkey
    by_cases hsame : key = event.key
    · rw [if_pos ⟨hsame, hmod⟩] at hnow
      refine .inr (.inr ⟨call, ?_⟩)
      rw [setCall_calls_self]
      exact ⟨event, rest, rfl, hnow, hsame.symm⟩
    · rw [if_neg fun hboth => hsame hboth.1] at hnow
      rcases h.marked key hnow with hmem | hex | hex
      · exact .inl hmem
      · refine .inr (.inl (releases_setCall hex ?_))
        rw [hcall]
        exact fun hrel => hrel.of_cons (.inr (Ne.symm hsame))
      · refine .inr (.inr (exists_setCall hex ?_))
        rw [hcall]
        rintro ⟨_, _, ⟨⟩, _⟩
  · intro other key hsend
    rcases sends_setCall rfl hsend with ⟨_, _, ⟨⟩, _⟩ | ⟨-, hold⟩
    refine (h.sending other key hold).imp_right fun hex => releases_setCall hex ?_
    rw [hcall]
    exact fun hrel => hrel
  · exact hmodifiers
  · exact h.recorded
  · refine fun other copy hcopy key event' => h.copied_setCall rfl ?_ hcopy
    rintro copy' ⟨⟩
  · have hevents := h.events call
    rw [hcall] at hevents
    refine fun other event' => h.events_setCall rfl ?_
    exact hevents

theorem mem_updateToRelease {toRelease : ToRelease} {event : RdevEvent} {key : RdevKey} :
    key ∈ updateToRelease toRelease event ↔
      if event.down then key = event.key ∨ key ∈ toRelease
      else key ≠ event.key ∧ key ∈ toRelease := by
  unfold updateToRelease
  split
  · exact AList.mem_insert toRelease
  · exact AList.mem_erase

theorem lookup_updateToRelease {toRelease : ToRelease} {event event' : RdevEvent} {key : RdevKey}
    (h : (updateToRelease toRelease event).lookup key = some event') :
    key = event.key ∧ event' = event ∨ toRelease.lookup key = some event' := by
  unfold updateToRelease at h
  split at h
  · exact (lookup_insert_eq_some h).imp_right And.right
  · exact .inr (lookup_erase_eq_some h).2

/-- A press puts its key on record. A release takes it off, and is about to be sent. -/
theorem Held.record (h : Held κ keycode s)
    (hcall : s.calls call = .processing .updateToRelease event rest)
    (hundisturbed : event.down = false → (∀ other ≠ call, ¬ (s.calls other).Sends event.key) ∧
      (s.modifiersState event.key = true → ∃ other ≠ call, (s.calls other).Records event.key)) :
    Held κ keycode (s.processEvent keycode call event rest .updateToRelease) := by
  have hevents := h.events call
  rw [hcall] at hevents
  -- a key that was on record still is, unless this is its release
  have hkept : ∀ key ∈ s.toRelease, (event.down = true ∨ key ≠ event.key) →
      key ∈ updateToRelease s.toRelease event := by
    intro key hmem hwhy
    rw [mem_updateToRelease]
    split
    next => exact .inr hmem
    next hup => exact ⟨hwhy.resolve_left hup, hmem⟩
  rw [processEvent]
  constructor
  · intro code hcode
    obtain ⟨key, hkey, hheld⟩ := h.pressed code hcode
    refine ⟨key, hkey, ?_⟩
    rcases hheld with hmem | hex
    · by_cases hwhy : event.down = true ∨ key ≠ event.key
      · exact .inl (hkept key hmem hwhy)
      · rw [not_or, not_not, Bool.not_eq_true] at hwhy
        refine .inr ⟨call, ?_⟩
        rw [setCall_calls_self]
        exact ⟨event, List.mem_cons_self, hwhy.1, hwhy.2.symm⟩
    · refine .inr (releases_setCall hex ?_)
      rw [hcall]
      exact fun hrel => hrel
  · intro key hkey
    rcases h.marked key hkey with hmem | hex | ⟨other, hrec⟩
    · by_cases hwhy : event.down = true ∨ key ≠ event.key
      · exact .inl (hkept key hmem hwhy)
      · rw [not_or, not_not, Bool.not_eq_true] at hwhy
        obtain ⟨other, hne, hrec⟩ := (hundisturbed hwhy.1).2 (hwhy.2 ▸ hkey)
        refine .inr (.inr ⟨other, ?_⟩)
        rw [setCall_calls_of_ne _ hne, hwhy.2]
        exact hrec
    · refine .inr (.inl (releases_setCall hex ?_))
      rw [hcall]
      exact fun hrel => hrel
    · by_cases hsame : other = call
      · -- the press that was about to be recorded
        subst hsame
        rw [hcall] at hrec
        obtain ⟨_, _, ⟨⟩, hdown, hkey⟩ := hrec
        left
        show key ∈ updateToRelease s.toRelease event
        rw [mem_updateToRelease, if_pos hdown]
        exact .inl hkey.symm
      · refine .inr (.inr ⟨other, ?_⟩)
        rw [setCall_calls_of_ne _ hsame]
        exact hrec
  · intro other key hsend
    rcases sends_setCall rfl hsend with ⟨_, _, ⟨⟩, hdown, hkey⟩ | ⟨hne, hold⟩
    · left
      show key ∈ updateToRelease s.toRelease event
      rw [mem_updateToRelease, if_pos hdown]
      exact .inl hkey.symm
    · have hwhy : event.down = true ∨ key ≠ event.key := by
        rw [or_iff_not_imp_left, Bool.not_eq_true]
        rintro hup rfl
        exact (hundisturbed hup).1 other hne hold
      rcases h.sending other key hold with hmem | hex
      · exact .inl (hkept key hmem hwhy)
      · refine .inr (releases_setCall hex ?_)
        rw [hcall]
        exact fun hrel => hrel.of_cons (hwhy.imp_right Ne.symm)
  · exact h.modifiers
  · intro key event' hlookup
    rcases lookup_updateToRelease hlookup with ⟨rfl, rfl⟩ | hold
    · exact hevents event' List.mem_cons_self
    · exact h.recorded key event' hold
  · refine fun other copy hcopy key event' => h.copied_setCall rfl ?_ hcopy
    rintro copy' ⟨⟩
  · refine fun other event' => h.events_setCall rfl ?_
    exact hevents

/-- What is last sent of a key code, after an event. -/
theorem isPressed_send {code : UInt32}
    (h : (((mapKeyboardMode keycode event).toList ++ s.sent).find? fun x => x.1 == code).map
      Prod.snd = some true) :
    keycode event.positionCode = some code ∧ event.down = true ∨
      keycode event.positionCode ≠ some code ∧ s.IsPressed code := by
  unfold mapKeyboardMode at h
  cases hcode : keycode event.positionCode with
  | none =>
    rw [hcode] at h
    exact .inr ⟨nofun, h⟩
  | some code' =>
    rw [hcode] at h
    rcases isPressed_cons.mp h with ⟨rfl, hdown⟩ | ⟨hne, hold⟩
    · exact .inl ⟨rfl, hdown⟩
    · exact .inr ⟨fun heq => hne (Option.some.inj heq), hold⟩

/-- A press that is sent is on record, or its release is still to come. -/
theorem Held.send (h : Held κ keycode s)
    (hcall : s.calls call = .processing .send event rest) :
    Held κ keycode (s.processEvent keycode call event rest .send) := by
  have hevents := h.events call
  rw [hcall] at hevents
  have hcode : keycode event.positionCode = κ event.key := hevents event List.mem_cons_self
  rw [processEvent]
  constructor
  · intro code hpressed
    rcases isPressed_send hpressed with ⟨hsent, hdown⟩ | ⟨hne, hold⟩
    · refine ⟨event.key, hcode.symm.trans hsent, ?_⟩
      have hsends : (s.calls call).Sends event.key := by
        rw [hcall]
        exact ⟨event, rest, rfl, hdown, rfl⟩
      rcases h.sending call event.key hsends with hmem | ⟨other, hrel⟩
      · exact .inl hmem
      · refine .inr ⟨other, ?_⟩
        rcases setCall_calls { s with sent := (mapKeyboardMode keycode event).toList ++ s.sent }
          call (.start rest) other with ⟨rfl, heq⟩ | ⟨-, heq⟩
        · rw [heq, KeyCall.unsent_start]
          rw [hcall] at hrel
          exact hrel
        · rw [heq]
          exact hrel.unsent_of_unrecorded
    · obtain ⟨key, hkey, hheld⟩ := h.pressed code hold
      refine ⟨key, hkey, hheld.imp_right fun hex => releases_setCall hex ?_⟩
      rw [hcall, KeyCall.unsent_start]
      refine fun hrel => hrel.of_cons (.inr ?_)
      rintro rfl
      exact hne (hcode.trans hkey)
  · intro key hkey
    rcases h.marked key hkey with hmem | hex | hex
    · exact .inl hmem
    · refine .inr (.inl (releases_setCall hex ?_))
      rw [hcall, KeyCall.unmarked_start]
      exact fun hrel => hrel
    · refine .inr (.inr (exists_setCall hex ?_))
      rw [hcall]
      rintro ⟨_, _, ⟨⟩, _⟩
  · intro other key hsend
    rcases sends_setCall rfl hsend with hnow | ⟨-, hold⟩
    · exact absurd hnow (KeyCall.not_sends_start _ key)
    · refine (h.sending other key hold).imp_right fun hex => releases_setCall hex ?_
      rw [hcall, KeyCall.unrecorded_start]
      exact fun hrel => hrel
  · exact h.modifiers
  · exact h.recorded
  · exact fun other copy hcopy key event' =>
      h.copied_setCall rfl (fun copy' heq => absurd heq (start_ne_copied _ copy')) hcopy
  · refine fun other event' => h.events_setCall rfl ?_
    rw [KeyCall.unsent_start]
    exact fun event' hmem => hevents event' (List.mem_cons_of_mem _ hmem)

end

/-- **Every step that nothing disturbs keeps what holds.** -/
theorem Held.next (h : Held κ keycode s) {a : Step} (hstep : next keycode s a = some s')
    (ha : Undisturbed κ keycode s a) : Held κ keycode s' := by
  cases a with
  | event call event =>
    simp only [RemoteKeys.next] at hstep
    split at hstep
    next hcall =>
      obtain rfl := Option.some.inj hstep
      apply h.begin hcall
      · exact fun key hsend => absurd hsend (KeyCall.not_sends_start _ key)
      · exact fun copy hcopy => absurd hcopy (start_ne_copied _ copy)
      · intro event' hmem
        rw [KeyCall.unsent_start, List.mem_singleton] at hmem
        rw [hmem]
        exact ha
    next => cases hstep
  | release call =>
    simp only [RemoteKeys.next] at hstep
    split at hstep
    next hcall =>
      obtain rfl := Option.some.inj hstep
      apply h.begin hcall
      · rintro key ⟨_, _, ⟨⟩, _⟩
      · rintro copy ⟨⟩
        exact h.recorded
      · intro event hmem
        cases hmem
    next => cases hstep
  | clear call order =>
    simp only [RemoteKeys.next] at hstep
    split at hstep
    next copy hcall =>
      split at hstep
      next horder =>
        obtain rfl := Option.some.inj hstep
        exact h.clear hcall horder (ha copy hcall)
      next => cases hstep
    next => cases hstep
  | process call =>
    simp only [RemoteKeys.next] at hstep
    split at hstep
    next stage event rest hcall =>
      obtain rfl := Option.some.inj hstep
      cases stage with
      | isLongPress => exact h.check hcall
      | updateModifiersState => exact h.mark hcall
      | updateToRelease => exact h.record hcall (ha event rest hcall)
      | send => exact h.send hcall
    next => cases hstep

theorem held_of_reachable
    (h : ((system keycode).restrict (Undisturbed κ keycode)).Reachable s) : Held κ keycode s := by
  refine h.invariant ?_ ?_
  · rintro s rfl
    exact held_start
  · rintro s a s' hs ⟨ha, hstep⟩
    exact hs.next hstep ha

/-! ## A release on its own -/

/-- It is a step of this call. -/
def Step.GoesOn (call : Nat) : Step → Prop
  | .clear call' _ => call' = call
  | .process call' => call' = call
  | _ => False

/-- Every press among these events is followed by a release of its key. -/
def Followed : List RdevEvent → Prop
  | [] => True
  | event :: rest => (event.down = true → Releases rest event.key) ∧ Followed rest

theorem Followed.append {events events' : List RdevEvent} (h : Followed events)
    (h' : Followed events') : Followed (events ++ events') := by
  induction events with
  | nil => exact h'
  | cons event rest ih =>
    refine ⟨fun hdown => ?_, ih h.2⟩
    exact (h.1 hdown).mono fun other hmem _ _ => List.mem_append_left _ hmem

theorem followed_releaseEvents (x : Sigma fun _ : RdevKey => RdevEvent) :
    Followed (releaseEvents x) := by
  unfold releaseEvents
  split
  · refine ⟨nofun, fun _ => ?_, nofun, trivial⟩
    exact ⟨_, List.mem_cons_self, rfl, rfl⟩
  · exact ⟨nofun, trivial⟩

theorem followed_flatMap (order : List (Sigma fun _ : RdevKey => RdevEvent)) :
    Followed (order.flatMap releaseEvents) := by
  induction order with
  | nil => trivial
  | cons x order ih =>
    rw [List.flatMap_cons]
    exact (followed_releaseEvents x).append ih

/-- What holds while one call of `release_remote_keys` is all that is in progress: its copy is
`TO_RELEASE`; and then what is on record is only what the call itself pressed and is about to
release. -/
structure Alone (call : Nat) (s : RemoteKeys) : Prop where
  others : ∀ other ≠ call, s.calls other = .idle
  copied : ∀ copy, s.calls call = .copied copy → copy = s.toRelease
  followed : Followed (s.calls call).unsent
  recorded : (∀ copy, s.calls call ≠ .copied copy) → ∀ key ∈ s.toRelease,
    Releases (s.calls call).unrecorded key
  up : ∀ event rest, s.calls call = .processing .updateToRelease event rest →
    event.down = false → s.modifiersState event.key = false

theorem Alone.others_setCall {call : Nat} (h : Alone call s) {t : RemoteKeys} {now : KeyCall}
    (hcalls : t.calls = s.calls) : ∀ other ≠ call, (t.setCall call now).calls other = .idle := by
  intro other hne
  rw [setCall_calls_of_ne _ hne, hcalls]
  exact h.others other hne

theorem alone_release (h : s.Idle) (call : Nat) :
    Alone call (s.setCall call (.copied s.toRelease)) where
  others other hne := by
    rw [setCall_calls_of_ne _ hne]
    exact h other
  copied copy hcopy := by
    rw [setCall_calls_self] at hcopy
    cases hcopy
    rfl
  followed := by
    rw [setCall_calls_self]
    trivial
  recorded hne := absurd (setCall_calls_self s) (hne s.toRelease)
  up event rest hcall := by
    rw [setCall_calls_self] at hcall
    cases hcall

theorem Alone.clear {call : Nat} (h : Alone call s)
    (order : List (Sigma fun _ : RdevKey => RdevEvent)) :
    Alone call
      ({ s with toRelease := ∅ }.setCall call (.start (order.flatMap releaseEvents))) where
  others := h.others_setCall rfl
  copied copy hcopy := by
    rw [setCall_calls_self] at hcopy
    exact absurd hcopy (start_ne_copied _ copy)
  followed := by
    rw [setCall_calls_self, KeyCall.unsent_start]
    exact followed_flatMap order
  recorded _ key hmem := absurd hmem (AList.notMem_empty key)
  up event rest hcall := by
    rw [setCall_calls_self] at hcall
    cases stage_of_start hcall

section

variable {call : Nat} {event : RdevEvent} {rest : List RdevEvent}

/-- The call goes on to its next event. -/
theorem Alone.start {t : RemoteKeys} (h : Alone call s) (hcalls : t.calls = s.calls)
    (hfollowed : Followed rest) (hrecorded : ∀ key ∈ t.toRelease, Releases rest key) :
    Alone call (t.setCall call (.start rest)) where
  others := h.others_setCall hcalls
  copied copy hcopy := by
    rw [setCall_calls_self] at hcopy
    exact absurd hcopy (start_ne_copied _ copy)
  followed := by
    rw [setCall_calls_self, KeyCall.unsent_start]
    exact hfollowed
  recorded _ := by
    rw [setCall_calls_self, KeyCall.unrecorded_start]
    exact hrecorded
  up event rest hcall := by
    rw [setCall_calls_self] at hcall
    cases stage_of_start hcall

/-- The call goes on with the event. -/
theorem Alone.processing {t : RemoteKeys} {stage : KeyStage} (h : Alone call s)
    (hcalls : t.calls = s.calls) (hfollowed : Followed (event :: rest))
    (hrecorded : ∀ key ∈ t.toRelease,
      Releases (KeyCall.processing stage event rest).unrecorded key)
    (hup : stage = .updateToRelease → event.down = false → t.modifiersState event.key = false) :
    Alone call (t.setCall call (.processing stage event rest)) where
  others := h.others_setCall hcalls
  copied copy hcopy := by
    rw [setCall_calls_self] at hcopy
    cases hcopy
  followed := by
    rw [setCall_calls_self]
    exact hfollowed
  recorded _ := by
    rw [setCall_calls_self]
    exact hrecorded
  up event' rest' hcall := by
    rw [setCall_calls_self] at hcall
    cases hcall
    exact hup rfl

theorem Alone.process {stage : KeyStage} (h : Alone call s) (hheld : Held κ keycode s)
    (hcall : s.calls call = .processing stage event rest) :
    Alone call (s.processEvent keycode call event rest stage) := by
  have hfollowed := h.followed
  have hrecorded := h.recorded fun copy hcopy => nomatch hcall.symm.trans hcopy
  rw [hcall] at hfollowed hrecorded
  cases stage with
  | isLongPress =>
    simp only [processEvent]
    split
    next hlong =>
      have hdown : event.down = true := (Bool.and_eq_true_iff.mp hlong).1
      exact h.start rfl hfollowed.2 fun key hmem => (hrecorded key hmem).of_cons (.inl hdown)
    next => exact h.processing rfl hfollowed hrecorded nofun
  | updateModifiersState =>
    refine h.processing rfl hfollowed hrecorded fun _ hup => ?_
    show updateModifiersState s.modifiersState event event.key = false
    rw [updateModifiersState_apply]
    split
    next => exact hup
    next hnot =>
      -- a key that is no modifier is not marked
      rw [← Bool.not_eq_true]
      exact fun hmarked => hnot ⟨rfl, hheld.modifiers event.key hmarked⟩
  | updateToRelease =>
    refine h.processing rfl hfollowed (fun key hmem => ?_) nofun
    have hmem' := mem_updateToRelease.mp hmem
    split at hmem'
    next hdown =>
      rcases hmem' with rfl | hold
      · exact hfollowed.1 hdown
      · exact (hrecorded key hold).of_cons (.inl hdown)
    next => exact (hrecorded key hmem'.2).of_cons (.inr hmem'.1.symm)
  | send => exact h.start rfl hfollowed.2 hrecorded

end

/-- On its own, a release is not disturbed. -/
theorem Alone.undisturbed {call : Nat} (h : Alone call s) {a : Step} (ha : a.GoesOn call) :
    Undisturbed κ keycode s a := by
  cases a with
  | event => cases ha
  | release => cases ha
  | clear call' order =>
    obtain rfl : call' = call := ha
    intro copy hcopy key hmem
    rw [h.copied copy hcopy]
    exact hmem
  | process call' =>
    obtain rfl : call' = call := ha
    intro event rest hcall hup
    constructor
    · intro other hne hsends
      rw [h.others other hne] at hsends
      obtain ⟨_, _, ⟨⟩, _⟩ := hsends
    · rw [h.up event rest hcall hup]
      exact nofun

theorem Alone.next {call : Nat} (h : Alone call s) (hheld : Held κ keycode s) {a : Step}
    (ha : a.GoesOn call) (hstep : next keycode s a = some s') : Alone call s' := by
  cases a with
  | event => cases ha
  | release => cases ha
  | clear call' order =>
    obtain rfl : call' = call := ha
    simp only [RemoteKeys.next] at hstep
    split at hstep
    next copy hcall =>
      split at hstep
      next =>
        obtain rfl := Option.some.inj hstep
        exact h.clear order
      next => cases hstep
    next => cases hstep
  | process call' =>
    obtain rfl : call' = call := ha
    simp only [RemoteKeys.next] at hstep
    split at hstep
    next stage event rest hcall =>
      obtain rfl := Option.some.inj hstep
      exact h.process hheld hcall
    next => cases hstep

/-- When it has ended, nothing is on record. -/
theorem Alone.toRelease_empty {call : Nat} (h : Alone call s) (hidle : s.Idle) (key : RdevKey) :
    key ∉ s.toRelease := by
  intro hmem
  have hrel := h.recorded (fun copy hcopy => nomatch (hidle call).symm.trans hcopy) key hmem
  rw [hidle call] at hrel
  exact not_releases_nil key hrel

/-- The call comes to its end by its own steps. -/
def Ends (keycode : UInt32 → Option UInt32) (call : Nat) (s : RemoteKeys) : Prop :=
  ∃ as s', (∀ a ∈ as, a.GoesOn call) ∧ (system keycode).Steps s as s' ∧ s'.calls call = .idle ∧
    ∀ other ≠ call, s'.calls other = s.calls other

theorem Ends.of_step {call : Nat} {a : Step} (hstep : next keycode s a = some s')
    (ha : a.GoesOn call) (hothers : ∀ other ≠ call, s'.calls other = s.calls other)
    (h : Ends keycode call s') : Ends keycode call s := by
  obtain ⟨as, s'', has, hsteps, hidle, hsame⟩ := h
  refine ⟨a :: as, s'', ?_, .cons hstep hsteps, hidle, ?_⟩
  · exact List.forall_mem_cons.mpr ⟨ha, has⟩
  · exact fun other hne => (hsame other hne).trans (hothers other hne)

theorem Ends.of_process {call : Nat} {stage : KeyStage} {event : RdevEvent}
    {rest : List RdevEvent} (hcall : s.calls call = .processing stage event rest)
    (h : Ends keycode call (s.processEvent keycode call event rest stage)) :
    Ends keycode call s := by
  refine Ends.of_step (a := .process call) ?_ rfl ?_ h
  · simp only [RemoteKeys.next, hcall]
  · exact fun other hne => processEvent_calls_of_ne hne

/-- Event by event, each in at most four steps. -/
theorem ends_of_start {call : Nat} {events : List RdevEvent}
    (hcall : s.calls call = .start events) : Ends keycode call s := by
  induction events generalizing s with
  | nil => exact ⟨[], s, nofun, .refl, hcall, fun _ _ => rfl⟩
  | cons event rest ih =>
    have hsend : ∀ {s : RemoteKeys}, s.calls call = .processing .send event rest →
        Ends keycode call s :=
      fun hcall => .of_process hcall (ih (setCall_calls_self _))
    refine .of_process hcall ?_
    simp only [processEvent]
    split
    · exact ih (setCall_calls_self _)
    · exact .of_process (setCall_calls_self _) <| .of_process (setCall_calls_self _) <|
        hsend (setCall_calls_self _)

theorem exists_ends {call : Nat} (hidle : s.Idle) :
    ∃ as s', (∀ a ∈ as, a.GoesOn call) ∧
      (system keycode).Steps (s.setCall call (.copied s.toRelease)) as s' ∧ s'.Idle := by
  have hends : Ends keycode call (s.setCall call (.copied s.toRelease)) := by
    have hclear : next keycode (s.setCall call (.copied s.toRelease))
        (.clear call s.toRelease.entries) =
          some ({ s.setCall call (.copied s.toRelease) with toRelease := ∅ }.setCall call
            (.start (s.toRelease.entries.flatMap releaseEvents))) := by
      simp only [RemoteKeys.next, setCall_calls_self, List.Perm.refl, if_true]
    refine .of_step hclear rfl ?_ (ends_of_start (setCall_calls_self _))
    exact fun other hne => setCall_calls_of_ne _ hne
  obtain ⟨as, s', has, hsteps, hcall, hothers⟩ := hends
  refine ⟨as, s', has, hsteps, fun other => ?_⟩
  by_cases hsame : other = call
  · rw [hsame]
    exact hcall
  · rw [hothers other hsame, setCall_calls_of_ne _ hsame]
    exact hidle other

/-! ## No key left behind -/

/-- With no call in progress, what is down is on record. -/
theorem Held.of_idle (h : Held κ keycode s) (hidle : s.Idle) :
    (∀ code, s.IsPressed code → ∃ key ∈ s.toRelease, κ key = some code) ∧
      ∀ key, s.modifiersState key = true → key ∈ s.toRelease := by
  constructor
  · intro code hcode
    obtain ⟨key, hkey, hmem | ⟨other, hrel⟩⟩ := h.pressed code hcode
    · exact ⟨key, hmem, hkey⟩
    · rw [hidle other] at hrel
      exact absurd hrel (not_releases_nil key)
  · intro key hkey
    rcases h.marked key hkey with hmem | ⟨other, hrel⟩ | ⟨other, hrec⟩
    · exact hmem
    · rw [hidle other] at hrel
      exact absurd hrel (not_releases_nil key)
    · rw [hidle other] at hrec
      obtain ⟨_, _, ⟨⟩, _⟩ := hrec

/-- **No key left behind.** Where no step is disturbed, whenever no call is in progress every key
code that is down is that of a key in `TO_RELEASE`, and every modifier that is marked down is in
`TO_RELEASE`; and a release with nothing beside it comes to its end and leaves nothing down. -/
theorem released_of_undisturbed
    (h : ((system keycode).restrict (Undisturbed κ keycode)).Reachable s) (hidle : s.Idle) :
    (∀ code, s.IsPressed code → ∃ key event, s.toRelease.lookup key = some event ∧
      keycode event.positionCode = some code) ∧
    (∀ key, s.modifiersState key = true → key ∈ s.toRelease) ∧
    ∀ call s₁, (system keycode).step s (.release call) s₁ →
      (∃ as s', (∀ a ∈ as, a.GoesOn call) ∧ (system keycode).Steps s₁ as s' ∧ s'.Idle) ∧
      ∀ as s', (∀ a ∈ as, a.GoesOn call) → (system keycode).Steps s₁ as s' → s'.Idle →
        (∀ code, ¬ s'.IsPressed code) ∧ ∀ key, s'.modifiersState key = false := by
  have hheld := held_of_reachable h
  obtain ⟨hpressed, hmarked⟩ := hheld.of_idle hidle
  refine ⟨?_, hmarked, ?_⟩
  · intro code hcode
    obtain ⟨key, hmem, hkey⟩ := hpressed code hcode
    obtain ⟨event, hlookup⟩ := Option.isSome_iff_exists.mp (AList.lookup_isSome.mpr hmem)
    exact ⟨key, event, hlookup, (hheld.recorded key event hlookup).trans hkey⟩
  · intro call s₁ hstep
    have heq : s₁ = s.setCall call (.copied s.toRelease) := by
      simp only [system, System.stepping, next, hidle call] at hstep
      exact (Option.some.inj hstep).symm
    have hheld₁ : Held κ keycode s₁ := hheld.next hstep trivial
    have halone : Alone call s₁ := heq ▸ alone_release hidle call
    refine ⟨heq ▸ exists_ends hidle, ?_⟩
    intro as s' has hsteps hidle'
    obtain ⟨hheld', halone'⟩ := hsteps.invariant (P := fun a => a.GoesOn call)
      (I := fun s => Held κ keycode s ∧ Alone call s)
      (fun ha hI hnext => ⟨hI.1.next hnext (hI.2.undisturbed ha), hI.2.next hI.1 ha hnext⟩)
      has ⟨hheld₁, halone⟩
    have hempty := halone'.toRelease_empty hidle'
    obtain ⟨hpressed', hmarked'⟩ := hheld'.of_idle hidle'
    constructor
    · intro code hcode
      obtain ⟨key, hmem, -⟩ := hpressed' code hcode
      exact hempty key hmem
    · intro key
      rw [← Bool.not_eq_true]
      exact fun hkey => hempty key (hmarked' key hkey)

/-- A key is pressed after the record is copied and before it is cleared. -/
def pressedWhileReleasing : List Step :=
  [.release 1, .event 0 ⟨true, .other 4, 30⟩, .process 0, .process 0, .process 0, .process 0,
    .clear 1 []]

/-- The key is down, and forgotten. -/
theorem not_released_of_idle :
    ¬ ∀ s, (system some).Reachable s → s.Idle → ∀ code, s.IsPressed code →
      ∃ key event, s.toRelease.lookup key = some event ∧ some event.positionCode = some code := by
  intro h
  obtain ⟨s, hs⟩ : ∃ s, pressedWhileReleasing.foldlM (next some) start = some s := ⟨_, rfl⟩
  have hrun := (System.Run.start rfl : (system some).Run [] start).of_foldlM (fun hnext => hnext) hs
  have hidle : s.Idle := by
    obtain rfl := Option.some.inj hs
    intro call
    by_cases h₀ : call = 0
    · subst h₀
      rfl
    · by_cases h₁ : call = 1
      · subst h₁
        rfl
      · rw [setCall_calls_of_ne _ h₁]
        simp only [processEvent_calls_of_ne h₀, setCall_calls_of_ne _ h₀, setCall_calls_of_ne _ h₁]
        rfl
  obtain rfl := Option.some.inj hs
  obtain ⟨key, event, hlookup, -⟩ := h _ ⟨_, hrun⟩ hidle 30 rfl
  cases hlookup

/-- The Alt key is held. -/
theorem released_of_undisturbed_alt :
    ∃ s : RemoteKeys, s.Idle ∧ s.IsPressed 56 ∧
      (∀ code, s.IsPressed code → ∃ key event, s.toRelease.lookup key = some event ∧
        some event.positionCode = some code) ∧
      (∀ key, s.modifiersState key = true → key ∈ s.toRelease) ∧
      ∀ call s₁, (system some).step s (.release call) s₁ →
        (∃ as s', (∀ a ∈ as, a.GoesOn call) ∧ (system some).Steps s₁ as s' ∧ s'.Idle) ∧
        ∀ as s', (∀ a ∈ as, a.GoesOn call) → (system some).Steps s₁ as s' → s'.Idle →
          (∀ code, ¬ s'.IsPressed code) ∧ ∀ key, s'.modifiersState key = false := by
  have hstart : ((system some).restrict (Undisturbed (fun _ => some 56) some)).Run [] start :=
    .start rfl
  have h₀ := hstart.stepping_snoc (.event 0 ⟨true, .alt, 56⟩) rfl rfl
  have h₁ := h₀.stepping_snoc (.process 0) (fun _ _ hcall _ => nomatch hcall) rfl
  have h₂ := h₁.stepping_snoc (.process 0) (fun _ _ hcall _ => nomatch hcall) rfl
  have h₃ := h₂.stepping_snoc (.process 0) (fun _ _ hcall hup => by cases hcall; cases hup) rfl
  have h₄ := h₃.stepping_snoc (.process 0) (fun _ _ hcall _ => nomatch hcall) rfl
  refine ⟨_, ?hidle, ?_, released_of_undisturbed ⟨_, h₄⟩ ?hidle⟩
  case hidle =>
    intro call
    by_cases hcall : call = 0
    · subst hcall
      rfl
    · simp only [processEvent_calls_of_ne hcall, setCall_calls_of_ne _ hcall]
      rfl
  rfl

end RemoteKeys

end HopToDesk.Client
