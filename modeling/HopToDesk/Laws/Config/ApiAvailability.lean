import HopToDesk.Config.OnceApi
import HopToDesk.Kit.Base64
import HopToDesk.Kit.JsonText

/-!
# What a call of the API returns

Once a call has returned a fetched object, the calls that come later should all return the value
that was obtained last, and a fetch that fails should leave the record of its URL as it found it.
Neither is so: the refresh erases the value before it has another, the option it falls back on is
written by a task that may not have come to it or may fail, and the record is set before the fetch
(`availability_lost`).

`always_available_iff` says what it takes, of every interleaving: no fetch of a call fails, a later
call that has to fall back on the option finds a value there, and a value from the option that a
call stores is the one that was obtained last.
-/

set_option autoImplicit false

namespace HopToDesk.Config

open Kit

namespace OnceApi

namespace State

variable {V : Type} {c : Codec V} {s s' : State V}

/-- A later call has returned the value that was obtained last. -/
def Answered (s : State V) : Prop :=
  ∀ a ∈ s.answers, a.later = true → a.result.isSome = true ∧ a.result = a.latest

/-- A fetch that failed has left the record as it was. -/
def Kept (s : State V) : Prop := ∀ f ∈ s.failures, f.left = f.found

/-- What is in memory for the calls to come is what was obtained last. -/
def Ready (s : State V) : Prop := s.triggered = true → ∀ v ∈ s.response, s.latest = some v

def Available (s : State V) : Prop := s.Answered ∧ s.Kept ∧ s.Ready

/-- A fetch does not fail; where a later call falls back on the option, there is a value; and a
value from the option that is stored is the one obtained last. -/
def Careful (c : Codec V) (s : State V) : Step V → Prop
  | .call who input =>
    match s.calls who with
    | some (.fetching _ _) => input.body.isSome = true
    | some (.readOption v _) => s.triggered = true → s.latest = some v
    | some .failed => s.later who = true → (s.loadFromPersistentCache c).isSome = true
    | _ => True
  | _ => True

/-! ## Records -/

/-- The record of a URL was set after what a call that is fetching found of it. -/
def Stamped (s : State V) (uri : Text) (found : Option Nat) : Prop :=
  ∃ t, s.lastCalls uri = some t ∧ ∀ t' ∈ found, t' < t

/-- What is so whatever fails. -/
structure Tracked (s : State V) : Prop where
  later : ∀ who, s.later who = true → s.triggered = true
  latest : s.triggered = true → s.latest.isSome = true
  past : ∀ uri t, s.lastCalls uri = some t → t ≤ s.now
  stamped : ∀ who uri found, s.calls who = some (.fetching uri found) → s.Stamped uri found

theorem Tracked.start (cache : Option Text) (now : Nat) :
    (start cache now : State V).Tracked where
  later _ h := nomatch h
  latest h := nomatch h
  past _ _ h := nomatch h
  stamped _ _ _ h := nomatch h

theorem Tracked.setCalls (h : s.Tracked) (who : Caller) (stage : Option (CallStage V))
    (hstage : ∀ uri found, stage = some (.fetching uri found) → s.Stamped uri found) :
    { s with calls := Function.update s.calls who stage }.Tracked where
  later := h.later
  latest := h.latest
  past := h.past
  stamped other uri found hother := by
    dsimp only at hother
    by_cases hwho : other = who
    · subst hwho
      rw [Function.update_self] at hother
      exact hstage uri found hother
    · rw [Function.update_of_ne hwho] at hother
      exact h.stamped other uri found hother

theorem Tracked.setCall (h : s.Tracked) (who : Caller) {stage : CallStage V}
    (hstage : ∀ uri found, stage ≠ .fetching uri found) : (s.setCall who stage).Tracked :=
  h.setCalls who _ fun uri found heq => absurd (Option.some.inj heq) (hstage uri found)

theorem Tracked.answer (h : s.Tracked) (who : Caller) (result : Option V) :
    (s.answer who result).Tracked := by
  have hcalls := h.setCalls who none nofun
  exact ⟨hcalls.later, hcalls.latest, hcalls.past, hcalls.stamped⟩

theorem Tracked.obtain (h : s.Tracked) (v : V) : (s.obtain v).Tracked :=
  ⟨h.later, fun _ => rfl, h.past, h.stamped⟩

theorem Tracked.startBackgroundRefresh (h : s.Tracked) : s.startBackgroundRefresh.Tracked := by
  unfold State.startBackgroundRefresh
  split
  · exact h
  · exact ⟨h.later, h.latest, h.past, h.stamped⟩

/-- The record of a URL is set to the time it is. -/
theorem Tracked.stamp (h : s.Tracked) (uri : Text) :
    { s with lastCalls := Function.update s.lastCalls uri (some s.now) }.Tracked where
  later := h.later
  latest := h.latest
  past other t ht := by
    dsimp only at ht
    by_cases huri : other = uri
    · subst huri
      rw [Function.update_self] at ht
      exact (Option.some.inj ht).symm.le
    · rw [Function.update_of_ne huri] at ht
      exact h.past other t ht
  stamped who other found hwho := by
    obtain ⟨t, ht, hfound⟩ := h.stamped who other found hwho
    by_cases huri : other = uri
    · subst huri
      refine ⟨s.now, Function.update_self .., fun t' ht' => ?_⟩
      exact (hfound t' ht').trans_le (h.past other t ht)
    · exact ⟨t, (Function.update_of_ne huri ..).trans ht, hfound⟩

/-- A call that is not too early finds a record from before. -/
theorem lt_now_of_not_limited {uri : Text} (h : s.rateLimited uri = false) :
    ∀ t ∈ s.lastCalls uri, t < s.now := by
  intro t ht
  simp only [rateLimited, Option.mem_def.mp ht, decide_eq_false_iff_not] at h
  omega

theorem Tracked.callNext (h : s.Tracked) (who : Caller) (input : Input V) (stage : CallStage V) :
    (s.callNext c who input stage).Tracked := by
  unfold State.callNext
  cases stage with
  | begun =>
    have hflag : { s with forceRefresh := false }.Tracked :=
      ⟨h.later, h.latest, h.past, h.stamped⟩
    exact hflag.setCall who nofun
  | swapped force =>
    dsimp only
    split
    · exact h.answer who _
    · exact h.setCall who nofun
  | checked force =>
    dsimp only
    split
    · exact h.answer who _
    · exact h.setCall who nofun
  | unanswered force =>
    dsimp only
    split
    · exact h.setCall who nofun
    · exact h.setCall who nofun
  | readFile v =>
    have hlocal : { s.obtain v with fromLocal := true }.Tracked :=
      ⟨h.later, fun _ => rfl, h.past, h.stamped⟩
    exact hlocal.answer who _
  | noFile force =>
    dsimp only
    split
    · exact h.setCall who nofun
    · exact h.setCall who nofun
  | readOption v start =>
    have hstored : { s with response := some v }.Tracked :=
      ⟨h.later, h.latest, h.past, h.stamped⟩
    dsimp only
    split
    · exact hstored.startBackgroundRefresh.answer who _
    · exact hstored.answer who _
  | limit =>
    cases hlimited : s.rateLimited input.uri with
    | true =>
      dsimp only
      rw [if_pos rfl]
      exact h.setCall who nofun
    | false =>
      dsimp only
      rw [if_neg Bool.false_ne_true]
      refine (h.stamp input.uri).setCalls who _ fun uri found heq => ?_
      obtain ⟨rfl, rfl⟩ := CallStage.fetching.inj (Option.some.inj heq)
      exact ⟨s.now, Function.update_self .., lt_now_of_not_limited hlimited⟩
  | fetching uri found =>
    cases input.body with
    | some v => exact h.setCall who nofun
    | none =>
      have hfailed :
          { s with failures := s.failures ++ [Failure.mk found (s.lastCalls uri)] }.Tracked :=
        ⟨h.later, h.latest, h.past, h.stamped⟩
      exact hfailed.setCall who nofun
  | fetched v =>
    have hstored : { s.obtain v with
        writers := s.writers ++ [v]
        triggered := s.triggered || c.isObject v }.Tracked :=
      ⟨fun who hwho => by simp [h.later who hwho], fun _ => rfl, h.past, h.stamped⟩
    exact hstored.startBackgroundRefresh.answer who _
  | failed =>
    dsimp only
    split
    · exact h.setCall who nofun
    · exact h.answer who _

theorem Tracked.forcedNext (h : s.Tracked) (id : Nat) (input : Input V) (stage : ForcedStage V) :
    (s.forcedNext id input stage).Tracked := by
  unfold State.forcedNext
  cases stage with
  | begun =>
    dsimp only
    split
    · split
      · exact ⟨h.later, h.latest, h.past, h.stamped⟩
      · exact ⟨h.later, h.latest, h.past, h.stamped⟩
    · exact ⟨h.later, h.latest, h.past, h.stamped⟩
  | fetch =>
    cases input.body with
    | some v => exact ⟨h.later, h.latest, h.past, h.stamped⟩
    | none => exact ⟨h.later, h.latest, h.past, h.stamped⟩
  | store uri v => exact ⟨h.later, fun _ => rfl, h.past, h.stamped⟩
  | stamp uri v =>
    have hstamp := h.stamp uri
    exact ⟨hstamp.later, hstamp.latest, hstamp.past, hstamp.stamped⟩

/-! ### What the other steps do -/

theorem next_callApi {id : Nat} (hs : s.next c (.callApi id) = some s') :
    s' = { s.setCall (.api id) .begun with
      later := Function.update s.later (.api id) s.triggered } := by
  simp only [State.next] at hs
  split at hs
  next => cases hs
  next => exact (Option.some.inj hs).symm

theorem next_eraseFlag (hs : s.next c .eraseFlag = some s') :
    s' = { s with forceRefresh := true, erasing := s.erasing - 1 } := by
  simp only [State.next] at hs
  split at hs
  next => exact (Option.some.inj hs).symm
  next => cases hs

theorem next_forceRefresh {id : Nat} (hs : s.next c (.forceRefresh id) = some s') :
    s' = s ∨ s' = s.setForced id (some .begun) := by
  simp only [State.next] at hs
  split at hs
  next => cases hs
  next =>
    split at hs
    next => exact .inl (Option.some.inj hs).symm
    next => exact .inr (Option.some.inj hs).symm

/-- The refresh erases what is in memory, begins its call, or wakes up. -/
theorem next_refresh (hs : s.next c .refresh = some s') :
    s' = { s with response := none, refresh := .flag } ∨
      s' = { s with
        forceRefresh := true
        refresh := .calling
        calls := Function.update s.calls .refresh (some .begun) } ∨
      s' = { s with refresh := .erase } := by
  simp only [State.next, refreshNext] at hs
  split at hs
  next => exact .inl (Option.some.inj hs).symm
  next => exact .inr (.inl (Option.some.inj hs).symm)
  next =>
    split at hs
    next => exact .inr (.inr (Option.some.inj hs).symm)
    next => cases hs
  next => cases hs
  next => cases hs

/-- A write changes the option at most. -/
theorem next_write {i : Nat} {ok : Bool} (hs : s.next c (.write i ok) = some s') :
    ∃ cache, s' = { s with writers := s.writers.eraseIdx i, cache := cache } := by
  obtain ⟨v, -, rfl⟩ := Option.map_eq_some_iff.mp hs
  unfold writeCache
  split
  · exact ⟨_, rfl⟩
  · exact ⟨_, rfl⟩

theorem Tracked.next (h : s.Tracked) {a : Step V} (hs : s.next c a = some s') : s'.Tracked := by
  cases a with
  | tick seconds =>
    obtain rfl := Option.some.inj hs
    exact ⟨h.later, h.latest, fun uri t ht => (h.past uri t ht).trans (Nat.le_add_right _ _),
      h.stamped⟩
  | callApi id =>
    obtain rfl := next_callApi hs
    have hbegun : (s.setCall (.api id) .begun).Tracked := h.setCall _ nofun
    refine ⟨fun who hwho => ?_, hbegun.latest, hbegun.past, hbegun.stamped⟩
    dsimp only at hwho
    by_cases heq : who = .api id
    · subst heq
      rwa [Function.update_self] at hwho
    · rw [Function.update_of_ne heq] at hwho
      exact h.later who hwho
  | call who input =>
    obtain ⟨stage, -, rfl⟩ := Option.map_eq_some_iff.mp hs
    exact h.callNext who input stage
  | eraseApi =>
    obtain rfl := Option.some.inj hs
    exact ⟨h.later, h.latest, h.past, h.stamped⟩
  | eraseFlag =>
    obtain rfl := next_eraseFlag hs
    exact ⟨h.later, h.latest, h.past, h.stamped⟩
  | forceRefresh id =>
    obtain rfl | rfl := next_forceRefresh hs
    · exact h
    · exact ⟨h.later, h.latest, h.past, h.stamped⟩
  | forced id input =>
    obtain ⟨stage, -, rfl⟩ := Option.map_eq_some_iff.mp hs
    exact h.forcedNext id input stage
  | refresh =>
    obtain rfl | rfl | rfl := next_refresh hs
    · exact ⟨h.later, h.latest, h.past, h.stamped⟩
    · have hcalls := h.setCalls .refresh (some .begun) nofun
      exact ⟨hcalls.later, hcalls.latest, hcalls.past, hcalls.stamped⟩
    · exact ⟨h.later, h.latest, h.past, h.stamped⟩
  | write i ok =>
    obtain ⟨cache, rfl⟩ := next_write hs
    exact ⟨h.later, h.latest, h.past, h.stamped⟩

/-! ## A step -/

theorem available_start (cache : Option Text) (now : Nat) :
    (OnceApi.start cache now : State V).Available :=
  ⟨fun _ h => (nomatch h), fun _ h => (nomatch h), fun h => nomatch h⟩

theorem available_startBackgroundRefresh : s.startBackgroundRefresh.Available ↔ s.Available := by
  unfold State.startBackgroundRefresh
  split <;> exact Iff.rfl

@[simp] theorem startBackgroundRefresh_later :
    s.startBackgroundRefresh.later = s.later := by
  unfold State.startBackgroundRefresh
  split <;> rfl

@[simp] theorem startBackgroundRefresh_latest :
    s.startBackgroundRefresh.latest = s.latest := by
  unfold State.startBackgroundRefresh
  split <;> rfl

/-- A call that returns. -/
theorem available_answer {who : Caller} {result : Option V} : (s.answer who result).Available ↔
    s.Available ∧ (s.later who = true → result.isSome = true ∧ result = s.latest) := by
  unfold Available Answered State.answer
  simp only [List.forall_mem_append, List.forall_mem_singleton]
  exact ⟨fun ⟨⟨hanswered, hlast⟩, hrest⟩ => ⟨⟨hanswered, hrest⟩, hlast⟩,
    fun ⟨⟨hanswered, hrest⟩, hlast⟩ => ⟨⟨hanswered, hlast⟩, hrest⟩⟩

/-- A call that returns what is in memory. -/
theorem Available.answer_response (hg : s.Available) (h : s.Tracked) {v : V}
    (hv : s.response = some v) (who : Caller) : (s.answer who (some v)).Available :=
  available_answer.mpr ⟨hg, fun hlater => ⟨rfl, (hg.2.2 (h.later who hlater) v hv).symm⟩⟩

/-- A value that is obtained is the last one. -/
theorem Available.obtain (hg : s.Available) (v : V) : (s.obtain v).Available :=
  ⟨hg.1, hg.2.1, fun _ _ hx => hx⟩

theorem available_readOption (hg : s.Available) (h : s.Tracked) {who : Caller} {input : Input V}
    {v : V} {start : Bool} : (s.callNext c who input (.readOption v start)).Available ↔
      (s.triggered = true → s.latest = some v) := by
  have hstored : { s with response := some v }.Available ↔
      (s.triggered = true → s.latest = some v) :=
    ⟨fun hnew ht => hnew.2.2 ht v rfl,
      fun hlatest => ⟨hg.1, hg.2.1, fun ht _ hx => hx ▸ hlatest ht⟩⟩
  have hanswer : ({ s with response := some v }.answer who (some v)).Available ↔
      (s.triggered = true → s.latest = some v) := by
    rw [available_answer, hstored]
    exact ⟨And.left, fun hlatest =>
      ⟨hlatest, fun hlater => ⟨rfl, (hlatest (h.later who hlater)).symm⟩⟩⟩
  cases start with
  | false => exact hanswer
  | true =>
    simp only [State.callNext, if_true]
    rw [available_answer] at hanswer ⊢
    rw [available_startBackgroundRefresh, startBackgroundRefresh_later,
      startBackgroundRefresh_latest]
    exact hanswer

/-- A fetch that fails leaves the record as the call has set it. -/
theorem not_available_fetching (h : s.Tracked) {who : Caller} {uri : Text} {found : Option Nat}
    (hstage : s.calls who = some (.fetching uri found)) {input : Input V}
    (hbody : input.body = none) : ¬ (s.callNext c who input (.fetching uri found)).Available := by
  intro hgood
  obtain ⟨t, ht, hfound⟩ := h.stamped who uri found hstage
  simp only [State.callNext, hbody] at hgood
  have hkept := hgood.2.1 ⟨found, s.lastCalls uri⟩ (List.mem_append_right _ List.mem_cons_self)
  exact Nat.lt_irrefl t (hfound t (hkept.symm.trans ht))

/-- **What a step of a call takes.** -/
theorem available_callNext_iff (hg : s.Available) (h : s.Tracked) {who : Caller}
    {stage : CallStage V} (hstage : s.calls who = some stage) (input : Input V) :
    (s.callNext c who input stage).Available ↔ Careful c s (.call who input) := by
  unfold Careful
  dsimp only
  rw [hstage]
  cases stage with
  | begun => exact iff_of_true hg trivial
  | swapped force =>
    refine iff_of_true ?_ trivial
    unfold State.callNext
    dsimp only
    split
    next v hv =>
      split at hv
      next => exact hg.answer_response h hv who
      next => cases hv
    next => exact hg
  | checked force =>
    refine iff_of_true ?_ trivial
    unfold State.callNext
    dsimp only
    split
    next v hv =>
      split at hv
      next => cases hv
      next => exact hg.answer_response h hv who
    next => exact hg
  | unanswered force =>
    refine iff_of_true ?_ trivial
    unfold State.callNext
    dsimp only
    split <;> exact hg
  | readFile v =>
    exact iff_of_true (available_answer.mpr ⟨hg.obtain v, fun _ => ⟨rfl, rfl⟩⟩) trivial
  | noFile force =>
    refine iff_of_true ?_ trivial
    unfold State.callNext
    dsimp only
    split <;> exact hg
  | readOption v start => exact available_readOption hg h
  | limit =>
    refine iff_of_true ?_ trivial
    unfold State.callNext
    dsimp only
    split <;> exact hg
  | fetching uri found =>
    cases hbody : input.body with
    | some v =>
      refine iff_of_true ?_ rfl
      simp only [State.callNext, hbody]
      exact hg
    | none => exact iff_of_false (not_available_fetching h hstage hbody) Bool.false_ne_true
  | fetched v =>
    refine iff_of_true ?_ trivial
    have hstored : { s.obtain v with
        writers := s.writers ++ [v]
        triggered := s.triggered || c.isObject v }.Available := ⟨hg.1, hg.2.1, fun _ _ hx => hx⟩
    refine available_answer.mpr
      ⟨available_startBackgroundRefresh.mpr hstored, fun _ => ⟨rfl, ?_⟩⟩
    rw [startBackgroundRefresh_latest]
    rfl
  | failed =>
    unfold State.callNext
    cases hload : s.loadFromPersistentCache c with
    | some v => exact iff_of_true hg fun _ => rfl
    | none =>
      refine available_answer.trans ⟨fun hboth hlater => (hboth.2 hlater).1, fun hlater => ⟨hg, ?_⟩⟩
      intro hthis
      exact absurd (hlater hthis) Bool.false_ne_true

theorem Available.forcedNext (hg : s.Available) (id : Nat) (input : Input V)
    (stage : ForcedStage V) : (s.forcedNext id input stage).Available := by
  unfold State.forcedNext
  cases stage with
  | begun =>
    dsimp only
    split
    · split <;> exact hg
    · exact hg
  | fetch => cases input.body <;> exact hg
  | store uri v => exact hg.obtain v
  | stamp uri v => exact hg

/-- Erasing what is in memory leaves nothing that would be wrong. -/
theorem Available.erase (hg : s.Available) : { s with response := none }.Available :=
  ⟨hg.1, hg.2.1, fun _ _ hx => nomatch hx⟩

theorem available_next_iff (hg : s.Available) (h : s.Tracked) {a : Step V}
    (hs : s.next c a = some s') : s'.Available ↔ Careful c s a := by
  cases a with
  | call who input =>
    obtain ⟨stage, hstage, rfl⟩ := Option.map_eq_some_iff.mp hs
    exact available_callNext_iff hg h hstage input
  | tick seconds =>
    obtain rfl := Option.some.inj hs
    exact iff_of_true hg trivial
  | callApi id =>
    obtain rfl := next_callApi hs
    exact iff_of_true hg trivial
  | eraseApi =>
    obtain rfl := Option.some.inj hs
    exact iff_of_true hg.erase trivial
  | eraseFlag =>
    obtain rfl := next_eraseFlag hs
    exact iff_of_true hg trivial
  | forceRefresh id =>
    obtain rfl | rfl := next_forceRefresh hs
    · exact iff_of_true hg trivial
    · exact iff_of_true hg trivial
  | forced id input =>
    obtain ⟨stage, -, rfl⟩ := Option.map_eq_some_iff.mp hs
    exact iff_of_true (hg.forcedNext id input stage) trivial
  | refresh =>
    obtain rfl | rfl | rfl := next_refresh hs
    · exact iff_of_true hg.erase trivial
    · exact iff_of_true hg trivial
    · exact iff_of_true hg trivial
  | write i ok =>
    obtain ⟨cache, rfl⟩ := next_write hs
    exact iff_of_true hg trivial

/-! ## Runs -/

/-- **What it takes for the configuration to be available**, in every interleaving of the calls, the
erasing, the refresh and the forced refreshes, whatever the network answers and whatever of the
writes succeeds: no fetch of a call fails, a later call that falls back on the option finds a value,
and what a call stores of the option is the value that was obtained last. -/
theorem always_available_iff (c : Codec V) {tr : List (State V × Step V)} {s : State V}
    (h : (system c).Trace tr s) :
    System.Always Available tr s ↔ ∀ x ∈ tr, Careful c x.1 x.2 := by
  refine h.always_iff (I := fun s => s.Tracked ∧ s.Available) ?_ And.right ?_ ?_
  · rintro s ⟨cache, now, rfl⟩
    exact ⟨.start cache now, available_start cache now⟩
  · rintro s a s' ⟨htracked, hgood⟩ hs hcareful
    exact ⟨htracked.next hs, (available_next_iff hgood htracked hs).mpr hcareful⟩
  · rintro s a s' ⟨htracked, hgood⟩ hs hgood'
    exact (available_next_iff hgood htracked hs).mp hgood'

end State

/-! ## The steps of a call -/

def isObject : Json → Bool
  | .obj _ => true
  | _ => false

/-- The values of `serde_json`, as base 64 of UTF-8. -/
def jsonCodec : Codec Json where
  isObject := isObject
  encode v := Base64.encodeOriginal (Text.utf8 v.write)
  decode t := (Base64.decodeOriginal t).bind fun bytes =>
    let text := Text.fromUtf8Lossy bytes
    if Text.utf8 text = bytes then JsonText.parse text else none

/-- So many steps of a call, where the network answers this. -/
def callSteps (who : Caller) (body : Option Json) (n : Nat) : List (Step Json) :=
  List.replicate n (.call who { body })

/-- A first call, which returns what it has fetched. -/
def firstCall : List (Step Json) := .callApi 0 :: callSteps (.api 0) (some (.obj [])) 8

/-- The refresh erases the value and makes its call, which is too early. -/
def refreshCall (n : Nat) : List (Step Json) :=
  [.refresh, .refresh] ++ callSteps .refresh none n

def laterCall (n : Nat) : List (Step Json) := .callApi 1 :: callSteps (.api 1) none n

def isEmptyObject : Json → Bool
  | .obj [] => true
  | _ => false

theorem eq_of_isEmptyObject {v : Json} (h : isEmptyObject v = true) : v = .obj [] := by
  unfold isEmptyObject at h
  split at h
  · rfl
  · cases h

/-- Steps that take care, where all values are empty objects. -/
def carefulNext (s : State Json) (a : Step Json) : Option (State Json) :=
  match a with
  | .call who input =>
    match s.calls who with
    | some (.fetching _ _) => if input.body.isSome then s.next jsonCodec a else none
    | some (.readOption v _) =>
      if isEmptyObject v && s.latest.any isEmptyObject then s.next jsonCodec a else none
    | some .failed =>
      if (s.loadFromPersistentCache jsonCodec).isSome then s.next jsonCodec a else none
    | _ => s.next jsonCodec a
  | _ => s.next jsonCodec a

theorem careful_of_carefulNext {s s' : State Json} {a : Step Json}
    (h : carefulNext s a = some s') : s.next jsonCodec a = some s' ∧ s.Careful jsonCodec a := by
  unfold carefulNext at h
  unfold State.Careful
  cases a with
  | call who input =>
    dsimp only at h ⊢
    cases hstage : s.calls who with
    | none =>
      rw [hstage] at h
      exact ⟨h, trivial⟩
    | some stage =>
      rw [hstage] at h
      cases stage with
      | fetching uri found =>
        obtain ⟨hbody, hs⟩ := Option.ite_none_right_eq_some.mp h
        exact ⟨hs, hbody⟩
      | readOption v start =>
        obtain ⟨hempty, hs⟩ := Option.ite_none_right_eq_some.mp h
        obtain ⟨hv, hlatest⟩ := Bool.and_eq_true_iff.mp hempty
        refine ⟨hs, fun _ => ?_⟩
        cases hlast : s.latest with
        | none =>
          rw [hlast] at hlatest
          cases hlatest
        | some w =>
          rw [hlast] at hlatest
          rw [eq_of_isEmptyObject hv, eq_of_isEmptyObject hlatest]
      | failed =>
        obtain ⟨hload, hs⟩ := Option.ite_none_right_eq_some.mp h
        exact ⟨hs, fun _ => hload⟩
      | _ => exact ⟨h, trivial⟩
  | _ => exact ⟨h, trivial⟩

/-- The value is written before the refresh erases it. -/
def writtenRun : List (Step Json) :=
  firstCall ++ [Step.write 0 true] ++ refreshCall 8 ++ laterCall 3

/-- The write fails. -/
def lostRun : List (Step Json) :=
  firstCall ++ [Step.write 0 false] ++ refreshCall 7 ++ laterCall 7

/-- The call of the refresh has the value from the option, and a later call has it from memory. -/
theorem always_available_iff_written : ∃ tr s, (system jsonCodec).Trace tr s ∧
    (s.answers.map fun a => (a.later, a.result.isSome)) =
      [(false, true), (false, true), (true, true)] ∧
    System.Always State.Available tr s := by
  have hend : (writtenRun.foldlM carefulNext (start none 0)).map (fun s =>
      s.answers.map fun a => (a.later, a.result.isSome)) =
        some [(false, true), (false, true), (true, true)] := by decide +kernel
  obtain ⟨s, hs, hanswers⟩ := Option.map_eq_some_iff.mp hend
  have hstart : ((system jsonCodec).restrict (State.Careful jsonCodec)).Trace [] (start none 0) :=
    .start ⟨none, 0, rfl⟩
  obtain ⟨tr, hrestricted, -⟩ :=
    hstart.of_foldlM (fun h => (careful_of_carefulNext h).symm) hs
  obtain ⟨htr, hcareful⟩ := hrestricted.of_restrict
  exact ⟨tr, s, htr, hanswers, (State.always_available_iff jsonCodec htr).mpr hcareful⟩

/-- **The value is lost when its write fails**: the call of the refresh is too early to fetch
another, and a call from after that returns an error. And a fetch that fails leaves the record of
its time. -/
theorem availability_lost :
    (¬ ∀ s, (system jsonCodec).Reachable s → s.Answered) ∧
      ¬ ∀ s, (system jsonCodec).Reachable s → s.Kept := by
  constructor
  · intro hall
    have hend : (lostRun.foldlM (State.next jsonCodec) (start none 0)).map (fun s =>
        s.answers.any fun a => a.later && a.result.isNone) = some true := by decide +kernel
    obtain ⟨s, hs, hlost⟩ := Option.map_eq_some_iff.mp hend
    have hstart : (system jsonCodec).Run [] (start none 0) := .start ⟨none, 0, rfl⟩
    have hreach : (system jsonCodec).Reachable s := ⟨_, hstart.of_foldlM id hs⟩
    obtain ⟨a, ha, hboth⟩ := List.any_eq_true.mp hlost
    obtain ⟨hlater, hnone⟩ := Bool.and_eq_true_iff.mp hboth
    rw [Option.isNone_iff_eq_none] at hnone
    have hsome := (hall s hreach a ha hlater).1
    rw [hnone] at hsome
    cases hsome
  · intro hall
    have hend : ((Step.callApi 0 :: callSteps (.api 0) none 7).foldlM (State.next jsonCodec)
        (start none 0)).map (fun s => s.failures.any fun f => f.left != f.found) = some true := by
      decide +kernel
    obtain ⟨s, hs, hleft⟩ := Option.map_eq_some_iff.mp hend
    have hstart : (system jsonCodec).Run [] (start none 0) := .start ⟨none, 0, rfl⟩
    have hreach : (system jsonCodec).Reachable s := ⟨_, hstart.of_foldlM id hs⟩
    obtain ⟨f, hf, hne⟩ := List.any_eq_true.mp hleft
    exact absurd (hall s hreach f hf) (bne_iff_ne.mp hne)

end OnceApi

end HopToDesk.Config
