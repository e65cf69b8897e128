import HopToDesk.Config.Options

/-!
# Which updates survive

A call that sets the options writes every key, the others with what it has read of them. What
another call has written in between is lost, unless it wrote what was there already. Where every
call finds the written keys as it has read them, each changes its own key and no other: a key that
is read and written back comes out as it is stored (`purifyOptions_getOptions`), whether it holds a
value, was removed, or holds one that cannot be saved.
-/

set_option autoImplicit false

namespace HopToDesk.Config

open Kit

namespace Settings

variable (settings : Settings)

theorem isOptionCanSave_iff (k v : String) :
    settings.isOptionCanSave k v = true ↔
      settings.overwrite k = none ∧ settings.defaults k ≠ some v := by
  unfold isOptionCanSave
  cases settings.overwrite k <;> simp

/-- What was written under a key is written back from what is read there. -/
theorem purifyOptions_getOptions {options other : Options} {key value : String}
    (hstored : options key = settings.savedAs key value)
    (hread : other key = settings.getOptions options key) :
    settings.purifyOptions other key = settings.savedAs key value := by
  simp only [purifyOptions, hread, getOptions, Options.extend, ← hstored]
  have hsaved : ∀ v, options key = some v → settings.isOptionCanSave key v = true := by
    intro v hv
    rw [hstored, savedAs] at hv
    split at hv
    · cases hv
    · obtain ⟨hval, hcan⟩ := Option.filter_eq_some_iff.mp hv
      exact hcan
  cases hover : settings.overwrite key with
  | some v =>
    -- an overwritten key is read as overwritten, and not stored
    have hnone : options key = none := by
      cases hopt : options key with
      | none => rfl
      | some v' =>
        have hcan := (settings.isOptionCanSave_iff key v').mp (hsaved v' hopt)
        rw [hover] at hcan
        cases hcan.1
    have hcannot : settings.isOptionCanSave key v = false := by
      simp only [isOptionCanSave, hover, Option.isSome_some, Bool.true_or, if_true]
    rw [hnone, Option.some_or, Option.filter_some, hcannot]
    rfl
  | none =>
    rw [Option.none_or]
    cases hopt : options key with
    | some v => rw [Option.some_or, Option.filter_some, hsaved v hopt, if_pos rfl]
    | none =>
      -- a key that is not stored is read as its default, which is not stored either
      rw [Option.none_or]
      cases hdef : settings.defaults key with
      | none => rfl
      | some v =>
        have hcannot : settings.isOptionCanSave key v = false := by
          simp only [isOptionCanSave, hover, hdef, Option.isSome_none, beq_self_eq_true,
            Bool.or_true, if_true]
        rw [Option.filter_some, hcannot]
        rfl

/-- The key that a call is about is stored as its value is saved. -/
theorem setOptions_changeOption_self (options : Options) (key value : String) :
    settings.setOptions (changeOption options key value) key = settings.savedAs key value := by
  unfold setOptions purifyOptions changeOption savedAs
  by_cases hempty : value = ""
  · rw [if_pos hempty, if_pos hempty, Options.remove, Function.update_self]
    rfl
  · rw [if_neg hempty, if_neg hempty, Options.insert, Function.update_self]

end Settings

theorem changeOption_of_ne (options : Options) {k key : String} (value : String) (h : k ≠ key) :
    changeOption options key value k = options k := by
  unfold changeOption
  split
  · exact Function.update_of_ne h _ _
  · exact Function.update_of_ne h _ _

namespace Processes

variable {settings : Settings} {clients : Nat → Settings} {s s' : Processes}

/-- A step either leaves what the server has and what was written, or is a call that reaches the
server with the map it has changed. -/
theorem next_cases {step : OptionStep} (h : s.next settings clients step = some s') :
    s'.server = s.server ∧ s'.written = s.written ∨
      ∃ call process key value options, step = .setOptions call ∧
        s.calls call = some (.setting process key value options) ∧
        s'.server = settings.setOptions (changeOption options key value) ∧
        s'.written = (key, value) :: s.written := by
  cases step with
  | start call process key value =>
    cases hcall : s.calls call <;> simp only [next, hcall] at h <;> cases h
    exact .inl ⟨rfl, rfl⟩
  | getOptions call =>
    rcases hcall : s.calls call with _ | ⟨process, key, value⟩ | ⟨process, key, value, options⟩ <;>
      simp only [next, hcall, handleOptions] at h <;> cases h
    exact .inl ⟨rfl, rfl⟩
  | getOptionsFails call =>
    rcases hcall : s.calls call with _ | ⟨process, key, value⟩ | ⟨process, key, value, options⟩ <;>
      simp only [next, hcall] at h <;> cases h
    exact .inl ⟨rfl, rfl⟩
  | setOptions call =>
    rcases hcall : s.calls call with _ | ⟨process, key, value⟩ | ⟨process, key, value, options⟩ <;>
      simp only [next, hcall] at h <;> cases h
    exact .inr ⟨call, process, key, value, options, rfl, hcall, rfl, rfl⟩
  | setOptionsFails call connected =>
    rcases hcall : s.calls call with _ | ⟨process, key, value⟩ | ⟨process, key, value, options⟩ <;>
      simp only [next, hcall] at h <;> cases h
    exact .inl ⟨rfl, rfl⟩

theorem lastWritten_cons {key value : String} (hs : s'.written = (key, value) :: s.written)
    (k : String) : s'.lastWritten k = if k = key then some value else s.lastWritten k := by
  unfold lastWritten
  rw [hs, List.find?_cons]
  by_cases hk : k = key
  · simp only [hk, decide_true, Option.map_some, if_true]
  · simp only [Ne.symm hk, hk, decide_false, if_false]

/-- One step of calls that are current keeps every written key. -/
theorem Holds.next {step : OptionStep} (hs : s.Holds settings)
    (hcurrent : s.Current settings step) (h : s.next settings clients step = some s') :
    s'.Holds settings := by
  rcases next_cases h with ⟨hserver, hwritten⟩ | hset
  · intro k v hlast
    rw [hserver]
    have hbefore : s.lastWritten k = some v := by
      simpa only [lastWritten, hwritten] using hlast
    exact hs k v hbefore
  · obtain ⟨call, process, key, value, options, rfl, hcall, hserver, hwritten⟩ := hset
    intro k v hlast
    rw [lastWritten_cons hwritten] at hlast
    rw [hserver]
    by_cases hk : k = key
    · rw [if_pos hk] at hlast
      cases hlast
      rw [hk]
      exact settings.setOptions_changeOption_self options key value
    · rw [if_neg hk] at hlast
      have hread := hcurrent process key value options hcall k hk (by rw [hlast]; rfl)
      rw [← changeOption_of_ne options value hk] at hread
      exact settings.purifyOptions_getOptions (hs k v hlast) hread

/-- **No update is lost while every call sets a map that is current.** -/
theorem holds_of_current (settings : Settings) (clients : Nat → Settings) {steps : List OptionStep}
    {s : Processes} (h : ((system settings clients).restrict (Current settings)).Run steps s) :
    s.Completed → s.Holds settings := by
  intro _
  refine h.invariant (I := Holds settings) ?_ ?_
  · intro s hs
    obtain ⟨server, copies, rfl⟩ := hs
    intro key value hlast
    cases hlast
  · intro s step s' hs hstep
    exact hs.next hstep.1 hstep.2

/-! ## Two keys at once -/

/-- No defaults, and nothing overwritten. -/
def bare : Settings := ⟨fun _ => none, fun _ => none⟩

/-- Two clients write a key each, one after the other. -/
theorem holds_of_current_turns :
    ∃ s, ((system bare fun _ => bare).restrict (Current bare)).Run
        [.start 0 0 "a" "1", .getOptions 0, .setOptions 0,
          .start 1 1 "b" "2", .getOptions 1, .setOptions 1] s ∧
      s.lastWritten "a" = some "1" ∧ s.Holds bare := by
  have hstart : ((system bare fun _ => bare).restrict (Current bare)).Run []
      (start (fun _ => none) fun _ _ => none) := .start ⟨_, _, rfl⟩
  have hread := (hstart.stepping_snoc (.start 0 0 "a" "1") trivial rfl).stepping_snoc
    (.getOptions 0) trivial rfl
  have hfirst := hread.stepping_snoc (.setOptions 0) (by
    intro process key value options hcall k hk hlast
    cases hlast) rfl
  have hagain := (hfirst.stepping_snoc (.start 1 1 "b" "2") trivial rfl).stepping_snoc
    (.getOptions 1) trivial rfl
  have hsecond := hagain.stepping_snoc (.setOptions 1) (by
    intro process key value options hcall k hk hlast
    cases hcall
    rfl) rfl
  refine ⟨_, hsecond, rfl, holds_of_current bare _ hsecond ⟨?_, rfl⟩⟩
  intro call
  rcases call with _ | _ | call <;> rfl

/-- Two clients read the options before either has written: the second writes the first one's key
back as it was. -/
theorem not_holds : ¬ ∀ (settings : Settings) (clients : Nat → Settings) (s : Processes),
    ((system settings clients).restrict DifferentKeys).Reachable s → s.Completed →
      s.Holds settings := by
  intro h
  have hstart : ((system bare fun _ => bare).restrict DifferentKeys).Run []
      (start (fun _ => none) fun _ _ => none) := .start ⟨_, _, rfl⟩
  have hfirst := (hstart.stepping_snoc (.start 0 0 "a" "1") (by
    intro call c hcall
    cases hcall) rfl).stepping_snoc (.getOptions 0) trivial rfl
  have hboth := (hfirst.stepping_snoc (.start 1 1 "b" "2") (by
    intro call c hcall
    rcases call with _ | call <;> cases hcall
    decide) rfl).stepping_snoc (.getOptions 1) trivial rfl
  have hset := (hboth.stepping_snoc (.setOptions 0) trivial rfl).stepping_snoc
    (.setOptions 1) trivial rfl
  refine absurd (h bare _ _ ⟨_, hset⟩ ⟨?_, rfl⟩ "a" "1" rfl) (by decide)
  intro call
  rcases call with _ | _ | call <;> rfl

end Processes

end HopToDesk.Config

/-!
## Reading what was written

What is written under a key is either stored or removed, and the defaults fill in. Two writes leave
something else: a value that is the default is not stored, but what is stored already stays
(`read_setOption_iff`), and an empty value that is written with the other options is stored, and
hides the default (`read_setOptions_iff`).
-/

namespace HopToDesk.Config

open Kit

namespace Settings

variable (settings : Settings)

theorem getOption_of_not_overwritten {options : Options} {k : String}
    (h : settings.overwrite k = none) :
    settings.getOption options k = ((options k).or (settings.defaults k)).getD "" := by
  rw [getOption, getOr, h, Option.none_or]

/-- A key that is not overwritten can be saved but as its default. -/
theorem isOptionCanSave_of_not_overwritten {k : String} (h : settings.overwrite k = none)
    (v : String) : settings.isOptionCanSave k v = true ↔ settings.defaults k ≠ some v := by
  rw [isOptionCanSave_iff, h]
  exact and_iff_right rfl

/-- A default leaves what is stored. -/
theorem setOption_default {options : Options} {k v : String}
    (hdefault : settings.defaults k = some v) : settings.setOption options k v = options := by
  have hcannot : settings.isOptionCanSave k v = false := by
    rw [Bool.eq_false_iff]
    exact fun hcan => ((settings.isOptionCanSave_iff k v).mp hcan).2 hdefault
  unfold setOption
  rw [hcannot]
  rfl

/-- Anything else is stored under its key, or removes it. -/
theorem setOption_of_canSave {options : Options} {k v : String}
    (hcan : settings.isOptionCanSave k v = true) :
    settings.setOption options k v =
      Function.update options k (if v = "" then none else some v) := by
  unfold setOption
  rw [hcan, Bool.not_true, if_neg Bool.false_ne_true]
  dsimp only
  by_cases hsame : (if v = "" then none else some v) = options k
  · rw [if_neg (not_not_intro hsame), hsame, Function.update_eq_self]
  · rw [if_pos hsame]
    by_cases hempty : v = ""
    · rw [if_pos hempty]
      rfl
    · rw [if_neg hempty]
      rfl

/-- The other keys keep what they have. -/
theorem setOption_of_ne {options : Options} {k k' : String} (v : String) (h : k' ≠ k) :
    settings.setOption options k v k' = options k' := by
  by_cases hcan : settings.isOptionCanSave k v = true
  · rw [settings.setOption_of_canSave hcan, Function.update_of_ne h]
  · unfold setOption
    rw [Bool.not_eq_true] at hcan
    rw [hcan]
    rfl

/-- What is read after one option was set, exactly where a default finds nothing else stored. -/
theorem read_setOption_iff {options : Options} {k : String} (v : String)
    (hover : settings.overwrite k = none) :
    settings.getOption (settings.setOption options k v) k = OptionsRun.read settings k v ↔
      (settings.defaults k = some v → options k = none ∨ options k = some v) := by
  rw [settings.getOption_of_not_overwritten hover]
  by_cases hdefault : settings.defaults k = some v
  · have hread : OptionsRun.read settings k v = v := by
      unfold OptionsRun.read
      split
      next hempty => rw [hdefault, Option.getD_some]
      next => rfl
    rw [settings.setOption_default hdefault, hread, hdefault]
    cases options k with
    | none => exact iff_of_true rfl fun _ => .inl rfl
    | some w =>
      simp only [Option.some_or, Option.getD_some, reduceCtorEq, Option.some.injEq, false_or,
        forall_const]
  · have hcan := (settings.isOptionCanSave_of_not_overwritten hover v).mpr hdefault
    refine iff_of_true ?_ fun h => absurd h hdefault
    rw [settings.setOption_of_canSave hcan, Function.update_self]
    unfold OptionsRun.read
    split
    next => rw [Option.none_or]
    next => rw [Option.some_or, Option.getD_some]

/-- What is read after all options were set, exactly where no empty value hides a default. -/
theorem read_setOptions_iff (v : Options) {k : String} (hover : settings.overwrite k = none) :
    settings.getOption (settings.setOptions v) k = OptionsRun.read settings k ((v k).getD "") ↔
      (v k = some "" → settings.defaults k = none ∨ settings.defaults k = some "") := by
  rw [settings.getOption_of_not_overwritten hover]
  unfold setOptions purifyOptions OptionsRun.read
  cases hv : v k with
  | none => exact iff_of_true rfl fun h => by cases h
  | some w =>
    by_cases hdefault : settings.defaults k = some w
    · have hcannot : settings.isOptionCanSave k w = false := by
        rw [Bool.eq_false_iff]
        exact fun hcan => ((settings.isOptionCanSave_iff k w).mp hcan).2 hdefault
      rw [Option.filter_some, hcannot, if_neg Bool.false_ne_true, Option.none_or, hdefault]
      simp only [Option.getD_some, ite_self, true_iff]
      exact fun hempty => .inr hempty
    · have hcan := (settings.isOptionCanSave_of_not_overwritten hover w).mpr hdefault
      rw [Option.filter_some, hcan, if_pos rfl, Option.some_or]
      simp only [Option.getD_some, Option.some.injEq]
      by_cases hempty : w = ""
      · subst hempty
        rw [if_pos rfl]
        cases hd : settings.defaults k with
        | none => exact iff_of_true rfl fun _ => .inl rfl
        | some d =>
          have hne : d ≠ "" := fun h => hdefault (by rw [hd, h])
          simp only [Option.getD_some, reduceCtorEq, Option.some.injEq, false_or, forall_const]
          exact eq_comm
      · rw [if_neg hempty]
        exact iff_of_true rfl fun h => absurd h hempty

end Settings

namespace OptionsRun

variable {settings : Settings}

/-- A write keeps what is read as it was written, exactly where it replaces what was there. -/
theorem readsWrites_next_iff {s : OptionsRun} (h : s.ReadsWrites settings) (w : OptionWrite) :
    (s.next settings w).ReadsWrites settings ↔ s.Replaces settings w := by
  cases w with
  | setOption k v =>
    constructor
    · intro hnext hover
      have hwritten : (s.next settings (.setOption k v)).written k = some v := by
        simp only [next, OptionWrite.value, if_true, Option.some_or]
      exact (settings.read_setOption_iff v hover).mp (hnext.reads k v hover hwritten)
    · intro hreplaces
      refine ⟨fun k' v' hover hwritten => ?_, fun _ => rfl⟩
      by_cases hk : k' = k
      · subst hk
        simp only [next, OptionWrite.value, if_true, Option.some_or, Option.some.injEq] at hwritten
        subst hwritten
        exact (settings.read_setOption_iff v hover).mpr (hreplaces hover)
      · simp only [next, OptionWrite.value, hk, if_false, Option.none_or] at hwritten
        have hkept : settings.getOption (s.next settings (.setOption k v)).options k' =
            settings.getOption s.options k' := by
          unfold Settings.getOption Settings.getOr
          have hsame : (s.next settings (.setOption k v)).options k' = s.options k' :=
            settings.setOption_of_ne v hk
          rw [hsame]
        rw [hkept]
        exact h.reads k' v' hover hwritten
  | setOptions v =>
    constructor
    · intro hnext k hover
      exact (settings.read_setOptions_iff v hover).mp (hnext.reads k _ hover rfl)
    · intro hreplaces
      refine ⟨fun k v' hover hwritten => ?_, fun _ => rfl⟩
      cases hwritten
      exact (settings.read_setOptions_iff v hover).mpr (hreplaces k hover)

/-- Along any writes every key is read as it was last written, exactly where every write replaces
what was there. -/
theorem readsWrites_iff_replaces {tr : List (OptionsRun × OptionWrite)} {s : OptionsRun}
    (h : (system settings).Trace tr s) :
    System.Always (ReadsWrites settings) tr s ↔ ∀ x ∈ tr, x.1.Replaces settings x.2 := by
  refine h.always_iff ?_ id ?_ ?_
  · intro s hs
    refine ⟨fun k v _ hwritten => ?_, fun _ => rfl⟩
    rw [hs] at hwritten
    cases hwritten
  · rintro s w _ hs rfl hreplaces
    exact (readsWrites_next_iff hs w).mpr hreplaces
  · rintro s w _ hs rfl hnext
    exact (readsWrites_next_iff hs w).mp hnext

/-- The settings of a process with one default. -/
def oneDefault : Settings := ⟨Function.update (fun _ => none) "lang" (some "en"), fun _ => none⟩

/-- Nothing stored, and nothing written. -/
def fresh : OptionsRun := ⟨fun _ => none, fun _ => none⟩

theorem trace_fresh (writes : List OptionWrite) :
    (system oneDefault).Trace (System.path (next oneDefault) fresh writes)
      (writes.foldl (next oneDefault) fresh) := by
  have hinit : (system oneDefault).init fresh := rfl
  exact System.Trace.of_foldl (fun _ _ => rfl) hinit writes

/-- One value, and another one in its place. -/
theorem readsWrites_twice :
    System.Always (ReadsWrites oneDefault)
      (System.path (next oneDefault) fresh [.setOption "lang" "de", .setOption "lang" "fr"])
      ((fresh.next oneDefault (.setOption "lang" "de")).next oneDefault
        (.setOption "lang" "fr")) := by
  refine (readsWrites_iff_replaces
    (trace_fresh [.setOption "lang" "de", .setOption "lang" "fr"])).mpr ?_
  intro x hx
  simp only [System.path, List.mem_cons, List.not_mem_nil, or_false] at hx
  rcases hx with rfl | rfl
  · exact fun _ hdefault => absurd hdefault (by decide)
  · exact fun _ hdefault => absurd hdefault (by decide)

/-- One value, and then the default: the first one is still read. -/
theorem not_readsWrites_default :
    ¬ ∀ (settings : Settings) (tr : List (OptionsRun × OptionWrite)) (s : OptionsRun),
      (system settings).Trace tr s → System.Always (ReadsWrites settings) tr s := by
  intro hall
  have htrace := trace_fresh [.setOption "lang" "de", .setOption "lang" "en"]
  have hreads := (hall oneDefault _ _ htrace).2.reads "lang" "en" rfl rfl
  revert hreads
  decide

end OptionsRun

end HopToDesk.Config

/-!
## What a change of the options does not restart

The snapshot, where it is checked, restarts the mediator and the audio service when what they
depend on has changed (`rendezvousMediator_mem_check`, `audioService_mem_check`). The server does
not check it, and its own comparison of the audio input is of one map with itself, so nothing is
restarted (`handleSetOptions_restarts`). What remains to say is when nothing had to be:
`value_unchanged_iff` reads it off what is stored, what comes, and the two maps around them.
-/

namespace HopToDesk.Config

namespace CheckIfRestart

variable (settings : Settings) (self : CheckIfRestart) (options : Options)
  (servers : Option (List String))

theorem rendezvousMediator_mem_check :
    .rendezvousMediator ∈ self.check settings options servers ↔
      self.stopService ≠ settings.getOption options "stop-service" ∨
        self.rendezvousServers ≠ servers := by
  unfold check
  split_ifs <;> simp_all

theorem audioService_mem_check :
    .audioService ∈ self.check settings options servers ↔
      self.audioInput ≠ settings.getOption options "audio-input" := by
  unfold check
  split_ifs <;> simp_all

end CheckIfRestart

namespace Settings

variable (settings : Settings)

/-- The effective value of a key once a map is set, which has it, or leaves it to the default. -/
theorem getOption_setOptions (v : Options) {k : String} (hover : settings.overwrite k = none) :
    settings.getOption (settings.setOptions v) k =
      ((v k).or (settings.defaults k)).getD "" := by
  rw [settings.getOption_of_not_overwritten hover]
  unfold setOptions purifyOptions
  cases hv : v k with
  | none => rfl
  | some w =>
    by_cases hdefault : settings.defaults k = some w
    · have hcannot : ¬ settings.isOptionCanSave k w = true := fun hcan =>
        (settings.isOptionCanSave_of_not_overwritten hover w).mp hcan hdefault
      rw [Option.filter_some, if_neg hcannot, Option.none_or, hdefault, Option.some_or]
    · have hcan := (settings.isOptionCanSave_of_not_overwritten hover w).mpr hdefault
      rw [Option.filter_some, if_pos hcan]

/-- The key is overwritten, or the map gives it what it had, by itself or from the default. -/
def KeepsValue (options v : Options) (k : String) : Prop :=
  (settings.overwrite k).isSome ∨
    ((v k).or (settings.defaults k)).getD "" = ((options k).or (settings.defaults k)).getD ""

theorem value_unchanged_iff (options v : Options) (k : String) :
    settings.getOption options k = settings.getOption (settings.setOptions v) k ↔
      settings.KeepsValue options v k := by
  unfold KeepsValue
  cases hover : settings.overwrite k with
  | some w =>
    refine iff_of_true ?_ (.inl rfl)
    simp only [getOption, getOr, hover, Option.some_or]
  | none =>
    rw [settings.getOption_of_not_overwritten hover, settings.getOption_setOptions v hover]
    simp only [Option.isSome_none, Bool.false_eq_true, false_or]
    exact eq_comm

end Settings

variable (settings : Settings) (servers : Option (List String)) (options v : Options)

theorem handleSetOptions_stored :
    (handleSetOptions settings servers options v).1 = settings.setOptions v := rfl

/-- The server restarts nothing. -/
theorem handleSetOptions_restarts : (handleSetOptions settings servers options v).2 = [] := by
  unfold handleSetOptions handleOptions
  dsimp only
  rw [if_neg (fun h => h rfl), List.append_nil]
  cases v "privacy-mode-impl-key" <;> rfl

/-- **What has changed was not restarted.** Whatever is stored, preset and sent, the mediator is
restarted if the effective `stop-service` changed, and the audio service if the effective
`audio-input` did, exactly when neither has changed: each is overwritten, or what is sent gives it
the value it had. -/
theorem handleSetOptions_restarts_iff :
    ((settings.getOption options "stop-service" ≠
          settings.getOption (handleSetOptions settings servers options v).1 "stop-service" →
        .rendezvousMediator ∈ (handleSetOptions settings servers options v).2) ∧
      (settings.getOption options "audio-input" ≠
          settings.getOption (handleSetOptions settings servers options v).1 "audio-input" →
        .audioService ∈ (handleSetOptions settings servers options v).2)) ↔
      settings.KeepsValue options v "stop-service" ∧
        settings.KeepsValue options v "audio-input" := by
  rw [handleSetOptions_stored, handleSetOptions_restarts]
  simp only [List.not_mem_nil, imp_false, not_not, settings.value_unchanged_iff]

/-- A client stops the service, and nothing is restarted. -/
theorem handleSetOptions_stop_service :
    ¬ ∀ (settings : Settings) (servers : Option (List String)) (options v : Options),
      (settings.getOption options "stop-service" ≠
          settings.getOption (handleSetOptions settings servers options v).1 "stop-service" →
        .rendezvousMediator ∈ (handleSetOptions settings servers options v).2) ∧
      (settings.getOption options "audio-input" ≠
          settings.getOption (handleSetOptions settings servers options v).1 "audio-input" →
        .audioService ∈ (handleSetOptions settings servers options v).2) := by
  intro h
  have hstop := (h ⟨fun _ => none, fun _ => none⟩ none (fun _ => none)
    (Options.insert (fun _ => none) "stop-service" "Y")).1
  exact absurd (hstop (by decide)) (by decide)

end HopToDesk.Config
