import HopToDesk.Host.AudioService
import HopToDesk.Kit.Log

/-!
# Restarts and formats of the audio service

A call changes the device first and then asks for a restart, so that as long as the flag is down a
stream of another device is one that somebody is about to ask a restart for (`Tracked`). What breaks
this is the end of a restart: it clears the flag, also for a call that found it set after the device
was read. Without that no restart is lost (`current_of_clearsInTime`).
-/

set_option autoImplicit false

namespace HopToDesk.Host

open Kit

/-- The thread is in `run_restart`. -/
def AudioTick.InRestart : AudioTick → Prop
  | .restart | .restartSnapshot | .restartDrop | .restartDevice | .restartOpen _ | .restartFormat
  | .restartClear => True
  | _ => False

/-- The device that was read and is yet to be opened. -/
def AudioTick.device? : AudioTick → Option String
  | .snapshotOpen device | .restartOpen device => some device
  | _ => none

namespace AudioService

variable {s s' : AudioService} {call : Nat} {config : Option (Nat × Nat)}

/-- A call that has changed the device is about to ask for a restart. -/
def Committed (s : AudioService) : Prop := ∃ call c, s.calls call = some c ∧ c.IsCommitted

/-- The stream, or the one to be opened, is of another device. -/
def Stale (s : AudioService) : Prop :=
  (∃ stream ∈ s.stream, stream.device ≠ s.getAudioInput) ∨
    ∃ device ∈ s.tick.device?, device ≠ s.getAudioInput

structure Tracked (s : AudioService) : Prop where
  restarting : s.tick.InRestart → s.restarting = true
  stale : s.restarting = false → s.Stale → s.Committed

theorem Tracked.start : Tracked start where
  restarting h := h.elim
  stale _ h := by
    obtain ⟨stream, hstream, -⟩ | ⟨device, hdevice, -⟩ := h
    · cases hstream
    · cases hdevice

theorem Tracked.current (h : s.Tracked) : s.Current := by
  intro hflag hcalls stream hstream
  by_contra hne
  obtain ⟨call, c, hc, -⟩ := h.stale hflag (.inl ⟨stream, hstream, hne⟩)
  rw [hcalls call] at hc
  cases hc

/-! ## Calls -/

/-- The call that a step starts. -/
def Step.starts : Step → Option Nat
  | .setVoiceCallInputDevice call _ _ | .changeAudioInput call _ => some call
  | _ => none

/-- A call starts where none is in progress. -/
theorem next_starts {a : Step} (ha : a.starts = some call) (hs : s.next a = some s') :
    s.calls call = none ∧ ∃ c, s' = s.setCall call (some c) := by
  cases a with
  | setVoiceCallInputDevice call device setIfPresent =>
    obtain rfl := Option.some.inj ha
    cases hcall : s.calls call with
    | some c => simp only [next, hcall, reduceCtorEq] at hs
    | none =>
      simp only [next, hcall, Option.some.injEq] at hs
      cases setIfPresent <;> exact ⟨rfl, _, hs.symm⟩
  | changeAudioInput call value =>
    obtain rfl := Option.some.inj ha
    cases hcall : s.calls call with
    | some c => simp only [next, hcall, reduceCtorEq] at hs
    | none =>
      simp only [next, hcall, Option.some.injEq] at hs
      exact ⟨rfl, _, hs.symm⟩
  | _ => cases ha

theorem committed_setCall {c : DeviceCall} (hc : c.IsCommitted) :
    (s.setCall call (some c)).Committed :=
  ⟨call, c, Function.update_self .., hc⟩

/-- The others are where they were. -/
theorem Committed.setCall {now : Option DeviceCall} (h : s.Committed)
    (hnow : ∀ c, s.calls call = some c → ¬ c.IsCommitted) : (s.setCall call now).Committed := by
  obtain ⟨other, c, hother, hc⟩ := h
  refine ⟨other, c, ?_, hc⟩
  have hne : other ≠ call := by
    rintro rfl
    exact hnow c hother hc
  exact (Function.update_of_ne hne _ _).trans hother

/-- A call goes on and changes nothing. -/
theorem Tracked.setCall {now : Option DeviceCall} (h : s.Tracked)
    (hnow : ∀ c, s.calls call = some c → ¬ c.IsCommitted) : (s.setCall call now).Tracked where
  restarting := h.restarting
  stale hflag hstale := (h.stale hflag hstale).setCall hnow

/-- One step of a call. -/
theorem Tracked.callNext (h : s.Tracked) {c : DeviceCall} (hc : s.calls call = some c) :
    (s.callNext call c).Tracked := by
  have hthis : ∀ c', s.calls call = some c' → c' = c := fun c' hc' =>
    Option.some.inj (hc'.symm.trans hc)
  cases c with
  | checkPresent device | compare device =>
    exact h.setCall fun c' hc' => hthis c' hc' ▸ id
  | assign device | setOption value =>
    exact ⟨h.restarting, fun _ _ => committed_setCall trivial⟩
  | load =>
    cases hflag : s.restarting with
    | true =>
      refine ⟨h.restarting, fun hdown => ?_⟩
      rw [AudioService.callNext, hflag] at hdown
      exact absurd (hflag.symm.trans hdown) (Bool.true_eq_false.mp)
    | false =>
      refine ⟨h.restarting, fun _ _ => ?_⟩
      rw [AudioService.callNext, hflag]
      exact committed_setCall trivial
  | store => exact ⟨fun _ => rfl, nofun⟩

/-! ## The thread -/

/-- A step of the thread that leaves the flag alone: what it is in a restart for, and of which
device its stream is. -/
theorem Tracked.of_keeps (h : s.Tracked) (hcalls : s'.calls = s.calls)
    (hflag : s'.restarting = s.restarting) (hin : s'.tick.InRestart → s.restarting = true)
    (hstale : s'.Stale → s.Stale) : s'.Tracked where
  restarting hrestart := hflag.trans (hin hrestart)
  stale hdown hs := by
    obtain ⟨call, c, hc, hcommitted⟩ := h.stale (hflag ▸ hdown) (hstale hs)
    exact ⟨call, c, hcalls ▸ hc, hcommitted⟩

/-- A stream that was open already. -/
theorem Stale.of_stream (hstream : s'.stream = s.stream) (htick : s'.tick.device? = none)
    (hinput : s'.getAudioInput = s.getAudioInput) (h : s'.Stale) : s.Stale := by
  obtain ⟨stream, hs, hne⟩ | ⟨device, hdevice, -⟩ := h
  · exact .inl ⟨stream, hstream ▸ hs, hinput ▸ hne⟩
  · rw [htick] at hdevice
    cases hdevice

/-- The device that was read is opened. -/
theorem Stale.of_opening {device : String} {x : Nat × Nat}
    (hstream : s'.stream = some (s.opening device x)) (htick : s'.tick.device? = none)
    (hinput : s'.getAudioInput = s.getAudioInput) (hread : s.tick.device? = some device)
    (h : s'.Stale) : s.Stale := by
  obtain ⟨stream, hs, hne⟩ | ⟨device', hdevice, -⟩ := h
  · obtain rfl := Option.some.inj (hstream.symm.trans hs)
    exact .inr ⟨device, hread, hinput ▸ hne⟩
  · rw [htick] at hdevice
    cases hdevice

/-- The device is read, and it is the one. -/
theorem Stale.of_read (hstream : s'.stream = s.stream)
    (htick : s'.tick.device? = some s.getAudioInput) (hinput : s'.getAudioInput = s.getAudioInput)
    (h : s'.Stale) : s.Stale := by
  obtain ⟨stream, hs, hne⟩ | ⟨device, hdevice, hne⟩ := h
  · exact .inl ⟨stream, hstream ▸ hs, hinput ▸ hne⟩
  · rw [htick] at hdevice
    exact absurd (Option.some.inj hdevice).symm (hinput ▸ hne)

/-- No stream is stale. -/
theorem Stale.of_no_stream (hstream : s'.stream = none) (htick : s'.tick.device? = none)
    (h : s'.Stale) : s.Stale := by
  obtain ⟨stream, hs, -⟩ | ⟨device, hdevice, -⟩ := h
  · rw [hstream] at hs
    cases hs
  · rw [htick] at hdevice
    cases hdevice

/-- One step of the thread. -/
theorem Tracked.tickNext (h : s.Tracked) (htime : s.ClearsInTime (.tick config)) :
    (s.tickNext config).Tracked := by
  unfold AudioService.tickNext
  have hrestart := h.restarting
  cases htick : s.tick with
  | idle =>
    dsimp only
    split_ifs
    · exact h.of_keeps rfl rfl False.elim (.of_stream rfl rfl rfl)
    · exact h.of_keeps rfl rfl False.elim (.of_stream rfl rfl rfl)
    · exact h
  | reset => exact h.of_keeps rfl rfl False.elim (.of_no_stream rfl rfl)
  | loadFlag =>
    cases hflag : s.restarting with
    | true => exact h.of_keeps rfl hflag.symm (fun _ => hflag) (.of_stream rfl rfl rfl)
    | false => exact h.of_keeps rfl hflag.symm False.elim (.of_stream rfl rfl rfl)
  | snapshot =>
    dsimp only
    split_ifs
    · exact h.of_keeps rfl rfl False.elim (.of_stream rfl rfl rfl)
    · exact h.of_keeps rfl rfl False.elim (.of_stream rfl rfl rfl)
    · exact h.of_keeps rfl rfl False.elim (.of_stream rfl rfl rfl)
  | snapshotDevice => exact h.of_keeps rfl rfl False.elim (.of_read rfl rfl rfl)
  | snapshotOpen device =>
    cases config with
    | none => exact h.of_keeps rfl rfl False.elim (.of_stream rfl rfl rfl)
    | some x => exact h.of_keeps rfl rfl False.elim (.of_opening rfl rfl rfl (by rw [htick]; rfl))
  | snapshotFormat =>
    cases hstream : s.stream with
    | none => exact h.of_keeps rfl rfl False.elim (.of_no_stream rfl rfl)
    | some stream => exact h.of_keeps rfl rfl False.elim (.of_stream hstream.symm rfl rfl)
  | snapshotDrop => exact h.of_keeps rfl rfl False.elim (.of_stream rfl rfl rfl)
  | restart =>
    rw [htick] at hrestart
    exact h.of_keeps rfl rfl hrestart (.of_no_stream rfl rfl)
  | restartSnapshot =>
    rw [htick] at hrestart
    refine h.of_keeps rfl rfl (fun _ => hrestart trivial) (.of_stream rfl ?_ rfl)
    dsimp only
    split_ifs <;> rfl
  | restartDrop =>
    rw [htick] at hrestart
    exact h.of_keeps rfl rfl hrestart (.of_stream rfl rfl rfl)
  | restartDevice =>
    rw [htick] at hrestart
    exact h.of_keeps rfl rfl hrestart (.of_read rfl rfl rfl)
  | restartOpen device =>
    rw [htick] at hrestart
    cases config with
    | none => exact h.of_keeps rfl rfl False.elim (.of_stream rfl rfl rfl)
    | some x => exact h.of_keeps rfl rfl hrestart (.of_opening rfl rfl rfl (by rw [htick]; rfl))
  | restartFormat =>
    rw [htick] at hrestart
    cases hstream : s.stream with
    | none => exact h.of_keeps rfl rfl hrestart (.of_no_stream rfl rfl)
    | some stream => exact h.of_keeps rfl rfl hrestart (.of_stream hstream.symm rfl rfl)
  | restartClear =>
    -- here the flag goes down, whoever has found it up
    refine ⟨False.elim, fun _ hstale => ?_⟩
    obtain hcurrent | hcommitted := htime htick
    · obtain ⟨stream, hs, hne⟩ | ⟨device, hdevice, -⟩ := hstale
      · exact absurd (hcurrent stream hs) hne
      · cases hdevice
    · exact hcommitted

/-! ## Runs -/

theorem Tracked.of_step (h : s.Tracked) {a : Step} (hs : s.next a = some s')
    (htime : s.ClearsInTime a) : s'.Tracked := by
  cases a with
  | setVoiceCallInputDevice call device setIfPresent | changeAudioInput call value =>
    obtain ⟨hcall, c, rfl⟩ := next_starts rfl hs
    exact h.setCall fun c hc => by rw [hcall] at hc; cases hc
  | call call =>
    obtain ⟨c, hc, rfl⟩ := Option.map_eq_some_iff.mp hs
    exact h.callNext hc
  | tick config =>
    obtain rfl := Option.some.inj hs
    exact h.tickNext htime
  | onSubscribe conn | onUnsubscribe conn =>
    obtain rfl := Option.some.inj hs
    exact ⟨h.restarting, h.stale⟩
  | frame data =>
    obtain ⟨stream, -, rfl⟩ := Option.map_eq_some_iff.mp hs
    exact ⟨h.restarting, h.stale⟩

/-- **No restart is lost** in a run in which the flag is cleared only where the stream is of the
device, or a call that has changed the device has not looked at the flag yet: whoever changes the
device when, whatever is opened and whatever fails, in every state in which the flag is down and no
call is in progress an open stream is of the device. -/
theorem current_of_clearsInTime (s : AudioService)
    (h : (system.restrict ClearsInTime).Reachable s) : s.Current := by
  refine (System.Reachable.invariant (I := Tracked) ?_ ?_ h).current
  · rintro s rfl
    exact .start
  · rintro s a s' htracked ⟨htime, hs⟩
    exact htracked.of_step hs htime

/-- Where no call is in progress, what is asked of the end of a restart is what it takes. -/
theorem current_restartClear_iff (htick : s.tick = .restartClear)
    (hcalls : ∀ call, s.calls call = none) :
    (s.tickNext config).Current ↔ s.ClearsInTime (.tick config) := by
  have hnext : s.tickNext config = { s with restarting := false, tick := .idle } := by
    unfold AudioService.tickNext
    rw [htick]
  rw [hnext]
  constructor
  · intro hcurrent _
    exact .inl (hcurrent rfl hcalls)
  · intro htime _ _ stream hstream
    obtain hcurrent | ⟨call, c, hc, -⟩ := htime htick
    · exact hcurrent stream hstream
    · rw [hcalls call] at hc
      cases hc

/-- A subscriber, its snapshot, and a call that sets another device, up to the opening of it. -/
def upToRestart : List Step :=
  [.onSubscribe 1, .tick none, .tick none, .tick none, .tick none, .tick (some (48000, 2)),
    .tick none, .tick none, .setVoiceCallInputDevice 0 (some "mic") true, .call 0, .call 0, .call 0,
    .call 0, .tick none, .tick none, .tick none, .tick none, .tick none, .tick (some (48000, 2))]

/-- Its format, and the end of the restart. -/
def toTheEnd : List Step := [.tick none, .tick none]

/-- Another call, to its end. -/
def setsOther : List Step :=
  [.setVoiceCallInputDevice 1 (some "other") true, .call 1, .call 1, .call 1]

/-- A step that is in time because nothing has changed. -/
def nextUnchanged (s : AudioService) (a : Step) : Option AudioService :=
  if s.tick = .restartClear ∧ s.stream.map (·.device) ≠ some s.getAudioInput then none
  else s.next a

theorem step_of_nextUnchanged {a : Step} (h : s.nextUnchanged a = some s') :
    (system.restrict ClearsInTime).step s a s' := by
  unfold nextUnchanged at h
  split at h
  next => cases h
  next hunchanged =>
    refine ⟨?_, h⟩
    cases a with
    | tick config =>
      intro htick
      refine .inl fun stream hstream => ?_
      rw [not_and, not_not] at hunchanged
      have hdevice := hunchanged htick
      rw [Option.mem_def.mp hstream] at hdevice
      exact Option.some.inj hdevice
    | _ => trivial

theorem current_of_clearsInTime_mic : ∃ s, (system.restrict ClearsInTime).Reachable s ∧
    s.stream.map (·.device) = some "mic" ∧ s.restarting = false ∧ s.Current := by
  have hend : ((upToRestart ++ toTheEnd).foldlM nextUnchanged start).map
      (fun s => (s.stream.map (·.device), s.restarting)) = some (some "mic", false) := by
    decide +kernel
  obtain ⟨s, hs, hx⟩ := Option.map_eq_some_iff.mp hend
  have hreach : (system.restrict ClearsInTime).Reachable s :=
    ⟨_, (System.Run.start rfl).of_foldlM step_of_nextUnchanged hs⟩
  obtain ⟨hdevice, hflag⟩ := Prod.mk.inj hx
  exact ⟨s, hreach, hdevice, hflag, current_of_clearsInTime s hreach⟩

/-- Steps of the first two calls, and steps of none. -/
def Step.IsOfFirst : Step → Prop
  | .setVoiceCallInputDevice call _ _ | .changeAudioInput call _ | .call call => call < 2
  | _ => True

theorem tickNext_calls : (s.tickNext config).calls = s.calls := by
  unfold AudioService.tickNext
  split <;> (try split) <;> (try split) <;> rfl

/-- Nobody else is calling. -/
theorem calls_of_isOfFirst {a : Step} (ha : a.IsOfFirst) (h : ∀ n, 2 ≤ n → s.calls n = none)
    (hs : s.next a = some s') : ∀ n, 2 ≤ n → s'.calls n = none := by
  intro n hn
  have hother : ∀ {call : Nat} {now : Option DeviceCall}, call < 2 →
      Function.update s.calls call now n = none := fun hcall =>
    (Function.update_of_ne (by omega) _ _).trans (h n hn)
  cases a with
  | setVoiceCallInputDevice call device setIfPresent | changeAudioInput call value =>
    obtain ⟨-, c, rfl⟩ := next_starts rfl hs
    exact hother ha
  | call call =>
    obtain ⟨c, -, rfl⟩ := Option.map_eq_some_iff.mp hs
    cases c <;> exact hother ha
  | tick config =>
    obtain rfl := Option.some.inj hs
    rw [tickNext_calls]
    exact h n hn
  | onSubscribe conn | onUnsubscribe conn =>
    obtain rfl := Option.some.inj hs
    exact h n hn
  | frame data =>
    obtain ⟨stream, -, rfl⟩ := Option.map_eq_some_iff.mp hs
    exact h n hn

/-- Another call sets the device while the first one's is opened: it finds the flag set, and then
the flag is cleared. -/
theorem restart_lost : ¬ ∀ s, system.Reachable s → s.Current := by
  intro hall
  have hend : ((upToRestart ++ setsOther ++ toTheEnd).foldlM next start).map
      (fun s => (s.restarting, s.calls 0, s.calls 1, s.stream.map (·.device), s.getAudioInput)) =
      some (false, none, none, some "mic", "other") := by decide +kernel
  obtain ⟨s, hs, hx⟩ := Option.map_eq_some_iff.mp hend
  simp only [Prod.mk.injEq] at hx
  obtain ⟨hflag, hfirst, hsecond, hdevice, hinput⟩ := hx
  have hsteps : system.Steps start (upToRestart ++ setsOther ++ toTheEnd) s := .of_foldlM id hs
  have hrest : ∀ n, 2 ≤ n → s.calls n = none := by
    refine hsteps.invariant (P := Step.IsOfFirst) (I := fun s => ∀ n, 2 ≤ n → s.calls n = none)
      (fun ha h hs => calls_of_isOfFirst ha h hs) ?_ (fun _ _ => rfl)
    simp [upToRestart, setsOther, toTheEnd, Step.IsOfFirst]
  have hcalls : ∀ call, s.calls call = none
    | 0 => hfirst
    | 1 => hsecond
    | n + 2 => hrest (n + 2) (by omega)
  obtain ⟨stream, hstream, hmic⟩ := Option.map_eq_some_iff.mp hdevice
  have hcurrent := hall s ⟨_, (System.Run.start rfl).steps hsteps⟩ hflag hcalls stream hstream
  rw [hmic, hinput] at hcurrent
  exact absurd hcurrent (by decide)

end AudioService

end HopToDesk.Host

/-!
## Which stream a frame is of

A snapshot sends the format of the stream to the new subscribers before they join the others, so
that whoever has joined knows it (`Heard`). Three things break this: a restart lets the new
subscribers join first and opens the stream before it sends the format, a subscriber may come after
the format of a snapshot and join with it, and a snapshot whose opening fails lets the new
subscribers join without a format. Without these every frame comes after the format of its stream
(`allFormatted_of_inTime`).
-/

namespace HopToDesk.Host

open Kit

namespace AudioService

/-! ### What one subscriber was sent -/

variable {received : List AudioMsg} {stream : AudioStream}

@[simp] theorem lastFormat_snoc (received : List AudioMsg) (msg : AudioMsg) :
    lastFormat (received ++ [msg]) =
      match msg with
      | .format stream => some stream
      | .frame _ _ => lastFormat received := by
  unfold lastFormat
  rw [List.foldl_append]
  cases msg <;> rfl

theorem Formatted.nil : Formatted [] := by
  intro before stream data after h
  exact absurd h.symm (List.append_ne_nil_of_right_ne_nil _ (List.cons_ne_nil _ _))

theorem Formatted.snoc {msg : AudioMsg} (h : Formatted received)
    (hframe : ∀ stream data, msg = .frame stream data → lastFormat received = some stream) :
    Formatted (received ++ [msg]) := by
  intro before stream data after heq
  rcases snoc_eq_append_cons heq with ⟨rfl, hlast, -⟩ | ⟨rest, hbefore, -⟩
  · exact hframe stream data hlast.symm
  · exact h before stream data rest hbefore

theorem Formatted.format (h : Formatted received) : Formatted (received ++ [.format stream]) :=
  h.snoc nofun

/-! ### The invariant -/

variable {s s' : AudioService} {config : Option (Nat × Nat)}

/-- A stream is about to be opened. -/
def AudioTick.IsClosed : AudioTick → Prop
  | .snapshotDevice | .snapshotOpen _ | .restartSnapshot | .restartDrop | .restartDevice
  | .restartOpen _ => True
  | _ => False

/-- The subscribers have been sent this last. -/
def Knows (subs : Subscribers Listener) (stream : AudioStream) : Prop :=
  ∀ l ∈ subs.values, lastFormat l.received = some stream

structure Heard (s : AudioService) : Prop where
  formatted : s.AllFormatted
  joined : s.tick ≠ .restartFormat → ∀ stream ∈ s.stream, Knows s.inner.subscribes stream
  snapshot : s.tick = .snapshotDrop → ∀ stream ∈ s.stream, Knows s.inner.newSubscribes stream
  closed : AudioTick.IsClosed s.tick → s.stream = none
  needSnapshot : s.inner.needSnapshot = true

theorem Heard.start : Heard start where
  formatted l h := by
    obtain h | h := h <;> cases h
  joined _ stream h := by cases h
  snapshot h := by cases h
  closed h := h.elim
  needSnapshot := rfl

theorem Knows.send_frame {subs : Subscribers Listener} {data : List UInt8} (h : Knows subs stream)
    (stream' : AudioStream) : Knows (subs.send (.frame stream' data) fun _ => true) stream := by
  intro l hl
  obtain ⟨l₀, hl₀, rfl⟩ := Subscribers.mem_send_all hl
  exact (lastFormat_snoc _ _).trans (h l₀ hl₀)

theorem Knows.send_format (subs : Subscribers Listener) (stream : AudioStream) :
    Knows (subs.send (.format stream) fun _ => true) stream := by
  intro l hl
  obtain ⟨l₀, hl₀, rfl⟩ := Subscribers.mem_send_all hl
  exact lastFormat_snoc _ _

/-- The thread moves on, and nobody joins or leaves. -/
theorem Heard.of_inner (h : s.Heard) (hinner : s'.inner = s.inner)
    (hjoined : s'.tick ≠ .restartFormat → ∀ stream ∈ s'.stream, Knows s.inner.subscribes stream)
    (hsnapshot : s'.tick ≠ .snapshotDrop ∨ s'.stream = none)
    (hclosed : AudioTick.IsClosed s'.tick → s'.stream = none) : s'.Heard where
  formatted := by
    unfold AllFormatted
    rw [hinner]
    exact h.formatted
  joined := by
    rw [hinner]
    exact hjoined
  snapshot htick stream hstream := by
    obtain hne | hnone := hsnapshot
    · exact absurd htick hne
    · rw [hnone] at hstream
      cases hstream
  closed := hclosed
  needSnapshot := by
    rw [hinner]
    exact h.needSnapshot

/-- A message to the new subscribers, or to those who have joined, leaves everything formatted. -/
theorem Heard.allFormatted {subscribes newSubscribes : Subscribers Listener} (h : s.Heard)
    (hold : ∀ l ∈ subscribes.values, l ∈ s.inner.subscribes.values ∨
      ∃ l₀ ∈ s.inner.subscribes.values, ∃ msg, l = Subscriber.send l₀ msg ∧
        ∀ stream data, msg = .frame stream data → lastFormat l₀.received = some stream)
    (hnew : ∀ l ∈ newSubscribes.values, l ∈ s.inner.newSubscribes.values ∨
      ∃ l₀ ∈ s.inner.newSubscribes.values, ∃ stream, l = Subscriber.send l₀ (.format stream)) :
    ∀ l, l ∈ subscribes.values ∨ l ∈ newSubscribes.values → Formatted l.received := by
  rintro l (hl | hl)
  · obtain hl | ⟨l₀, hl₀, msg, rfl, hframe⟩ := hold l hl
    · exact h.formatted l (.inl hl)
    · exact (h.formatted l₀ (.inl hl₀)).snoc hframe
  · obtain hl | ⟨l₀, hl₀, stream, rfl⟩ := hnew l hl
    · exact h.formatted l (.inr hl)
    · exact (h.formatted l₀ (.inr hl₀)).format

/-! ### Steps -/

/-- The new subscribers join. -/
theorem Heard.swap (h : s.Heard) (htick : s.tick = .snapshotDrop ∨ s.stream = none)
    (hformat : s.tick ≠ .restartFormat) {tick : AudioTick} (hdrop : tick ≠ .snapshotDrop)
    (hclosed : AudioTick.IsClosed tick → s.stream = none) :
    Heard { s with inner := s.inner.swapNewSubscribes, tick := tick } where
  formatted l hl := by
    obtain hl | hl := hl
    · exact h.formatted l (Subscribers.mem_of_insertAll hl)
    · cases hl
  joined _ stream hstream l hl := by
    obtain htick | hnone := htick
    · obtain hl | hl := Subscribers.mem_of_insertAll hl
      · exact h.joined hformat stream hstream l hl
      · exact h.snapshot htick stream hstream l hl
    · have hsome : s.stream = some stream := hstream
      rw [hnone] at hsome
      cases hsome
  snapshot htick := absurd htick hdrop
  closed := hclosed
  needSnapshot := h.needSnapshot

/-- One step of the thread. -/
theorem Heard.tickNext (h : s.Heard) (htime : s.FormatsInTime (.tick config)) :
    (s.tickNext config).Heard := by
  unfold AudioService.tickNext
  have hjoined := h.joined
  have hclosed := h.closed
  cases htick : s.tick with
  | idle =>
    rw [htick] at hjoined
    dsimp only
    split_ifs
    · exact h.of_inner rfl (fun _ => hjoined nofun) (.inl nofun) False.elim
    · exact h.of_inner rfl (fun _ => hjoined nofun) (.inl nofun) False.elim
    · exact h
  | reset => exact h.of_inner rfl (fun _ _ => nofun) (.inl nofun) False.elim
  | loadFlag =>
    rw [htick] at hjoined
    cases s.restarting with
    | true => exact h.of_inner rfl (fun _ => hjoined nofun) (.inl nofun) False.elim
    | false => exact h.of_inner rfl (fun _ => hjoined nofun) (.inl nofun) False.elim
  | snapshot =>
    rw [htick] at hjoined
    dsimp only
    split_ifs with hnew hsome
    · exact h.of_inner rfl (fun _ => hjoined nofun) (.inl nofun) False.elim
    · exact h.of_inner rfl (fun _ => hjoined nofun) (.inl nofun) fun _ =>
        Option.not_isSome_iff_eq_none.mp hsome
    · exact h.of_inner rfl (fun _ => hjoined nofun) (.inl nofun) False.elim
  | snapshotDevice =>
    rw [htick] at hjoined hclosed
    exact h.of_inner rfl (fun _ => hjoined nofun) (.inl nofun) hclosed
  | snapshotOpen device =>
    rw [htick] at hjoined hclosed
    cases config with
    | none => exact h.of_inner rfl (fun _ => hjoined nofun) (.inr (hclosed trivial)) False.elim
    | some x =>
      have hempty := htime (htick ▸ rfl) rfl
      refine h.of_inner rfl (fun _ stream _ l hl => ?_) (.inl nofun) False.elim
      rw [hempty] at hl
      cases hl
  | snapshotFormat =>
    rw [htick] at hjoined
    cases hstream : s.stream with
    | none => exact h.of_inner rfl (fun _ _ => nofun) (.inr rfl) False.elim
    | some stream =>
      refine ⟨?_, fun _ => ?_, fun _ stream' hstream' => ?_, False.elim, h.needSnapshot⟩
      · refine h.allFormatted (fun l hl => .inl hl) fun l hl => ?_
        obtain ⟨l₀, hl₀, rfl⟩ := Subscribers.mem_send_all hl
        exact .inr ⟨l₀, hl₀, stream, rfl⟩
      · rw [hstream] at hjoined
        exact hjoined nofun
      · obtain rfl := Option.some.inj hstream'
        exact Knows.send_format _ _
  | snapshotDrop => exact h.swap (.inl htick) (by rw [htick]; nofun) nofun False.elim
  | restart => exact h.of_inner rfl (fun _ _ => nofun) (.inl nofun) fun _ => rfl
  | restartSnapshot =>
    rw [htick] at hjoined hclosed
    dsimp only
    split_ifs
    · exact h.of_inner rfl (fun _ => hjoined nofun) (.inl nofun) hclosed
    · exact h.of_inner rfl (fun _ => hjoined nofun) (.inl nofun) hclosed
  | restartDrop =>
    rw [htick] at hclosed
    have hnone := hclosed trivial
    exact h.swap (.inr hnone) (by rw [htick]; nofun) nofun fun _ => hnone
  | restartDevice =>
    rw [htick] at hjoined hclosed
    exact h.of_inner rfl (fun _ => hjoined nofun) (.inl nofun) hclosed
  | restartOpen device =>
    rw [htick] at hjoined
    cases config with
    | none => exact h.of_inner rfl (fun _ => hjoined nofun) (.inl nofun) False.elim
    | some x => exact h.of_inner rfl (fun hne => absurd rfl hne) (.inl nofun) False.elim
  | restartFormat =>
    cases hstream : s.stream with
    | none => exact h.of_inner rfl (fun _ _ => nofun) (.inl nofun) False.elim
    | some stream =>
      refine ⟨?_, fun _ stream' hstream' => ?_, nofun, False.elim, h.needSnapshot⟩
      · refine h.allFormatted (fun l hl => ?_) fun l hl => .inl hl
        obtain ⟨l₀, hl₀, rfl⟩ := Subscribers.mem_send_all hl
        exact .inr ⟨l₀, hl₀, _, rfl, nofun⟩
      · obtain rfl := Option.some.inj hstream'
        exact Knows.send_format _ _
  | restartClear =>
    rw [htick] at hjoined
    exact h.of_inner rfl (fun _ => hjoined nofun) (.inl nofun) False.elim

/-- A frame of the open stream. -/
theorem Heard.frame (h : s.Heard) {stream : AudioStream} (hstream : s.stream = some stream)
    {data : List UInt8} (htime : s.FormatsInTime (.frame data)) :
    Heard { s with inner := s.inner.sendShared (.frame stream data) } where
  formatted := by
    refine h.allFormatted (fun l hl => ?_) fun l hl => .inl hl
    obtain ⟨l₀, hl₀, rfl⟩ := Subscribers.mem_send_all hl
    refine .inr ⟨l₀, hl₀, _, rfl, fun stream' data' heq => ?_⟩
    obtain ⟨rfl, -⟩ := AudioMsg.frame.inj heq
    by_cases htick : s.tick = .restartFormat
    · rw [htime htick] at hl₀
      cases hl₀
    · exact h.joined htick stream hstream l₀ hl₀
  joined htick stream' hstream' := (h.joined htick stream' hstream').send_frame stream
  snapshot := h.snapshot
  closed := h.closed
  needSnapshot := h.needSnapshot

/-- Somebody comes, and has been sent nothing. -/
theorem Heard.onSubscribe (h : s.Heard) {conn : Int} (htime : s.FormatsInTime (.onSubscribe conn)) :
    Heard { s with inner := s.inner.onSubscribe ⟨conn, []⟩ } := by
  unfold ServiceInner.onSubscribe
  split
  next => exact h
  next hhas =>
    rw [dif_pos h.needSnapshot]
    refine ⟨?_, h.joined, fun htick stream hstream => ?_, h.closed, h.needSnapshot⟩
    · rintro l (hl | hl)
      · exact h.formatted l (.inl hl)
      · obtain rfl | hl := Subscribers.mem_of_insert hl
        · exact .nil
        · exact h.formatted l (.inr hl)
    · have hstream' : s.stream = some stream := hstream
      exact absurd (htime htick (hstream' ▸ rfl)) hhas

theorem Heard.onUnsubscribe (h : s.Heard) (conn : Int) :
    Heard { s with inner := s.inner.onUnsubscribe conn } := by
  unfold ServiceInner.onUnsubscribe
  split
  next =>
    refine ⟨?_, fun htick stream hstream l hl => ?_, h.snapshot, h.closed, h.needSnapshot⟩
    · rintro l (hl | hl)
      · exact h.formatted l (.inl (Subscribers.mem_of_remove hl))
      · exact h.formatted l (.inr hl)
    · exact h.joined htick stream hstream l (Subscribers.mem_of_remove hl)
  next =>
    refine ⟨?_, h.joined, fun htick stream hstream l hl => ?_, h.closed, h.needSnapshot⟩
    · rintro l (hl | hl)
      · exact h.formatted l (.inl hl)
      · exact h.formatted l (.inr (Subscribers.mem_of_remove hl))
    · exact h.snapshot htick stream hstream l (Subscribers.mem_of_remove hl)

/-- A call goes on. -/
theorem Heard.of_call (h : s.Heard) (hinner : s'.inner = s.inner) (hstream : s'.stream = s.stream)
    (htick : s'.tick = s.tick) : s'.Heard where
  formatted := by
    unfold AllFormatted
    rw [hinner]
    exact h.formatted
  joined := by
    rw [hinner, hstream, htick]
    exact h.joined
  snapshot := by
    rw [hinner, hstream, htick]
    exact h.snapshot
  closed := by
    rw [hstream, htick]
    exact h.closed
  needSnapshot := by
    rw [hinner]
    exact h.needSnapshot

theorem Heard.of_step (h : s.Heard) {a : Step} (hs : s.next a = some s')
    (htime : s.FormatsInTime a) : s'.Heard := by
  cases a with
  | setVoiceCallInputDevice call device setIfPresent | changeAudioInput call value =>
    obtain ⟨-, c, rfl⟩ := next_starts rfl hs
    exact h.of_call rfl rfl rfl
  | call call =>
    obtain ⟨c, -, rfl⟩ := Option.map_eq_some_iff.mp hs
    cases c <;> exact h.of_call rfl rfl rfl
  | tick config =>
    obtain rfl := Option.some.inj hs
    exact h.tickNext htime
  | onSubscribe conn =>
    obtain rfl := Option.some.inj hs
    exact h.onSubscribe htime
  | onUnsubscribe conn =>
    obtain rfl := Option.some.inj hs
    exact h.onUnsubscribe conn
  | frame data =>
    obtain ⟨stream, hstream, rfl⟩ := Option.map_eq_some_iff.mp hs
    exact h.frame hstream htime

/-! ### Runs -/

/-- **Formats precede frames** in a run in which no frame comes between the opening of a stream in a
restart and its format while somebody has joined, nobody new comes between the format of a snapshot
and its end, and no snapshot opens a stream while somebody has joined: every frame that a subscriber
was sent since it came is of the stream whose format it was sent last. -/
theorem allFormatted_of_inTime (s : AudioService)
    (h : (system.restrict FormatsInTime).Reachable s) : s.AllFormatted := by
  refine (System.Reachable.invariant (I := Heard) ?_ ?_ h).formatted
  · rintro s rfl
    exact .start
  · rintro s a s' hheard ⟨htime, hs⟩
    exact hheard.of_step hs htime

/-- A subscriber, its snapshot, and a frame. -/
def subscribedAndHeard : List Step :=
  [.onSubscribe 1, .tick none, .tick none, .tick none, .tick none, .tick (some (44100, 1)),
    .tick none, .tick none, .frame [1]]

instance (s : AudioService) (a : Step) : Decidable (s.FormatsInTime a) :=
  match a with
  | .frame _ => inferInstanceAs (Decidable (_ → _))
  | .onSubscribe _ => inferInstanceAs (Decidable (_ → _ → _))
  | .tick _ => inferInstanceAs (Decidable (_ → _ → _))
  | .setVoiceCallInputDevice _ _ _ | .changeAudioInput _ _ | .call _ | .onUnsubscribe _ =>
    isTrue trivial

theorem allFormatted_of_inTime_one : ∃ s, (system.restrict FormatsInTime).Reachable s ∧
    s.inner.subscribes.values.map Listener.received =
      [[.format ⟨0, "", 24000, 1⟩, .frame ⟨0, "", 24000, 1⟩ [1]]] ∧ s.AllFormatted := by
  have hend : (System.follow FormatsInTime next start subscribedAndHeard).map
      (fun s => s.inner.subscribes.values.map Listener.received) =
      some [[.format ⟨0, "", 24000, 1⟩, .frame ⟨0, "", 24000, 1⟩ [1]]] := by decide +kernel
  obtain ⟨s, hs, hx⟩ := Option.map_eq_some_iff.mp hend
  have hreach : (system.restrict FormatsInTime).Reachable s := ⟨_, System.Run.of_follow rfl hs⟩
  exact ⟨s, hreach, hx, allFormatted_of_inTime s hreach⟩

/-- A subscriber comes while a restart is asked for: it joins, a stream is opened, and a frame comes
before the format. -/
def heardInRestart : List Step :=
  [.changeAudioInput 0 "mic", .call 0, .call 0, .call 0, .onSubscribe 1, .tick none, .tick none,
    .tick none, .tick none, .tick none, .tick none, .tick (some (44100, 1)), .frame [1]]

theorem frame_without_format : ¬ ∀ s, system.Reachable s → s.AllFormatted := by
  intro hall
  have hend : (heardInRestart.foldlM next start).map
      (fun s => s.inner.subscribes.values.map Listener.received) =
      some [[.frame ⟨0, "mic", 24000, 1⟩ [1]]] := by decide +kernel
  obtain ⟨s, hs, hx⟩ := Option.map_eq_some_iff.mp hend
  have hformatted := hall s ⟨_, (System.Run.start rfl).of_foldlM id hs⟩
  obtain ⟨l, hl, hreceived⟩ : ∃ l ∈ s.inner.subscribes.values,
      l.received = [.frame ⟨0, "mic", 24000, 1⟩ [1]] := by
    have hmem : [AudioMsg.frame ⟨0, "mic", 24000, 1⟩ [1]] ∈
        s.inner.subscribes.values.map Listener.received := hx ▸ List.mem_singleton_self _
    exact List.mem_map.mp hmem
  have hlast := hformatted l (.inl hl) [] _ _ [] hreceived
  cases hlast

end AudioService

end HopToDesk.Host
