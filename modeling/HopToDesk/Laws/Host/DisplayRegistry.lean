import HopToDesk.Host.VideoQos

/-!
# When the displays are those of the services

An operation leaves the displays and what they support, unless it is about a display, or is the
close of the last connection (`support_apply`). That close starts the controller over, displays
included, which belong to services that may well be running.
-/

set_option autoImplicit false

namespace HopToDesk.Host

open Kit

namespace VideoQoS

/-- What a display supports, if there is one. -/
def support (self : VideoQoS) (name : String) : Option Bool :=
  (self.displays.lookup name).map (·.supportChangingQuality)

variable {self self' : VideoQoS}

theorem support_congr (h : self'.displays = self.displays) : self'.support = self.support := by
  unfold support
  rw [h]

theorem support_mapValues {f : String → DisplayData → DisplayData}
    (h : self'.displays = mapValues f self.displays)
    (hf : ∀ name display,
      (f name display).supportChangingQuality = display.supportChangingQuality) :
    self'.support = self.support := by
  funext name
  unfold support
  rw [h, lookup_mapValues, Option.map_map]
  congr 1
  funext display
  exact hf name display

theorem support_adjustRatio {round : ℚ → ℚ} {dynamicScreen : Bool} {now : Nat}
    (h : self.adjustRatio round dynamicScreen now = some self') : self'.support = self.support := by
  unfold adjustRatio at h
  split at h
  · cases h
    rfl
  · obtain ⟨delays, -, hrest⟩ := Option.bind_eq_some_iff.mp h
    split at hrest
    · cases hrest
      rfl
    · cases hrest
      exact support_congr rfl

theorem support_userNetworkDelay {round : ℚ → ℚ} {linuxOrFreebsd : Bool} {id : Int}
    {delay now : Nat} (h : self.userNetworkDelay round linuxOrFreebsd id delay now = some self') :
    self'.support = self.support := by
  unfold userNetworkDelay at h
  split at h
  · cases h
    exact support_congr rfl
  · obtain ⟨delays, -, hrest⟩ := Option.bind_eq_some_iff.mp h
    dsimp only at hrest
    split at hrest
    · exact (support_adjustRatio hrest).trans (support_congr rfl)
    · cases hrest
      exact support_congr rfl

theorem support_updateDisplayData {round : ℚ → ℚ} {name : String} {sendCounter now : Nat}
    (h : self.updateDisplayData round name sendCounter now = some self') :
    self'.support = self.support := by
  unfold updateDisplayData at h
  dsimp only at h
  set counted := (self.modifyDisplay name fun display =>
    { display with sendCounter := display.sendCounter + sendCounter }).adjustFps now
  have hcounted : counted.support = self.support := by
    refine support_mapValues (f := fun n display => if n = name then
      { display with sendCounter := display.sendCounter + sendCounter } else display) rfl ?_
    intro n display
    split
    · rfl
    · rfl
  split at h
  · split at h
    · rw [support_adjustRatio h, ← hcounted]
      exact support_mapValues (f := fun _ display => { display with sendCounter := 0 }) rfl
        fun _ _ => rfl
    · rw [← Option.some.inj h]
      exact hcounted
  · rw [← Option.some.inj h, ← hcounted]
    exact support_congr rfl

theorem support_newDisplay (name : String) :
    (self.newDisplay name).support = Function.update self.support name (some false) := by
  funext n
  show ((self.displays.insert name DisplayData.new).lookup n).map _ =
    Function.update self.support name (some false) n
  by_cases hn : n = name
  · subst hn
    rw [AList.lookup_insert, Function.update_self]
    rfl
  · rw [AList.lookup_insert_ne hn, Function.update_of_ne hn]
    rfl

theorem support_removeDisplay (name : String) :
    (self.removeDisplay name).support = Function.update self.support name none := by
  funext n
  show ((self.displays.erase name).lookup n).map _ = Function.update self.support name none n
  by_cases hn : n = name
  · subst hn
    rw [AList.lookup_erase, Function.update_self]
    rfl
  · rw [AList.lookup_erase_ne hn, Function.update_of_ne hn]
    rfl

/-- A display that is there says something else. -/
theorem support_setSupportChangingQuality {name : String} (support : Bool)
    (hsome : (self.support name).isSome = true) :
    (self.setSupportChangingQuality name support).support =
      Function.update self.support name (some support) := by
  funext n
  show ((mapValues _ self.displays).lookup n).map _ =
    Function.update self.support name (some support) n
  rw [lookup_mapValues, Option.map_map]
  by_cases hn : n = name
  · subst hn
    rw [Function.update_self]
    unfold VideoQoS.support at hsome
    rw [Option.isSome_map, Option.isSome_iff_exists] at hsome
    obtain ⟨display, hdisplay⟩ := hsome
    simp [hdisplay]
  · rw [Function.update_of_ne hn]
    simp only [if_neg hn]
    rfl

/-- A controller that starts over has no displays. -/
theorem support_new (round : ℚ → ℚ) (now : Nat) (name : String) :
    (new round now).support name = none := rfl

/-- **What an operation does to the displays.** Its own services say, or they are gone. -/
theorem support_apply {round : ℚ → ℚ} {linuxOrFreebsd : Bool} {now : Nat} {op : QosOp}
    (hallowed : DisplayRegistry.allowed self.support op = true)
    (h : self.apply round linuxOrFreebsd now op = some self') :
    self'.support =
      if self.startsOver op then fun _ => none
      else DisplayRegistry.runningAfter self.support op := by
  cases op with
  | connectionOpen id enableAbr =>
    cases h
    exact support_congr rfl
  | connectionClose id =>
    cases h
    unfold onConnectionClose startsOver
    dsimp only
    split
    · funext name
      exact support_new round now name
    · exact support_congr rfl
  | customFps id fps =>
    cases h
    unfold userCustomFps
    split <;> exact support_congr rfl
  | autoAdjustFps id fps =>
    cases h
    unfold userAutoAdjustFps
    split <;> exact support_congr rfl
  | imageQuality id imageQuality time =>
    cases h
    unfold userImageQuality
    split <;> exact support_congr rfl
  | record id v =>
    cases h
    exact support_congr rfl
  | networkDelay id delay => exact support_userNetworkDelay h
  | delayResponseElapsed id elapsed =>
    cases h
    unfold userDelayResponseElapsed
    dsimp only
    split
    · split <;> exact support_congr rfl
    · rfl
  | newDisplay name =>
    cases h
    exact support_newDisplay name
  | removeDisplay name =>
    cases h
    exact support_removeDisplay name
  | setSupportChangingQuality name support =>
    cases h
    exact support_setSupportChangingQuality support hallowed
  | updateDisplayData name sendCounter => exact support_updateDisplayData h
  | storeBitrate bitrate =>
    cases h
    exact support_congr rfl
  | checkRatio =>
    cases h
    unfold checkRatio
    split <;> exact support_congr rfl

end VideoQoS

namespace DisplayRegistry

variable {round : ℚ → ℚ} {linuxOrFreebsd : Bool}

/-- The displays say of each service what the service said, and nothing of one that does not
run. -/
theorem registered_iff {s : DisplayRegistry} : s.Registered ↔ s.qos.support = s.running := by
  constructor
  · intro h
    funext name
    unfold VideoQoS.support
    cases hd : s.qos.displays.lookup name with
    | some display => exact (h.support name display hd).symm
    | none =>
      have hnot : ¬ name ∈ s.qos.displays := AList.lookup_eq_none.mp hd
      rw [h.keys, Bool.not_eq_true, Option.isSome_eq_false_iff, Option.isNone_iff_eq_none] at hnot
      exact hnot.symm
  · intro h
    refine ⟨fun name => ?_, fun name display hd => ?_, fun hvbr name support hrun => ?_⟩
    · rw [← h, VideoQoS.support, Option.isSome_map, AList.lookup_isSome]
    · rw [← h, VideoQoS.support, hd]
      rfl
    · rw [← h, VideoQoS.support, Option.map_eq_some_iff] at hrun
      obtain ⟨display, hd, rfl⟩ := hrun
      have hall := (Bool.and_eq_true_iff.mp hvbr).2
      rw [List.all_eq_true] at hall
      refine hall display ?_
      exact List.mem_map.mpr ⟨⟨name, display⟩, List.of_mem_dlookup hd, rfl⟩

theorem next_eq_some {s s' : DisplayRegistry} {e : QosOp × Nat}
    (h : next round linuxOrFreebsd s e = some s') : allowed s.running e.1 = true ∧
      s.qos.apply round linuxOrFreebsd e.2 e.1 = some s'.qos ∧
      s'.running = runningAfter s.running e.1 := by
  unfold next at h
  split at h
  next hallowed =>
    obtain ⟨qos, hqos, rfl⟩ := Option.map_eq_some_iff.mp h
    exact ⟨hallowed, hqos, rfl⟩
  next => cases h

/-- One step keeps the displays right exactly where it does not close the last connection under a
service. -/
theorem registered_next_iff {s s' : DisplayRegistry} {e : QosOp × Nat} (h : s.Registered)
    (hnext : next round linuxOrFreebsd s e = some s') : s'.Registered ↔ s.ClosesQuietly e := by
  rw [registered_iff] at h ⊢
  obtain ⟨hallowed, happly, hrunning⟩ := next_eq_some hnext
  rw [← h] at hallowed
  rw [VideoQoS.support_apply hallowed happly, hrunning, ← h]
  unfold ClosesQuietly
  rw [← h]
  cases hover : s.qos.startsOver e.1 with
  | false => exact iff_of_true rfl fun hf => absurd hf Bool.false_ne_true
  | true =>
    -- only a close starts over, and it does not say what runs
    have hsame : runningAfter s.qos.support e.1 = s.qos.support := by
      revert hover
      cases e.1 <;> simp [VideoQoS.startsOver, runningAfter]
    rw [hsame, if_pos rfl]
    constructor
    · intro hnone _ name
      exact (congrFun hnone name).symm
    · intro hnone
      funext name
      exact (hnone rfl name).symm

/-- **When the displays are those of the services.** All along a trace the displays are those of
the services that run, with what each said last, exactly when no connection that is the last to
close finds a service running. -/
theorem always_registered_iff {tr : List (DisplayRegistry × (QosOp × Nat))} {s : DisplayRegistry}
    (h : (system round linuxOrFreebsd).Trace tr s) :
    System.Always Registered tr s ↔ ∀ x ∈ tr, x.1.ClosesQuietly x.2 := by
  refine System.Trace.always_iff (I := Registered) ?_ id ?_ ?_ h
  · rintro s ⟨now, rfl⟩
    exact registered_iff.mpr rfl
  · exact fun hs hnext hP => (registered_next_iff hs hnext).mpr hP
  · exact fun hs hnext hG => (registered_next_iff hs hnext).mp hG

/-- The last connection closes while a service runs whose encoder cannot change the quality. -/
def closedUnderService : List (QosOp × Nat) :=
  [(.connectionOpen 1 true, 0), (.newDisplay "monitor0", 0),
    (.setSupportChangingQuality "monitor0" false, 0), (.connectionClose 1, 0)]

theorem exists_trace_closedUnderService :
    ∃ tr s, (system id false).Trace tr s ∧ tr.map Prod.snd = closedUnderService ∧
      s.running "monitor0" = some false ∧ s.qos.inVbrState = true := by
  obtain ⟨s, hs⟩ : ∃ s, closedUnderService.foldlM (next id false) (start id 0) = some s :=
    ⟨_, rfl⟩
  obtain ⟨tr, htr, hlabels⟩ :=
    (System.Trace.start ⟨0, rfl⟩ : (system id false).Trace [] (start id 0)).of_foldlM
      (fun {_ _ _} hnext => hnext) hs
  refine ⟨tr, s, htr, hlabels, ?_⟩
  obtain rfl : _ = s := Option.some.inj hs
  exact ⟨rfl, rfl⟩

/-- Its display is gone, and the bitrate varies. -/
theorem not_always_registered :
    ¬ ∀ (tr : List (DisplayRegistry × (QosOp × Nat))) (s : DisplayRegistry),
      (system id false).Trace tr s → System.Always Registered tr s := by
  intro h
  obtain ⟨tr, s, htr, -, hrunning, hvbr⟩ := exists_trace_closedUnderService
  exact absurd ((h tr s htr).2.vbr hvbr "monitor0" false hrunning) Bool.false_ne_true

theorem always_registered_closedUnderService :
    ∃ tr s, (system id false).Trace tr s ∧ tr.map Prod.snd = closedUnderService ∧
      (System.Always Registered tr s ↔ ∀ x ∈ tr, x.1.ClosesQuietly x.2) := by
  obtain ⟨tr, s, htr, hlabels, -⟩ := exists_trace_closedUnderService
  exact ⟨tr, s, htr, hlabels, always_registered_iff htr⟩

end DisplayRegistry

end HopToDesk.Host
