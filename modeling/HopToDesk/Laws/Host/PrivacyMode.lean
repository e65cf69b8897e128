import HopToDesk.Host.PrivacyMode

/-!
# What the implementation holds it can put back

An implementation covers the desk when what it has saved is how things were before, what it has not
saved still is that way, and the watchdogs that run are its own. Then restoring gives back the desk
as it was (`Covers.restore`), at whatever point of turning on it happens. Every call keeps this, and
an implementation that nobody owns holds nothing (`Inv`).

What is saved is what the commands said, so it takes commands that tell the truth about the screens
they are asked about: `Honest` is about the answers, never about what a command does.
-/

set_option autoImplicit false

namespace HopToDesk.Host

open Kit Kit.Text

/-! ## What the commands say -/

/-- The lines are those of the connected output with this name, so far. -/
def Under (name : Text) (ls : List Text) : Prop :=
  ∃ pre header state mid, ls = pre ++ header :: mid ∧ isIndented header = false ∧
    splitWhitespace header = name :: "connected".toList :: state ∧ ∀ l ∈ mid, isIndented l = true

/-- A brightness that stands under a connected output is its brightness. -/
def TellsBrightness (ls : List Text) (screens : Screens) : Prop :=
  ∀ done line rest name value, ls = done ++ line :: rest → Under name done →
    isIndented line = true → stripPrefix "Brightness:".toList (trim line) = some value →
    screens.brightness name = trim value

/-- The commands are right about the screens. -/
structure Answers.Truthful (answers : Answers) (screens : Screens) : Prop where
  brightness : ∀ {output}, answers.xrandr = .ok output →
    TellsBrightness (lines output.stdout) screens
  enabled : ∀ {id text line}, answers.listProps id = some text → line ∈ lines text →
    saysEnabled line = true → screens.enabled id = true

theorem Under.snoc {name line : Text} {ls : List Text} (h : Under name ls)
    (hline : isIndented line = true) : Under name (ls ++ [line]) := by
  obtain ⟨pre, header, state, mid, rfl, hheader, hname, hmid⟩ := h
  refine ⟨pre, header, state, mid ++ [line], by simp, hheader, hname, ?_⟩
  intro l hl
  rcases List.mem_append.mp hl with hl | hl
  · exact hmid l hl
  · rw [List.mem_singleton.mp hl]
    exact hline

/-- Where `scanLine` is after these lines: the output they end under, and what was found. -/
structure Scanned (screens : Screens) (done : List Text)
    (found : Option Text × List (Text × Text)) : Prop where
  under : ∀ {name}, found.1 = some name → Under name done
  right : ∀ x ∈ found.2, x.2 = screens.brightness x.1

theorem Scanned.line {screens : Screens} {ls done rest : List Text} {line : Text}
    {found : Option Text × List (Text × Text)} (htrue : TellsBrightness ls screens)
    (hls : ls = done ++ line :: rest) (h : Scanned screens done found) :
    Scanned screens (done ++ [line]) (scanLine found line) := by
  cases hline : isIndented line with
  | true =>
    simp only [scanLine, hline, if_true]
    split
    next name value hname hvalue =>
      refine ⟨?_, ?_⟩
      · intro name' hname'
        cases hname'
      intro x hx
      rcases List.mem_append.mp hx with hx | hx
      · exact h.right x hx
      · rw [List.mem_singleton.mp hx]
        exact (htrue done line rest name value hls (h.under hname) hline hvalue).symm
    next => exact ⟨fun hname => (h.under hname).snoc hline, h.right⟩
  | false =>
    simp only [scanLine, hline, Bool.false_eq_true, if_false]
    split
    next name state others hwords =>
      refine ⟨?_, h.right⟩
      intro name' hname'
      split at hname'
      next hstate =>
        cases hname'
        exact ⟨done, line, others, [], rfl, hline, hstate ▸ hwords, by simp⟩
      next => cases hname'
    next =>
      refine ⟨?_, h.right⟩
      intro name hname
      cases hname

theorem scanned {screens : Screens} {ls : List Text} (htrue : TellsBrightness ls screens)
    (done rest : List Text) (hls : ls = done ++ rest) :
    Scanned screens done (done.foldl scanLine (none, [])) := by
  induction done using List.reverseRecOn generalizing rest with
  | nil =>
    refine ⟨?_, by simp⟩
    intro name hname
    cases hname
  | append_singleton done line ih =>
    have hline : ls = done ++ line :: rest := by rw [hls, List.append_assoc]; rfl
    rw [List.foldl_append]
    exact (ih (line :: rest) hline).line htrue hline

/-- What is saved of the outputs is their brightness. -/
theorem brightness_of_truthful {answers : Answers} {screens : Screens}
    {outputs : List (Text × Text)} (htrue : answers.Truthful screens)
    (h : connectedOutputsWithBrightness answers = .ok outputs) :
    ∀ x ∈ outputs, x.2 = screens.brightness x.1 := by
  unfold connectedOutputsWithBrightness at h
  cases hxrandr : answers.xrandr with
  | error e =>
    rw [hxrandr] at h
    cases h
  | ok output =>
    simp only [hxrandr] at h
    split at h
    · cases h
      exact (scanned (htrue.brightness hxrandr) _ [] (List.append_nil _).symm).right
    · cases h

theorem enabled_of_isInputEnabled {answers : Answers} {screens : Screens} {id : Text}
    (htrue : answers.Truthful screens) (h : isInputEnabled answers id = true) :
    screens.enabled id = true := by
  unfold isInputEnabled at h
  split at h
  next text htext =>
    obtain ⟨line, hline, hsays⟩ := List.any_eq_true.mp h
    exact htrue.enabled htext hline hsays
  next => cases h

/-- The devices that are to be disabled are enabled. -/
theorem enabled_of_truthful {answers : Answers} {screens : Screens} {inputs : List Text}
    (htrue : answers.Truthful screens) (h : enabledPhysicalInputs answers = .ok inputs) :
    ∀ id ∈ inputs, screens.enabled id = true := by
  unfold enabledPhysicalInputs at h
  split at h
  · cases h
  split at h
  · cases h
    intro id hid
    obtain ⟨line, -, hline⟩ := List.mem_filterMap.mp hid
    unfold physicalInput at hline
    split at hline
    · cases hline
    split at hline
    · cases hline
    split at hline
    · dsimp only at hline
      split at hline
      next hin =>
        cases hline
        exact enabled_of_isInputEnabled htrue hin.2
      next => cases hline
    · cases hline
  · cases h

/-! ## What dimming and disabling leave alone -/

namespace PrivacyModeImpl

variable {answers : Answers} {impl : PrivacyModeImpl} {desk : Desk} {before s : Screens}

theorem enabled_dimOutputs (answers : Answers) (i : Nat) (outputs : List (Text × Text)) (s : Screens) :
    (dimOutputs answers i outputs s).2.enabled = s.enabled := by
  induction outputs generalizing i s with
  | nil => rfl
  | cons x rest ih =>
    simp only [dimOutputs]
    split
    · exact ih _ _
    · exact ih _ _

theorem brightness_dimOutputs {output : Text} (answers : Answers) (i : Nat)
    (outputs : List (Text × Text)) (s : Screens) (hout : output ∉ outputs.map Prod.fst) :
    (dimOutputs answers i outputs s).2.brightness output = s.brightness output := by
  induction outputs generalizing i s with
  | nil => rfl
  | cons x rest ih =>
    rw [List.map_cons, List.mem_cons, not_or] at hout
    simp only [dimOutputs]
    split
    · rw [ih _ _ hout.2]
      exact Function.update_of_ne hout.1 _ _
    · rw [ih _ _ hout.2]
      exact Function.update_of_ne hout.1 _ _

theorem brightness_disableInputs (i : Nat) (inputs : List Text) (s : Screens) :
    (disableInputs answers i inputs s).2.brightness = s.brightness := by
  induction inputs generalizing i s with
  | nil => rfl
  | cons id rest ih =>
    simp only [disableInputs]
    split
    · exact ih _ _
    · exact ih _ _

theorem enabled_disableInputs {id : Text} (i : Nat) (inputs : List Text) (s : Screens)
    (hid : id ∉ inputs) : (disableInputs answers i inputs s).2.enabled id = s.enabled id := by
  induction inputs generalizing i s with
  | nil => rfl
  | cons id' rest ih =>
    rw [List.mem_cons, not_or] at hid
    simp only [disableInputs]
    split
    · rw [ih _ _ hid.2]
      exact Function.update_of_ne hid.1 _ _
    · rw [ih _ _ hid.2]
      exact Function.update_of_ne hid.1 _ _

theorem brightness_hide {output : Text} (outputs : List (Text × Text)) (inputs : List Text)
    (hout : output ∉ outputs.map Prod.fst) :
    (hide answers outputs inputs s).2.brightness output = s.brightness output := by
  have hdim := brightness_dimOutputs answers 0 outputs s hout
  unfold hide
  generalize dimOutputs answers 0 outputs s = dimmed at hdim ⊢
  rcases dimmed with ⟨ok, s₁⟩
  cases ok with
  | true =>
    rw [brightness_disableInputs]
    exact hdim
  | false => exact hdim

theorem enabled_hide {id : Text} (outputs : List (Text × Text)) (inputs : List Text)
    (hid : id ∉ inputs) : (hide answers outputs inputs s).2.enabled id = s.enabled id := by
  have hdim := congrFun (enabled_dimOutputs answers 0 outputs s) id
  unfold hide
  generalize dimOutputs answers 0 outputs s = dimmed at hdim ⊢
  rcases dimmed with ⟨ok, s₁⟩
  cases ok with
  | true =>
    rw [enabled_disableInputs _ _ _ hid]
    exact hdim
  | false => exact hdim

/-! ## Putting back -/

/-- What is saved is how things were `before`, and all else still is. -/
structure Covers (impl : PrivacyModeImpl) (desk : Desk) (before : Screens) : Prop where
  saved : ∀ x ∈ impl.savedBrightness, x.2 = before.brightness x.1
  outputs : ∀ output, output ∉ impl.savedBrightness.map Prod.fst →
    desk.screens.brightness output = before.brightness output
  disabled : ∀ id ∈ impl.disabledInputs, before.enabled id = true
  inputs : ∀ id, id ∉ impl.disabledInputs → desk.screens.enabled id = before.enabled id
  watchdogs : desk.watchdogs.map Prod.fst = impl.watchdog.toList

/-- It holds nothing. -/
structure Idle (impl : PrivacyModeImpl) : Prop where
  savedBrightness : impl.savedBrightness = []
  disabledInputs : impl.disabledInputs = []
  watchdog : impl.watchdog = none

theorem setBrightness_all (outputs : List (Text × Text)) (s : Screens)
    (hsaved : ∀ x ∈ outputs, x.2 = before.brightness x.1)
    (hothers : ∀ output, output ∉ outputs.map Prod.fst →
      s.brightness output = before.brightness output) :
    outputs.foldl (fun s x => s.setBrightness x.1 x.2) s = ⟨before.brightness, s.enabled⟩ := by
  induction outputs generalizing s with
  | nil =>
    ext1
    · funext output
      exact hothers output (by simp)
    · rfl
  | cons x rest ih =>
    rw [List.foldl_cons, ih _ fun y hy => hsaved y (List.mem_cons_of_mem _ hy)]
    · rfl
    intro output hout
    by_cases hx : output = x.1
    · subst hx
      rw [← hsaved x List.mem_cons_self]
      exact Function.update_self _ _ _
    · rw [← hothers output (by simpa [hx] using hout)]
      exact Function.update_of_ne hx _ _

theorem setEnabled_all (inputs : List Text) (s : Screens)
    (hdisabled : ∀ id ∈ inputs, before.enabled id = true)
    (hothers : ∀ id, id ∉ inputs → s.enabled id = before.enabled id) :
    inputs.foldl (fun s id => s.setEnabled id true) s = ⟨s.brightness, before.enabled⟩ := by
  induction inputs generalizing s with
  | nil =>
    ext1
    · rfl
    · funext id
      exact hothers id (by simp)
  | cons id' rest ih =>
    rw [List.foldl_cons, ih _ fun y hy => hdisabled y (List.mem_cons_of_mem _ hy)]
    · rfl
    intro id hid
    by_cases hx : id = id'
    · subst hx
      rw [hdisabled id List.mem_cons_self]
      exact Function.update_self _ _ _
    · rw [← hothers id (by simp [hx, hid])]
      exact Function.update_of_ne hx _ _

/-- **Restoring gives back the desk as it was.** -/
theorem Covers.restore (h : Covers impl desk before) : (impl.restore desk).2 = ⟨before, []⟩ := by
  ext1
  · simp only [PrivacyModeImpl.restore, restoreScreens]
    rw [setBrightness_all _ _ h.saved h.outputs]
    exact setEnabled_all _ _ h.disabled h.inputs
  · have hdogs := h.watchdogs
    simp only [PrivacyModeImpl.restore]
    cases hdog : impl.watchdog with
    | none =>
      rw [hdog] at hdogs
      exact List.map_eq_nil_iff.mp hdogs
    | some pid =>
      rw [hdog] at hdogs
      refine List.filter_eq_nil_iff.mpr ?_
      intro x hx
      have hpid : x.1 ∈ (some pid).toList := by
        rw [← hdogs]
        exact List.mem_map_of_mem hx
      simpa using hpid

theorem Idle.covers (h : Idle impl) : Covers impl ⟨before, []⟩ before where
  saved := by simp [h.savedBrightness]
  outputs _ _ := rfl
  disabled := by simp [h.disabledInputs]
  inputs _ _ := rfl
  watchdogs := by simp [h.watchdog]

theorem Covers.restored (h : Covers impl desk before) :
    Covers (impl.restore desk).1 (impl.restore desk).2 before := by
  rw [h.restore]
  exact Idle.covers ⟨rfl, rfl, rfl⟩

/-- An implementation that holds nothing has nothing to put back. -/
theorem Covers.desk_eq (h : Covers impl desk before) (hidle : Idle impl) :
    desk = ⟨before, []⟩ := by
  ext1
  · ext1
    · funext output
      exact h.outputs output (by simp [hidle.savedBrightness])
    · funext id
      exact h.inputs id (by simp [hidle.disabledInputs])
  · have hdogs := h.watchdogs
    rw [hidle.watchdog] at hdogs
    exact List.map_eq_nil_iff.mp hdogs

/-- What is found before anything is hidden covers it while it is being hidden. -/
theorem covers_hide {outputs : List (Text × Text)} {inputs : List Text} (impl : PrivacyModeImpl)
    (pid : Nat) (script : Text) (htrue : answers.Truthful before)
    (houtputs : connectedOutputsWithBrightness answers = .ok outputs)
    (hinputs : enabledPhysicalInputs answers = .ok inputs) :
    Covers { impl with savedBrightness := outputs, disabledInputs := inputs, watchdog := some pid }
      ⟨(hide answers outputs inputs before).2, [(pid, script)]⟩ before where
  saved := brightness_of_truthful htrue houtputs
  outputs _ hout := brightness_hide outputs inputs hout
  disabled := enabled_of_truthful htrue hinputs
  inputs _ hid := enabled_hide outputs inputs hid
  watchdogs := rfl

theorem Covers.owned (h : Covers impl desk before) (connId : Int) :
    Covers { impl with connId := connId } desk before :=
  ⟨h.saved, h.outputs, h.disabled, h.inputs, h.watchdogs⟩

/-- Turning on an implementation that holds nothing: it fails and nothing has changed, or it
succeeds, belongs to the connection and covers the desk. -/
theorem turnOnPrivacy_spec {connId : Int} (hidle : Idle impl) (hfree : impl.connId = 0)
    (hconn : 0 < connId) (htrue : answers.Truthful before) :
    ∃ answer impl' desk', impl.turnOnPrivacy connId answers ⟨before, []⟩ = (answer, impl', desk') ∧
      Covers impl' desk' before ∧
      (impl'.connId = 0 ∧ Idle impl' ∨ impl'.connId = connId) := by
  have hcovers : Covers impl ⟨before, []⟩ before := hidle.covers
  have hsame : impl.connId = 0 ∧ Idle impl ∨ impl.connId = connId := .inl ⟨hfree, hidle⟩
  have hcheck : impl.checkOnConnId connId = .ok false := by
    simp only [checkOnConnId, hfree]
    rw [if_neg (by omega), if_neg (by simp)]
  simp only [turnOnPrivacy, hcheck]
  split
  · exact ⟨_, _, _, rfl, hcovers, hsame⟩
  · exact ⟨_, _, _, rfl, hcovers, hsame⟩
  next outputs _ houtputs =>
  split
  · exact ⟨_, _, _, rfl, hcovers, hsame⟩
  next inputs hinputs =>
  split
  · exact ⟨_, _, _, rfl, hcovers, hsame⟩
  next pid _ =>
  have hhidden := covers_hide impl pid (watchdogScript answers.processId outputs inputs) htrue
    houtputs hinputs
  split
  · exact ⟨_, _, _, rfl, hhidden.owned connId, .inr rfl⟩
  · exact ⟨_, _, _, rfl, hhidden.restored, .inl ⟨hfree, rfl, rfl, rfl⟩⟩

end PrivacyModeImpl

/-! ## The module -/

namespace Privacy

open PrivacyModeImpl

variable {creators : String → Bool} {s s' : Privacy} {c : PrivacyCall}

/-- What every call keeps. -/
structure Inv (s : Privacy) : Prop where
  covers : ∀ {impl}, s.mode = some impl → Covers impl s.desk s.before
  idle : ∀ {impl}, s.mode = some impl → impl.connId = 0 → Idle impl
  vacant : s.mode = none → s.desk = ⟨s.before, []⟩

/-- The ids are those of connections, and the commands are right about the screens that are there
when they are asked. -/
def Honest (creators : String → Bool) (s : Privacy) : PrivacyCall → Prop
  | .turnOnPrivacy implKey connId lookup answers =>
    0 < connId ∧ ∀ s', s.note.prepare creators (getSupportedImpl implKey lookup) connId = .ok s' →
      answers.Truthful s'.desk.screens
  | .turnOffPrivacy connId => 0 < connId
  | .switch _ | .clear => True

theorem inv_some {impl : PrivacyModeImpl} (hmode : s.mode = some impl)
    (hcovers : Covers impl s.desk s.before) (hidle : impl.connId = 0 → Idle impl) : Inv s := by
  refine ⟨?_, ?_, ?_⟩
  · intro impl' himpl
    cases hmode.symm.trans himpl
    exact hcovers
  · intro impl' himpl
    cases hmode.symm.trans himpl
    exact hidle
  · intro hnone
    cases hmode.symm.trans hnone

/-- With an implementation that holds nothing, and the desk as it was. -/
theorem inv_idle {impl : PrivacyModeImpl} (hmode : s.mode = some impl) (hidle : Idle impl)
    (hdesk : s.desk = ⟨s.before, []⟩) : Inv s :=
  inv_some hmode (hdesk ▸ hidle.covers) fun _ => hidle

/-- Where nobody owns privacy mode, things are as they were. -/
theorem Inv.desk_eq (hs : Inv s) (hfree : ∀ impl, s.mode = some impl → impl.connId = 0) :
    s.desk = ⟨s.before, []⟩ := by
  cases hmode : s.mode with
  | none => exact hs.vacant hmode
  | some impl => exact (hs.covers hmode).desk_eq (hs.idle hmode (hfree impl hmode))

theorem note_eq (h : s.desk = ⟨s.before, []⟩) : { s with before := s.desk.screens } = s := by
  rcases s with ⟨mode, desk, before⟩
  obtain rfl : desk = ⟨before, []⟩ := h
  rfl

theorem Inv.note (hs : Inv s) : s.note = s := by
  unfold Privacy.note
  split
  next impl hmode =>
    split
    next hfree =>
      have hdesk := (hs.covers hmode).desk_eq (hs.idle hmode hfree)
      exact note_eq hdesk
    next => rfl
  next hmode => exact note_eq (hs.vacant hmode)

theorem idle_clear (impl : PrivacyModeImpl) (desk : Desk) : Idle (impl.clear desk).1 :=
  ⟨rfl, rfl, rfl⟩

theorem clear_desk {impl : PrivacyModeImpl} {desk : Desk} {before : Screens}
    (h : Covers impl desk before) : (impl.clear desk).2 = ⟨before, []⟩ := h.restore

/-- What replaces the implementation is owned by nobody. -/
theorem Inv.replace {implKey : String} (hs : Inv s) (h : s.replace creators implKey = .ok s') :
    Inv s' ∧ ∀ impl, s'.mode = some impl → impl.connId = 0 := by
  unfold Privacy.replace at h
  split at h
  · split at h
    next impl hmode =>
      have hdesk := clear_desk (hs.covers hmode)
      have hagain : ((impl.clear s.desk).1.clear (impl.clear s.desk).2).2 = ⟨s.before, []⟩ := by
        rw [hdesk]
        exact clear_desk (idle_clear impl s.desk).covers
      cases h
      refine ⟨inv_idle rfl ⟨rfl, rfl, rfl⟩ hagain, ?_⟩
      intro impl himpl
      cases himpl
      rfl
    next hmode =>
      cases h
      refine ⟨inv_idle rfl ⟨rfl, rfl, rfl⟩ (hs.vacant hmode), ?_⟩
      intro impl himpl
      cases himpl
      rfl
  · cases h

theorem checkOnConnId_free {impl : PrivacyModeImpl} {connId : Int}
    (h : impl.checkOnConnId connId = .ok false) : impl.connId = 0 := by
  unfold checkOnConnId at h
  by_contra hne
  split at h
  · cases h
  · cases h

/-- What the module goes on with is owned by nobody. -/
theorem Inv.prepare {implKey : String} {connId : Int} (hs : Inv s)
    (h : s.prepare creators implKey connId = .ok s') :
    Inv s' ∧ ∀ impl, s'.mode = some impl → impl.connId = 0 := by
  unfold Privacy.prepare at h
  split at h
  next impl hmode =>
    split at h
    next => cases h
    next =>
      split at h
      · cases h
      · exact hs.replace h
    next hcheck =>
      split at h
      · cases h
        refine ⟨hs, ?_⟩
        intro impl' himpl
        cases hmode.symm.trans himpl
        exact checkOnConnId_free hcheck
      · exact hs.replace h
  next hmode =>
    split at h
    · cases h
      refine ⟨hs, ?_⟩
      intro impl himpl
      cases hmode.symm.trans himpl
    · exact hs.replace h

theorem Inv.turnOnPrivacySync {implKey : String} {connId : Int} {lookup : KeyLookup}
    {answers : Answers} (hs : Inv s)
    (hhonest : Honest creators s (.turnOnPrivacy implKey connId lookup answers)) :
    Inv (s.turnOnPrivacySync creators implKey connId lookup answers).2 := by
  obtain ⟨hconn, htrue⟩ := hhonest
  unfold Privacy.turnOnPrivacySync
  split
  next => rwa [hs.note]
  next s' hprepare =>
  have htrue := htrue s' hprepare
  rw [hs.note] at hprepare
  obtain ⟨hs', hfree⟩ := hs.prepare hprepare
  have hdesk := hs'.desk_eq hfree
  rw [hdesk] at htrue
  split
  next impl hmode =>
    obtain ⟨answer, impl', desk', heq, hcovers, hleft⟩ := turnOnPrivacy_spec
      (hs'.idle hmode (hfree impl hmode)) (hfree impl hmode) hconn htrue
    simp only [hdesk, heq]
    refine inv_some rfl hcovers ?_
    intro hzero
    rcases hleft with ⟨-, hidle⟩ | howner
    · exact hidle
    · omega
  next => exact hs'

theorem Inv.turnOffPrivacy {connId : Int} (hs : Inv s) : Inv (s.turnOffPrivacy connId).2 := by
  unfold Privacy.turnOffPrivacy
  split
  next impl hmode =>
    cases hcheck : impl.checkOffConnId connId with
    | error e =>
      simp only [PrivacyModeImpl.turnOffPrivacy, hcheck]
      exact inv_some rfl (hs.covers hmode) (hs.idle hmode)
    | ok _ =>
      simp only [PrivacyModeImpl.turnOffPrivacy, hcheck]
      exact inv_idle rfl ⟨rfl, rfl, rfl⟩ (clear_desk (hs.covers hmode))
  next => exact hs

theorem Inv.switch {implKey : String} (hs : Inv s) : Inv (s.switch creators implKey) := by
  unfold Privacy.switch
  split
  next impl hmode =>
    split
    · exact hs
    split
    · exact inv_idle rfl ⟨rfl, rfl, rfl⟩ (clear_desk (hs.covers hmode))
    · exact hs
  next hmode =>
    split
    · exact inv_idle rfl ⟨rfl, rfl, rfl⟩ (hs.vacant hmode)
    · exact hs

theorem Inv.clear (hs : Inv s) : Inv s.clear := by
  unfold Privacy.clear
  split
  next impl hmode => exact inv_idle rfl ⟨rfl, rfl, rfl⟩ (clear_desk (hs.covers hmode))
  next => exact hs

theorem Inv.call (hs : Inv s) (hhonest : Honest creators s c) : Inv (s.call creators c).2 := by
  cases c with
  | turnOnPrivacy implKey connId lookup answers => exact hs.turnOnPrivacySync hhonest
  | turnOffPrivacy connId => exact hs.turnOffPrivacy
  | switch implKey => exact hs.switch
  | clear => exact hs.clear

theorem inv_starts (h : s.starts) : Inv s := by
  obtain ⟨hnone | ⟨implKey, hmode⟩, hdesk⟩ := h
  · refine ⟨?_, ?_, fun _ => hdesk⟩
    · intro impl himpl
      cases hnone.symm.trans himpl
    · intro impl himpl
      cases hnone.symm.trans himpl
  · exact inv_idle hmode ⟨rfl, rfl, rfl⟩ hdesk

/-! ## Calls by another connection -/

/-- The call returns an error and changes nothing. -/
def Refused (creators : String → Bool) (s : Privacy) (c : PrivacyCall) : Prop :=
  (s.call creators c).1.isError = true ∧ (s.call creators c).2 = s

theorem refused_turnOnPrivacy {owner connId : Int} (howner : s.Owns owner) (hother : connId ≠ owner)
    (implKey : String) (lookup : KeyLookup) (answers : Answers) :
    Refused creators s (.turnOnPrivacy implKey connId lookup answers) := by
  obtain ⟨hne, impl, hmode, rfl⟩ := howner
  have hcheck : impl.checkOnConnId connId = .error occupied := by
    unfold checkOnConnId
    rw [if_neg hother.symm, if_pos hne]
  have hnote : s.note = s := by simp only [Privacy.note, hmode, if_neg hne]
  have hprepare : s.prepare creators (getSupportedImpl implKey lookup) connId =
      .error (.error occupied) := by simp only [Privacy.prepare, hmode, hcheck]
  simp only [Refused, Privacy.call, Privacy.turnOnPrivacySync, hnote, hprepare]
  exact ⟨rfl, trivial⟩

theorem refused_turnOffPrivacy {owner connId : Int} (howner : s.Owns owner) (hconn : 0 < connId)
    (hother : connId ≠ owner) : Refused creators s (.turnOffPrivacy connId) := by
  obtain ⟨hne, impl, hmode, rfl⟩ := howner
  have hcheck : impl.checkOffConnId connId = .error turnOffOtherId := by
    unfold checkOffConnId
    rw [if_pos ⟨hne, by omega, hother.symm⟩]
  rcases s with ⟨mode, desk, before⟩
  cases hmode
  simp only [Refused, Privacy.call, Privacy.turnOffPrivacy, PrivacyModeImpl.turnOffPrivacy, hcheck]
  exact ⟨rfl, trivial⟩

/-- **At most one connection owns privacy mode, another one that turns it on or off gets an error
and changes nothing, and when nobody owns it the screens and the input devices are as they were
before it was last turned on, with no watchdog left.** -/
theorem owned_and_restored
    (h : ((system creators).restrict (Honest creators)).Reachable s) :
    (∀ a b, s.Owns a → s.Owns b → a = b) ∧
      (∀ owner connId, s.Owns owner → 0 < connId → connId ≠ owner →
        (∀ implKey lookup answers,
          Refused creators s (.turnOnPrivacy implKey connId lookup answers)) ∧
        Refused creators s (.turnOffPrivacy connId)) ∧
      ((¬ ∃ owner, s.Owns owner) → s.desk = ⟨s.before, []⟩) := by
  have hinv : Inv s := by
    refine h.invariant inv_starts ?_
    intro s c s' hs hstep
    obtain ⟨hhonest, rfl⟩ := hstep
    exact hs.call hhonest
  refine ⟨?_, ?_, ?_⟩
  · rintro a b ⟨-, impl, hmode, rfl⟩ ⟨-, impl', hmode', rfl⟩
    cases hmode.symm.trans hmode'
    rfl
  · intro owner connId howner hconn hother
    exact ⟨refused_turnOnPrivacy howner hother, refused_turnOffPrivacy howner hconn hother⟩
  · intro hnobody
    refine hinv.desk_eq ?_
    intro impl hmode
    by_contra hne
    exact hnobody ⟨impl.connId, hne, impl, hmode, rfl⟩

/-! A desk with one output and one mouse. -/

def linux (implKey : String) : Bool := implKey == privacyModeImplLinux

def verbose : Text := "Screen 0:\neDP-1 connected primary\n\tBrightness: 1.0\n".toList

def oneOutput : Answers where
  processId := 7
  xrandr := .ok ⟨true, verbose⟩
  xinputList := .ok ⟨true, "Mouse\tid=9\t[slave  pointer  (2)]\n".toList⟩
  listProps _ := some "\tDevice Enabled (165):\t1\n".toList
  watchdog := .ok 8
  dim _ := .ok ()
  disable _ := .ok ()

def bright : Screens := ⟨fun _ => "1.0".toList, fun _ => true⟩

theorem truthful_bright : oneOutput.Truthful bright where
  brightness h := by
    have hlines : ∀ line ∈ lines verbose,
        ∀ value ∈ stripPrefix "Brightness:".toList (trim line), trim value = "1.0".toList := by
      decide
    cases h
    intro done line rest name value hls _ _ hvalue
    exact (hlines line (by rw [hls]; simp) value hvalue).symm
  enabled _ _ _ := rfl

def lookedUp : KeyLookup := ⟨true, "", true, privacyModeImplLinux⟩

/-- Connection 1 turns privacy on. -/
def turnsOn : PrivacyCall := .turnOnPrivacy privacyModeImplLinux 1 lookedUp oneOutput

def oneDesk : Privacy := ⟨some (.new privacyModeImplLinux), ⟨bright, []⟩, bright⟩

theorem owned_and_restored_oneDesk :
    (oneDesk.call linux turnsOn).2.Owns 1 ∧
      (oneDesk.call linux turnsOn).2.desk.screens.brightness "eDP-1".toList = "0".toList ∧
      Refused linux (oneDesk.call linux turnsOn).2 (.turnOffPrivacy 2) := by
  have hprepare : oneDesk.note.prepare linux (getSupportedImpl privacyModeImplLinux lookedUp) 1 =
      .ok oneDesk := rfl
  have howns : (oneDesk.call linux turnsOn).2.Owns 1 := ⟨by decide, _, rfl, rfl⟩
  have hhonest : Honest linux oneDesk turnsOn := by
    refine ⟨by decide, ?_⟩
    intro s' hs'
    cases hprepare.symm.trans hs'
    exact truthful_bright
  have hrun := System.Run.start (S := (system linux).restrict (Honest linux)) (s := oneDesk)
    ⟨.inr ⟨_, rfl⟩, rfl⟩
  have hall := owned_and_restored ⟨_, hrun.snoc ⟨hhonest, rfl⟩⟩
  exact ⟨howns, by decide, (hall.2.1 1 2 howns (by decide) (by decide)).2⟩

end Privacy

end HopToDesk.Host
