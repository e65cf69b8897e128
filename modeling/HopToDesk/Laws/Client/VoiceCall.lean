import HopToDesk.Client.VoiceCall

/-!
# Voice calls: who agreed to what

Whatever order the three parties act in, the microphone is not recorded more often than the user of
the controlling side asked, nor than the user of the host agreed (`starts_le`). More takes some care
of the users: neither side forgets a request that was hung up before it was answered, so the answer
still starts the recorder, and a second request before the first answer leaves the host with a call
that the controlling side is not in. Where the user asks only when idle and hangs up only when not
ringing (`Orderly`), the sides come to agree and the recorder obeys the user's last word.
-/

set_option autoImplicit false

namespace HopToDesk.Client.VoiceCall

open Kit

/-! ## The host's connection as a whole -/

/-- What `Callee` keeps is what the connection of the host keeps. -/
structure Callee.Of (h : Callee) (c : Host.Connection) : Prop where
  requested : c.voiceCallRequested = h.voiceCallRequestTimestamp.isSome
  calling : c.voiceCalling = h.voiceCalling

/-- The connection of the host handles an answer as `Callee` does. -/
theorem Callee.Of.handleVoiceCall {h : Callee} {s : Host.State} (hof : h.Of s.conn) (now : Int)
    (accepted : Bool) :
    (h.onCm now (.voiceCallResponse accepted)).1.Of (s.handleVoiceCall accepted).conn := by
  have hrequested := hof.requested
  unfold Host.State.handleVoiceCall Callee.onCm
  cases hts : h.voiceCallRequestTimestamp with
  | none =>
    rw [hts] at hrequested
    simp only [hrequested, Option.isSome_none, Bool.false_eq_true, if_false]
    exact hof
  | some ts =>
    rw [hts] at hrequested
    simp only [hrequested, Option.isSome_some, if_true]
    split
    · exact ⟨rfl, rfl⟩
    · exact ⟨rfl, rfl⟩

/-- And so it closes a call. -/
theorem Callee.Of.closeVoiceCall {h : Callee} {s : Host.State} (hof : h.Of s.conn) (now : Int) :
    (h.onCm now .closeVoiceCall).1.Of s.closeVoiceCall.conn := by
  unfold Host.State.closeVoiceCall
  dsimp only
  split
  · exact ⟨hof.requested, rfl⟩
  · exact ⟨hof.requested, rfl⟩

/-! ## Starts of the recorder -/

/-- The step starts the recorder of the controlling side. -/
def starts (x : Parties × Event) : Bool :=
  match x.2, x.1.toClient with
  | .callerTakes, .response ts true :: _ =>
    x.1.caller.canRecord && x.1.caller.voiceCallRequestTimestamp = some ts
  | _, _ => false

/-- The user of the controlling side asks. -/
def asks (x : Parties × Event) : Bool :=
  match x.2 with
  | .ask _ => true
  | _ => false

/-- The user of the host agrees. -/
def agrees (x : Parties × Event) : Bool := x.2 = .answer true

/-- An answer that agrees, on its way to the controlling side. -/
def ToClient.isYes : ToClient → Bool
  | .response _ accepted => accepted
  | .request _ => false

/-- An answer that agrees, on its way to the connection. -/
def FromCm.isYes : FromCm → Bool
  | .voiceCallResponse accepted => accepted
  | .closeVoiceCall => false

/-- One if a request waits for its answer. -/
def waiting (ts : Option Int) : Nat := if ts.isSome then 1 else 0

/-- The answers under way that agree. -/
def Parties.yes (s : Parties) : Nat :=
  s.toClient.countP ToClient.isYes + s.fromCm.countP FromCm.isYes

/-- Each start used up a request of one user and an agreement of the other; what waits and what is
under way may still start it. -/
structure Counted (tr : List (Parties × Event)) (s : Parties) : Prop where
  asked : tr.countP starts + waiting s.caller.voiceCallRequestTimestamp ≤ tr.countP asks
  agreed : tr.countP starts + s.yes ≤ tr.countP agrees

theorem Counted.snoc {tr : List (Parties × Event)} {s s' : Parties} {x : Parties × Event}
    (h : Counted tr s)
    (hasked : [x].countP starts + waiting s'.caller.voiceCallRequestTimestamp ≤
      waiting s.caller.voiceCallRequestTimestamp + [x].countP asks)
    (hagreed : [x].countP starts + s'.yes ≤ s.yes + [x].countP agrees) :
    Counted (tr ++ [x]) s' := by
  have h₁ := h.asked
  have h₂ := h.agreed
  constructor
  · rw [List.countP_append, List.countP_append]
    omega
  · rw [List.countP_append, List.countP_append]
    omega

/-- A step that neither starts the recorder nor brings anything. -/
theorem Counted.keep {tr : List (Parties × Event)} {s s' : Parties} {e : Event} (h : Counted tr s)
    (hstarts : [(s, e)].countP starts = 0)
    (hwaiting : waiting s'.caller.voiceCallRequestTimestamp ≤
      waiting s.caller.voiceCallRequestTimestamp) (hyes : s'.yes ≤ s.yes) :
    Counted (tr ++ [(s, e)]) s' := by
  apply h.snoc
  · omega
  · omega

theorem waiting_le (ts : Option Int) : waiting ts ≤ 1 := by
  unfold waiting
  split <;> decide

/-- The connection of the host sends an answer for one it takes. -/
theorem countP_onCm_le (h : Callee) (now : Int) (data : FromCm) :
    (h.onCm now data).2.2.countP ToClient.isYes ≤ [data].countP FromCm.isYes := by
  cases data with
  | closeVoiceCall => exact le_refl 0
  | voiceCallResponse accepted =>
    simp only [Callee.onCm]
    split
    · exact le_refl _
    · exact Nat.zero_le _

/-- What the controlling side takes starts the recorder only with a request that waits and an answer
that agrees. -/
theorem countP_callerTakes (s : Parties) (m : ToClient) (rest : List ToClient)
    (hto : s.toClient = m :: rest) :
    [(s, Event.callerTakes)].countP starts +
        waiting (s.caller.handle m).voiceCallRequestTimestamp ≤
      waiting s.caller.voiceCallRequestTimestamp ∧
    [(s, Event.callerTakes)].countP starts ≤ [m].countP ToClient.isYes := by
  rw [List.countP_singleton, starts, hto]
  cases m with
  | request r =>
    simp only [Bool.false_eq_true, if_false, Caller.handle]
    split
    · exact ⟨(Nat.zero_add _).le, Nat.zero_le _⟩
    · exact ⟨(Nat.zero_add _).le, Nat.zero_le _⟩
  | response ts accepted =>
    have hnone : (s.caller.handle (.response ts accepted)).voiceCallRequestTimestamp = none := by
      simp only [Caller.handle]
      split
      · rfl
      · split
        · rfl
        · split <;> rfl
    rw [hnone]
    cases accepted with
    | false =>
      simp only [Bool.false_eq_true, if_false]
      exact ⟨Nat.zero_le _, Nat.zero_le _⟩
    | true =>
      dsimp only
      split
      next hstarts =>
        simp only [Bool.and_eq_true, decide_eq_true_eq] at hstarts
        rw [hstarts.2]
        exact ⟨le_refl 1, le_refl 1⟩
      next => exact ⟨Nat.zero_le _, Nat.zero_le _⟩

theorem Counted.next {tr : List (Parties × Event)} {s s' : Parties} {e : Event}
    (h : Counted tr s) (hs : next s e = some s') : Counted (tr ++ [(s, e)]) s' := by
  cases e with
  | ask now =>
    cases hs
    apply h.snoc
    · have hle := waiting_le (some now)
      simp [starts, asks]
      exact hle.trans (Nat.le_add_left 1 _)
    · simp [starts, agrees, Parties.yes]
  | hangUp now =>
    cases hs
    exact h.keep rfl (le_refl _) (le_refl _)
  | answer accepted =>
    cases hs
    apply h.snoc
    · simp [starts, asks]
    · cases accepted with
      | true => simp [Parties.yes, starts, agrees, FromCm.isYes, Nat.add_assoc]
      | false => simp [Parties.yes, starts, agrees, FromCm.isYes]
  | close =>
    cases hs
    refine h.keep rfl (le_refl _) ?_
    simp [Parties.yes, FromCm.isYes]
  | hostTakes =>
    simp only [VoiceCall.next] at hs
    split at hs
    next => cases hs
    next =>
      cases hs
      exact h.keep rfl (le_refl _) (le_refl _)
  | hostTakesCm now =>
    simp only [VoiceCall.next] at hs
    split at hs
    next => cases hs
    next data rest hfrom =>
      cases hs
      refine h.keep rfl (le_refl _) ?_
      have hle := countP_onCm_le s.callee now data
      rw [List.countP_singleton] at hle
      simp only [Parties.yes, hfrom, List.countP_append, List.countP_cons] at hle ⊢
      calc _ ≤ _ := Nat.add_le_add_right (Nat.add_le_add_left hle _) _
        _ = _ := by ac_rfl
  | callerTakes =>
    simp only [VoiceCall.next] at hs
    split at hs
    next => cases hs
    next m rest hto =>
      cases hs
      obtain ⟨hwaiting, hyes⟩ := countP_callerTakes s m rest hto
      apply h.snoc
      · exact hwaiting.trans (Nat.le_add_right _ _)
      · simp only [Parties.yes, hto, List.countP_cons, List.countP_nil] at hyes ⊢
        omega
  | cmTakes =>
    simp only [VoiceCall.next] at hs
    split at hs
    next => cases hs
    next =>
      cases hs
      exact h.keep rfl (le_refl _) (le_refl _)

/-- **Nobody is recorded without both having agreed.** In every run the recorder starts at most as
often as the user of the controlling side asked for a call, and at most as often as the user of the
host agreed to one. -/
theorem starts_le {tr : List (Parties × Event)} {s : Parties} (h : system.Trace tr s) :
    tr.countP starts ≤ tr.countP asks ∧ tr.countP starts ≤ tr.countP agrees := by
  have hcounted : Counted tr s := by
    induction h with
    | start h =>
      obtain ⟨canRecord, rfl⟩ := h
      exact ⟨le_refl 0, le_refl 0⟩
    | snoc _ hs ih => exact ih.next hs
  exact ⟨(Nat.le_add_right _ _).trans hcounted.asked, (Nat.le_add_right _ _).trans hcounted.agreed⟩

theorem trace_snoc {tr : List (Parties × Event)} {s s' : Parties} (h : system.Trace tr s)
    (e : Event) (hs : next s e = some s') : system.Trace (tr ++ [(s, e)]) s' := h.snoc hs

/-- A call that is asked for, agreed to, and heard. -/
theorem starts_le_once :
    ∃ (tr : List (Parties × Event)) (s : Parties), system.Trace tr s ∧
      s.caller.recording = true ∧ tr.countP starts = 1 ∧ tr.countP starts ≤ tr.countP asks ∧
      tr.countP starts ≤ tr.countP agrees := by
  have hasked := trace_snoc (.start ⟨true, rfl⟩) (.ask 1) rfl
  have hrings := trace_snoc hasked .hostTakes rfl
  have hagreed := trace_snoc hrings (.answer true) rfl
  have hanswered := trace_snoc hagreed (.hostTakesCm 2) rfl
  have hstarted := trace_snoc hanswered .callerTakes rfl
  exact ⟨_, _, hstarted, rfl, rfl, starts_le hstarted⟩

/-- An answer that was waited for before the user hung up still starts the recorder. -/
example : ([.ask 1, .hangUp 2, .hostTakes, .hostTakes, .answer true, .hostTakesCm 3,
    .callerTakes].foldlM next (.new true)).map (fun s => s.caller.recording) = some true := by
  decide

/-! ## Agreement -/

/-- The user of the controlling side asks only in a session that can record, when no request waits
and nothing is recorded, and does not hang up while one waits. -/
def Orderly (s : Parties) : Event → Prop
  | .ask _ =>
    s.caller.canRecord ∧ s.caller.voiceCallRequestTimestamp = none ∧ s.caller.recording = false
  | .hangUp _ => s.caller.voiceCallRequestTimestamp = none
  | _ => True

instance (s : Parties) : DecidablePred (Orderly s) := fun e => by
  cases e <;> unfold Orderly <;> infer_instance

/-- Nothing but the end of a call, to the host. -/
def Ends (l : List Request) : Prop := ∀ r ∈ l, r.isConnect = false

/-- Nothing but the end of a call, to the controlling side. -/
def ClientEnds (l : List ToClient) : Prop := ∀ m ∈ l, ∃ now, m = .request ⟨false, now⟩

theorem ClientEnds.snoc {l : List ToClient} (h : ClientEnds l) (now : Int) :
    ClientEnds (l ++ [.request ⟨false, now⟩]) := by
  unfold ClientEnds
  rw [List.forall_mem_append, List.forall_mem_singleton]
  exact ⟨h, now, rfl⟩

/-- Where the one request is. -/
inductive Place (s : Parties) : Prop
  /-- Nowhere. Both sides are in a call, or one of them has already left and said so. -/
  | idle (hasked : s.caller.voiceCallRequestTimestamp = none)
      (hpending : s.callee.voiceCallRequestTimestamp = none) (hhost : Ends s.toHost)
      (hclient : ClientEnds s.toClient)
      (hcalls : (s.caller.recording && s.toClient.isEmpty) =
        (s.callee.voiceCalling && s.toHost.isEmpty))
  /-- On its way to the host, behind the end of the call before it. -/
  | ringing (ts : Int) (before : List Request)
      (hasked : s.caller.voiceCallRequestTimestamp = some ts)
      (hpending : s.callee.voiceCallRequestTimestamp = none)
      (hhost : s.toHost = before ++ [⟨true, ts⟩]) (hbefore : Ends before)
      (hclient : ClientEnds s.toClient) (hrecording : s.caller.recording = false)
      (hcalling : before = [] → s.callee.voiceCalling = false)
  /-- At the host, where nobody has answered it. -/
  | waits (ts : Int) (hasked : s.caller.voiceCallRequestTimestamp = some ts)
      (hpending : s.callee.voiceCallRequestTimestamp = some ts) (hhost : s.toHost = [])
      (hclient : ClientEnds s.toClient) (hrecording : s.caller.recording = false)
      (hcalling : s.callee.voiceCalling = false)
  /-- Answered, and the answer is on its way. The host may have hung up after it. -/
  | answered (ts : Int) (accepted : Bool) (before after : List ToClient)
      (hasked : s.caller.voiceCallRequestTimestamp = some ts)
      (hpending : s.callee.voiceCallRequestTimestamp = none) (hhost : s.toHost = [])
      (hclient : s.toClient = before ++ .response ts accepted :: after)
      (hbefore : ClientEnds before) (hafter : ClientEnds after)
      (hrecording : s.caller.recording = false)
      (hcalling : s.callee.voiceCalling = (accepted && after.isEmpty))

/-- What the orderly runs keep. -/
structure Agreeing (s : Parties) : Prop where
  place : Place s
  can : s.caller.voiceCallRequestTimestamp.isSome → s.caller.canRecord
  /-- The connection manager shows what it has been told. -/
  shows : (s.toCm.foldl CmClient.handle s.cm).inVoiceCall = s.callee.voiceCalling

section

variable {s : Parties}

/-- What is between the connection and its manager does not matter. -/
theorem Place.congr {s' : Parties} (h : Place s) (hcaller : s'.caller = s.caller)
    (hcallee : s'.callee = s.callee) (htoHost : s'.toHost = s.toHost)
    (htoClient : s'.toClient = s.toClient) : Place s' := by
  cases h with
  | idle hasked hpending hhost hclient hcalls =>
    rw [← hcaller] at hasked hcalls
    rw [← hcallee] at hpending hcalls
    rw [← htoHost] at hhost hcalls
    rw [← htoClient] at hclient hcalls
    exact .idle hasked hpending hhost hclient hcalls
  | ringing ts before hasked hpending hhost hbefore hclient hrecording hcalling =>
    rw [← hcaller] at hasked hrecording
    rw [← hcallee] at hpending hcalling
    exact .ringing ts before hasked hpending (htoHost.trans hhost) hbefore (htoClient ▸ hclient)
      hrecording hcalling
  | waits ts hasked hpending hhost hclient hrecording hcalling =>
    rw [← hcaller] at hasked hrecording
    rw [← hcallee] at hpending hcalling
    exact .waits ts hasked hpending (htoHost.trans hhost) (htoClient ▸ hclient) hrecording hcalling
  | answered ts accepted before after hasked hpending hhost hclient hbefore hafter hrecording
      hcalling =>
    rw [← hcaller] at hasked hrecording
    rw [← hcallee] at hpending hcalling
    exact .answered ts accepted before after hasked hpending (htoHost.trans hhost)
      (htoClient.trans hclient) hbefore hafter hrecording hcalling

theorem Place.ask (h : Place s) (now : Int)
    (hasked : s.caller.voiceCallRequestTimestamp = none) (hrecording : s.caller.recording = false) :
    Place { s with
      caller := { s.caller with voiceCallRequestTimestamp := some now }
      toHost := s.toHost ++ [⟨true, now⟩] } := by
  cases h with
  | idle _ hpending hhost hclient hcalls =>
    refine .ringing now s.toHost rfl hpending rfl hhost hclient hrecording ?_
    intro hnil
    rw [hrecording, hnil, Bool.false_and] at hcalls
    exact (Bool.and_true _).symm.trans hcalls.symm
  | ringing ts _ hts => cases hasked.symm.trans hts
  | waits ts hts => cases hasked.symm.trans hts
  | answered ts _ _ _ hts => cases hasked.symm.trans hts

theorem Place.hangUp (h : Place s) (now : Int)
    (hasked : s.caller.voiceCallRequestTimestamp = none) :
    Place { s with
      caller := { s.caller with recording := false }
      toHost := s.toHost ++ [⟨false, now⟩] } := by
  cases h with
  | idle _ hpending hhost hclient =>
    refine .idle hasked hpending ?_ hclient ?_
    · unfold Ends
      rw [List.forall_mem_append, List.forall_mem_singleton]
      exact ⟨hhost, rfl⟩
    · simp
  | ringing ts _ hts => cases hasked.symm.trans hts
  | waits ts hts => cases hasked.symm.trans hts
  | answered ts _ _ _ hts => cases hasked.symm.trans hts

/-- The host takes a request while no call is on. -/
theorem Place.calling_eq_false (h : Place s) {r : Request} {rest : List Request}
    (hto : s.toHost = r :: rest) (hr : r.isConnect = true) : s.callee.voiceCalling = false := by
  cases h with
  | idle _ _ hhost =>
    rw [hto] at hhost
    rw [hhost r List.mem_cons_self] at hr
    cases hr
  | ringing ts before _ _ hhost hbefore _ _ hcalling =>
    cases before with
    | nil => exact hcalling rfl
    | cons b before =>
      cases hto.symm.trans hhost
      rw [hbefore _ List.mem_cons_self] at hr
      cases hr
  | waits _ _ _ hhost => cases hto.symm.trans hhost
  | answered _ _ _ _ _ _ hhost => cases hto.symm.trans hhost

theorem Place.hostTakes (h : Place s) {r : Request} {rest : List Request}
    (hto : s.toHost = r :: rest) (toCm : List ToCm) :
    Place { s with callee := (s.callee.onVoiceCallRequest r).1, toHost := rest, toCm := toCm } := by
  cases h with
  | idle hasked hpending hhost hclient hcalls =>
    rw [hto] at hhost hcalls
    have hr := hhost r List.mem_cons_self
    rw [Callee.onVoiceCallRequest, if_neg (by rw [hr]; exact Bool.false_ne_true)]
    refine .idle hasked hpending (fun r hr => hhost r (List.mem_cons_of_mem _ hr)) hclient ?_
    rw [hcalls]
    simp
  | ringing ts before hasked hpending hhost hbefore hclient hrecording hcalling =>
    cases before with
    | nil =>
      cases hto.symm.trans hhost
      exact .waits ts hasked rfl rfl hclient hrecording (hcalling rfl)
    | cons b before =>
      cases hto.symm.trans hhost
      have hb := hbefore _ List.mem_cons_self
      rw [Callee.onVoiceCallRequest, if_neg (by rw [hb]; exact Bool.false_ne_true)]
      exact .ringing ts before hasked hpending rfl
        (fun r hr => hbefore r (List.mem_cons_of_mem _ hr)) hclient hrecording fun _ => rfl
  | waits _ _ _ hhost => cases hto.symm.trans hhost
  | answered _ _ _ _ _ _ hhost => cases hto.symm.trans hhost

/-- An answer counts only while the request waits at the host. -/
theorem Place.answer (h : Place s) (now : Int) (accepted : Bool) (fromCm : List FromCm)
    (toCm : List ToCm) :
    Place { s with
      callee := (s.callee.onCm now (.voiceCallResponse accepted)).1
      fromCm := fromCm
      toCm := toCm
      toClient := s.toClient ++ (s.callee.onCm now (.voiceCallResponse accepted)).2.2 } := by
  cases h with
  | idle hasked hpending hhost hclient hcalls =>
    simp only [Callee.onCm, hpending, List.append_nil]
    exact .idle hasked hpending hhost hclient hcalls
  | ringing ts before hasked hpending hhost hbefore hclient hrecording hcalling =>
    simp only [Callee.onCm, hpending, List.append_nil]
    exact .ringing ts before hasked hpending hhost hbefore hclient hrecording hcalling
  | waits ts hasked hpending hhost hclient hrecording =>
    simp only [Callee.onCm, hpending]
    exact .answered ts accepted s.toClient [] hasked rfl hhost rfl hclient (by rintro _ ⟨⟩)
      hrecording (Bool.and_true _).symm
  | answered ts accepted before after hasked hpending hhost hclient hbefore hafter hrecording
      hcalling =>
    simp only [Callee.onCm, hpending, List.append_nil]
    exact .answered ts accepted before after hasked hpending hhost hclient hbefore hafter hrecording
      hcalling

/-- The user of the host may hang up at any time. -/
theorem Place.close (h : Place s) (now : Int) (fromCm : List FromCm) (toCm : List ToCm) :
    Place { s with
      callee := { s.callee with voiceCalling := false }
      fromCm := fromCm
      toCm := toCm
      toClient := s.toClient ++ [.request ⟨false, now⟩] } := by
  cases h with
  | idle hasked hpending hhost hclient =>
    refine .idle hasked hpending hhost (hclient.snoc now) ?_
    simp
  | ringing ts before hasked hpending hhost hbefore hclient hrecording =>
    exact .ringing ts before hasked hpending hhost hbefore (hclient.snoc now) hrecording
      fun _ => rfl
  | waits ts hasked hpending hhost hclient hrecording =>
    exact .waits ts hasked hpending hhost (hclient.snoc now) hrecording rfl
  | answered ts accepted before after hasked hpending hhost hclient hbefore hafter hrecording =>
    refine .answered ts accepted before (after ++ [.request ⟨false, now⟩]) hasked hpending hhost ?_
      hbefore (hafter.snoc now) hrecording ?_
    · simp [hclient]
    · simp

theorem Place.callerTakes (h : Place s) {m : ToClient} {rest : List ToClient}
    (hto : s.toClient = m :: rest)
    (hcan : s.caller.voiceCallRequestTimestamp.isSome → s.caller.canRecord) :
    Place { s with caller := s.caller.handle m, toClient := rest } := by
  -- What is not the answer ends a recording.
  have hends : ∀ {l}, ClientEnds (m :: l) →
      s.caller.handle m = { s.caller with recording := false } ∧ ClientEnds l := by
    intro l hl
    obtain ⟨now, rfl⟩ := hl m List.mem_cons_self
    exact ⟨rfl, fun m hm => hl m (List.mem_cons_of_mem _ hm)⟩
  cases h with
  | idle hasked hpending hhost hclient hcalls =>
    rw [hto] at hclient hcalls
    obtain ⟨hhandle, hrest⟩ := hends hclient
    rw [hhandle]
    refine .idle hasked hpending hhost hrest ?_
    rw [← hcalls]
    simp
  | ringing ts before hasked hpending hhost hbefore hclient _ hcalling =>
    rw [hto] at hclient
    obtain ⟨hhandle, hrest⟩ := hends hclient
    rw [hhandle]
    exact .ringing ts before hasked hpending hhost hbefore hrest rfl hcalling
  | waits ts hasked hpending hhost hclient _ hcalling =>
    rw [hto] at hclient
    obtain ⟨hhandle, hrest⟩ := hends hclient
    rw [hhandle]
    exact .waits ts hasked hpending hhost hrest rfl hcalling
  | answered ts accepted before after hasked hpending hhost hclient hbefore hafter hrecording
      hcalling =>
    cases before with
    | cons b before =>
      cases hto.symm.trans hclient
      obtain ⟨hhandle, hrest⟩ := hends hbefore
      rw [hhandle]
      exact .answered ts accepted before after hasked hpending hhost rfl hrest hafter rfl hcalling
    | nil =>
      cases hto.symm.trans hclient
      rw [hasked] at hcan
      have hrecord : (s.caller.handle (.response ts accepted)).recording = accepted := by
        simp only [Caller.handle, hasked, ne_eq, not_true, if_false]
        cases accepted with
        | true => exact hcan rfl
        | false => exact hrecording
      have hnone : (s.caller.handle (.response ts accepted)).voiceCallRequestTimestamp = none := by
        simp only [Caller.handle, hasked, ne_eq, not_true, if_false]
        split <;> rfl
      refine .idle hnone hpending ?_ hafter ?_
      · rw [hhost]
        rintro _ ⟨⟩
      · rw [hrecord, hcalling, hhost]
        exact (Bool.and_true _).symm

end

theorem shows_append {s : Parties} (toCm : List ToCm) :
    (s.toCm ++ toCm).foldl CmClient.handle s.cm =
      toCm.foldl CmClient.handle (s.toCm.foldl CmClient.handle s.cm) :=
  List.foldl_append

/-- What the caller takes leaves no request of its own that it did not have. -/
theorem Caller.handle_timestamp (c : Caller) (m : ToClient) :
    (c.handle m).voiceCallRequestTimestamp = none ∨
      (c.handle m).voiceCallRequestTimestamp = c.voiceCallRequestTimestamp := by
  cases m with
  | request r =>
    unfold Caller.handle
    dsimp only
    split
    · exact .inr rfl
    · exact .inr rfl
  | response ts accepted =>
    apply Or.inl
    simp only [Caller.handle]
    split
    · rfl
    · split
      · rfl
      · split <;> rfl

theorem Caller.handle_canRecord (c : Caller) (m : ToClient) :
    (c.handle m).canRecord = c.canRecord := by
  cases m with
  | request r =>
    unfold Caller.handle
    dsimp only
    split <;> rfl
  | response ts accepted =>
    simp only [Caller.handle]
    split
    · rfl
    · split
      · rfl
      · split <;> rfl

theorem Agreeing.next {s s' : Parties} {e : Event} (h : Agreeing s) (ho : Orderly s e)
    (hs : next s e = some s') : Agreeing s' := by
  have hshows := h.shows
  cases e with
  | ask now =>
    cases hs
    obtain ⟨hcan, hasked, hrecording⟩ := ho
    exact ⟨h.place.ask now hasked hrecording, fun _ => hcan, hshows⟩
  | hangUp now =>
    cases hs
    exact ⟨h.place.hangUp now ho, h.can, hshows⟩
  | answer accepted =>
    cases hs
    exact ⟨h.place.congr rfl rfl rfl rfl, h.can, hshows⟩
  | close =>
    cases hs
    exact ⟨h.place.congr rfl rfl rfl rfl, h.can, hshows⟩
  | hostTakes =>
    simp only [VoiceCall.next] at hs
    split at hs
    next => cases hs
    next r rest hto =>
      cases hs
      refine ⟨h.place.hostTakes hto _, h.can, ?_⟩
      dsimp only
      rw [shows_append]
      unfold Callee.onVoiceCallRequest
      split
      next hr => exact (h.place.calling_eq_false hto hr).symm
      next => rfl
  | hostTakesCm now =>
    simp only [VoiceCall.next] at hs
    split at hs
    next => cases hs
    next data rest hfrom =>
      cases hs
      cases data with
      | closeVoiceCall =>
        refine ⟨h.place.close now _ _, h.can, ?_⟩
        dsimp only
        rw [shows_append]
        rfl
      | voiceCallResponse accepted =>
        refine ⟨h.place.answer now accepted _ _, h.can, ?_⟩
        dsimp only
        rw [shows_append]
        simp only [Callee.onCm]
        split
        · cases accepted <;> rfl
        · exact hshows
  | callerTakes =>
    simp only [VoiceCall.next] at hs
    split at hs
    next => cases hs
    next m rest hto =>
      cases hs
      refine ⟨h.place.callerTakes hto h.can, ?_, hshows⟩
      dsimp only
      rw [Caller.handle_canRecord]
      obtain hts | hts := s.caller.handle_timestamp m
      · rw [hts]
        intro hsome
        cases hsome
      · rw [hts]
        exact h.can
  | cmTakes =>
    simp only [VoiceCall.next] at hs
    split at hs
    next => cases hs
    next data rest hto =>
      cases hs
      rw [hto, List.foldl_cons] at hshows
      exact ⟨h.place.congr rfl rfl rfl rfl, h.can, hshows⟩

/-- Nothing is under way, and nobody has yet to answer. -/
def Parties.quiet (s : Parties) : Prop :=
  s.toHost = [] ∧ s.toClient = [] ∧ s.toCm = [] ∧ s.fromCm = []

/-- What the user of the controlling side said last. -/
def lastWord (tr : List (Parties × Event)) : Option Bool :=
  (tr.map Prod.snd).foldl (fun word e =>
    match e with
    | .ask _ => some true
    | .hangUp _ => some false
    | _ => word) none

theorem lastWord_snoc (tr : List (Parties × Event)) (s : Parties) (e : Event) :
    lastWord (tr ++ [(s, e)]) =
      match e with
      | .ask _ => some true
      | .hangUp _ => some false
      | _ => lastWord tr := by
  unfold lastWord
  rw [List.map_append, List.foldl_append]
  cases e <;> rfl

/-- After the user has hung up nothing is recorded, and no answer is waited for. -/
def Obeys (tr : List (Parties × Event)) (s : Parties) : Prop :=
  lastWord tr = some true ∨
    s.caller.recording = false ∧ s.caller.voiceCallRequestTimestamp = none

/-- Without a request that waits nothing starts the recorder. -/
theorem Caller.handle_idle {c : Caller} (hrecording : c.recording = false)
    (hasked : c.voiceCallRequestTimestamp = none) (m : ToClient) :
    (c.handle m).recording = false ∧ (c.handle m).voiceCallRequestTimestamp = none := by
  cases m with
  | request r =>
    unfold Caller.handle
    dsimp only
    split
    · exact ⟨hrecording, hasked⟩
    · exact ⟨rfl, hasked⟩
  | response ts accepted =>
    simp only [Caller.handle, hasked]
    exact ⟨hrecording, trivial⟩

theorem Obeys.next {tr : List (Parties × Event)} {s s' : Parties} {e : Event} (h : Obeys tr s)
    (ho : Orderly s e) (hs : next s e = some s') : Obeys (tr ++ [(s, e)]) s' := by
  unfold Obeys
  rw [lastWord_snoc]
  cases e with
  | ask now => exact .inl rfl
  | hangUp now =>
    cases hs
    exact .inr ⟨rfl, ho⟩
  | answer accepted =>
    cases hs
    exact h
  | close =>
    cases hs
    exact h
  | hostTakes =>
    simp only [VoiceCall.next] at hs
    split at hs
    next => cases hs
    next =>
      cases hs
      exact h
  | hostTakesCm now =>
    simp only [VoiceCall.next] at hs
    split at hs
    next => cases hs
    next =>
      cases hs
      exact h
  | callerTakes =>
    simp only [VoiceCall.next] at hs
    split at hs
    next => cases hs
    next m rest hto =>
      cases hs
      exact h.imp_right fun hidle => Caller.handle_idle hidle.1 hidle.2 m
  | cmTakes =>
    simp only [VoiceCall.next] at hs
    split at hs
    next => cases hs
    next =>
      cases hs
      exact h

/-- **The sides come to agree, and the caller's last word counts.** In every orderly run the
recorder runs only if the user of the controlling side last asked for a call. When nothing is under
way any more, it runs exactly if the host thinks that it is in a call, which is what the connection
manager shows; and the host waits for an answer to just the request that the controlling side waits
for. -/
theorem agree_of_orderly {tr : List (Parties × Event)} {s : Parties}
    (h : (system.restrict Orderly).Trace tr s) :
    (s.caller.recording = true → lastWord tr = some true) ∧
      (s.quiet →
        s.caller.recording = s.callee.voiceCalling ∧
        s.cm.inVoiceCall = s.callee.voiceCalling ∧
        s.caller.voiceCallRequestTimestamp = s.callee.voiceCallRequestTimestamp) := by
  have hinv : Agreeing s ∧ Obeys tr s := by
    induction h with
    | start h =>
      obtain ⟨canRecord, rfl⟩ := h
      refine ⟨⟨.idle rfl rfl ?_ ?_ rfl, ?_, rfl⟩, .inr ⟨rfl, rfl⟩⟩
      · rintro _ ⟨⟩
      · rintro _ ⟨⟩
      · rintro ⟨⟩
    | snoc _ hs ih => exact ⟨ih.1.next hs.1 hs.2, ih.2.next hs.1 hs.2⟩
  obtain ⟨hagree, hobeys⟩ := hinv
  constructor
  · intro hrecording
    obtain hword | ⟨hnot, -⟩ := hobeys
    · exact hword
    · cases hrecording.symm.trans hnot
  · rintro ⟨htoHost, htoClient, htoCm, -⟩
    have hshows := hagree.shows
    rw [htoCm] at hshows
    cases hagree.place with
    | idle hasked hpending _ _ hcalls =>
      rw [htoHost, htoClient] at hcalls
      simp only [List.isEmpty_nil, Bool.and_true] at hcalls
      exact ⟨hcalls, hshows, hasked.trans hpending.symm⟩
    | ringing ts before _ _ hhost =>
      exact absurd (htoHost.symm.trans hhost).symm
        (List.append_ne_nil_of_right_ne_nil _ (List.cons_ne_nil _ _))
    | waits ts hasked hpending _ _ hrecording hcalling =>
      exact ⟨hrecording.trans hcalling.symm, hshows, hasked.trans hpending.symm⟩
    | answered ts accepted before after _ _ _ hclient =>
      exact absurd (htoClient.symm.trans hclient).symm
        (List.append_ne_nil_of_right_ne_nil _ (List.cons_ne_nil _ _))

theorem orderly_snoc {tr : List (Parties × Event)} {s s' : Parties}
    (h : (system.restrict Orderly).Trace tr s) (e : Event) (ho : Orderly s e)
    (hs : next s e = some s') : (system.restrict Orderly).Trace (tr ++ [(s, e)]) s' :=
  h.snoc ⟨ho, hs⟩

/-- Both hang up at once, each before it hears of the other. -/
theorem agree_of_orderly_both :
    ∃ (tr : List (Parties × Event)) (s : Parties), (system.restrict Orderly).Trace tr s ∧
      s.quiet ∧ tr.length = 14 ∧
      (s.caller.recording = true → lastWord tr = some true) ∧
      s.caller.recording = s.callee.voiceCalling ∧
      s.cm.inVoiceCall = s.callee.voiceCalling := by
  have hasked := orderly_snoc (.start ⟨true, rfl⟩) (.ask 1) ⟨rfl, rfl, rfl⟩ rfl
  have hrings := orderly_snoc hasked .hostTakes trivial rfl
  have hagreed := orderly_snoc hrings (.answer true) trivial rfl
  have hanswered := orderly_snoc hagreed (.hostTakesCm 2) trivial rfl
  have hstarted := orderly_snoc hanswered .callerTakes trivial rfl
  have hleft := orderly_snoc hstarted (.hangUp 3) rfl rfl
  have hclosed := orderly_snoc hleft .close trivial rfl
  have hpassed := orderly_snoc hclosed (.hostTakesCm 4) trivial rfl
  have hover := orderly_snoc hpassed .hostTakes trivial rfl
  have hheard := orderly_snoc hover .callerTakes trivial rfl
  have hcm₁ := orderly_snoc hheard .cmTakes trivial rfl
  have hcm₂ := orderly_snoc hcm₁ .cmTakes trivial rfl
  have hcm₃ := orderly_snoc hcm₂ .cmTakes trivial rfl
  have hlast := orderly_snoc hcm₃ .cmTakes trivial rfl
  obtain ⟨hword, hagree⟩ := agree_of_orderly hlast
  have hquiet := hagree ⟨rfl, rfl, rfl, rfl⟩
  exact ⟨_, _, hlast, ⟨rfl, rfl, rfl, rfl⟩, rfl, hword, hquiet.1, hquiet.2.1⟩

end HopToDesk.Client.VoiceCall
