import HopToDesk.Client.Reconnect

/-!
# One thread at a time

What keeps two session threads apart is that a round begins only when the thread of the round before
has connected and been sent `Data::Close`, or has ended. Three things get in the way: the
`Data::Close` that `reconnect` sends first of all, calls that are made before the first thread is
there, and a thread that outlives the `u32` in which rounds are counted. A run that has none of these
is safe (`safe_of_orderly`).
-/

set_option autoImplicit false

namespace HopToDesk.Client

open Kit

namespace SessionThread

variable (t : SessionThread)

/-- It connects, or is in its loop. -/
def Running : Prop := t.phase = .starting ∨ t.phase = .connecting ∨ t.phase = .inLoop

/-- And it has not been told to close. -/
def Active : Prop := t.Running ∧ t.queue = []

/-- It has ended, or will when it next looks. -/
def Superseded : Prop := t.phase = .leaving ∨ t.phase = .ended ∨ t.phase = .inLoop ∧ t.queue ≠ []

/-- The phases of the current thread in this state of the connection. -/
def Fits : ConnectionState → Prop
  | .connecting => t.phase = .starting ∨ t.phase = .connecting ∨ t.phase = .leaving
  | .connected => t.phase = .inLoop ∨ t.phase = .leaving
  | .disconnected => t.phase = .ended

theorem Fits.congr {t : SessionThread} {a b : ConnectionState} (h : a = b) (hfits : t.Fits b) :
    t.Fits a := h ▸ hfits

theorem not_active_of_superseded {t : SessionThread} (h : t.Superseded) : ¬ t.Active := by
  rintro ⟨hrunning, hqueue⟩
  rcases h with h | h | ⟨-, h⟩
  · rcases hrunning with hr | hr | hr <;> rw [h] at hr <;> cases hr
  · rcases hrunning with hr | hr | hr <;> rw [h] at hr <;> cases hr
  · exact h hqueue

end SessionThread

theorem ConnectionRoundState.isRoundGt_round (c : ConnectionRoundState) :
    c.isRoundGt c.round = false := by
  unfold isRoundGt
  rw [if_neg]
  · exact decide_eq_false (UInt32.lt_irrefl _)
  · rintro ⟨hmax, hzero⟩
    rw [hzero] at hmax
    exact absurd hmax (by decide)

namespace Session

/-- At most one thread connects or is in its loop without having been told to close; the connection
counts as connecting or connected only while the thread of the round has not ended; and no round was
ended by a call made while it was connecting. -/
structure Safe (s : Session) : Prop where
  alone : ∀ {g g' : Nat} {t t' : SessionThread}, s.threads g = some t → s.threads g' = some t' →
    t.Active → t'.Active → g = g'
  current : s.state ≠ .disconnected → ∀ t ∈ s.threads s.number, t.phase ≠ .ended
  spared : ∀ {g : Nat} {t : SessionThread}, s.threads g = some t → t.closedBy ≠ some (some g)

/-- No call begins while the thread of the round connects with its sender installed. When a call
comes to its check and there is no thread yet, no round has begun either; and it was not made while
the round was connecting that is connected now. A thread of an earlier round ends while its round
still counts as an earlier one. -/
def Orderly (s : Session) : Step → Prop
  | .call _ => (s.threads s.number).map (·.phase) ≠ some .connecting
  | .check c => (s.thread = false → s.number = 0) ∧
    (s.state = .connected → (s.calls c).bind (·.madeWhile) ≠ some s.number)
  | .setDisconnected g => g < s.number →
    (s.threads g).all (fun t => s.connectionRoundState.isRoundGt t.round) = true
  | _ => True

instance (s : Session) : (step : Step) → Decidable (s.Orderly step)
  | .call _ => inferInstanceAs (Decidable (_ ≠ _))
  | .check _ => inferInstanceAs (Decidable ((_ → _) ∧ (_ → _)))
  | .setDisconnected _ => inferInstanceAs (Decidable (_ → _))
  | .spawn _ => isTrue trivial
  | .setSender _ => isTrue trivial
  | .connected _ => isTrue trivial
  | .connectFailed _ => isTrue trivial
  | .receiveClose _ => isTrue trivial
  | .lost _ => isTrue trivial

@[simp]
theorem threads_setThread_self (s : Session) (g : Nat) (t : SessionThread) :
    (s.setThread g t).threads g = some t :=
  Function.update_self _ _ _

theorem threads_setThread_of_ne (s : Session) {g g' : Nat} (h : g' ≠ g) (t : SessionThread) :
    (s.setThread g t).threads g' = s.threads g' :=
  Function.update_of_ne h _ _

@[simp]
theorem calls_setCall_self (s : Session) (c : Nat) (call : ReconnectCall) :
    (s.setCall c call).calls c = some call :=
  Function.update_self _ _ _

theorem calls_setCall_of_ne (s : Session) {c c' : Nat} (h : c' ≠ c) (call : ReconnectCall) :
    (s.setCall c call).calls c' = s.calls c' :=
  Function.update_of_ne h _ _

/-! ## The invariant -/

/-- The call has begun a round, and has yet to start its thread. -/
def Spawning (s : Session) (c g : Nat) (round : UInt32) : Prop :=
  ∃ madeWhile, s.calls c = some ⟨madeWhile, .toSpawn g round⟩

structure ThreadInv (s : Session) (g : Nat) (t : SessionThread) : Prop where
  pos : 0 < g
  le : g ≤ s.number
  old : g < s.number → t.Superseded
  round : g = s.number → t.round = s.connectionRoundState.round
  fits : g = s.number → t.Fits s.state
  sender : g = s.number → t.phase ≠ .starting → s.sender = some g
  queue : t.Running → some g ∉ t.queue
  spared : t.closedBy ≠ some (some g)

structure Inv (s : Session) : Prop where
  threads : ∀ {g : Nat} {t : SessionThread}, s.threads g = some t → s.ThreadInv g t
  sender : ∀ {g : Nat}, s.sender = some g → ∃ t, s.threads g = some t ∧ t.phase ≠ .starting
  absent : s.threads s.number = none → s.state = .connecting
  spawning : ∀ {c g : Nat} {round : UInt32}, s.Spawning c g round →
    g = s.number ∧ 0 < g ∧ round = s.connectionRoundState.round ∧ s.threads g = none
  unique : ∀ {c c' g g' : Nat} {round round' : UInt32}, s.Spawning c g round →
    s.Spawning c' g' round' → c = c'

theorem Inv.safe {s : Session} (h : s.Inv) : s.Safe where
  alone := by
    have hcurrent {g : Nat} {t : SessionThread} (ht : s.threads g = some t) (hactive : t.Active) :
        g = s.number := by
      have hinv := h.threads ht
      by_contra hne
      exact SessionThread.not_active_of_superseded (hinv.old (lt_of_le_of_ne hinv.le hne)) hactive
    intro g g' t t' ht ht' hactive hactive'
    rw [hcurrent ht hactive, hcurrent ht' hactive']
  current := by
    intro hstate t ht hended
    have hfits := (h.threads ht).fits rfl
    cases hs : s.state with
    | connecting =>
      rw [hs] at hfits
      rcases hfits with hp | hp | hp <;> rw [hended] at hp <;> cases hp
    | connected =>
      rw [hs] at hfits
      rcases hfits with hp | hp <;> rw [hended] at hp <;> cases hp
    | disconnected => exact hstate hs
  spared ht := (h.threads ht).spared

theorem inv_new : Inv new where
  threads := by rintro g t ⟨⟩
  sender := by rintro g ⟨⟩
  absent _ := rfl
  spawning := by rintro c g round ⟨madeWhile, ⟨⟩⟩
  unique := by rintro c c' g g' round round' ⟨madeWhile, ⟨⟩⟩

/-! ## Steps -/

namespace Inv

variable {s : Session} {g : Nat} {t : SessionThread}

/-- A step of one thread. -/
theorem of_thread (h : s.Inv) (ht : s.threads g = some t) {s' : Session} {t' : SessionThread}
    (hthreads : s'.threads = (s.setThread g t').threads) (hnumber : s'.number = s.number)
    (hcalls : s'.calls = s.calls)
    (hround : s'.connectionRoundState.round = s.connectionRoundState.round)
    (hstate : g ≠ s.number → s'.state = s.state)
    (hsender : ∀ g', s'.sender = some g' →
      g' = g ∧ t'.phase ≠ .starting ∨ g' ≠ g ∧ s.sender = some g')
    (hinv : s'.ThreadInv g t')
    (hothers : ∀ {g' t''}, g' ≠ g → s.ThreadInv g' t'' → s'.ThreadInv g' t'') : s'.Inv where
  threads := by
    intro g' t'' ht''
    rw [hthreads] at ht''
    by_cases hg : g' = g
    · subst hg
      rw [threads_setThread_self] at ht''
      cases ht''
      exact hinv
    · rw [threads_setThread_of_ne s hg] at ht''
      exact hothers hg (h.threads ht'')
  sender := by
    intro g' hg'
    rw [hthreads]
    rcases hsender g' hg' with ⟨rfl, hphase⟩ | ⟨hne, hold⟩
    · exact ⟨t', threads_setThread_self s g' t', hphase⟩
    · obtain ⟨t'', ht'', hphase⟩ := h.sender hold
      exact ⟨t'', (threads_setThread_of_ne s hne t').trans ht'', hphase⟩
  absent := by
    rw [hnumber, hthreads]
    intro hnone
    by_cases hg : s.number = g
    · subst hg
      exact absurd ((threads_setThread_self s _ t').symm.trans hnone) (Option.some_ne_none _)
    · rw [hstate (Ne.symm hg)]
      exact h.absent ((threads_setThread_of_ne s hg t').symm.trans hnone)
  spawning := by
    rintro c g' round ⟨madeWhile, hcall⟩
    rw [hcalls] at hcall
    obtain ⟨hg', hpos, hr, hnone⟩ := h.spawning ⟨madeWhile, hcall⟩
    have hg : g' ≠ g := by
      rintro rfl
      rw [ht] at hnone
      cases hnone
    rw [hnumber, hround, hthreads]
    exact ⟨hg', hpos, hr, (threads_setThread_of_ne s hg t').trans hnone⟩
  unique := by
    rintro c c' g g' round round' ⟨madeWhile, hcall⟩ ⟨madeWhile', hcall'⟩
    rw [hcalls] at hcall hcall'
    exact h.unique ⟨madeWhile, hcall⟩ ⟨madeWhile', hcall'⟩

/-- A step of one thread that touches nothing else. -/
theorem setThread (h : s.Inv) (ht : s.threads g = some t) {t' : SessionThread}
    (hinv : s.ThreadInv g t') (hstarting : t.phase ≠ .starting → t'.phase ≠ .starting) :
    (s.setThread g t').Inv := by
  refine h.of_thread ht rfl rfl rfl rfl (fun _ => rfl) ?_ ?_ ?_
  · intro g' hg'
    by_cases hg : g' = g
    · subst hg
      obtain ⟨t'', ht'', hphase⟩ := h.sender hg'
      rw [ht] at ht''
      cases ht''
      exact .inl ⟨rfl, hstarting hphase⟩
    · exact .inr ⟨hg, hg'⟩
  · exact ⟨hinv.pos, hinv.le, hinv.old, hinv.round, hinv.fits, hinv.sender, hinv.queue, hinv.spared⟩
  · intro g' t'' _ h'
    exact ⟨h'.pos, h'.le, h'.old, h'.round, h'.fits, h'.sender, h'.queue, h'.spared⟩

/-- A call that has not begun a round. -/
theorem setCall (h : s.Inv) (c : Nat) {call : ReconnectCall}
    (hcall : ∀ g round, call.phase ≠ .toSpawn g round) : (s.setCall c call).Inv := by
  have hspawning {c' g : Nat} {round : UInt32} (h' : (s.setCall c call).Spawning c' g round) :
      s.Spawning c' g round := by
    obtain ⟨madeWhile, h'⟩ := h'
    by_cases hc : c' = c
    · subst hc
      rw [calls_setCall_self] at h'
      cases h'
      exact absurd rfl (hcall g round)
    · exact ⟨madeWhile, (calls_setCall_of_ne s hc call).symm.trans h'⟩
  exact
    { threads := fun ht =>
        have hinv := h.threads ht
        ⟨hinv.pos, hinv.le, hinv.old, hinv.round, hinv.fits, hinv.sender, hinv.queue, hinv.spared⟩
      sender := h.sender
      absent := h.absent
      spawning := fun h' => h.spawning (hspawning h')
      unique := fun h' h'' => h.unique (hspawning h') (hspawning h'') }

/-- A close that is not of a call made while the round was connecting to which it goes. -/
theorem sendClose (h : s.Inv) {close : MadeWhile}
    (hclose : ∀ {g t}, s.sender = some g → s.threads g = some t → t.Running → close ≠ some g) :
    (s.sendClose close).Inv := by
  unfold Session.sendClose
  split
  · exact h
  next g hsender =>
  split
  · exact h
  next t ht =>
    have hinv := h.threads ht
    refine h.setThread ht ⟨hinv.pos, hinv.le, ?_, hinv.round, ?_, hinv.sender, ?_, hinv.spared⟩ id
    · intro hlt
      rcases hinv.old hlt with hp | hp | ⟨hp, -⟩
      · exact .inl hp
      · exact .inr (.inl hp)
      · exact .inr (.inr ⟨hp, by simp⟩)
    · intro hg
      exact hinv.fits hg
    · intro hrunning hmem
      rcases List.mem_append.mp hmem with hmem | hmem
      · exact hinv.queue hrunning hmem
      · exact hclose hsender ht hrunning (List.mem_singleton.mp hmem).symm

/-- A round begins when the thread of the one before is superseded. -/
theorem beginRound (h : s.Inv) (c : Nat) (madeWhile : MadeWhile)
    (hnone : ∀ {c g round}, ¬ s.Spawning c g round)
    (hold : ∀ t ∈ s.threads s.number, t.Superseded) : (s.beginRound c madeWhile).Inv := by
  have hspawning {c' g : Nat} {round : UInt32}
      (h' : (s.beginRound c madeWhile).Spawning c' g round) :
      c' = c ∧ g = s.number + 1 ∧ round = s.connectionRoundState.newRound.round := by
    obtain ⟨madeWhile', h'⟩ := h'
    by_cases hc : c' = c
    · subst hc
      have hself := calls_setCall_self { s with
        connectionRoundState := s.connectionRoundState.newRound
        number := s.number + 1 } c' ⟨madeWhile, .toSpawn (s.number + 1)
          s.connectionRoundState.newRound.round⟩
      cases hself.symm.trans h'
      exact ⟨rfl, rfl, rfl⟩
    · exact absurd ⟨madeWhile', (calls_setCall_of_ne _ hc _).symm.trans h'⟩ hnone
  exact
    { threads := by
        intro g t ht
        have hinv := h.threads ht
        have hlt : g < s.number + 1 := Nat.lt_succ_of_le hinv.le
        refine ⟨hinv.pos, hlt.le, fun _ => ?_, fun hg => absurd hg hlt.ne,
          fun hg => absurd hg hlt.ne, fun hg => absurd hg hlt.ne, hinv.queue, hinv.spared⟩
        rcases hinv.le.lt_or_eq with hg | hg
        · exact hinv.old hg
        · exact hold t (hg ▸ ht)
      sender := h.sender
      absent := fun _ => rfl
      spawning := by
        intro c' g round h'
        obtain ⟨-, rfl, rfl⟩ := hspawning h'
        refine ⟨rfl, Nat.succ_pos _, rfl, ?_⟩
        have hthreads : (s.beginRound c madeWhile).threads = s.threads := rfl
        rw [hthreads, Option.eq_none_iff_forall_ne_some]
        intro t ht
        exact absurd (h.threads ht).le (Nat.not_succ_le_self _)
      unique := fun h' h'' => (hspawning h').1.trans (hspawning h'').1.symm }

/-- A round has begun of which there is no thread yet: the connection counts as connecting. -/
theorem state_of_spawning (h : s.Inv) {c g : Nat} {round : UInt32} (h' : s.Spawning c g round) :
    s.state = .connecting := by
  obtain ⟨rfl, -, -, hnone⟩ := h.spawning h'
  exact h.absent hnone

theorem check (h : s.Inv) {c : Nat} {madeWhile : MadeWhile}
    (hslot : s.thread = false → s.number = 0) (hmade : s.state = .connected → madeWhile ≠ some s.number) : (s.check c madeWhile).Inv := by
  unfold Session.check
  split
  · cases hstate : s.state with
    | connecting => exact h.setCall c (by rintro g round ⟨⟩)
    | connected =>
      obtain ⟨t, ht⟩ : ∃ t, s.threads s.number = some t := by
        rw [← Option.ne_none_iff_exists']
        intro hnone
        rw [h.absent hnone] at hstate
        cases hstate
      have hinv := h.threads ht
      have hfits : t.phase = .inLoop ∨ t.phase = .leaving := by
        have hfits := hinv.fits rfl
        rwa [hstate] at hfits
      have hsender : s.sender = some s.number := by
        refine hinv.sender rfl ?_
        rcases hfits with hp | hp <;> rw [hp] <;> rintro ⟨⟩
      have hsent : (s.sendClose madeWhile).Inv := by
        refine h.sendClose ?_
        intro g t hg _ _
        rw [hsender] at hg
        cases hg
        exact hmade hstate
      have heq : s.sendClose madeWhile =
          s.setThread s.number { t with queue := t.queue ++ [madeWhile] } := by
        unfold Session.sendClose
        rw [hsender]
        dsimp only
        rw [ht]
      rw [heq] at hsent ⊢
      refine hsent.beginRound c madeWhile ?_ ?_
      · intro c g round h'
        have hconnecting := hsent.state_of_spawning h'
        exact absurd (hconnecting.symm.trans hstate) (by rintro ⟨⟩)
      · intro t' ht'
        rw [Option.mem_def] at ht'
        cases (threads_setThread_self s s.number _).symm.trans ht'
        rcases hfits with hp | hp
        · exact .inr (.inr ⟨hp, by simp⟩)
        · exact .inl hp
    | disconnected =>
      refine h.beginRound c madeWhile ?_ ?_
      · intro c g round h'
        rw [h.state_of_spawning h'] at hstate
        cases hstate
      · intro t ht
        have hfits := (h.threads ht).fits rfl
        rw [hstate] at hfits
        exact .inr (.inl hfits)
  next hthread =>
    have hzero := hslot (Bool.eq_false_of_not_eq_true hthread)
    refine h.beginRound c madeWhile ?_ ?_
    · intro c g round h'
      obtain ⟨hg, hpos, -⟩ := h.spawning h'
      omega
    · intro t ht
      have hinv := h.threads ht
      exact absurd hinv.pos (by rw [hzero]; exact Nat.lt_irrefl 0)

theorem call (h : s.Inv) {c : Nat} {madeWhile : MadeWhile}
    (hmade : madeWhile = if s.state = .connecting then some s.number else none)
    (horderly : (s.threads s.number).map (·.phase) ≠ some .connecting) :
    ((s.sendClose madeWhile).setCall c ⟨madeWhile, .toCheck⟩).Inv := by
  refine (h.sendClose ?_).setCall c (by rintro g round ⟨⟩)
  rintro g t hsender ht hrunning rfl
  split_ifs at hmade with hstate
  cases hmade
  obtain ⟨t', ht', hphase⟩ := h.sender hsender
  rw [ht] at ht'
  cases ht'
  have hfits := (h.threads ht).fits rfl
  rw [hstate] at hfits
  rw [ht] at horderly
  rcases hfits with hp | hp | hp
  · exact hphase hp
  · exact horderly (by rw [Option.map_some, hp])
  · rcases hrunning with hr | hr | hr <;> rw [hp] at hr <;> cases hr

theorem spawn (h : s.Inv) {c g : Nat} {madeWhile : MadeWhile} {round : UInt32}
    (hcall : s.calls c = some ⟨madeWhile, .toSpawn g round⟩) :
    (({ s with thread := true }.setThread g ⟨round, .starting, [], none⟩).setCall c
      ⟨madeWhile, .returned⟩).Inv := by
  obtain ⟨rfl, hpos, rfl, hnone⟩ := h.spawning ⟨madeWhile, hcall⟩
  have hstate : s.state = .connecting := h.absent hnone
  have hspawning {c' g : Nat} {round : UInt32} (h' : (({ s with thread := true }.setThread s.number
      ⟨s.connectionRoundState.round, .starting, [], none⟩).setCall c
        ⟨madeWhile, .returned⟩).Spawning c' g round) : False := by
    obtain ⟨madeWhile', h'⟩ := h'
    by_cases hc : c' = c
    · subst hc
      rw [calls_setCall_self] at h'
      cases h'
    · rw [calls_setCall_of_ne _ hc] at h'
      exact hc (h.unique ⟨madeWhile', h'⟩ ⟨madeWhile, hcall⟩)
  refine ⟨?_, ?_, ?_, fun h' => (hspawning h').elim, fun h' => (hspawning h').elim⟩
  · intro g t ht
    by_cases hg : g = s.number
    · subst hg
      cases (threads_setThread_self _ s.number _).symm.trans ht
      refine ⟨hpos, le_rfl, fun hlt => absurd hlt (lt_irrefl _), fun _ => rfl, fun _ => ?_,
        fun _ hp => absurd rfl hp, fun _ => List.not_mem_nil, by rintro ⟨⟩⟩
      exact .congr hstate (.inl rfl)
    · have hinv := h.threads ((threads_setThread_of_ne _ hg _).symm.trans ht)
      exact ⟨hinv.pos, hinv.le, hinv.old, hinv.round, hinv.fits, hinv.sender, hinv.queue,
        hinv.spared⟩
  · intro g hg
    obtain ⟨t, ht, hphase⟩ := h.sender hg
    have hne : g ≠ s.number := by
      rintro rfl
      rw [hnone] at ht
      cases ht
    exact ⟨t, (threads_setThread_of_ne _ hne _).trans ht, hphase⟩
  · exact fun _ => hstate

/-- A thread that starts or connects is the current one. -/
theorem eq_number (h : s.Inv) (ht : s.threads g = some t)
    (hphase : t.phase = .starting ∨ t.phase = .connecting) : g = s.number := by
  have hinv := h.threads ht
  by_contra hne
  rcases hinv.old (lt_of_le_of_ne hinv.le hne) with hp | hp | ⟨hp, -⟩
  all_goals
    rw [hp] at hphase
    rcases hphase with h' | h' <;> cases h'

theorem setSender (h : s.Inv) (ht : s.threads g = some t) (hphase : t.phase = .starting) :
    ({ s with sender := some g }.setThread g { t with phase := .connecting }).Inv := by
  have hg := h.eq_number ht (.inl hphase)
  have hinv := h.threads ht
  have hstate : s.state = .connecting := by
    have hfits := hinv.fits hg
    cases hs : s.state with
    | connecting => rfl
    | connected =>
      rw [hs] at hfits
      rcases hfits with hp | hp <;> rw [hphase] at hp <;> cases hp
    | disconnected =>
      rw [hs] at hfits
      exact absurd (hphase.symm.trans hfits) (by rintro ⟨⟩)
  refine h.of_thread ht rfl rfl rfl rfl (fun _ => rfl) ?_ ?_ ?_
  · rintro g' ⟨⟩
    exact .inl ⟨rfl, by rintro ⟨⟩⟩
  · refine ⟨hinv.pos, hinv.le, fun hlt => absurd hlt hg.not_lt, hinv.round, fun _ => ?_,
      fun _ _ => rfl, fun _ => hinv.queue (.inl hphase), hinv.spared⟩
    exact .congr hstate (.inr (.inl rfl))
  · intro g' t'' hne h'
    refine ⟨h'.pos, h'.le, h'.old, h'.round, h'.fits, fun hg' => ?_, h'.queue, h'.spared⟩
    exact absurd (hg'.trans hg.symm) hne

theorem connected (h : s.Inv) (ht : s.threads g = some t) (hphase : t.phase = .connecting) :
    ({ s with connectionRoundState := s.connectionRoundState.setConnected }.setThread g
      { t with phase := .inLoop }).Inv := by
  have hg := h.eq_number ht (.inr hphase)
  have hinv := h.threads ht
  have hsender := hinv.sender hg (by rw [hphase]; rintro ⟨⟩)
  refine h.of_thread ht rfl rfl rfl rfl (fun hne => absurd hg hne) ?_ ?_ ?_
  · intro g' hg'
    have hg'' : g' = g := Option.some.inj (hg'.symm.trans hsender)
    exact .inl ⟨hg'', by rintro ⟨⟩⟩
  · exact ⟨hinv.pos, hinv.le, fun hlt => absurd hlt hg.not_lt, hinv.round, fun _ => .inl rfl,
      fun hg _ => hsender, fun _ => hinv.queue (.inr (.inl hphase)), hinv.spared⟩
  · intro g' t'' hne h'
    exact ⟨h'.pos, h'.le, h'.old, h'.round, fun hg' => absurd (hg'.trans hg.symm) hne, h'.sender,
      h'.queue, h'.spared⟩

theorem setDisconnected (h : s.Inv) (ht : s.threads g = some t) (hphase : t.phase = .leaving)
    (horderly : g < s.number → s.connectionRoundState.isRoundGt t.round = true) :
    ({ s with connectionRoundState := s.connectionRoundState.setDisconnected t.round }.setThread g
      { t with phase := .ended }).Inv := by
  have hinv := h.threads ht
  have hround : (s.connectionRoundState.setDisconnected t.round).round =
      s.connectionRoundState.round := by
    unfold ConnectionRoundState.setDisconnected
    split <;> rfl
  have hold (hlt : g < s.number) : s.connectionRoundState.setDisconnected t.round =
      s.connectionRoundState := if_pos (horderly hlt)
  have hcurrent (hg : g = s.number) :
      (s.connectionRoundState.setDisconnected t.round).state = .disconnected := by
    unfold ConnectionRoundState.setDisconnected
    rw [hinv.round hg, s.connectionRoundState.isRoundGt_round]
    rfl
  refine h.of_thread ht rfl rfl rfl hround ?_ ?_ ?_ ?_
  · intro hne
    exact congrArg ConnectionRoundState.state (hold (lt_of_le_of_ne hinv.le hne))
  · intro g' hg'
    by_cases hg : g' = g
    · exact .inl ⟨hg, by rintro ⟨⟩⟩
    · exact .inr ⟨hg, hg'⟩
  · refine ⟨hinv.pos, hinv.le, fun _ => .inr (.inl rfl), fun hg => ?_, fun hg => ?_, fun hg _ => ?_,
      ?_, hinv.spared⟩
    · exact (hinv.round hg).trans hround.symm
    · exact .congr (hcurrent hg) rfl
    · exact hinv.sender hg (by rw [hphase]; rintro ⟨⟩)
    · rintro (hp | hp | hp) <;> cases hp
  · intro g' t'' hne h'
    refine ⟨h'.pos, h'.le, h'.old, fun hg' => (h'.round hg').trans hround.symm, fun hg' => ?_,
      h'.sender, h'.queue, h'.spared⟩
    have hlt : g < s.number := lt_of_le_of_ne hinv.le fun hg => hne (hg'.trans hg.symm)
    exact .congr (congrArg ConnectionRoundState.state (hold hlt)) (h'.fits hg')

/-- A thread that connects or is in its loop comes to its end. -/
theorem leave (h : s.Inv) (ht : s.threads g = some t)
    (hphase : t.phase = .connecting ∨ t.phase = .inLoop) {t' : SessionThread}
    (hround : t'.round = t.round) (hphase' : t'.phase = .leaving)
    (hspared : t'.closedBy ≠ some (some g)) : (s.setThread g t').Inv := by
  have hinv := h.threads ht
  have hleaving : t'.phase ≠ .starting := by rw [hphase']; rintro ⟨⟩
  refine h.setThread ht ⟨hinv.pos, hinv.le, fun _ => .inl hphase',
    fun hg => hround.trans (hinv.round hg), fun hg => ?_, fun hg _ => hinv.sender hg ?_, ?_,
    hspared⟩ fun _ => hleaving
  · have hfits := hinv.fits hg
    cases hs : s.state with
    | connecting => exact .inr (.inr hphase')
    | connected => exact .inr hphase'
    | disconnected =>
      rw [hs] at hfits
      rcases hphase with hp | hp <;> exact absurd (hp.symm.trans hfits) (by rintro ⟨⟩)
  · rcases hphase with hp | hp <;> rw [hp] <;> rintro ⟨⟩
  · rintro (hp | hp | hp) <;> rw [hphase'] at hp <;> cases hp

end Inv

theorem inPhase_eq_some {s : Session} {g : Nat} {phase : ThreadPhase} {t : SessionThread} :
    s.inPhase g phase = some t ↔ s.threads g = some t ∧ t.phase = phase := by
  rw [inPhase, Option.filter_eq_some_iff, decide_eq_true_eq]

theorem Inv.next {s s' : Session} {step : Step} (h : s.Inv) (horderly : s.Orderly step)
    (hstep : s.next step = some s') : s'.Inv := by
  cases step with
  | call c =>
    simp only [Session.next] at hstep
    split at hstep
    · cases hstep
    · cases hstep
      exact h.call rfl horderly
  | check c =>
    simp only [Session.next] at hstep
    split at hstep
    next madeWhile hcall =>
      cases hstep
      refine h.check horderly.1 fun hstate => ?_
      have hmade := horderly.2 hstate
      rwa [hcall] at hmade
    next => cases hstep
  | spawn c =>
    simp only [Session.next] at hstep
    split at hstep
    next madeWhile g round hcall =>
      cases hstep
      exact h.spawn hcall
    next => cases hstep
  | setSender g =>
    obtain ⟨t, ht, rfl⟩ := Option.map_eq_some_iff.mp hstep
    obtain ⟨ht, hphase⟩ := inPhase_eq_some.mp ht
    exact h.setSender ht hphase
  | connected g =>
    obtain ⟨t, ht, rfl⟩ := Option.map_eq_some_iff.mp hstep
    obtain ⟨ht, hphase⟩ := inPhase_eq_some.mp ht
    exact h.connected ht hphase
  | connectFailed g =>
    obtain ⟨t, ht, rfl⟩ := Option.map_eq_some_iff.mp hstep
    obtain ⟨ht, hphase⟩ := inPhase_eq_some.mp ht
    exact h.leave ht (.inl hphase) rfl rfl (h.threads ht).spared
  | receiveClose g =>
    simp only [Session.next] at hstep
    split at hstep
    next round phase close queue closedBy ht =>
      cases hstep
      obtain ⟨ht, hphase⟩ := inPhase_eq_some.mp ht
      refine h.leave ht (.inr hphase) rfl rfl ?_
      rintro ⟨⟩
      exact (h.threads ht).queue (.inr (.inr hphase)) List.mem_cons_self
    next => cases hstep
  | lost g =>
    obtain ⟨t, ht, rfl⟩ := Option.map_eq_some_iff.mp hstep
    obtain ⟨ht, hphase⟩ := inPhase_eq_some.mp ht
    exact h.leave ht (.inr hphase) rfl rfl (h.threads ht).spared
  | setDisconnected g =>
    obtain ⟨t, ht, rfl⟩ := Option.map_eq_some_iff.mp hstep
    obtain ⟨ht, hphase⟩ := inPhase_eq_some.mp ht
    refine h.setDisconnected ht hphase fun hlt => ?_
    have hround := horderly hlt
    rwa [ht] at hround

/-- **An orderly run is safe.** -/
theorem safe_of_orderly {s : Session} (h : (system.restrict Orderly).Reachable s) : s.Safe := by
  refine Inv.safe (h.invariant ?_ ?_)
  · rintro _ rfl
    exact inv_new
  · intro s step s' hinv hstep
    exact hinv.next hstep.1 hstep.2

/-! ### Runs -/

/-- The session is started and connects, a call is made, and the next round connects. -/
def roundTrip : List Step :=
  [.call 0, .check 0, .spawn 0, .setSender 1, .connected 1, .call 1, .check 1, .spawn 1,
    .receiveClose 1, .setSender 2, .setDisconnected 1, .connected 2]

theorem safe_of_orderly_roundTrip : ∃ s, (system.restrict Orderly).Run roundTrip s ∧
    s.state = .connected ∧ s.number = 2 ∧ s.Safe := by
  have hrun : (system.restrict Orderly).Run roundTrip _ := .of_follow rfl rfl
  exact ⟨_, hrun, rfl, rfl, safe_of_orderly ⟨_, hrun⟩⟩

/-- A call that is made while the session connects for the first time. -/
def impatient : List Step :=
  [.call 0, .check 0, .spawn 0, .setSender 1, .call 1, .check 1, .connected 1, .receiveClose 1]

/-- Two calls before the session has a thread. -/
def twice : List Step := [.call 0, .call 1, .check 0, .check 1, .spawn 0, .spawn 1]

/-- The impatient call ends the round, and the two calls lead to two threads that connect. -/
theorem not_safe :
    (¬ ∀ s, system.Reachable s → ∀ g t, s.threads g = some t → t.closedBy ≠ some (some g)) ∧
      ¬ ∀ s, system.Reachable s → ∀ g g' t t', s.threads g = some t → s.threads g' = some t' →
        t.Active → t'.Active → g = g' := by
  constructor
  · intro hall
    have hrun : (system.restrict fun _ _ => True).Run impatient _ := .of_follow rfl rfl
    exact hall _ ⟨_, hrun.of_restrict⟩ 1 _ rfl rfl
  · intro hall
    have hrun : (system.restrict fun _ _ => True).Run twice _ := .of_follow rfl rfl
    have heq := hall _ ⟨_, hrun.of_restrict⟩ 1 2 _ _ rfl rfl ⟨.inl rfl, rfl⟩ ⟨.inl rfl, rfl⟩
    cases heq

end Session

end HopToDesk.Client
