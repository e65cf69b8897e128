import HopToDesk.Host.Cursor
import HopToDesk.Kit.Log

/-!
# Who shows which cursor

Three stores agree. A subscriber replaces data by its id only where the data has gone through it, so
its client has it. What the service sent last is what every old subscriber shows, and new ones are
sent it before they are old. Nothing is shown only while the service has sent nothing, and then a
tick that finds handle 0 does not notice that the cursor has never been sent.
-/

set_option autoImplicit false

namespace HopToDesk.Host

open Kit

/-! ## One subscriber and its client -/

namespace CursorClient

theorem after_snoc (sent : List CursorMessage) (msg : CursorMessage) :
    after (sent ++ [msg]) = (after sent).receive msg := by
  unfold after
  rw [List.foldl_append]
  rfl

/-- Data is stored under its own id. -/
theorem id_of_stored {sent : List CursorMessage} {i : UInt64} {cd : CursorData}
    (h : (after sent).stored i = some cd) : cd.id = i := by
  induction sent using List.reverseRecOn generalizing cd with
  | nil => cases h
  | append_singleton sent msg ih =>
    rw [after_snoc] at h
    cases msg with
    | empty => exact ih h
    | cursorData data =>
      simp only [receive, Function.update_apply] at h
      split at h
      next heq =>
        cases h
        exact heq.symm
      next => exact ih h
    | cursorId id =>
      simp only [receive] at h
      split at h
      · exact ih h
      · exact ih h

/-- Data that was sent is stored. -/
theorem stored_of_mem {sent : List CursorMessage} {cd : CursorData}
    (h : .cursorData cd ∈ sent) : ∃ cd', (after sent).stored cd.id = some cd' := by
  induction sent using List.reverseRecOn with
  | nil => cases h
  | append_singleton sent msg ih =>
    rw [after_snoc]
    rcases List.mem_append.mp h with hmem | hmem
    · obtain ⟨cd', hcd'⟩ := ih hmem
      cases msg with
      | empty => exact ⟨cd', hcd'⟩
      | cursorData data =>
        simp only [receive, Function.update_apply]
        split
        · exact ⟨data, rfl⟩
        · exact ⟨cd', hcd'⟩
      | cursorId id =>
        simp only [receive]
        split
        · exact ⟨cd', hcd'⟩
        · exact ⟨cd', hcd'⟩
    · cases List.mem_singleton.mp hmem
      exact ⟨cd, Function.update_self ..⟩

end CursorClient

namespace MouseCursorSub

open CursorRun (IdsKnown)

/-- A subscriber has its client's data for every id it would send. -/
structure Ok (sub : MouseCursorSub) : Prop where
  cached : ∀ i msg, sub.cached i = some msg →
    msg = .cursorId i ∧ ∃ cd, .cursorData cd ∈ sub.sent ∧ cd.id = i
  known : IdsKnown sub.sent

theorem idsKnown_snoc {sent : List CursorMessage} {msg : CursorMessage} (h : IdsKnown sent)
    (hmsg : ∀ i, msg = .cursorId i → ∃ cd, .cursorData cd ∈ sent ∧ cd.id = i) :
    IdsKnown (sent ++ [msg]) := by
  intro before id after heq
  rcases Kit.snoc_eq_append_cons heq with ⟨rfl, hlast, -⟩ | ⟨rest, hbefore, -⟩
  · exact hmsg id hlast.symm
  · exact h before id rest hbefore

theorem ok_ofConn (id : Int) : (ofConn id).Ok where
  cached := by
    intro i msg h
    cases h
  known := by
    intro before id after heq
    exact absurd heq (by simp [ofConn])

variable {sub : MouseCursorSub}

theorem Ok.send (h : sub.Ok) {msg : CursorMessage} (hmsg : ∀ i, msg ≠ .cursorId i) :
    (sub.send msg).Ok := by
  cases msg with
  | cursorId id => exact absurd rfl (hmsg id)
  | empty =>
    refine ⟨?_, idsKnown_snoc h.known fun i heq => absurd heq (hmsg i)⟩
    intro i msg hcached
    obtain ⟨heq, cd, hmem, hid⟩ := h.cached i msg hcached
    exact ⟨heq, cd, List.mem_append_left _ hmem, hid⟩
  | cursorData cd =>
    cases hcache : sub.cached cd.id with
    | some msg =>
      simp only [MouseCursorSub.send, hcache]
      obtain ⟨rfl, cd', hmem, hid⟩ := h.cached cd.id msg hcache
      refine ⟨?_, idsKnown_snoc h.known ?_⟩
      · intro i msg hcached
        obtain ⟨heq, cd, hmem, hid⟩ := h.cached i msg hcached
        exact ⟨heq, cd, List.mem_append_left _ hmem, hid⟩
      · intro i heq
        cases heq
        exact ⟨cd', hmem, hid⟩
    | none =>
      simp only [MouseCursorSub.send, hcache]
      refine ⟨?_, idsKnown_snoc h.known fun i heq => absurd heq (hmsg i)⟩
      intro i msg hcached
      simp only [Function.update_apply] at hcached
      split at hcached
      next heq =>
        cases hcached
        exact ⟨by rw [heq], cd, List.mem_append_right _ List.mem_cons_self, heq.symm⟩
      next =>
        obtain ⟨heq, cd', hmem, hid⟩ := h.cached i msg hcached
        exact ⟨heq, cd', List.mem_append_left _ hmem, hid⟩

/-- Data that is sent is shown, whether it goes out itself or its id. -/
theorem Ok.shows_send (h : sub.Ok) (cd : CursorData) :
    (sub.send (.cursorData cd)).shows = some cd.id := by
  cases hcache : sub.cached cd.id with
  | some msg =>
    obtain ⟨rfl, cd', hmem, hid⟩ := h.cached cd.id msg hcache
    obtain ⟨stored, hstored⟩ := CursorClient.stored_of_mem hmem
    rw [hid] at hstored
    simp only [MouseCursorSub.send, hcache, innerSend, shows, CursorClient.after_snoc,
      CursorClient.receive, hstored, Option.map_some, CursorClient.id_of_stored hstored]
  | none =>
    simp only [MouseCursorSub.send, hcache, innerSend, shows, CursorClient.after_snoc,
      CursorClient.receive, Option.map_some]

theorem shows_send_empty (sub : MouseCursorSub) : (sub.send .empty).shows = sub.shows := by
  simp only [MouseCursorSub.send, innerSend, shows, CursorClient.after_snoc, CursorClient.receive]

end MouseCursorSub

/-! ## The service -/

namespace CursorRun

variable {inner : ServiceInner MouseCursorSub} {state : StateCursor} {s s' : CursorRun}

/-- What the old subscribers show, by what the service has sent last. -/
def Showing (inner : ServiceInner MouseCursorSub) (hcursor : UInt64) : CursorMessage → Prop
  | .empty => hcursor = 0 ∧ ∀ sub ∈ inner.subscribes.values, sub.shows = none
  | .cursorData cd => cd.id = hcursor ∧ ∀ sub ∈ inner.subscribes.values, sub.shows = some hcursor
  | .cursorId _ => False

/-- The subscribers, and what the service has cached and sent last. -/
structure ServiceOk (inner : ServiceInner MouseCursorSub) (state : StateCursor) : Prop where
  old : ∀ sub ∈ inner.subscribes.values, sub.Ok
  new : ∀ sub ∈ inner.newSubscribes.values, ∃ id, sub = .ofConn id
  cached : ∀ h msg, state.cachedCursorData h = some msg → ∃ cd, msg = .cursorData cd ∧ cd.id = h
  showing : Showing inner state.hcursor state.cursorData

/-- Data is sent to the old subscribers. -/
theorem sent_all {cd : CursorData} (h : ∀ sub ∈ inner.subscribes.values, sub.Ok) :
    ∀ sub ∈ (inner.sendShared (.cursorData cd)).subscribes.values,
      sub.Ok ∧ sub.shows = some cd.id := by
  intro sub hsub
  obtain ⟨sub₀, hmem, rfl⟩ := Subscribers.mem_send_all hsub
  exact ⟨(h sub₀ hmem).send fun _ => CursorMessage.noConfusion, (h sub₀ hmem).shows_send cd⟩

theorem ServiceOk.sendShared {cached : UInt64 → Option CursorMessage}
    (h : ServiceOk inner state) (cd : CursorData)
    (hcached : ∀ h msg, cached h = some msg → ∃ cd, msg = .cursorData cd ∧ cd.id = h) :
    ServiceOk (inner.sendShared (.cursorData cd)) ⟨cd.id, .cursorData cd, cached⟩ where
  old sub hsub := (sent_all h.old sub hsub).1
  new := h.new
  cached := hcached
  showing := ⟨rfl, fun sub hsub => (sent_all h.old sub hsub).2⟩

/-- After the swap of a snapshot. -/
theorem mem_snapshotCursor {msg : CursorMessage} {sub : MouseCursorSub}
    (hnew : ∀ sub ∈ inner.newSubscribes.values, ∃ id, sub = .ofConn id)
    (h : sub ∈ (snapshotCursor inner msg).subscribes.values) :
    sub ∈ inner.subscribes.values ∨ ∃ id, sub = (MouseCursorSub.ofConn id).send msg := by
  unfold snapshotCursor at h
  split at h
  · rcases Subscribers.mem_of_insertAll h with hmem | hmem
    · exact .inl hmem
    · obtain ⟨sub₀, hsub₀, rfl⟩ := Subscribers.mem_send_all hmem
      obtain ⟨id, rfl⟩ := hnew sub₀ hsub₀
      exact .inr ⟨id, rfl⟩
  · exact .inl h

theorem new_snapshotCursor (inner : ServiceInner MouseCursorSub) (msg : CursorMessage) :
    (snapshotCursor inner msg).newSubscribes.values = [] := by
  unfold snapshotCursor
  split
  · rfl
  next hnew => exact List.eq_nil_of_length_eq_zero (Nat.eq_zero_of_not_pos hnew)

theorem ServiceOk.snapshot (h : ServiceOk inner state) :
    ServiceOk (snapshotCursor inner state.cursorData) state := by
  have hmem := @mem_snapshotCursor inner state.cursorData
  have hshowing := h.showing
  have hnew := new_snapshotCursor inner state.cursorData
  refine ⟨?_, ?_, h.cached, ?_⟩
  · intro sub hsub
    rcases hmem h.new hsub with hsub | ⟨id, rfl⟩
    · exact h.old sub hsub
    · refine (MouseCursorSub.ok_ofConn id).send ?_
      intro i heq
      rw [heq] at hshowing
      exact hshowing
  · intro sub hsub
    rw [hnew] at hsub
    cases hsub
  · cases hdata : state.cursorData with
    | cursorId i =>
      rw [hdata] at hshowing
      exact hshowing
    | empty =>
      rw [hdata] at hshowing hmem
      refine ⟨hshowing.1, ?_⟩
      intro sub hsub
      rcases hmem h.new hsub with hsub | ⟨id, rfl⟩
      · exact hshowing.2 sub hsub
      · exact MouseCursorSub.shows_send_empty _
    | cursorData cd =>
      rw [hdata] at hshowing hmem
      refine ⟨hshowing.1, ?_⟩
      intro sub hsub
      rcases hmem h.new hsub with hsub | ⟨id, rfl⟩
      · exact hshowing.2 sub hsub
      · rw [(MouseCursorSub.ok_ofConn id).shows_send cd, hshowing.1]

/-- Whoever was a subscriber before a snapshot is an old one after it. -/
theorem has_snapshotCursor (inner : ServiceInner MouseCursorSub) (msg : CursorMessage) (i : Int) :
    (snapshotCursor inner msg).subscribes.Has i ↔ inner.IsSubed i := by
  unfold snapshotCursor
  split
  · show (inner.subscribes.insertAll (inner.newSubscribes.send msg fun _ => true)).Has i ↔ _
    rw [Subscribers.has_insertAll, Subscribers.has_send]
    exact or_comm
  next hnew =>
    refine ⟨Or.inl, fun h => h.resolve_right ?_⟩
    intro hmem
    obtain ⟨sub, hsub, -⟩ := hmem
    rw [List.eq_nil_of_length_eq_zero (Nat.eq_zero_of_not_pos hnew)] at hsub
    cases hsub

/-- A tick. Where it has found a handle and returns `Ok`, that is the handle of the state, nobody is
new, and where still nothing was sent nothing else has changed. -/
theorem ServiceOk.runCursor {compress : List UInt8 → List UInt8} {tick : CursorTick}
    {result : Except String Unit} {inner' : ServiceInner MouseCursorSub} {state' : StateCursor}
    (h : ServiceOk inner state)
    (hdata : ∀ hcursor data, tick.cursor = .ok (some hcursor) → tick.data = .ok data →
      data.id = hcursor)
    (hrun : Host.runCursor compress tick inner state = (result, inner', state')) :
    ServiceOk inner' state' ∧
      ∀ hcursor, result = .ok () → tick.cursor = .ok (some hcursor) →
        state'.hcursor = hcursor ∧ inner'.newSubscribes.values = [] ∧
          (state'.cursorData = .empty →
            state' = state ∧ inner' = snapshotCursor inner .empty) := by
  unfold Host.runCursor at hrun
  rcases hcursor : tick.cursor with e | _ | hcur
  · simp only [hcursor] at hrun
    cases hrun
    exact ⟨h, fun _ hresult => by cases hresult⟩
  · simp only [hcursor] at hrun
    cases hrun
    exact ⟨h.snapshot, fun _ _ hsome => by cases hsome⟩
  · simp only [hcursor] at hrun
    split at hrun
    next hne =>
      cases hcache : state.cachedCursorData hcur with
      | some msg =>
        simp only [hcache] at hrun
        cases hrun
        obtain ⟨cd, rfl, rfl⟩ := h.cached hcur msg hcache
        refine ⟨(h.sendShared cd h.cached).snapshot, ?_⟩
        intro h' _ heq
        cases heq
        exact ⟨rfl, new_snapshotCursor _ _, fun hempty => by cases hempty⟩
      | none =>
        cases hget : tick.data with
        | error e =>
          simp only [hcache, hget] at hrun
          cases hrun
          exact ⟨h, fun _ hresult => by cases hresult⟩
        | ok data =>
          simp only [hcache, hget] at hrun
          cases hrun
          have hid := hdata hcur data hcursor hget
          subst hid
          refine ⟨(h.sendShared { data with colors := compress data.colors } ?_).snapshot, ?_⟩
          · intro h' msg hmsg
            simp only [Function.update_apply] at hmsg
            split at hmsg
            next heq =>
              cases hmsg
              exact ⟨_, rfl, heq.symm⟩
            next => exact h.cached h' msg hmsg
          · intro h' _ heq
            cases heq
            exact ⟨rfl, new_snapshotCursor _ _, fun hempty => by cases hempty⟩
    next heq =>
      cases hrun
      refine ⟨h.snapshot, ?_⟩
      intro h' _ hsome
      cases hsome
      exact ⟨(not_not.mp heq).symm, new_snapshotCursor _ _, fun hempty => ⟨rfl, by rw [hempty]⟩⟩

/-! ## The thread -/

structure Inv (s : CursorRun) : Prop where
  service : ServiceOk s.inner s.state
  needs : s.inner.needSnapshot = true
  reset : s.pc = .reset → s.inner.subscribes.values = []

/-- A subscription changes nothing for the old subscribers, and brings a new one. -/
theorem onSubscribe_cases (hneed : inner.needSnapshot = true) (sub : MouseCursorSub) :
    (inner.onSubscribe sub).needSnapshot = true ∧
      (inner.onSubscribe sub).subscribes = inner.subscribes ∧
      ∀ sub' ∈ (inner.onSubscribe sub).newSubscribes.values,
        sub' = sub ∨ sub' ∈ inner.newSubscribes.values := by
  unfold ServiceInner.onSubscribe
  split
  next => exact ⟨hneed, rfl, fun _ hmem => .inr hmem⟩
  next => exact ⟨hneed, rfl, fun _ hmem => Subscribers.mem_of_insert hmem⟩

theorem onUnsubscribe_cases (inner : ServiceInner MouseCursorSub) (id : Int) :
    (inner.onUnsubscribe id).needSnapshot = inner.needSnapshot ∧
      (∀ sub ∈ (inner.onUnsubscribe id).subscribes.values, sub ∈ inner.subscribes.values) ∧
      ∀ sub ∈ (inner.onUnsubscribe id).newSubscribes.values, sub ∈ inner.newSubscribes.values := by
  unfold ServiceInner.onUnsubscribe
  split
  · exact ⟨rfl, fun _ hmem => Subscribers.mem_of_remove hmem, fun _ hmem => hmem⟩
  · exact ⟨rfl, fun _ hmem => hmem, fun _ hmem => Subscribers.mem_of_remove hmem⟩

/-- Fewer old subscribers, and only fresh new ones. -/
theorem ServiceOk.fewer {inner' : ServiceInner MouseCursorSub} (h : ServiceOk inner state)
    (hold : ∀ sub ∈ inner'.subscribes.values, sub ∈ inner.subscribes.values)
    (hnew : ∀ sub ∈ inner'.newSubscribes.values, ∃ id, sub = .ofConn id) :
    ServiceOk inner' state where
  old sub hsub := h.old sub (hold sub hsub)
  new := hnew
  cached := h.cached
  showing := by
    have hshowing := h.showing
    cases hdata : state.cursorData with
    | empty =>
      rw [hdata] at hshowing
      exact ⟨hshowing.1, fun sub hsub => hshowing.2 sub (hold sub hsub)⟩
    | cursorData cd =>
      rw [hdata] at hshowing
      exact ⟨hshowing.1, fun sub hsub => hshowing.2 sub (hold sub hsub)⟩
    | cursorId i =>
      rw [hdata] at hshowing
      exact hshowing

variable {compress : List UInt8 → List UInt8}

/-- What a step does, apart from a tick. -/
theorem Inv.quiet {step : CursorStep} (h : Inv s) (hstep : s.next compress step = some s')
    (hquiet : ∀ tick, step ≠ .tick tick) : Inv s' ∧ s'.ticked = none := by
  cases step with
  | tick tick => exact absurd rfl (hquiet tick)
  | onSubscribe id =>
    cases hstep
    obtain ⟨hneed, hold, hnew⟩ := onSubscribe_cases h.needs (.ofConn id)
    refine ⟨⟨h.service.fewer ?_ ?_, hneed, ?_⟩, rfl⟩
    · intro sub hsub
      rwa [hold] at hsub
    · intro sub hsub
      rcases hnew sub hsub with rfl | hsub
      · exact ⟨id, rfl⟩
      · exact h.service.new sub hsub
    · intro hpc
      show (s.inner.onSubscribe (.ofConn id)).subscribes.values = []
      rw [hold]
      exact h.reset hpc
  | onUnsubscribe id =>
    cases hstep
    obtain ⟨hneed, hold, hnew⟩ := onUnsubscribe_cases s.inner id
    refine ⟨⟨h.service.fewer hold fun sub hsub => h.service.new sub (hnew sub hsub),
      hneed.trans h.needs, ?_⟩, rfl⟩
    intro hpc
    rw [List.eq_nil_iff_forall_not_mem]
    intro sub hsub
    have hbefore := hold sub hsub
    rw [h.reset hpc] at hbefore
    cases hbefore
  | look =>
    cases hpc : s.pc with
    | callback | reset => simp only [CursorRun.next, hpc, reduceCtorEq] at hstep
    | look =>
      simp only [CursorRun.next, hpc] at hstep
      split at hstep
      next =>
        cases hstep
        exact ⟨⟨h.service, h.needs, fun hreset => by cases hreset⟩, rfl⟩
      next hnone =>
        split at hstep
        next =>
          cases hstep
          refine ⟨⟨h.service, h.needs, fun _ => ?_⟩, rfl⟩
          simp only [hasSubscribes, Bool.or_eq_true, decide_eq_true_eq, not_or, Nat.not_lt,
            Nat.le_zero, List.length_eq_zero_iff] at hnone
          exact hnone.1
        next =>
          cases hstep
          exact ⟨⟨h.service, h.needs, fun hreset => by cases hreset⟩, rfl⟩
  | reset =>
    cases hpc : s.pc with
    | callback | look => simp only [CursorRun.next, hpc, reduceCtorEq] at hstep
    | reset =>
      simp only [CursorRun.next, hpc, Option.some.injEq] at hstep
      subst hstep
      have hempty := h.reset hpc
      refine ⟨⟨⟨h.service.old, h.service.new, ?_, rfl, ?_⟩, h.needs, fun _ => hempty⟩, rfl⟩
      · intro i msg hcached
        cases hcached
      · intro sub hsub
        rw [hempty] at hsub
        cases hsub

/-- A tick, from its result. -/
theorem tick_cases {tick : CursorTick} (h : s.next compress (.tick tick) = some s') :
    ∃ result inner state, runCursor compress tick s.inner s.state = (result, inner, state) ∧
      s'.inner = inner ∧ s'.state = state ∧ s'.pc = .look ∧
        ∀ hcursor, s'.ticked = some hcursor ↔
          result = .ok () ∧ tick.cursor = .ok (some hcursor) := by
  cases hpc : s.pc with
  | look | reset => simp only [CursorRun.next, hpc, reduceCtorEq] at h
  | callback =>
    rcases hrun : runCursor compress tick s.inner s.state with ⟨result, inner, state⟩
    simp only [CursorRun.next, hpc, hrun, Option.some.injEq] at h
    subst h
    refine ⟨result, inner, state, rfl, rfl, rfl, rfl, ?_⟩
    intro hcursor
    rcases result with e | u <;> rcases hcur : tick.cursor with e' | c <;> simp

theorem needs_runCursor {tick : CursorTick} {result : Except String Unit}
    {inner' : ServiceInner MouseCursorSub} {state' : StateCursor}
    (h : runCursor compress tick inner state = (result, inner', state')) :
    inner'.needSnapshot = inner.needSnapshot := by
  have hsnapshot : ∀ (inner : ServiceInner MouseCursorSub) msg,
      (snapshotCursor inner msg).needSnapshot = inner.needSnapshot := by
    intro inner msg
    unfold snapshotCursor
    split <;> rfl
  unfold runCursor at h
  split at h
  · cases h
    rfl
  · cases h
    exact hsnapshot _ _
  · split at h
    · split at h <;> cases h
      · exact hsnapshot _ _
      · rfl
      · exact hsnapshot _ _
    · cases h
      exact hsnapshot _ _

theorem Inv.tick {tick : CursorTick} (h : Inv s) (hdata : s.DataOfHandle (.tick tick))
    (hstep : s.next compress (.tick tick) = some s') : Inv s' := by
  obtain ⟨result, inner, state, hrun, rfl, rfl, hpc, -⟩ := tick_cases hstep
  refine ⟨(h.service.runCursor hdata hrun).1, (needs_runCursor hrun).trans h.needs, ?_⟩
  intro hreset
  rw [hpc] at hreset
  cases hreset

/-- Everyone has the data of every id. -/
theorem Inv.known (h : Inv s) {sub : MouseCursorSub} (hsub : s.Has sub) : IdsKnown sub.sent := by
  rcases hsub with hsub | hsub
  · exact (h.service.old sub hsub).known
  · obtain ⟨id, rfl⟩ := h.service.new sub hsub
    exact (MouseCursorSub.ok_ofConn id).known

/-- After a tick everyone shows the handle it has found exactly when it has not taken handle 0 for
the cursor that was sent. -/
theorem Inv.consistent_iff {tick : CursorTick} (h : Inv s) (hdata : s.DataOfHandle (.tick tick))
    (hstep : s.next compress (.tick tick) = some s') :
    s'.Consistent ↔ s.ZeroSent (.tick tick) := by
  have hnext := h.tick hdata hstep
  obtain ⟨result, inner, state, hrun, rfl, rfl, -, hticked⟩ := tick_cases hstep
  have hafter := (h.service.runCursor hdata hrun).2
  constructor
  · intro hconsistent hzero hempty sub hsub
    -- nothing was sent, so the tick takes handle 0 for the one it has sent
    have hshowing := h.service.showing
    rw [hempty] at hshowing
    have hrun' : runCursor compress tick s.inner s.state =
        (.ok (), snapshotCursor s.inner .empty, s.state) := by
      simp only [runCursor, hzero, hshowing.1, ne_eq, not_true_eq_false, if_false, hempty]
    rw [hrun] at hrun'
    obtain ⟨rfl, hinner, hstate⟩ := Prod.mk.inj hrun' |>.imp_right Prod.mk.inj
    have hsubed : s.inner.IsSubed sub.id := by
      rcases hsub with hsub | hsub
      · exact .inl ⟨sub, hsub, rfl⟩
      · exact .inr ⟨sub, hsub, rfl⟩
    obtain ⟨sub', hsub', -⟩ := (has_snapshotCursor s.inner .empty sub.id).mpr hsubed
    rw [← hinner] at hsub'
    have hshows := hconsistent.1 0 ((hticked 0).mpr ⟨rfl, hzero⟩) sub' (.inl hsub')
    have hnone := hnext.service.showing
    rw [hstate, hempty] at hnone
    rw [hnone.2 sub' hsub'] at hshows
    cases hshows
  · intro hzero
    refine ⟨?_, fun sub hsub => hnext.known hsub⟩
    intro hcursor htick sub hsub
    obtain ⟨hresult, hcur⟩ := (hticked hcursor).mp htick
    obtain ⟨hhandle, hnew, hsame⟩ := hafter hcursor hresult hcur
    have hold : sub ∈ s'.inner.subscribes.values := by
      rcases hsub with hsub | hsub
      · exact hsub
      · rw [hnew] at hsub
        cases hsub
    have hshowing := hnext.service.showing
    rcases hlast : s'.state.cursorData with _ | cd | id
    · rw [hlast] at hshowing
      obtain ⟨hstate, hinner⟩ := hsame hlast
      have hno := hzero (by rw [hcur, ← hhandle, hshowing.1]) (by rw [← hstate, hlast])
      have hsubed : (snapshotCursor s.inner .empty).subscribes.Has sub.id :=
        ⟨sub, by rwa [← hinner], rfl⟩
      rcases (has_snapshotCursor s.inner .empty sub.id).mp hsubed with ⟨sub₀, hmem, -⟩ | ⟨sub₀, hmem, -⟩
      · exact absurd (.inl hmem) (hno sub₀)
      · exact absurd (.inr hmem) (hno sub₀)
    · rw [hlast] at hshowing
      rw [hshowing.2 sub hold, hhandle]
    · rw [hlast] at hshowing
      exact hshowing.elim

/-- **The cursor stays consistent exactly as long as** no tick finds handle 0, with subscribers to
send to, before the service has sent a cursor. -/
theorem consistent_iff_zeroSent (compress : List UInt8 → List UInt8) {tr : List (CursorRun × CursorStep)}
    {s : CursorRun} (h : ((system compress).restrict DataOfHandle).Trace tr s) :
    System.Always Consistent tr s ↔ ∀ x ∈ tr, x.1.ZeroSent x.2 := by
  refine h.always_iff (I := fun s => Inv s ∧ s.Consistent) ?_ (fun hs => hs.2) ?_ ?_
  · intro s hs
    cases hs
    refine ⟨⟨⟨?_, ?_, ?_, rfl, ?_⟩, rfl, ?_⟩, ?_, ?_⟩
    · intro sub hsub
      cases hsub
    · intro sub hsub
      cases hsub
    · intro i msg hcached
      cases hcached
    · intro sub hsub
      cases hsub
    · intro hreset
      cases hreset
    · intro hcursor hticked
      cases hticked
    · intro sub hsub
      rcases hsub with hsub | hsub <;> cases hsub
  · intro s step s' hs hstep hzero
    by_cases htick : ∃ tick, step = .tick tick
    · obtain ⟨tick, rfl⟩ := htick
      exact ⟨hs.1.tick hstep.1 hstep.2, (hs.1.consistent_iff hstep.1 hstep.2).mpr hzero⟩
    · obtain ⟨hinv, hticked⟩ := hs.1.quiet hstep.2 fun tick heq => htick ⟨tick, heq⟩
      refine ⟨hinv, ?_, fun sub hsub => hinv.known hsub⟩
      intro hcursor hsome
      rw [hticked] at hsome
      cases hsome
  · intro s step s' hs hstep hconsistent
    cases step with
    | tick tick => exact (hs.1.consistent_iff hstep.1 hstep.2).mp hconsistent
    | onSubscribe id | onUnsubscribe id | look | reset => exact trivial

/-! ## Handle 0 -/

/-- A subscriber comes, and a tick finds a cursor. -/
theorem consistent_iff_zeroSent_tick :
    ∃ tr s, ((system id).restrict DataOfHandle).Trace tr s ∧ s.ticked = some 5 ∧
      (System.Always Consistent tr s ↔ ∀ x ∈ tr, x.1.ZeroSent x.2) := by
  have hstart : ((system id).restrict DataOfHandle).Trace [] start := .start rfl
  have htick := ((hstart.stepping_snoc (.onSubscribe 1) trivial rfl).stepping_snoc .look trivial
    rfl).stepping_snoc (.tick ⟨.ok (some 5), .ok ⟨5, 0, 0, 1, 1, []⟩⟩) (by
      intro hcursor data hcur hdata
      cases hcur
      cases hdata
      rfl) rfl
  exact ⟨_, _, htick, rfl, consistent_iff_zeroSent id htick⟩

/-- The first handle is 0: nothing is sent for it, and the subscriber shows nothing. -/
theorem not_consistent : ¬ ∀ (compress : List UInt8 → List UInt8) (s : CursorRun),
    ((system compress).restrict DataOfHandle).Reachable s → s.Consistent := by
  intro h
  have hstart : ((system id).restrict DataOfHandle).Run [] start := .start rfl
  have htick := ((hstart.stepping_snoc (.onSubscribe 1) trivial rfl).stepping_snoc .look trivial
    rfl).stepping_snoc (.tick ⟨.ok (some 0), .ok ⟨0, 0, 0, 1, 1, []⟩⟩) (by
      intro hcursor data hcur hdata
      cases hcur
      cases hdata
      rfl) rfl
  have hshows := (h id _ ⟨_, htick⟩).1 0 rfl ((MouseCursorSub.ofConn 1).send .empty)
    (.inl List.mem_cons_self)
  cases hshows

end CursorRun

end HopToDesk.Host
