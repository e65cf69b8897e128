import HopToDesk.Host.VideoFlow
import HopToDesk.Kit.Log

/-!
# When a wait ends early

A wait ends early when as many connections have been counted as the frame was sent to. Counted once
each, and all of them among those it was sent to, they are all of those. Nothing in a notification
says so: it holds as long as what a service takes is its own.
-/

set_option autoImplicit false

namespace HopToDesk.Host

open Kit

namespace VideoFlow

variable {videoAckRequired : Int → Bool} {s s' : VideoFlow}

theorem Notified.mono {notified notified' : List FrameFetched} {frame : VideoFrame} {connId : Int}
    (h : Notified notified frame connId) (hsub : notified ⊆ notified') :
    Notified notified' frame connId := by
  obtain ⟨number, hmem, hle⟩ := h
  exact ⟨number, hsub hmem, hle⟩

/-- Whom a service has counted after a frame: connections it was sent to, which have notified. -/
def CountedOk (notified : List FrameFetched) (sendConnIds : Finset Int) (frame : Option VideoFrame)
    (fetched : Finset Int) : Prop :=
  ∀ f, frame = some f → fetched ⊆ sendConnIds ∧ ∀ connId ∈ fetched, Notified notified f connId

/-- Every wait has counted well so far, and every wait that ended did. -/
structure Inv (s : VideoFlow) : Prop where
  counted : ∀ k frame fetched, (s.services k).phase = .waiting frame fetched →
    CountedOk s.notified (s.services k).sendConnIds frame fetched
  left : s.LeftFetched

/-- A step that ends no wait, for the service it is about. -/
theorem Inv.service {k : Nat} (h : Inv s) (hnotified : s.notified ⊆ s'.notified)
    (hleft : s'.left = s.left) (hservices : ∀ j, j ≠ k → s'.services j = s.services j)
    (hk : ∀ frame fetched, (s'.services k).phase = .waiting frame fetched →
      CountedOk s'.notified (s'.services k).sendConnIds frame fetched) : Inv s' where
  counted := by
    intro j frame fetched hphase
    by_cases hj : j = k
    · subst hj
      exact hk frame fetched hphase
    · rw [hservices j hj] at hphase ⊢
      intro f hf
      obtain ⟨hsub, hall⟩ := h.counted j frame fetched hphase f hf
      exact ⟨hsub, fun connId hmem => (hall connId hmem).mono hnotified⟩
  left := by
    intro l hl
    rw [hleft] at hl
    exact h.left l hl

/-- A step of the connections. -/
theorem Inv.connections (h : Inv s) (hnotified : s.notified ⊆ s'.notified)
    (hleft : s'.left = s.left) (hservices : s'.services = s.services) : Inv s' := by
  refine h.service (k := 0) hnotified hleft (fun j _ => by rw [hservices]) ?_
  intro frame fetched hphase
  rw [hservices] at hphase ⊢
  intro f hf
  obtain ⟨hsub, hall⟩ := h.counted 0 frame fetched hphase f hf
  exact ⟨hsub, fun connId hmem => (hall connId hmem).mono hnotified⟩

theorem Inv.notify (h : Inv s) (connId : Int) (frame : Option VideoFrame) :
    Inv (s.notify connId frame) :=
  h.connections (List.subset_append_left _ _) rfl rfl

/-- A service whose loop stands elsewhere and does not wait. -/
theorem Inv.capturing {k : Nat} {service : VideoService} (h : Inv s)
    (hphase : service.phase = .capturing) : Inv (s.setService k service) := by
  refine h.service (k := k) (List.Subset.refl _) rfl ?_ ?_
  · intro j hj
    exact Function.update_of_ne hj _ _
  · intro frame fetched hwaiting
    simp only [setService, Function.update_self, hphase, reduceCtorEq] at hwaiting

/-- A service that waits and has counted well. -/
theorem Inv.waiting {k : Nat} {service : VideoService} {frame : Option VideoFrame}
    {fetched : Finset Int} (h : Inv s) (hphase : service.phase = .waiting frame fetched)
    (hok : CountedOk s.notified service.sendConnIds frame fetched) :
    Inv (s.setService k service) := by
  refine h.service (k := k) (List.Subset.refl _) rfl ?_ ?_
  · intro j hj
    exact Function.update_of_ne hj _ _
  · intro frame' fetched' hwaiting
    simp only [setService, Function.update_self] at hwaiting ⊢
    rw [hphase] at hwaiting
    cases hwaiting
    exact hok

/-- The end of one pass of the wait loop: with as many counted as the frame was sent to, everyone it
was sent to is counted. -/
theorem Inv.checkFetched {k : Nat} {frame : Option VideoFrame} {fetched : Finset Int} (h : Inv s)
    (hok : CountedOk s.notified (s.services k).sendConnIds frame fetched) :
    Inv (s.checkFetched k frame fetched) := by
  unfold VideoFlow.checkFetched
  by_cases hcard : fetched.card ≥ (s.services k).sendConnIds.card
  · rw [if_pos hcard]
    refine Inv.capturing ⟨h.counted, ?_⟩ rfl
    intro l hl
    rcases List.mem_append.mp hl with hl | hl
    · exact h.left l hl
    · cases frame with
      | none => cases hl
      | some f =>
        cases List.mem_singleton.mp hl
        obtain ⟨hsub, hall⟩ := hok f rfl
        have hsame := Finset.eq_of_subset_of_card_le hsub hcard
        intro connId hmem
        exact hall connId (by rw [hsame]; exact hmem)
  · rw [if_neg hcard]
    exact h.waiting rfl hok

theorem Inv.tryWaitNext {k : Nat} {received : Bool} (h : Inv s)
    (hown : s.Own (.tryWaitNext k received))
    (hstep : s.next videoAckRequired (.tryWaitNext k received) = some s') : Inv s' := by
  cases hphase : (s.services k).phase with
  | capturing => simp only [VideoFlow.next, hphase, reduceCtorEq] at hstep
  | waiting frame fetched =>
    have hcounted := h.counted k frame fetched hphase
    simp only [VideoFlow.next, hphase] at hstep
    split at hstep
    next =>
      cases hstep
      exact h.checkFetched hcounted
    next hsent =>
      cases received with
      | false =>
        cases hstep
        exact h.checkFetched hcounted
      | true =>
        rcases hnotifier : s.notifier with _ | ⟨⟨connId, about⟩, rest⟩
        · simp only [hnotifier, if_true, reduceCtorEq] at hstep
        · simp only [hnotifier, if_true, Option.some.injEq] at hstep
          subst hstep
          refine Inv.checkFetched (h.connections (List.Subset.refl _) rfl rfl) ?_
          intro f hf
          subst hf
          obtain ⟨hsub, hall⟩ := hcounted f rfl
          obtain ⟨hmem, hnotified⟩ := hown f fetched connId about rest hphase hsent hnotifier
          refine ⟨Finset.insert_subset hmem hsub, ?_⟩
          intro c hc
          rcases Finset.mem_insert.mp hc with rfl | hc
          · exact hnotified
          · exact hall c hc

/-- One step, where a service takes its own notifications. -/
theorem Inv.next {step : VideoStep} (h : Inv s) (hown : s.Own step)
    (hstep : s.next videoAckRequired step = some s') : Inv s' := by
  cases step with
  | capture k connIds =>
    cases hphase : (s.services k).phase with
    | waiting frame fetched => simp only [VideoFlow.next, hphase, reduceCtorEq] at hstep
    | capturing =>
      cases connIds with
      | none =>
        simp only [VideoFlow.next, hphase, Option.some.injEq] at hstep
        subst hstep
        refine h.waiting rfl ?_
        intro f hf
        cases hf
      | some connIds =>
        simp only [VideoFlow.next, hphase, Option.some.injEq] at hstep
        subst hstep
        refine Inv.waiting (h.connections (List.Subset.refl _) rfl rfl) rfl ?_
        intro f _
        refine ⟨Finset.empty_subset _, ?_⟩
        intro connId hmem
        cases hmem
  | switchDisplay connId =>
    cases hstep
    exact h.connections (List.Subset.refl _) rfl rfl
  | fetch connId =>
    cases hrx : s.rxVideo connId with
    | nil => simp only [VideoFlow.next, hrx, reduceCtorEq] at hstep
    | cons item rest =>
      simp only [VideoFlow.next, hrx, Option.some.injEq] at hstep
      subst hstep
      split
      · exact h.connections (List.Subset.refl _) rfl rfl
      · refine Inv.notify ?_ connId item
        exact h.connections (List.Subset.refl _) rfl rfl
  | videoReceived connId frame =>
    simp only [VideoFlow.next] at hstep
    split at hstep
    next =>
      cases hstep
      exact h.notify connId frame
    next => cases hstep
  | close connId =>
    cases hstep
    exact h.notify connId none
  | tryWaitNext k received => exact h.tryWaitNext hown hstep
  | timeout k | bail k =>
    cases hphase : (s.services k).phase with
    | capturing => simp only [VideoFlow.next, hphase, reduceCtorEq] at hstep
    | waiting frame fetched =>
      simp only [VideoFlow.next, hphase, Option.some.injEq] at hstep
      subst hstep
      exact h.capturing rfl

/-- **A wait ends early only once everyone has fetched**, while services take their own
notifications. -/
theorem leftFetched_of_own (videoAckRequired : Int → Bool) {steps : List VideoStep} {s : VideoFlow}
    (h : ((system videoAckRequired).restrict Own).Run steps s) : s.LeftFetched := by
  have hinv : Inv s := by
    refine h.invariant (I := Inv) ?_ ?_
    · intro s hs
      cases hs
      refine ⟨?_, ?_⟩
      · intro k frame fetched hphase
        cases hphase
      · intro l hl
        cases hl
    · intro s step s' hs hstep
      exact hs.next hstep.1 hstep.2
  exact hinv.left

/-! ## Two displays -/

/-- One viewer of one display. -/
theorem leftFetched_of_own_one :
    ∃ s, ((system fun _ => false).restrict Own).Run
        [.capture 0 (some {1}), .fetch 1, .tryWaitNext 0 true] s ∧
      s.left.length = 1 ∧ s.LeftFetched := by
  have hstart : ((system fun _ => false).restrict Own).Run [] start := .start rfl
  have hsent := (hstart.stepping_snoc (.capture 0 (some {1})) trivial rfl).stepping_snoc
    (.fetch 1) trivial rfl
  have hleft := hsent.stepping_snoc (.tryWaitNext 0 true) (by
    intro frame fetched connId about rest hphase _ hnotifier
    cases hphase
    cases hnotifier
    exact ⟨by decide, 0, by decide, le_rfl⟩) rfl
  exact ⟨_, hleft, rfl, leftFetched_of_own _ hleft⟩

/-- Two displays, one viewer of both: the second service takes the notification of the first one's
frame. -/
theorem not_leftFetched : ¬ ∀ (videoAckRequired : Int → Bool) (s : VideoFlow),
    (system videoAckRequired).Reachable s → s.LeftFetched := by
  intro h
  have hrun : ((system fun _ => false).restrict fun _ _ => True).Run
      [.capture 0 (some {1}), .capture 1 (some {1}), .fetch 1, .tryWaitNext 1 true] _ :=
    .of_follow rfl rfl
  obtain ⟨number, hmem, -⟩ := h _ _ ⟨_, hrun.of_restrict⟩ ⟨⟨1, 0⟩, {1}, [(1, some ⟨0, 0⟩)]⟩
    List.mem_cons_self 1 (by decide)
  cases List.mem_singleton.mp hmem

end VideoFlow

end HopToDesk.Host

/-!
## The first frame a subscriber gets

Whoever is among the old subscribers has got the first frame of an encoder, or the next frame sent
will be one. A swap keeps this where it is followed by a new encoder, and where the encoder in use
has put out nothing; that is what `Fresh` asks of a swap that is not followed by a new one.
-/

namespace HopToDesk.Host

open Kit

namespace VideoRun

variable {s s' : VideoRun}

/-! ### What happened to a subscriber -/

/-- Every frame is the first of its encoder, or comes after such a frame. -/
def AllDecodable (events : List ViewerEvent) : Prop :=
  ∀ before f after, events = before ++ .frame f :: after → f.number = 0 ∨ GotFirst before

/-- Frames that come after frames only come after what came before those. -/
theorem GotFirst.of_append {before between : List ViewerEvent}
    (h : GotFirst (before ++ between)) (hframes : ∀ g, .frame g ∉ between) : GotFirst before := by
  obtain ⟨pre, g, post, heq, hunsub, hg⟩ := h
  rcases List.append_eq_append_iff.mp heq with ⟨mid, rfl, hmid⟩ | ⟨mid, rfl, hmid⟩
  · exact absurd (by rw [hmid]; exact List.mem_append_right _ List.mem_cons_self) (hframes g)
  · cases mid with
    | nil =>
      rw [List.nil_append] at hmid
      exact absurd (by rw [← hmid]; exact List.mem_cons_self) (hframes g)
    | cons e mid =>
      cases hmid
      refine ⟨pre, g, mid, rfl, ?_, hg⟩
      intro hmem
      exact hunsub (List.mem_append_left _ hmem)

theorem AllDecodable.decodable {events : List ViewerEvent} (h : AllDecodable events) :
    Decodable events := by
  intro before between after f heq hframes
  have hsplit : events = (before ++ .subscribed :: between) ++ .frame f :: after := by
    rw [heq, List.append_assoc, List.cons_append]
  rcases h _ f after hsplit with hf | hgot
  · exact .inl hf
  · refine .inr (hgot.of_append ?_)
    intro g hmem
    rcases List.mem_cons.mp hmem with heq | hmem
    · cases heq
    · exact hframes g hmem

theorem AllDecodable.snoc {events : List ViewerEvent} {e : ViewerEvent} (h : AllDecodable events)
    (he : ∀ f, e = .frame f → f.number = 0 ∨ GotFirst events) : AllDecodable (events ++ [e]) := by
  intro before f after heq
  rcases Kit.snoc_eq_append_cons heq with ⟨rfl, hlast, -⟩ | ⟨rest, hbefore, -⟩
  · exact he f hlast.symm
  · exact h before f rest hbefore

theorem GotFirst.snoc {events : List ViewerEvent} {e : ViewerEvent} (h : GotFirst events)
    (he : e ≠ .unsubscribed) : GotFirst (events ++ [e]) := by
  obtain ⟨before, g, after, rfl, hunsub, hg⟩ := h
  refine ⟨before, g, after ++ [e], by simp, ?_, hg⟩
  intro hmem
  rcases List.mem_append.mp hmem with hmem | hmem
  · exact hunsub hmem
  · exact he (List.mem_singleton.mp hmem).symm

theorem gotFirst_frame (events : List ViewerEvent) {f : EncodedFrame} (hf : f.number = 0) :
    GotFirst (events ++ [.frame f]) :=
  ⟨events, f, [], rfl, List.not_mem_nil, hf⟩

/-! ### The invariant -/

/-- The number of the next frame to be sent. -/
def upcoming (s : VideoRun) : Nat :=
  match s.pc with
  | .outside | .swap true => 0
  | .send frame => frame.number
  | _ => s.outputs

structure Inv (s : VideoRun) : Prop where
  snapshots : s.inner.needSnapshot = true
  old : ∀ i, s.inner.subscribes.Has i → GotFirst (s.events i) ∨ s.upcoming = 0
  fresh : s.pc = .swap false → s.outputs = 0
  decodable : ∀ i, AllDecodable (s.events i)

/-- A step of the loop that sends nothing and moves nobody. -/
theorem Inv.loop (h : Inv s) (hinner : s'.inner = s.inner) (hevents : s'.events = s.events)
    (hupcoming : s.upcoming = 0 → s'.upcoming = 0)
    (hfresh : s'.pc = .swap false → s'.outputs = 0) : Inv s' where
  snapshots := by rw [hinner, h.snapshots]
  old := by
    intro i hi
    rw [hinner] at hi
    rw [hevents]
    exact (h.old i hi).imp_right hupcoming
  fresh := hfresh
  decodable := by
    rw [hevents]
    exact h.decodable

/-- A new subscriber is not among the old ones. -/
theorem has_onSubscribe {inner : ServiceInner VideoSubscriber} (hneed : inner.needSnapshot = true)
    {sub : VideoSubscriber} {i : Int} (h : (inner.onSubscribe sub).subscribes.Has i) :
    inner.subscribes.Has i := by
  unfold ServiceInner.onSubscribe at h
  split at h
  next => exact h
  next => simpa only [hneed, dif_pos] using h

theorem has_onUnsubscribe {inner : ServiceInner VideoSubscriber} {id i : Int}
    (h : (inner.onUnsubscribe id).subscribes.Has i) : inner.subscribes.Has i ∧ i ≠ id := by
  unfold ServiceInner.onUnsubscribe at h
  split at h
  next => exact (Subscribers.has_remove _ _ _).mp h
  next hnot =>
    refine ⟨h, ?_⟩
    rintro rfl
    exact hnot h

/-- What happens to one subscriber, who is not unsubscribed and still among the old ones. -/
theorem Inv.event {id : Int} {e : ViewerEvent} {inner : ServiceInner VideoSubscriber} (h : Inv s)
    (hneed : inner.needSnapshot = true)
    (hinner : ∀ i, inner.subscribes.Has i → s.inner.subscribes.Has i ∧ (i = id → e ≠ .unsubscribed))
    (he : ∀ f, e ≠ .frame f) :
    Inv { s with inner := inner, events := Function.update s.events id (s.events id ++ [e]) } where
  snapshots := hneed
  old := by
    intro i hi
    obtain ⟨hold, hkeep⟩ := hinner i hi
    refine (h.old i hold).imp_left ?_
    intro hgot
    by_cases hid : i = id
    · subst hid
      simp only [Function.update_self]
      exact hgot.snoc (hkeep rfl)
    · simpa only [Function.update_of_ne hid] using hgot
  fresh := h.fresh
  decodable := by
    intro i
    by_cases hid : i = id
    · subst hid
      simp only [Function.update_self]
      exact (h.decodable i).snoc fun f hf => absurd hf (he f)
    · simpa only [Function.update_of_ne hid] using h.decodable i

/-- A frame is sent to the old subscribers. -/
theorem Inv.send {frame : EncodedFrame} (h : Inv s) (hpc : s.pc = .send frame) :
    Inv { s with
      inner := s.inner.sendShared frame
      pc := .check
      events := record s.events s.inner.subscribes (.frame frame) } where
  snapshots := h.snapshots
  old := by
    intro i hi
    have hold : s.inner.subscribes.Has i := (Subscribers.has_send _ _ _ _).mp hi
    have hrecord : record s.events s.inner.subscribes (.frame frame) i =
        s.events i ++ [.frame frame] := if_pos hold
    refine .inl ?_
    show GotFirst (record s.events s.inner.subscribes (.frame frame) i)
    rw [hrecord]
    rcases h.old i hold with hgot | hnext
    · exact hgot.snoc ViewerEvent.noConfusion
    · exact gotFirst_frame _ (by simpa only [upcoming, hpc] using hnext)
  fresh := by
    intro hswap
    cases hswap
  decodable := by
    intro i
    show AllDecodable (record s.events s.inner.subscribes (.frame frame) i)
    by_cases hold : s.inner.subscribes.Has i
    · rw [show record s.events s.inner.subscribes (.frame frame) i = _ from if_pos hold]
      refine (h.decodable i).snoc ?_
      intro f hf
      cases hf
      rcases h.old i hold with hgot | hnext
      · exact .inr hgot
      · exact .inl (by simpa only [upcoming, hpc] using hnext)
    · rw [show record s.events s.inner.subscribes (.frame frame) i = _ from if_neg hold]
      exact h.decodable i

/-- The new subscribers are moved, before a new encoder or with one that has put out nothing. -/
theorem Inv.swap {failed : Bool} (h : Inv s) (hpc : s.pc = .swap failed) :
    Inv { s with
      inner := s.inner.swapNewSubscribes
      pc := if failed then .outside else .encode } where
  snapshots := h.snapshots
  old := by
    intro i _
    refine .inr ?_
    cases failed with
    | true => rfl
    | false => exact h.fresh hpc
  fresh := by
    intro hswap
    cases failed <;> cases hswap
  decodable := h.decodable

/-- One step, where a snapshot finds old subscribers or a fresh encoder. -/
theorem Inv.next {step : VideoRunStep} (h : Inv s) (hfresh : s.Fresh step)
    (hstep : s.next step = some s') : Inv s' := by
  cases step with
  | onSubscribe id =>
    cases hstep
    refine h.event ?_ (fun i hi => ⟨has_onSubscribe h.snapshots hi, fun _ => ViewerEvent.noConfusion⟩)
      (fun _ => ViewerEvent.noConfusion)
    unfold ServiceInner.onSubscribe
    split
    · exact h.snapshots
    · split <;> exact h.snapshots
  | onUnsubscribe id =>
    cases hstep
    refine h.event ?_ ?_ (fun _ => ViewerEvent.noConfusion)
    · unfold ServiceInner.onUnsubscribe
      split <;> exact h.snapshots
    · intro i hi
      obtain ⟨hold, hne⟩ := has_onUnsubscribe hi
      exact ⟨hold, fun heq => absurd heq hne⟩
  | join =>
    cases hstep
    exact ⟨h.snapshots, h.old, h.fresh, h.decodable⟩
  | enter =>
    cases hpc : s.pc <;> simp only [VideoRun.next, hpc, reduceCtorEq] at hstep
    split at hstep <;> cases hstep
    exact h.loop rfl rfl (fun _ => rfl) RunPc.noConfusion
  | ok =>
    cases hpc : s.pc <;> simp only [VideoRun.next, hpc, reduceCtorEq] at hstep
    cases hstep
    cases VideoRun.ok s.inner with
    | true => exact h.loop rfl rfl (by simp only [upcoming, hpc]; exact id) RunPc.noConfusion
    | false => exact h.loop rfl rfl (fun _ => rfl) RunPc.noConfusion
  | bail =>
    cases hpc : s.pc <;> simp only [VideoRun.next, hpc, reduceCtorEq] at hstep <;> cases hstep
    · exact h.loop rfl rfl (fun _ => rfl) RunPc.noConfusion
    · exact h.loop rfl rfl (fun _ => rfl) RunPc.noConfusion
  | noFrame =>
    cases hpc : s.pc <;> simp only [VideoRun.next, hpc, reduceCtorEq] at hstep
    cases hstep
    exact h.loop rfl rfl (by simp only [upcoming, hpc]; exact id) RunPc.noConfusion
  | snapshot =>
    cases hpc : s.pc <;> simp only [VideoRun.next, hpc, reduceCtorEq] at hstep
    cases hstep
    by_cases hnew : 0 < s.inner.newSubscribes.values.length
    · simp only [hnew, if_true]
      exact h.loop rfl rfl (by simp only [upcoming, hpc]; exact id) RunPc.noConfusion
    · simp only [hnew, if_false]
      exact h.loop rfl rfl (by simp only [upcoming, hpc]; exact id) RunPc.noConfusion
  | callback =>
    cases hpc : s.pc <;> simp only [VideoRun.next, hpc, reduceCtorEq] at hstep
    cases hstep
    by_cases hold : 0 < s.inner.subscribes.values.length
    · simp only [hold, decide_true]
      exact h.loop rfl rfl (fun _ => rfl) (by intro hswap; cases hswap)
    · simp only [hold, decide_false]
      have houtputs := hfresh (List.eq_nil_of_length_eq_zero (Nat.eq_zero_of_not_pos hold))
      exact h.loop rfl rfl (fun _ => houtputs) (fun _ => houtputs)
  | swapDrop =>
    cases hpc : s.pc <;> simp only [VideoRun.next, hpc, reduceCtorEq] at hstep
    cases hstep
    exact h.swap hpc
  | encode =>
    cases hpc : s.pc <;> simp only [VideoRun.next, hpc, reduceCtorEq] at hstep
    cases hstep
    exact h.loop rfl rfl (by simp only [upcoming, hpc]; exact id) RunPc.noConfusion
  | encodeFails switch =>
    cases hpc : s.pc <;> simp only [VideoRun.next, hpc, reduceCtorEq] at hstep
    cases hstep
    cases switch with
    | true => exact h.loop rfl rfl (fun _ => rfl) RunPc.noConfusion
    | false => exact h.loop rfl rfl (by simp only [upcoming, hpc]; exact id) RunPc.noConfusion
  | sendVideoFrame =>
    cases hpc : s.pc <;> simp only [VideoRun.next, hpc, reduceCtorEq] at hstep
    cases hstep
    exact h.send hpc

/-- **The first frame after a subscription is decodable**, while every snapshot finds old
subscribers or a fresh encoder. -/
theorem decodable_of_fresh (name : String) {steps : List VideoRunStep} {s : VideoRun}
    (h : ((system name).restrict Fresh).Run steps s) (id : Int) : Decodable (s.events id) := by
  have hinv : Inv s := by
    refine h.invariant (I := Inv) ?_ ?_
    · intro s hs
      cases hs
      refine ⟨rfl, ?_, RunPc.noConfusion, ?_⟩
      · intro i hi
        exact absurd hi (Subscribers.not_has_empty i)
      · intro i before f after heq
        exact absurd heq (by simp [start])
    · intro s step s' hs hstep
      exact hs.next hstep.1 hstep.2
  exact (hinv.decodable id).decodable

/-! ### A second viewer -/

/-- A second viewer comes while the first is there: the encoder is made anew. -/
theorem decodable_of_fresh_second :
    ∃ s, ((system "monitor0").restrict Fresh).Run
        [.onSubscribe 1, .enter, .ok, .snapshot, .callback, .swapDrop, .encode, .sendVideoFrame,
          .onSubscribe 2, .ok, .snapshot, .callback, .swapDrop, .enter, .ok, .snapshot, .encode,
          .sendVideoFrame] s ∧
      s.events 2 = [.subscribed, .frame ⟨2, 0⟩] ∧ Decodable (s.events 2) := by
  have hrun : ((system "monitor0").restrict Fresh).Run
      [.onSubscribe 1, .enter, .ok, .snapshot, .callback, .swapDrop, .encode, .sendVideoFrame,
        .onSubscribe 2, .ok, .snapshot, .callback, .swapDrop, .enter, .ok, .snapshot, .encode,
        .sendVideoFrame] _ := .of_follow rfl rfl
  exact ⟨_, hrun, rfl, decodable_of_fresh "monitor0" hrun 2⟩

/-- The first viewer leaves and a second one comes before the loop looks: the encoder stays, and the
second viewer's first frame builds on one that it has not got. -/
theorem not_decodable : ¬ ∀ (name : String) (s : VideoRun), (system name).Reachable s →
    ∀ id, Decodable (s.events id) := by
  intro h
  have hrun : ((system "monitor0").restrict fun _ _ => True).Run
      [.onSubscribe 1, .enter, .ok, .snapshot, .callback, .swapDrop, .encode, .sendVideoFrame,
        .onUnsubscribe 1, .onSubscribe 2, .ok, .snapshot, .callback, .swapDrop, .encode,
        .sendVideoFrame] _ := .of_follow rfl rfl
  rcases h _ _ ⟨_, hrun.of_restrict⟩ 2 [] [] [] ⟨1, 1⟩ rfl (fun _ => List.not_mem_nil) with
    hfirst | ⟨before, g, after, heq, -⟩
  · cases hfirst
  · exact absurd heq (by simp)

end VideoRun

end HopToDesk.Host
