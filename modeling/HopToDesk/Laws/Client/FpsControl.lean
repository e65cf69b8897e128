import HopToDesk.Client.Video

/-!
# How many frames are asked for

What the peer is told keeps within bounds in every round, whatever the threads show: at least one
frame a second, no more than the user wants, and no more than the slowest active decoder manages
with some time to spare. The peer is not told the same twice in a row. A display is refreshed at
most twenty times because of its queue, and never twice within ten seconds (`fpsControl_bounds`).
-/

set_option autoImplicit false

namespace HopToDesk.Client.Video

open Kit

/-! ## The rate -/

theorem Round.wantedFps_bounds (r : Round) : 5 ≤ r.wantedFps ∧ r.wantedFps ≤ 120 := by
  unfold Round.wantedFps
  dsimp only
  split
  · decide
  · omega

theorem eq_map_some_of_mapM {xs : List (Option Nat)} {ns : List Nat} (h : xs.mapM id = some ns) :
    xs = ns.map some := by
  induction xs generalizing ns with
  | nil =>
    cases h
    rfl
  | cons x xs ih =>
    rw [List.mapM_cons, Option.bind_eq_bind, Option.bind_eq_some_iff] at h
    obtain ⟨n, hn, h⟩ := h
    rw [Option.bind_eq_bind, Option.bind_eq_some_iff] at h
    obtain ⟨ns', hns', h⟩ := h
    cases h
    rw [List.map_cons, ← ih hns']
    exact congrArg (· :: xs) hn

/-- The decoder of every active thread has a rate, and none is slower. -/
theorem Round.minDecodeFps_le {r : Round} {threads : List (Nat × FpsControl)} {m : Nat}
    (h : r.minDecodeFps threads = some m) {x : Nat × FpsControl} (hx : x ∈ active threads) :
    ∃ n, (r.first x.1).decodeFps = some n ∧ m ≤ n := by
  unfold Round.minDecodeFps at h
  rw [Option.bind_eq_some_iff] at h
  obtain ⟨ns, hns, hmin⟩ := h
  have hmem : (r.first x.1).decodeFps ∈ ns.map some := by
    rw [← eq_map_some_of_mapM hns]
    exact List.mem_map_of_mem hx
  obtain ⟨n, hn, heq⟩ := List.mem_map.mp hmem
  exact ⟨n, heq.symm, (List.min?_eq_some_iff.mp hmin).2 n hn⟩

/-- What is told is what is left of the slowest decoder's rate or half of it, but one at least. -/
theorem Round.autoFps_eq {limitedFps maxQueueLen : Nat} {lastAutoFps : Option Nat}
    {trendings : List (Option Bool)} {fps : Nat}
    (h : autoFps limitedFps maxQueueLen lastAutoFps trendings = some fps) :
    1 ≤ fps ∧ fps ≤ max limitedFps 1 ∧ lastAutoFps ≠ some fps := by
  unfold Round.autoFps at h
  dsimp only at h
  generalize hauto : (if trendings.contains (some false) = true ∧ limitedFps < maxQueueLen then
    limitedFps / 2 else limitedFps) = auto at h
  have hle : auto ≤ limitedFps := by
    rw [← hauto]
    split
    · exact Nat.div_le_self _ _
    · exact le_refl _
  split at h
  next =>
    split at h
    next => cases h
    next hne =>
      cases h
      exact ⟨Nat.le_max_right _ _, max_le_max_right 1 hle, fun heq => hne heq.symm⟩
  next => cases h

/-- The share of a decoder's rate that is asked for. -/
def Round.share (r : Round) (decodeFps : Nat) : Nat :=
  if r.direct then decodeFps * 9 / 10 else decodeFps * 4 / 5

theorem Round.share_mono (r : Round) {m n : Nat} (h : m ≤ n) : r.share m ≤ r.share n := by
  unfold Round.share
  split
  · exact Nat.div_le_div_right (Nat.mul_le_mul_right _ h)
  · exact Nat.div_le_div_right (Nat.mul_le_mul_right _ h)

theorem zip_map_map {α β γ : Type} (f : α → β) (g : α × β → γ) (xs : List α) :
    (xs.zip (xs.map f)).map g = xs.map fun x => g (x, f x) := by
  rw [List.zip_map_right, List.map_map]
  induction xs with
  | nil => rfl
  | cons x xs ih =>
    rw [List.zip_cons_cons, List.map_cons, List.map_cons, ih]
    rfl

/-! ## A round as a whole -/

/-- What a round does to a thread, when it comes to the end. -/
def Round.turn (r : Round) (minDecodeFps : Nat) (lastAutoFps : Option Nat)
    (x : Nat × FpsControl) : Nat × FpsControl :=
  ((r.tick x).1, (r.fpsTrending (r.limitedFps minDecodeFps) lastAutoFps (r.tick x)).1)

/-- A round comes to its end, or there is nothing to go by. -/
theorem Round.fpsControl_cases (r : Round) (s : FpsState) :
    (r.minDecodeFps (s.threads.map r.tick) = none ∧
        r.fpsControl s = (⟨s.threads.map r.tick, s.lastAutoFps⟩, [])) ∨
      ∃ m fps trendings, r.minDecodeFps (s.threads.map r.tick) = some m ∧
        fps = autoFps (r.limitedFps m) (r.maxQueueLen (s.threads.map r.tick)) s.lastAutoFps
          trendings ∧
        r.fpsControl s =
          (⟨(s.threads.map (r.turn m s.lastAutoFps)).map (r.refresh m), fps.or s.lastAutoFps⟩,
            (fps.map Sent.customFps).toList ++
              ((s.threads.map (r.turn m s.lastAutoFps)).filter (r.shouldRefresh m)).map
                fun x => .refreshVideo x.1) := by
  cases hmin : r.minDecodeFps (s.threads.map r.tick) with
  | none =>
    refine .inl ⟨rfl, ?_⟩
    unfold Round.fpsControl
    dsimp only
    rw [hmin]
  | some m =>
    refine .inr ⟨m, _, ((s.threads.map r.tick).map
      (r.fpsTrending (r.limitedFps m) s.lastAutoFps)).map Prod.snd, rfl, rfl, ?_⟩
    have hthreads : ((s.threads.map r.tick).zip ((s.threads.map r.tick).map
        (r.fpsTrending (r.limitedFps m) s.lastAutoFps))).map (fun x => (x.1.1, x.2.1)) =
          s.threads.map (r.turn m s.lastAutoFps) := by
      rw [zip_map_map, List.map_map]
      rfl
    unfold Round.fpsControl
    dsimp only
    rw [hmin]
    dsimp only
    rw [hthreads]

/-! ## What is sent -/

/-- The rates that the peer was told. -/
def rates (sent : List Sent) : List Nat :=
  sent.filterMap fun x => match x with
    | .customFps fps => some fps
    | .refreshVideo _ => none

/-- The rates of a round. -/
theorem rates_append (fps : Option Nat) (displays : List Nat) :
    rates ((fps.map Sent.customFps).toList ++ displays.map .refreshVideo) = fps.toList := by
  have hdisplays : rates (displays.map .refreshVideo) = [] := by
    rw [rates, List.filterMap_map, List.filterMap_eq_nil_iff]
    intro display _
    rfl
  unfold rates at hdisplays ⊢
  rw [List.filterMap_append, hdisplays, List.append_nil]
  cases fps with
  | none => rfl
  | some fps => rfl

theorem mem_refreshVideo (fps : Option Nat) (displays : List Nat) (display : Nat) :
    Sent.refreshVideo display ∈ (fps.map Sent.customFps).toList ++ displays.map .refreshVideo ↔
      display ∈ displays := by
  rw [List.mem_append]
  constructor
  · rintro (hfps | hdisplay)
    · cases fps with
      | none => cases hfps
      | some fps => cases List.mem_singleton.mp hfps
    · obtain ⟨d, hd, heq⟩ := List.mem_map.mp hdisplay
      cases heq
      exact hd
  · exact fun hdisplay => .inr (List.mem_map_of_mem hdisplay)

/-- A round in which the rate is told, and what holds of it. -/
theorem Round.rates_fpsControl (r : Round) (s : FpsState) :
    ∃ fps : Option Nat, rates (r.fpsControl s).2 = fps.toList ∧
      (r.fpsControl s).1.lastAutoFps = fps.or s.lastAutoFps ∧
      ∀ n, fps = some n → 1 ≤ n ∧ n ≤ r.wantedFps ∧ s.lastAutoFps ≠ some n ∧
        ∀ x ∈ active (s.threads.map r.tick),
          ∃ decodeFps, (r.first x.1).decodeFps = some decodeFps ∧
            n ≤ max (r.share decodeFps) 1 := by
  obtain ⟨-, heq⟩ | ⟨m, fps, trendings, hmin, hfps, heq⟩ := r.fpsControl_cases s
  · rw [heq]
    exact ⟨none, rfl, rfl, by rintro n ⟨⟩⟩
  · rw [heq]
    refine ⟨fps, ?_, rfl, ?_⟩
    · have hrates := rates_append fps
        (((s.threads.map (r.turn m s.lastAutoFps)).filter (r.shouldRefresh m)).map Prod.fst)
      rw [List.map_map] at hrates
      exact hrates
    · rintro n rfl
      obtain ⟨hone, hle, hne⟩ := autoFps_eq hfps.symm
      have hlimited : r.limitedFps m ≤ r.share m := Nat.min_le_left _ _
      have hwanted : r.limitedFps m ≤ r.wantedFps := Nat.min_le_right _ _
      have hfive := r.wantedFps_bounds.1
      refine ⟨hone, by omega, hne, ?_⟩
      intro x hx
      obtain ⟨decodeFps, hdecode, hslow⟩ := minDecodeFps_le hmin hx
      have hshare := r.share_mono hslow
      exact ⟨decodeFps, hdecode, by omega⟩

/-! ## Refreshes -/

/-- The times at which a display is refreshed. -/
def refreshTimes (display : Nat) (tr : List (FpsState × (Round × List Sent))) : List Nat :=
  tr.flatMap fun x => if .refreshVideo display ∈ x.2.2 then [x.2.1.now] else []

/-- The control of a thread keeps count of the times at which it was refreshed. -/
structure Refreshes (ctl : FpsControl) (times : List Nat) : Prop where
  count : ctl.refreshTimes = times.length
  bounded : times.length ≤ 20
  last : ctl.lastRefreshInstant = times.getLast?
  spaced : times.IsChain fun t t' => t + 11000 ≤ t'

theorem Refreshes.congr {ctl ctl' : FpsControl} {times : List Nat} (h : Refreshes ctl times)
    (hcount : ctl'.refreshTimes = ctl.refreshTimes)
    (hlast : ctl'.lastRefreshInstant = ctl.lastRefreshInstant) : Refreshes ctl' times :=
  ⟨hcount.trans h.count, h.bounded, hlast.trans h.last, h.spaced⟩

theorem Round.fpsTrending_refresh (r : Round) (limitedFps : Nat) (lastAutoFps : Option Nat)
    (x : Nat × FpsControl) :
    (r.fpsTrending limitedFps lastAutoFps x).1.refreshTimes = x.2.refreshTimes ∧
      (r.fpsTrending limitedFps lastAutoFps x).1.lastRefreshInstant = x.2.lastRefreshInstant := by
  unfold Round.fpsTrending
  dsimp only
  split
  · exact ⟨rfl, rfl⟩
  · split
    · exact ⟨rfl, rfl⟩
    · split
      · exact ⟨rfl, rfl⟩
      · split
        · exact ⟨rfl, rfl⟩
        · exact ⟨rfl, rfl⟩

theorem Refreshes.turn {r : Round} {m : Nat} {lastAutoFps : Option Nat} {x : Nat × FpsControl}
    {times : List Nat} (h : Refreshes x.2 times) : Refreshes (r.turn m lastAutoFps x).2 times := by
  obtain ⟨hcount, hlast⟩ := r.fpsTrending_refresh (r.limitedFps m) lastAutoFps (r.tick x)
  exact h.congr hcount hlast

/-- A thread is refreshed only when it may be. -/
theorem Refreshes.refresh {r : Round} {m : Nat} {x : Nat × FpsControl} {times : List Nat}
    (h : Refreshes x.2 times) :
    Refreshes (r.refresh m x).2 (times ++ if r.shouldRefresh m x then [r.now] else []) := by
  unfold Round.refresh
  split
  next hrefresh =>
    unfold Round.shouldRefresh at hrefresh
    simp only [Bool.and_eq_true, Bool.or_eq_true, decide_eq_true_eq] at hrefresh
    obtain ⟨⟨hless, -⟩, hspaced⟩ := hrefresh
    have hcount := h.count
    refine ⟨?_, ?_, ?_, ?_⟩
    · rw [List.length_append]
      exact congrArg (· + 1) hcount
    · rw [List.length_append, List.length_singleton]
      omega
    · exact List.getLast?_concat.symm
    · rw [List.isChain_append]
      refine ⟨h.spaced, List.isChain_singleton _, ?_⟩
      intro t ht t' ht'
      cases ht'
      obtain hzero | hlate := hspaced
      · rw [hcount, List.length_eq_zero_iff] at hzero
        rw [hzero] at ht
        cases ht
      · have hlast : times.getLast? = some t := ht
        rw [h.last, hlast, Option.any_some, decide_eq_true_eq] at hlate
        omega
  next =>
    rw [List.append_nil]
    exact h

/-! ## Runs -/

/-- All rates that the peer was told. -/
def told (tr : List (FpsState × (Round × List Sent))) : List Nat :=
  tr.flatMap fun x => rates x.2.2

/-- What a run keeps. -/
structure Paced (displays : List Nat) (tr : List (FpsState × (Round × List Sent)))
    (s : FpsState) : Prop where
  displays : s.threads.map Prod.fst = displays
  refreshes : ∀ x ∈ s.threads, Refreshes x.2 (refreshTimes x.1 tr)
  last : s.lastAutoFps = (told tr).getLast?
  changes : (told tr).IsChain (· ≠ ·)

theorem refreshTimes_snoc (display : Nat) (tr : List (FpsState × (Round × List Sent)))
    (x : FpsState × (Round × List Sent)) :
    refreshTimes display (tr ++ [x]) =
      refreshTimes display tr ++ if .refreshVideo display ∈ x.2.2 then [x.2.1.now] else [] := by
  rw [refreshTimes, List.flatMap_append, List.flatMap_singleton]
  rfl

theorem told_snoc (tr : List (FpsState × (Round × List Sent)))
    (x : FpsState × (Round × List Sent)) : told (tr ++ [x]) = told tr ++ rates x.2.2 := by
  rw [told, List.flatMap_append, List.flatMap_singleton]
  rfl

section

variable {displays : List Nat} {tr : List (FpsState × (Round × List Sent))} {s : FpsState}

/-- What is told goes on changing. -/
theorem Paced.told_next (h : Paced displays tr s) (r : Round) :
    (r.fpsControl s).1.lastAutoFps = (told tr ++ rates (r.fpsControl s).2).getLast? ∧
      (told tr ++ rates (r.fpsControl s).2).IsChain (· ≠ ·) := by
  obtain ⟨fps, hrates, hlast, hfps⟩ := r.rates_fpsControl s
  rw [hrates, hlast]
  cases fps with
  | none =>
    rw [Option.toList_none, List.append_nil]
    exact ⟨h.last, h.changes⟩
  | some n =>
    rw [Option.toList_some, List.getLast?_concat, List.isChain_append]
    refine ⟨rfl, h.changes, List.isChain_singleton _, ?_⟩
    intro k hk k' hk'
    cases hk'
    rintro rfl
    exact (hfps k rfl).2.2.1 (h.last.trans hk)

theorem Paced.refreshes_next (h : Paced displays tr s) (hnodup : displays.Nodup) (r : Round) :
    (r.fpsControl s).1.threads.map Prod.fst = displays ∧
      ∀ x ∈ (r.fpsControl s).1.threads, Refreshes x.2 (refreshTimes x.1 tr ++
        if .refreshVideo x.1 ∈ (r.fpsControl s).2 then [r.now] else []) := by
  obtain ⟨-, heq⟩ | ⟨m, fps, trendings, -, -, heq⟩ := r.fpsControl_cases s
  · rw [heq]
    constructor
    · rw [List.map_map]
      exact h.displays
    · intro x hx
      obtain ⟨y, hy, rfl⟩ := List.mem_map.mp hx
      rw [if_neg (by rintro ⟨⟩), List.append_nil]
      exact (h.refreshes y hy).congr rfl rfl
  · rw [heq]
    generalize hturned : s.threads.map (r.turn m s.lastAutoFps) = turned
    have hkeys : turned.map Prod.fst = displays := by
      rw [← hturned, List.map_map]
      exact h.displays
    have hrefresh : ∀ x : Nat × FpsControl, (r.refresh m x).1 = x.1 := by
      intro x
      unfold Round.refresh
      split <;> rfl
    constructor
    · rw [List.map_map, ← hkeys]
      exact List.map_congr_left fun x _ => hrefresh x
    · intro x hx
      obtain ⟨y, hy, rfl⟩ := List.mem_map.mp hx
      have hy' := hy
      rw [← hturned] at hy'
      obtain ⟨z, hz, hzy⟩ := List.mem_map.mp hy'
      have hrefreshes : Refreshes y.2 (refreshTimes y.1 tr) := by
        rw [← hzy]
        exact (h.refreshes z hz).turn
      -- The display is refreshed if this thread is, for no other has it.
      have hiff : Sent.refreshVideo y.1 ∈ (fps.map Sent.customFps).toList ++
          (turned.filter (r.shouldRefresh m)).map (fun x => Sent.refreshVideo x.1) ↔
            r.shouldRefresh m y = true := by
        have hmem := mem_refreshVideo fps
          ((turned.filter (r.shouldRefresh m)).map Prod.fst) y.1
        rw [List.map_map] at hmem
        refine hmem.trans ?_
        rw [List.mem_map]
        constructor
        · rintro ⟨w, hw, hwy⟩
          obtain ⟨hwmem, hwrefresh⟩ := List.mem_filter.mp hw
          have hwy' : w = y := List.inj_on_of_nodup_map (hkeys ▸ hnodup) hwmem hy hwy
          rwa [hwy'] at hwrefresh
        · exact fun hyrefresh => ⟨y, List.mem_filter.mpr ⟨hy, hyrefresh⟩, rfl⟩
      have hall := hrefreshes.refresh (r := r) (m := m)
      rw [hrefresh]
      simp only [hiff]
      exact hall

end

/-- **What is asked for keeps within bounds.** In every run the peer is told, whenever it is told a
rate, one that is at least one, at most what the user wants, and at most the share of what any
active thread decodes; it is not told the same rate twice in a row; and because of its queue a
display is refreshed at most twenty times, with eleven seconds in between. -/
theorem fpsControl_bounds {displays : List Nat} (hnodup : displays.Nodup)
    {tr : List (FpsState × (Round × List Sent))} {s : FpsState}
    (h : (fpsSystem displays).Trace tr s) :
    (∀ x ∈ tr, ∀ n ∈ rates x.2.2, 1 ≤ n ∧ n ≤ x.2.1.wantedFps ∧
      ∀ thread ∈ Round.active (x.1.threads.map x.2.1.tick), ∃ decodeFps,
        (x.2.1.first thread.1).decodeFps = some decodeFps ∧
          n ≤ max (x.2.1.share decodeFps) 1) ∧
      (told tr).IsChain (· ≠ ·) ∧
      ∀ display ∈ displays, (refreshTimes display tr).length ≤ 20 ∧
        (refreshTimes display tr).IsChain fun t t' => t + 11000 ≤ t' := by
  have hpaced : Paced displays tr s := by
    induction h with
    | start h =>
      obtain rfl := h
      refine ⟨?_, ?_, rfl, List.isChain_nil⟩
      · rw [List.map_map]
        exact List.map_id _
      · intro x hx
        obtain ⟨display, -, rfl⟩ := List.mem_map.mp hx
        exact ⟨rfl, Nat.zero_le _, rfl, List.isChain_nil⟩
    | @snoc tr s x s' _ hs ih =>
      have hstate : (x.1.fpsControl s).1 = s' := congrArg Prod.fst hs
      have hsent : (x.1.fpsControl s).2 = x.2 := congrArg Prod.snd hs
      obtain ⟨hlast, hchanges⟩ := ih.told_next x.1
      obtain ⟨hkeys, hrefreshes⟩ := ih.refreshes_next hnodup x.1
      rw [hstate, hsent] at hrefreshes hlast
      rw [hsent] at hchanges
      rw [hstate] at hkeys
      refine ⟨hkeys, ?_, ?_, ?_⟩
      · intro y hy
        rw [refreshTimes_snoc]
        exact hrefreshes y hy
      · rw [told_snoc]
        exact hlast
      · rw [told_snoc]
        exact hchanges
  refine ⟨?_, hpaced.changes, ?_⟩
  · clear hpaced
    induction h with
    | start =>
      intro x hx
      cases hx
    | @snoc tr s x s' _ hs ih =>
      rw [List.forall_mem_append, List.forall_mem_singleton]
      refine ⟨ih, ?_⟩
      have hsent : (x.1.fpsControl s).2 = x.2 := congrArg Prod.snd hs
      obtain ⟨fps, hrates, -, hfps⟩ := x.1.rates_fpsControl s
      rw [hsent] at hrates
      intro n hn
      rw [hrates, Option.mem_toList] at hn
      obtain ⟨hone, hwanted, -, hslow⟩ := hfps n hn
      exact ⟨hone, hwanted, hslow⟩
  · intro display hdisplay
    rw [← hpaced.displays] at hdisplay
    obtain ⟨x, hx, rfl⟩ := List.mem_map.mp hdisplay
    exact ⟨(hpaced.refreshes x hx).bounded, (hpaced.refreshes x hx).spaced⟩

/-- A thread that does not keep up, with a hundred frames in its queue. -/
def slowRound (now : Nat) : Round where
  now := now
  direct := true
  customFps := none
  realFps _ := 20
  first _ := ⟨100, some 30⟩
  second _ := ⟨100, some 30⟩
  third _ := ⟨100, some 30⟩

theorem trace_round {displays : List Nat} {tr : List (FpsState × (Round × List Sent))}
    {s : FpsState} (h : (fpsSystem displays).Trace tr s) (r : Round) :
    (fpsSystem displays).Trace (tr ++ [(s, (r, (r.fpsControl s).2))]) (r.fpsControl s).1 :=
  h.snoc rfl

/-- It is told to slow down once, and refreshed. -/
theorem fpsControl_bounds_slow :
    ∃ tr s, (fpsSystem [0]).Trace tr s ∧ told tr = [13] ∧ refreshTimes 0 tr = [5, 11005] ∧
      (told tr).IsChain (· ≠ ·) ∧
      (refreshTimes 0 tr).IsChain fun t t' => t + 11000 ≤ t' := by
  have hstart : (fpsSystem [0]).Trace [] _ := .start rfl
  have hthird := trace_round (trace_round (trace_round hstart (slowRound 5)) (slowRound 1005))
    (slowRound 11005)
  obtain ⟨-, hchanges, hspaced⟩ := fpsControl_bounds (List.nodup_singleton 0) hthird
  exact ⟨_, _, hthird, by decide, by decide, hchanges, (hspaced 0 List.mem_cons_self).2⟩

end HopToDesk.Client.Video
