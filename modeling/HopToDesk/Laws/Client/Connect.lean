import HopToDesk.Client.Connect

/-!
# The race for a connection comes to its end

A race between the direct attempt and the relay cannot go on forever (`next_decreases`). But it need
not return: when the direct connection arrives while the relay attempt is in the middle of its
handshake, the task waits for the mutex that the attempt holds, and the attempt, a future of the
same task, is not polled any more (`Jammed`).
-/

set_option autoImplicit false

namespace HopToDesk.Client.Connect

open Kit HopToDesk.Wire

/-! ## One step -/

/-- What a step of the relay attempt does. -/
inductive TurnStep (s : Race) : Event → Race → Prop
  | fetched {refreshed : Bool} (old : Bool) (answers : List (Option (Option (List ServerEntry))))
      (ht : s.turn = .fetching refreshed) :
      TurnStep s (.fetched old answers) { s with
        turn := .beginPass refreshed (getTurnServers s.cache old answers)
        cache := (getTurnServers s.cache old answers).or s.cache }
  | allocated {refreshed : Bool} {pass : Pass} {pending : List TurnConfig} (config : TurnConfig)
      (ht : s.turn = .allocating refreshed pass pending) (hconfig : config ∈ pending) :
      TurnStep s (.allocated config.addr)
        (s.setTurn (.establishing refreshed pass config.addr .connection)
          [.relayConnection config.addr])
  | unallocated {refreshed : Bool} {pass : Pass} {pending : List TurnConfig} (config : TurnConfig)
      (ht : s.turn = .allocating refreshed pass pending) (hconfig : config ∈ pending) :
      TurnStep s (.unallocated config.addr)
        (s.setTurn (.drop refreshed pass pending config.addr) [])
  | advanced {refreshed : Bool} {pass : Pass} {server : String} {stage : Stage}
      (ht : s.turn = .establishing refreshed pass server stage) :
      TurnStep s .advanced (s.setTurn (Turn.advance refreshed pass server stage).1
        (Turn.advance refreshed pass server stage).2)
  | excluded {refreshed : Bool} {pass : Pass} {server : String} {stage : Stage} (e : Event)
      (err : String) (he : e = .broken err ∨ e = .timeout err)
      (ht : s.turn = .establishing refreshed pass server stage) :
      TurnStep s e (s.setTurn (.nextAttempt refreshed (pass.exclude server err)) [])
  | refreshed {pass : Pass} (ht : s.turn = .refreshing pass) :
      TurnStep s (.refreshed true) { s with turn := .fetching true, cache := none }
  | givenUp {pass : Pass} (ht : s.turn = .refreshing pass) :
      TurnStep s (.refreshed false) (s.setTurn (.failed pass.exhausted) [])

theorem TurnStep.of_next {s s' : Race} {e : Event} (h : s.nextTurn e = some s') :
    TurnStep s e s' := by
  cases e with
  | fetched old answers =>
    simp only [Race.nextTurn] at h
    split at h
    next ht =>
      cases h
      exact .fetched old answers ht
    next => cases h
  | allocated server =>
    simp only [Race.nextTurn] at h
    split at h
    next ht =>
      split_ifs at h with hmem
      obtain ⟨config, hconfig, rfl⟩ := hmem
      cases h
      exact .allocated config ht hconfig
    next => cases h
  | unallocated server =>
    simp only [Race.nextTurn] at h
    split at h
    next ht =>
      split_ifs at h with hmem
      obtain ⟨config, hconfig, rfl⟩ := hmem
      cases h
      exact .unallocated config ht hconfig
    next => cases h
  | advanced =>
    simp only [Race.nextTurn] at h
    split at h
    next ht =>
      cases h
      exact .advanced ht
    next => cases h
  | broken err =>
    simp only [Race.nextTurn] at h
    split at h
    next ht =>
      split_ifs at h
      cases h
      exact .excluded _ err (.inl rfl) ht
    next => cases h
  | timeout err =>
    simp only [Race.nextTurn] at h
    split at h
    next ht =>
      cases h
      exact .excluded _ err (.inr rfl) ht
    next => cases h
  | refreshed changed =>
    simp only [Race.nextTurn] at h
    split at h
    next ht =>
      cases changed with
      | true =>
        cases h
        exact .refreshed ht
      | false =>
        cases h
        exact .givenUp ht
    next => cases h
  | resolved => cases h
  | connected => cases h
  | refused => cases h
  | delay => cases h
  | closed => cases h

/-- What a step of the direct attempt does. -/
inductive DirectStep (s : Race) : Event → Direct → Prop
  | resolved (publicIp : Option SocketAddr) (hd : s.direct = .resolving)
      (haddrs : s.peer.addrsToTry publicIp ≠ []) :
      DirectStep s (.resolved publicIp) (.trying (s.peer.addrsToTry publicIp))
  | noAddress (publicIp : Option SocketAddr) (err : String) (hd : s.direct = .resolving)
      (haddrs : s.peer.addrsToTry publicIp = []) :
      DirectStep s (.resolved publicIp) (.failed err)
  | connected {pending : List SocketAddr} (addr : SocketAddr) (hd : s.direct = .trying pending)
      (haddr : addr ∈ pending) : DirectStep s (.connected addr) (.connected addr)
  | refused {pending : List SocketAddr} (addr : SocketAddr) (err : String)
      (hd : s.direct = .trying pending) (haddr : addr ∈ pending) (hrest : pending.erase addr ≠ []) :
      DirectStep s (.refused addr err) (.trying (pending.erase addr))
  | failed {pending : List SocketAddr} (addr : SocketAddr) (err : String)
      (hd : s.direct = .trying pending) (haddr : addr ∈ pending) (hrest : pending.erase addr = []) :
      DirectStep s (.refused addr err) (.failed err)

theorem DirectStep.of_next {s : Race} {e : Event} {d : Direct} (h : s.nextDirect e = some d) :
    DirectStep s e d := by
  cases e with
  | resolved publicIp =>
    simp only [Race.nextDirect] at h
    split_ifs at h with hd
    split at h
    next haddrs =>
      cases h
      exact .noAddress publicIp _ hd haddrs
    next haddrs =>
      cases h
      exact .resolved publicIp hd haddrs
  | connected addr =>
    simp only [Race.nextDirect] at h
    split at h
    next hd =>
      split_ifs at h with haddr
      cases h
      exact .connected addr hd haddr
    next => cases h
  | refused addr err =>
    simp only [Race.nextDirect] at h
    split at h
    next hd =>
      split_ifs at h with haddr
      split at h
      next hrest =>
        cases h
        exact .failed addr err hd haddr hrest
      next hrest =>
        cases h
        exact .refused addr err hd haddr hrest
    next => cases h
  | _ => cases h

/-- What a step does. -/
inductive Step (s : Race) : Event → Race → Prop
  | delay (hp : s.phase = .early) :
      Step s .delay { s with phase := .both, turn := .fetching false }
  | closed (addr : SocketAddr) (hp : s.phase = .handover addr) (hfree : s.turn.holds = false) :
      Step s .closed { s with
        phase := .returned (.ok ⟨.direct addr, none, true⟩)
        signals := s.signals ++ [.close] }
  | direct {e : Event} {d : Direct} (hpolls : s.pollsDirect = true) (h : DirectStep s e d) :
      Step s e { s with direct := d }.settle
  | turn {e : Event} {t : Race} (hpolls : s.pollsTurn = true) (h : TurnStep s e t) :
      Step s e t.settle

theorem Step.of_next {s s' : Race} {e : Event} (h : s.next e = some s') : Step s e s' := by
  unfold Race.next at h
  split at h
  next _ hp =>
    cases h
    exact .delay hp
  next _ addr hp =>
    split_ifs at h with hfree
    cases h
    exact .closed addr hp (Bool.eq_false_of_not_eq_true hfree)
  next =>
    split at h
    next d hd =>
      split_ifs at hd with hpolls
      cases h
      exact .direct hpolls (.of_next hd)
    next =>
      split_ifs at h with hpolls
      obtain ⟨t, ht, rfl⟩ := Option.map_eq_some_iff.mp h
      exact .turn hpolls (.of_next ht)

/-- What `settle` does. -/
inductive Settles (s : Race) : Race → Prop
  | stays : Settles s s
  | directOnly (addr : SocketAddr) (hp : s.phase = .directOnly) (hd : s.direct = .connected addr) :
      Settles s { s with phase := .returned (.ok ⟨.direct addr, none, true⟩) }
  | directOnlyFailed (err : String) (hp : s.phase = .directOnly) (hd : s.direct = .failed err) :
      Settles s { s with phase := .returned (.error err) }
  | relay (server : String) (hp : s.phase = .relayOnly ∨ s.phase = .both)
      (ht : s.turn = .connected server) :
      Settles s { s with phase := .returned (.ok ⟨.relay server, some server, false⟩) }
  | relayOnlyFailed (err : String) (hp : s.phase = .relayOnly) (ht : s.turn = .failed err) :
      Settles s { s with phase := .returned (.error err) }
  | handover (addr : SocketAddr) (hp : s.phase = .early ∨ s.phase = .both)
      (hd : s.direct = .connected addr) : Settles s { s with phase := .handover addr }
  | relayAfter (err : String) (hp : s.phase = .early) (hd : s.direct = .failed err) :
      Settles s { s with phase := .both, turn := .fetching false }
  | bothFailed (derr err : String) (hp : s.phase = .both) (hd : s.direct = .failed derr)
      (ht : s.turn = .failed err) :
      Settles s { s with phase := .returned (.error
        s!"Both connections failed. Direct: direct connection failed, Relay: {err}") }

theorem settles (s : Race) : Settles s s.settle := by
  unfold Race.settle
  split
  next hp hd => exact .directOnly _ hp hd
  next hp hd => exact .directOnlyFailed _ hp hd
  next hp ht => exact .relay _ (.inl hp) ht
  next hp ht => exact .relayOnlyFailed _ hp ht
  next hp hd => exact .handover _ (.inl hp) hd
  next hp hd => exact .relayAfter _ hp hd
  next hp hd => exact .handover _ (.inr hp) hd
  next server hp ht _ => exact .relay server (.inr hp) ht
  next hp hd ht => exact .bothFailed _ _ hp hd ht
  next => exact .stays

/-! ## No race goes on forever -/

/-- How far the relay attempt is: the lists and refreshes to come, the attempts left on this list,
and what is left of this one. -/
def Turn.rank : Turn → ℕ ×ₗ ℕ ×ₗ ℕ
  | .idle => toLex (6, toLex (0, 0))
  | .fetching refreshed => toLex (if refreshed then 2 else 5, toLex (0, 0))
  | .allocating refreshed pass pending =>
    toLex (if refreshed then 1 else 4,
      toLex (pass.maxAttempts - pass.attempt, pending.length + 4))
  | .establishing refreshed pass _ stage =>
    toLex (if refreshed then 1 else 4, toLex (pass.maxAttempts - pass.attempt, match stage with
      | .connection => 4
      | .waiting => 3
      | .ready => 2
      | .closing => 1))
  | .refreshing _ => toLex (3, toLex (0, 0))
  | .connected _ | .failed _ => toLex (0, toLex (0, 0))

def Direct.rank : Direct → ℕ ×ₗ ℕ
  | .resolving => toLex (2, 0)
  | .trying pending => toLex (1, pending.length)
  | .connected _ | .failed _ => toLex (0, 0)

def Phase.rank : Phase → ℕ
  | .early => 3
  | .directOnly | .relayOnly | .both => 2
  | .handover _ => 1
  | .returned _ => 0

def Race.rank (s : Race) : ℕ ×ₗ (ℕ ×ₗ ℕ) ×ₗ ℕ ×ₗ ℕ ×ₗ ℕ :=
  toLex (s.phase.rank, toLex (s.direct.rank, s.turn.rank))

theorem lex_lt_of_fst {α β : Type} [LT α] [LT β] {a a' : α} {b b' : β} (h : a' < a) :
    toLex (a', b') < toLex (a, b) := Prod.Lex.left b' b h

theorem lex_lt_of_snd {α β : Type} [LT α] [LT β] {a : α} {b b' : β} (h : b' < b) :
    toLex (a, b') < toLex (a, b) := Prod.Lex.right a h

/-- What follows the attempts of a pass is nearer to the end than they are. -/
theorem Turn.rank_afterPass_lt (refreshed : Bool) (pass : Pass) (r : ℕ ×ₗ ℕ) :
    (Turn.afterPass refreshed pass).rank < toLex (if refreshed then 1 else 4, r) := by
  unfold Turn.afterPass
  cases refreshed with
  | true => exact lex_lt_of_fst (by decide)
  | false => exact lex_lt_of_fst (by decide)

/-- The next attempt of a pass has one less to come. -/
theorem Turn.rank_nextAttempt_lt (refreshed : Bool) {pass : Pass} {n k : ℕ}
    (h : pass.attempt < pass.maxAttempts → pass.maxAttempts - pass.attempt < n) :
    (Turn.nextAttempt refreshed pass).rank < toLex (if refreshed then 1 else 4, toLex (n, k)) := by
  unfold Turn.nextAttempt
  split
  next hgo => exact lex_lt_of_snd (lex_lt_of_fst (h hgo.1))
  next => exact Turn.rank_afterPass_lt refreshed pass _

/-- A list that has come begins a pass, or ends the attempt. -/
theorem Turn.rank_beginPass_lt (refreshed : Bool) (servers : Option (List TurnConfig)) :
    (Turn.beginPass refreshed servers).rank < (Turn.fetching refreshed).rank := by
  have hnext (pass : Pass) :
      (Turn.nextAttempt refreshed pass).rank < (Turn.fetching refreshed).rank := by
    refine (Turn.rank_nextAttempt_lt refreshed (n := pass.maxAttempts - pass.attempt + 1) (k := 0)
      fun _ => Nat.lt_succ_self _).trans ?_
    cases refreshed with
    | true => exact lex_lt_of_fst (by decide)
    | false => exact lex_lt_of_fst (by decide)
  unfold Turn.beginPass
  split
  next => cases refreshed <;> exact lex_lt_of_fst (by decide)
  next => cases refreshed <;> exact lex_lt_of_fst (by decide)
  next => exact hnext _

theorem length_filter_lt {config : TurnConfig} {pending : List TurnConfig} (h : config ∈ pending) :
    (pending.filter (·.addr ≠ config.addr)).length < pending.length :=
  List.length_filter_lt_length_iff_exists.mpr ⟨config, h, by simp⟩

theorem TurnStep.rank_lt {s t : Race} {e : Event} (h : TurnStep s e t) :
    t.turn.rank < s.turn.rank ∧ t.direct = s.direct ∧ t.phase = s.phase := by
  cases h with
  | fetched old answers ht =>
    refine ⟨?_, rfl, rfl⟩
    rw [ht]
    exact Turn.rank_beginPass_lt _ _
  | allocated config ht hconfig =>
    refine ⟨?_, rfl, rfl⟩
    rw [ht]
    apply lex_lt_of_snd
    apply lex_lt_of_snd
    exact Nat.lt_add_of_pos_left (List.length_pos_of_mem hconfig)
  | unallocated config ht hconfig =>
    refine ⟨?_, rfl, rfl⟩
    rw [ht]
    have hlt := length_filter_lt hconfig
    simp only [Race.setTurn, Turn.drop]
    split
    next => exact Turn.rank_afterPass_lt _ _ _
    next hrest =>
      apply lex_lt_of_snd
      apply lex_lt_of_snd
      omega
  | @advanced refreshed pass server stage ht =>
    refine ⟨?_, rfl, rfl⟩
    rw [ht]
    cases stage with
    | closing =>
      apply lex_lt_of_fst
      cases refreshed <;> decide
    | _ => exact lex_lt_of_snd (lex_lt_of_snd (by decide))
  | excluded e err he ht =>
    refine ⟨?_, rfl, rfl⟩
    rw [ht]
    apply Turn.rank_nextAttempt_lt
    intro hgo
    simp only [Pass.exclude, Pass.maxAttempts] at hgo ⊢
    omega
  | refreshed ht =>
    refine ⟨?_, rfl, rfl⟩
    rw [ht]
    exact lex_lt_of_fst (by decide)
  | givenUp ht =>
    refine ⟨?_, rfl, rfl⟩
    rw [ht]
    exact lex_lt_of_fst (by decide)

theorem DirectStep.rank_lt {s : Race} {e : Event} {d : Direct} (h : DirectStep s e d) :
    d.rank < s.direct.rank := by
  cases h with
  | resolved publicIp hd =>
    rw [hd]
    exact lex_lt_of_fst (by decide)
  | noAddress publicIp err hd =>
    rw [hd]
    exact lex_lt_of_fst (by decide)
  | connected addr hd =>
    rw [hd]
    exact lex_lt_of_fst (by decide)
  | refused addr err hd haddr =>
    rw [hd]
    apply lex_lt_of_snd
    have hpos := List.length_pos_of_mem haddr
    rw [List.length_erase_of_mem haddr]
    omega
  | failed addr err hd =>
    rw [hd]
    exact lex_lt_of_fst (by decide)

theorem Settles.rank_le {s s' : Race} (h : Settles s s') : s'.rank ≤ s.rank := by
  have hphase {p : Phase} (t : Turn) (h : p.rank < s.phase.rank) :
      ({ s with phase := p, turn := t } : Race).rank ≤ s.rank := (lex_lt_of_fst h).le
  cases h with
  | stays => exact le_refl _
  | directOnly addr hp => exact hphase s.turn (by simp [hp, Phase.rank])
  | directOnlyFailed err hp => exact hphase s.turn (by simp [hp, Phase.rank])
  | relay server hp => exact hphase s.turn (by rcases hp with hp | hp <;> simp [hp, Phase.rank])
  | relayOnlyFailed err hp => exact hphase s.turn (by simp [hp, Phase.rank])
  | handover addr hp => exact hphase s.turn (by rcases hp with hp | hp <;> simp [hp, Phase.rank])
  | relayAfter err hp => exact hphase _ (by simp [hp, Phase.rank])
  | bothFailed derr err hp => exact hphase s.turn (by simp [hp, Phase.rank])

/-- **Each step brings the end nearer.** -/
theorem next_decreases {s s' : Race} {e : Event} (h : s.next e = some s') : s'.rank < s.rank := by
  cases Step.of_next h with
  | delay hp => exact lex_lt_of_fst (by simp [hp, Phase.rank])
  | closed addr hp => exact lex_lt_of_fst (by simp [hp, Phase.rank])
  | @direct e d hpolls hd =>
    have hlt : ({ s with direct := d } : Race).rank < s.rank :=
      lex_lt_of_snd (lex_lt_of_fst hd.rank_lt)
    exact (settles _).rank_le.trans_lt hlt
  | @turn e t hpolls ht =>
    obtain ⟨hlt, hdirect, hphase⟩ := ht.rank_lt
    have hrank : t.rank < s.rank := by
      unfold Race.rank
      rw [hdirect, hphase]
      exact lex_lt_of_snd (lex_lt_of_snd hlt)
    exact (settles t).rank_le.trans_lt hrank

/-- **No race goes on forever**, whatever the network does. -/
theorem not_endless (run : ℕ → Race) : ¬ ∀ n, ∃ e, (run n).next e = some (run (n + 1)) := by
  intro h
  have hlt (n : ℕ) : (run (n + 1)).rank < (run n).rank := by
    obtain ⟨e, he⟩ := h n
    exact next_decreases he
  exact (RelEmbedding.natGT (fun n => (run n).rank) hlt).not_wellFounded wellFounded_lt

/-! ## Where a race can be -/

/-- The direct attempt waits for something. -/
def Direct.busy : Direct → Bool
  | .resolving => true
  | .trying pending => !pending.isEmpty
  | .connected _ | .failed _ => false

/-- The relay attempt waits for something. -/
def Turn.busy : Turn → Bool
  | .fetching _ | .establishing _ _ _ _ | .refreshing _ => true
  | .allocating _ _ pending => !pending.isEmpty
  | .idle | .connected _ | .failed _ => false

inductive Race.Fits (s : Race) : Prop
  | directOnly (hp : s.phase = .directOnly) (hd : s.direct.busy = true) (ht : s.turn = .idle)
  | relayOnly (hp : s.phase = .relayOnly) (hd : s.direct = .resolving) (ht : s.turn.busy = true)
  | early (hp : s.phase = .early) (hd : s.direct.busy = true) (ht : s.turn = .idle)
  | both (hp : s.phase = .both) (hd : s.direct.busy = true ∨ ∃ err, s.direct = .failed err)
      (ht : s.turn.busy = true ∨ ∃ err, s.turn = .failed err)
      (hbusy : s.direct.busy = true ∨ s.turn.busy = true)
  | handover (addr : SocketAddr) (hp : s.phase = .handover addr) (hd : s.direct = .connected addr)
  | returned (result : Except String Outcome) (hp : s.phase = .returned result)

theorem DirectStep.busy_or {s : Race} {e : Event} {d : Direct} (h : DirectStep s e d) :
    d.busy = true ∨ (∃ addr, e = .connected addr ∧ d = .connected addr) ∨
      ∃ err, d = .failed err := by
  cases h with
  | resolved publicIp hd haddrs =>
    left
    simpa only [Direct.busy, Bool.not_eq_true', List.isEmpty_eq_false_iff] using haddrs
  | noAddress publicIp err => exact .inr (.inr ⟨err, rfl⟩)
  | connected addr => exact .inr (.inl ⟨addr, rfl, rfl⟩)
  | refused addr err hd haddr hrest =>
    left
    simpa only [Direct.busy, Bool.not_eq_true', List.isEmpty_eq_false_iff] using hrest
  | failed addr err => exact .inr (.inr ⟨err, rfl⟩)

theorem Turn.busy_afterPass (refreshed : Bool) (pass : Pass) :
    (Turn.afterPass refreshed pass).busy = true ∨
      ∃ err, Turn.afterPass refreshed pass = .failed err := by
  cases refreshed with
  | true => exact .inr ⟨_, rfl⟩
  | false => exact .inl rfl

theorem Turn.busy_nextAttempt (refreshed : Bool) (pass : Pass) :
    (Turn.nextAttempt refreshed pass).busy = true ∨
      ∃ err, Turn.nextAttempt refreshed pass = .failed err := by
  unfold Turn.nextAttempt
  split
  next hgo =>
    left
    simpa only [Turn.busy, Bool.not_eq_true', List.isEmpty_eq_false_iff] using hgo.2
  next => exact Turn.busy_afterPass refreshed pass

/-- The relay attempt waits for something again, or has come to its end. -/
theorem TurnStep.busy_or {s t : Race} {e : Event} (h : TurnStep s e t) :
    t.turn.busy = true ∨ (∃ server, t.turn = .connected server) ∨ ∃ err, t.turn = .failed err := by
  have hor {turn : Turn} (h : turn.busy = true ∨ ∃ err, turn = .failed err) :
      turn.busy = true ∨ (∃ server, turn = .connected server) ∨ ∃ err, turn = .failed err :=
    h.imp_right .inr
  cases h with
  | @fetched refreshed old answers ht =>
    apply hor
    dsimp only
    unfold Turn.beginPass
    split
    next => exact .inr ⟨_, rfl⟩
    next => exact .inr ⟨_, rfl⟩
    next => exact Turn.busy_nextAttempt _ _
  | allocated config ht => exact .inl rfl
  | unallocated config ht hconfig =>
    apply hor
    simp only [Race.setTurn, Turn.drop]
    split
    next => exact Turn.busy_afterPass _ _
    next hrest =>
      left
      simpa only [Turn.busy, Bool.not_eq_true', List.isEmpty_eq_false_iff] using hrest
  | @advanced refreshed pass server stage ht =>
    cases stage with
    | closing => exact .inr (.inl ⟨server, rfl⟩)
    | _ => exact .inl rfl
  | excluded e err he ht => exact hor (Turn.busy_nextAttempt _ _)
  | refreshed ht => exact .inl rfl
  | givenUp ht => exact .inr (.inr ⟨_, rfl⟩)

theorem Race.settle_of_direct_busy {s : Race} (hp : s.phase = .directOnly ∨ s.phase = .early)
    (hd : s.direct.busy = true) : s.settle = s := by
  unfold Race.settle
  rcases hp with hp | hp <;> cases hdirect : s.direct <;> simp_all [Direct.busy]

theorem Race.settle_of_turn_busy {s : Race} (hp : s.phase = .relayOnly) (ht : s.turn.busy = true) :
    s.settle = s := by
  unfold Race.settle
  cases hturn : s.turn <;> simp_all [Turn.busy]

theorem Race.settle_both {s : Race} (hp : s.phase = .both)
    (hd : s.direct.busy = true ∨ ∃ err, s.direct = .failed err)
    (ht : s.turn.busy = true ∨ ∃ err, s.turn = .failed err)
    (hbusy : s.direct.busy = true ∨ s.turn.busy = true) : s.settle = s := by
  unfold Race.settle
  cases hdirect : s.direct <;> cases hturn : s.turn <;> simp_all [Direct.busy, Turn.busy]

namespace Race.Fits

theorem delay {s : Race} (h : s.Fits) (hp : s.phase = .early) :
    ({ s with phase := .both, turn := .fetching false } : Race).Fits := by
  cases h with
  | early _ hd => exact .both rfl (.inl hd) (.inl rfl) (.inl hd)
  | directOnly hp' => cases hp.symm.trans hp'
  | relayOnly hp' => cases hp.symm.trans hp'
  | both hp' => cases hp.symm.trans hp'
  | handover addr hp' => cases hp.symm.trans hp'
  | returned r hp' => cases hp.symm.trans hp'

theorem direct {s : Race} (h : s.Fits) {e : Event} {d : Direct} (hpolls : s.pollsDirect = true)
    (hd : DirectStep s e d) : ({ s with direct := d } : Race).settle.Fits := by
  cases h with
  | directOnly hp _ ht =>
    rcases hd.busy_or with hbusy | ⟨addr, -, rfl⟩ | ⟨err, rfl⟩
    · rw [Race.settle_of_direct_busy (s := { s with direct := d }) (.inl hp) hbusy]
      exact .directOnly hp hbusy ht
    · exact .returned (.ok ⟨.direct addr, none, true⟩) (by simp only [Race.settle, hp])
    · exact .returned (.error err) (by simp only [Race.settle, hp])
  | early hp _ ht =>
    rcases hd.busy_or with hbusy | ⟨addr, -, rfl⟩ | ⟨err, rfl⟩
    · rw [Race.settle_of_direct_busy (s := { s with direct := d }) (.inr hp) hbusy]
      exact .early hp hbusy ht
    · exact .handover addr (by simp only [Race.settle, hp]) (by simp only [Race.settle, hp])
    · refine .both ?_ (.inr ⟨err, ?_⟩) (.inl ?_) (.inr ?_) <;> simp only [Race.settle, hp]
      all_goals rfl
  | both hp _ ht =>
    rcases hd.busy_or with hbusy | ⟨addr, -, rfl⟩ | ⟨err, rfl⟩
    · rw [Race.settle_both (s := { s with direct := d }) hp (.inl hbusy) ht (.inl hbusy)]
      exact .both hp (.inl hbusy) ht (.inl hbusy)
    · exact .handover addr (by simp only [Race.settle, hp]) (by simp only [Race.settle, hp])
    · rcases ht with ht | ⟨terr, ht⟩
      · rw [Race.settle_both (s := { s with direct := .failed err }) hp (.inr ⟨err, rfl⟩) (.inl ht)
          (.inr ht)]
        exact .both hp (.inr ⟨err, rfl⟩) (.inl ht) (.inr ht)
      · exact .returned _ (by simp only [Race.settle, hp, ht]; rfl)
  | relayOnly hp => simp only [Race.pollsDirect, hp, Bool.false_eq_true] at hpolls
  | handover addr hp => simp only [Race.pollsDirect, hp, Bool.false_eq_true] at hpolls
  | returned r hp => simp only [Race.pollsDirect, hp, Bool.false_eq_true] at hpolls

theorem turn {s t : Race} (h : s.Fits) {e : Event} (hpolls : s.pollsTurn = true)
    (hstep : TurnStep s e t) : t.settle.Fits := by
  obtain ⟨-, hdirect, hphase⟩ := hstep.rank_lt
  cases h with
  | relayOnly hp hd _ =>
    rw [← hphase] at hp
    rw [← hdirect] at hd
    rcases hstep.busy_or with hbusy | ⟨server, ht⟩ | ⟨err, ht⟩
    · rw [Race.settle_of_turn_busy hp hbusy]
      exact .relayOnly hp hd hbusy
    · exact .returned _ (by simp only [Race.settle, hp, ht]; rfl)
    · exact .returned _ (by simp only [Race.settle, hp, ht]; rfl)
  | both hp hd _ =>
    rw [← hphase] at hp
    rw [← hdirect] at hd
    rcases hstep.busy_or with hbusy | ⟨server, ht⟩ | ⟨err, ht⟩
    · rw [Race.settle_both hp hd (.inl hbusy) (.inr hbusy)]
      exact .both hp hd (.inl hbusy) (.inr hbusy)
    · refine .returned (.ok ⟨.relay server, some server, false⟩) ?_
      unfold Race.settle
      rw [hp, ht]
      rcases hd with hd | ⟨derr, hd⟩
      · cases hcase : t.direct with
        | connected addr =>
          rw [hcase] at hd
          cases hd
        | _ => rfl
      · rw [hd]
    · rcases hd with hd | ⟨derr, hd⟩
      · rw [Race.settle_both hp (.inl hd) (.inr ⟨err, ht⟩) (.inl hd)]
        exact .both hp (.inl hd) (.inr ⟨err, ht⟩) (.inl hd)
      · exact .returned _ (by simp only [Race.settle, hp, ht, hd]; rfl)
  | directOnly hp => simp only [Race.pollsTurn, hp, Bool.false_eq_true] at hpolls
  | early hp => simp only [Race.pollsTurn, hp, Bool.false_eq_true] at hpolls
  | handover addr hp => simp only [Race.pollsTurn, hp, Bool.false_eq_true] at hpolls
  | returned r hp => simp only [Race.pollsTurn, hp, Bool.false_eq_true] at hpolls

theorem next {s s' : Race} (h : s.Fits) {e : Event} (hs : s.next e = some s') : s'.Fits := by
  cases Step.of_next hs with
  | delay hp => exact h.delay hp
  | closed addr hp => exact .returned _ rfl
  | direct hpolls hd => exact h.direct hpolls hd
  | turn hpolls ht => exact h.turn hpolls ht

end Race.Fits

/-- How a race begins. -/
theorem Start.begin_cases {o : Start} {s : Race} (h : o.begin = .ok s) :
    ∃ peer, s = o.race peer .directOnly ∨
      s = o.race peer .relayOnly ∧ o.forceAlwaysRelay = "Y" ∧ o.getPeerInfo = .ok peer ∨
      s = o.race peer .early ∧ o.forceAlwaysRelay ≠ "Y" ∧ o.getPeerInfo = .ok peer := by
  have hdirect {r : Except String Peer} (hr : r.map (o.race · .directOnly) = .ok s) :
      ∃ peer, s = o.race peer .directOnly := by
    cases r with
    | error e => cases hr
    | ok peer =>
      cases hr
      exact ⟨peer, rfl⟩
  unfold Start.begin at h
  split at h
  next => cases h
  split at h
  next =>
    obtain ⟨peer, rfl⟩ := hdirect h
    exact ⟨peer, .inl rfl⟩
  split at h
  next peer hpeer =>
    split at h
    next => cases h
    split at h
    next hforce =>
      cases h
      exact ⟨peer, .inr (.inl ⟨rfl, hforce, hpeer⟩)⟩
    next hforce =>
      cases h
      exact ⟨peer, .inr (.inr ⟨rfl, hforce, hpeer⟩)⟩
  next =>
    obtain ⟨peer, rfl⟩ := hdirect h
    exact ⟨peer, .inl rfl⟩

theorem Start.fits_begin {o : Start} {s : Race} (h : o.begin = .ok s) : s.Fits := by
  obtain ⟨peer, rfl | ⟨rfl, -⟩ | ⟨rfl, -⟩⟩ := o.begin_cases h
  · exact .directOnly rfl rfl rfl
  · exact .relayOnly rfl rfl rfl
  · exact .early rfl rfl rfl

theorem Start.fits {o : Start} {as : List Event} {s : Race} (h : o.system.Run as s) : s.Fits :=
  h.invariant (I := Race.Fits) Start.fits_begin fun hs hstep => hs.next hstep

/-! ## When it returns -/

/-- The direct connection has won, and the relay attempt, which nobody polls any more, holds
`sender`. -/
def Race.Jammed (s : Race) : Prop := ∃ addr, s.phase = .handover addr ∧ s.turn.holds = true

/-- The direct connection arrives while the relay attempt holds `sender`. -/
def Jams (x : Race × Event) : Prop :=
  ∃ addr, x.2 = .connected addr ∧ x.1.phase = .both ∧ x.1.turn.holds = true

theorem next_of_direct {s : Race} {e : Event} {d : Direct} (hpolls : s.pollsDirect = true)
    (h : s.nextDirect e = some d) : s.next e = some { s with direct := d }.settle := by
  unfold Race.next
  split
  next => cases h
  next addr hp => simp only [Race.pollsDirect, hp, Bool.false_eq_true] at hpolls
  next => rw [if_pos hpolls, h]

theorem next_of_turn {s t : Race} {e : Event} (hpolls : s.pollsTurn = true)
    (hdirect : s.nextDirect e = none) (h : s.nextTurn e = some t) : s.next e = some t.settle := by
  unfold Race.next
  split
  next => cases h
  next addr hp => simp only [Race.pollsTurn, hp, Bool.false_eq_true] at hpolls
  next =>
    rw [hdirect, ite_self]
    dsimp only
    rw [if_pos hpolls, h]
    rfl

/-- An attempt that waits can go on. -/
theorem exists_nextDirect {s : Race} (h : s.direct.busy = true) :
    ∃ e d, s.nextDirect e = some d := by
  cases hd : s.direct with
  | resolving =>
    refine ⟨.resolved none, ?_⟩
    simp only [Race.nextDirect, hd, if_true]
    split
    · exact ⟨_, rfl⟩
    · exact ⟨_, rfl⟩
  | trying pending =>
    rw [hd] at h
    obtain ⟨addr, rest, rfl⟩ := List.exists_cons_of_ne_nil
      (List.isEmpty_eq_false_iff.mp (Bool.eq_false_of_not_eq_true' h))
    refine ⟨.connected addr, .connected addr, ?_⟩
    simp only [Race.nextDirect, hd, List.mem_cons_self, if_true]
  | connected addr =>
    rw [hd] at h
    cases h
  | failed err =>
    rw [hd] at h
    cases h

theorem exists_nextTurn {s : Race} (h : s.turn.busy = true) :
    ∃ e t, s.nextDirect e = none ∧ s.nextTurn e = some t := by
  cases ht : s.turn with
  | fetching refreshed => exact ⟨.fetched false [], _, rfl, by simp only [Race.nextTurn, ht]; rfl⟩
  | allocating refreshed pass pending =>
    rw [ht] at h
    obtain ⟨config, rest, rfl⟩ := List.exists_cons_of_ne_nil
      (List.isEmpty_eq_false_iff.mp (Bool.eq_false_of_not_eq_true' h))
    have hmem : ∃ c ∈ config :: rest, c.addr = config.addr := ⟨config, List.mem_cons_self, rfl⟩
    exact ⟨.allocated config.addr, _, rfl, by simp only [Race.nextTurn, ht, if_pos hmem]; rfl⟩
  | establishing refreshed pass server stage =>
    exact ⟨.advanced, _, rfl, by simp only [Race.nextTurn, ht]; rfl⟩
  | refreshing pass =>
    exact ⟨.refreshed true, _, rfl, by simp only [Race.nextTurn, ht, if_true]; rfl⟩
  | idle =>
    rw [ht] at h
    cases h
  | connected server =>
    rw [ht] at h
    cases h
  | failed err =>
    rw [ht] at h
    cases h

theorem next_of_returned {s : Race} {r : Except String Outcome} (hp : s.phase = .returned r)
    (e : Event) : s.next e = none := by
  unfold Race.next
  simp only [Race.pollsDirect, Race.pollsTurn, hp, Bool.false_eq_true, if_false]

theorem next_of_jammed {s : Race} (h : s.Jammed) (e : Event) : s.next e = none := by
  obtain ⟨addr, hp, hholds⟩ := h
  unfold Race.next
  simp only [Race.pollsDirect, Race.pollsTurn, hp, hholds, Bool.false_eq_true, if_false, if_true]
  split
  next heq => cases heq
  next => rfl
  next => rfl

/-- A race that cannot go on has returned, or is jammed. -/
theorem stuck_iff {s : Race} (h : s.Fits) :
    (∀ e, s.next e = none) ↔ (∃ r, s.phase = .returned r) ∨ s.Jammed := by
  have hdirect (hpolls : s.pollsDirect = true) (hbusy : s.direct.busy = true) :
      ¬ ∀ e, s.next e = none := by
    intro hstuck
    obtain ⟨e, d, hd⟩ := exists_nextDirect hbusy
    have h' := next_of_direct hpolls hd
    rw [hstuck e] at h'
    cases h'
  have hturn (hpolls : s.pollsTurn = true) (hbusy : s.turn.busy = true) :
      ¬ ∀ e, s.next e = none := by
    intro hstuck
    obtain ⟨e, t, hd, ht⟩ := exists_nextTurn hbusy
    have h' := next_of_turn hpolls hd ht
    rw [hstuck e] at h'
    cases h'
  constructor
  · intro hstuck
    cases h with
    | directOnly hp hd => exact absurd hstuck (hdirect (by simp only [Race.pollsDirect, hp]) hd)
    | relayOnly hp _ ht => exact absurd hstuck (hturn (by simp only [Race.pollsTurn, hp]) ht)
    | early hp hd => exact absurd hstuck (hdirect (by simp only [Race.pollsDirect, hp]) hd)
    | both hp _ _ hbusy =>
      rcases hbusy with hd | ht
      · exact absurd hstuck (hdirect (by simp only [Race.pollsDirect, hp]) hd)
      · exact absurd hstuck (hturn (by simp only [Race.pollsTurn, hp]) ht)
    | handover addr hp =>
      cases hholds : s.turn.holds with
      | true => exact .inr ⟨addr, hp, hholds⟩
      | false =>
        have h' := hstuck .closed
        simp [Race.next, hp, hholds] at h'
    | returned r hp => exact .inl ⟨r, hp⟩
  · rintro (⟨r, hp⟩ | hjammed)
    · exact next_of_returned hp
    · exact next_of_jammed hjammed

theorem TurnStep.not_connected {s t : Race} {e : Event} (h : TurnStep s e t) (addr : SocketAddr) :
    e ≠ .connected addr := by
  intro he
  subst he
  cases h with
  | excluded _ err he => rcases he with he | he <;> cases he

/-- A step of the relay attempt jams nothing. -/
theorem not_jammed_of_turn {s t : Race} {e : Event} (h : s.Fits) (hpolls : s.pollsTurn = true)
    (hstep : TurnStep s e t) : ¬ t.settle.Jammed := by
  obtain ⟨-, hdirect, hphase⟩ := hstep.rank_lt
  have hnot (addr : SocketAddr) : t.direct ≠ .connected addr := by
    rw [hdirect]
    intro hd
    cases h with
    | relayOnly hp hd' => cases hd.symm.trans hd'
    | both hp hd' =>
      rw [hd] at hd'
      rcases hd' with hd' | ⟨err, hd'⟩ <;> cases hd'
    | directOnly hp => simp only [Race.pollsTurn, hp, Bool.false_eq_true] at hpolls
    | early hp => simp only [Race.pollsTurn, hp, Bool.false_eq_true] at hpolls
    | handover addr hp => simp only [Race.pollsTurn, hp, Bool.false_eq_true] at hpolls
    | returned r hp => simp only [Race.pollsTurn, hp, Bool.false_eq_true] at hpolls
  rintro ⟨addr, hp, -⟩
  have hsettles := settles t
  generalize t.settle = u at hsettles hp
  cases hsettles with
  | stays =>
    rw [hphase] at hp
    simp only [Race.pollsTurn, hp, Bool.false_eq_true] at hpolls
  | handover addr' _ hd => exact hnot addr' hd
  | _ => cases hp

/-- A step jams a race exactly when the direct connection comes at the wrong moment. -/
theorem jammed_next_iff {s s' : Race} {e : Event} (h : s.Fits) (hs : s.next e = some s') :
    s'.Jammed ↔ Jams (s, e) := by
  cases Step.of_next hs with
  | delay =>
    constructor
    · rintro ⟨addr, hp, -⟩
      cases hp
    · rintro ⟨addr, he, -⟩
      cases he
  | closed =>
    constructor
    · rintro ⟨addr, hp, -⟩
      cases hp
    · rintro ⟨addr, he, -⟩
      cases he
  | turn hpolls hstep =>
    constructor
    · intro hjammed
      exact absurd hjammed (not_jammed_of_turn h hpolls hstep)
    · rintro ⟨addr, he, -⟩
      exact absurd he (hstep.not_connected addr)
  | @direct e d hpolls hd =>
    constructor
    · rintro ⟨addr, hp, hholds⟩
      have hsettles := settles { s with direct := d }
      generalize ({ s with direct := d } : Race).settle = u at hsettles hp hholds
      cases hsettles with
      | stays =>
        have hp' : s.phase = .handover addr := hp
        simp only [Race.pollsDirect, hp', Bool.false_eq_true] at hpolls
      | handover addr' hp' hd' =>
        have he : e = .connected addr' := by
          cases hd with
          | connected => cases hd'; rfl
          | _ => cases hd'
        rcases hp' with hp' | hp'
        · -- Before the relay attempt has begun, it holds nothing.
          cases h with
          | early _ _ ht =>
            rw [ht] at hholds
            cases hholds
          | directOnly hp'' => cases hp''.symm.trans hp'
          | relayOnly hp'' => cases hp''.symm.trans hp'
          | both hp'' => cases hp''.symm.trans hp'
          | handover addr hp'' => cases hp''.symm.trans hp'
          | returned r hp'' => cases hp''.symm.trans hp'
        · exact ⟨addr', he, hp', hholds⟩
      | relayAfter err => cases hp
      | _ => cases hp
    · rintro ⟨addr, he, hp, hholds⟩
      dsimp only at he hp hholds
      subst he
      cases hd with
      | connected _ _ _ =>
        exact ⟨addr, by simp only [Race.settle, hp], by simpa only [Race.settle, hp]⟩

/-- A race is jammed exactly when it took such a step, which was its last. -/
theorem jammed_iff {o : Start} {tr : List (Race × Event)} {s : Race} (h : o.system.Trace tr s) :
    s.Jammed ↔ ∃ x ∈ tr, Jams x := by
  induction h with
  | start h =>
    simp only [List.not_mem_nil, false_and, exists_false, iff_false]
    rintro ⟨addr, hp, -⟩
    obtain ⟨peer, rfl | ⟨rfl, -⟩ | ⟨rfl, -⟩⟩ := o.begin_cases h <;> cases hp
  | @snoc tr s a s' htr hs ih =>
    obtain ⟨as, hrun⟩ := htr.reachable
    have hgoes : ¬ s.Jammed := by
      intro hjammed
      have hnone := next_of_jammed hjammed a
      cases hnone.symm.trans hs
    have hbefore : ¬ ∃ x ∈ tr, Jams x := ih.not.mp hgoes
    rw [jammed_next_iff (Start.fits hrun) hs]
    constructor
    · intro hjams
      exact ⟨(s, a), List.mem_append_right _ List.mem_cons_self, hjams⟩
    · rintro ⟨x, hx, hjams⟩
      rcases List.mem_append.mp hx with hx | hx
      · exact absurd ⟨x, hx, hjams⟩ hbefore
      · rw [List.mem_singleton] at hx
        rwa [hx] at hjams

/-- A peer with one address. -/
def Peer.plain : Peer where
  localIp := .v4 ⟨[10, 0, 0, 1], rfl⟩
  peerAddr := .v4 ⟨[10, 0, 0, 2], rfl⟩ 21118
  peerPublicAddr := .v4 ⟨[0, 0, 0, 0], rfl⟩ 0
  peerLanIpv4 := none
  idPk := [1]

def TurnConfig.plain : TurnConfig := ⟨"192.0.2.1:3478", "", "", false⟩

/-- A start with that peer, while a server is in the cache. -/
def Start.plain : Start where
  incomingOnly := false
  isIp := false
  fromPeerId := .error "no address"
  getPeerInfo := .ok .plain
  forceAlwaysRelay := ""
  cache := some [.plain]

/-- A race of that start that follows these events. -/
theorem Start.trace_plain (as : List Event) {s : Race}
    (h : as.foldlM Race.next (Start.plain.race .plain .early) = some s) :
    ∃ tr, Start.plain.system.Trace tr s ∧ tr.map Prod.snd = as :=
  (System.Trace.start (S := Start.plain.system) rfl).of_foldlM (fun h => h) h

/-- The direct connection has come while the peer is asked to connect over the server. -/
def Race.jam : Race where
  peer := .plain
  phase := .handover Peer.plain.peerAddr
  direct := .connected Peer.plain.peerAddr
  turn := .establishing false (.new [.plain]) "192.0.2.1:3478" .connection
  cache := some [.plain]
  signals := [.relayConnection "192.0.2.1:3478"]

theorem Race.jammed_jam : Race.jam.Jammed := ⟨_, rfl, rfl⟩

end HopToDesk.Client.Connect
