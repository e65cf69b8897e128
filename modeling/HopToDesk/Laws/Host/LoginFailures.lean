import HopToDesk.Host.LoginFailures

/-!
# How many wrong passwords get through

While the attempts of an address take turns, the record an attempt writes back is the one it read,
one wrong password further, so the record counts them all, and the two tests of `check_failure`
bound the count. Attempts that overlap all read the record as it was before any of them, and each
writes that record back one further: many wrong passwords, counted once.
-/

set_option autoImplicit false

namespace HopToDesk.Host

open Kit

/-! ## One record -/

/-- The record accounts for these wrong passwords: not fewer in all, not fewer in its minute, none
later, and not more than seven in any minute before. -/
structure Failure.Counts (f : Failure) (reached : List Int) : Prop where
  total_le : f.total ≤ 31
  inMinute_le : f.inMinute ≤ 7
  length_le : reached.length ≤ f.total
  now : reached.count f.minute ≤ f.inMinute
  later : ∀ minute, f.minute < minute → reached.count minute = 0
  before : ∀ minute, minute < f.minute → reached.count minute ≤ 7

/-- What the check let through on. -/
structure Failure.Admits (f : Failure) (time : Int) : Prop where
  total_le : f.total ≤ 30
  inMinute_le : f.minute = time → f.inMinute ≤ 6

theorem checkFailure_fst {Ip : Type} (failures : Failures Ip) (ip : Ip) (time : Int) :
    (checkFailure failures ip time).1 = (failures.read ip, time) := rfl

theorem checkFailure_none {Ip : Type} {failures : Failures Ip} {ip : Ip} {time : Int}
    (h : (checkFailure failures ip time).2 = none) : (failures.read ip).Admits time := by
  simp only [checkFailure] at h
  split at h
  · cases h
  next htotal =>
    split at h
    · cases h
    next hminute =>
      refine ⟨by omega, ?_⟩
      intro heq
      by_contra hmany
      exact hminute ⟨heq.symm, by omega⟩

namespace Failure.Counts

variable {f : Failure} {reached : List Int}

theorem nil (h : f.Counts reached) : f.Counts [] where
  total_le := h.total_le
  inMinute_le := h.inMinute_le
  length_le := Nat.zero_le _
  now := Nat.zero_le _
  later _ _ := rfl
  before _ _ := Nat.zero_le _

theorem count_le (h : f.Counts reached) (minute : Int) : reached.count minute ≤ 7 := by
  rcases lt_trichotomy minute f.minute with hlt | heq | hgt
  · exact h.before minute hlt
  · rw [heq]
    exact h.now.trans h.inMinute_le
  · rw [h.later minute hgt]
    exact Nat.zero_le 7

/-- One more wrong password, let through on this record, by a clock that is not behind it unless
there is nothing to count. -/
theorem bump {time : Int} (h : f.Counts reached) (ha : f.Admits time)
    (hclock : f.minute ≤ time ∨ reached = []) : (f.bump time).Counts (time :: reached) := by
  have htotal := ha.total_le
  have hlength := h.length_le
  simp only [Failure.bump]
  split
  next heq =>
    have hminute := ha.inMinute_le heq
    subst heq
    constructor
    · show f.total + 1 ≤ 31
      omega
    · show f.inMinute + 1 ≤ 7
      omega
    · simp only [List.length_cons]
      omega
    · rw [List.count_cons_self]
      exact Nat.succ_le_succ h.now
    · intro minute hlt
      rw [List.count_cons_of_ne (ne_of_lt hlt)]
      exact h.later minute hlt
    · intro minute hlt
      rw [List.count_cons_of_ne (ne_of_gt hlt)]
      exact h.before minute hlt
  next hne =>
    have hnone : ∀ minute, time ≤ minute → reached.count minute = 0 := by
      intro minute hle
      rcases hclock with hclock | hempty
      · exact h.later minute (lt_of_lt_of_le (lt_of_le_of_ne hclock hne) hle)
      · rw [hempty, List.count_nil]
    constructor
    · show f.total + 1 ≤ 31
      omega
    · show 1 ≤ 7
      decide
    · simp only [List.length_cons]
      omega
    · rw [List.count_cons_self, hnone time le_rfl]
    · intro minute hlt
      rw [List.count_cons_of_ne (ne_of_lt hlt)]
      exact hnone minute hlt.le
    · intro minute hlt
      rw [List.count_cons_of_ne (ne_of_gt hlt)]
      exact h.count_le minute

end Failure.Counts

/-! ## Taking turns -/

namespace Logins

variable {Ip Conn : Type} [DecidableEq Ip] [DecidableEq Conn] {ip : Conn → Ip}

/-- What holds of an address whose attempts take turns. -/
structure Sound (ip : Conn → Ip) (s : Logins Ip Conn) (a : Ip) : Prop where
  alone : ∀ {c d x y}, ip c = a → ip d = a → s.attempts c = some x → s.attempts d = some y → c = d
  current : ∀ {c x}, ip c = a → s.attempts c = some x →
    x.failure = s.failures.read a ∧ x.failure.Admits x.time ∧
      ∀ f, s.failures a = some f → f.minute ≤ x.time
  right : ∀ {c x}, ip c = a → s.attempts c = some x → x.verdict = some true → s.reached a = []
  wrong : ∀ {c x}, ip c = a → s.attempts c = some x → x.verdict = some false →
    ∃ reached, s.reached a = x.time :: reached ∧ (s.failures.read a).Counts reached
  quiet : (∀ {c x}, ip c = a → s.attempts c = some x → x.verdict ≠ some false) →
    (s.failures.read a).Counts (s.reached a)

omit [DecidableEq Ip] [DecidableEq Conn] in
theorem Sound.fresh (a : Ip) : Sound ip (fresh : Logins Ip Conn) a where
  alone _ _ hx := by cases hx
  current _ hx := by cases hx
  right _ hx := by cases hx
  wrong _ hx := by cases hx
  quiet _ :=
    { total_le := Nat.zero_le _
      inMinute_le := Nat.zero_le _
      length_le := Nat.zero_le _
      now := Nat.zero_le _
      later := fun _ _ => rfl
      before := fun _ _ => Nat.zero_le _ }

omit [DecidableEq Ip] [DecidableEq Conn] in
/-- Only the record, the count and the attempts of the address itself matter. -/
theorem Sound.congr {s s' : Logins Ip Conn} {a : Ip} (h : Sound ip s a)
    (hfailures : s'.failures a = s.failures a) (hreached : s'.reached a = s.reached a)
    (hattempts : ∀ c, ip c = a → s'.attempts c = s.attempts c) : Sound ip s' a := by
  have hread : s'.failures.read a = s.failures.read a := by
    simp only [Failures.read, hfailures]
  constructor
  · intro c d x y hc hd hx hy
    rw [hattempts c hc] at hx
    rw [hattempts d hd] at hy
    exact h.alone hc hd hx hy
  · intro c x hc hx
    rw [hattempts c hc] at hx
    rw [hread, hfailures]
    exact h.current hc hx
  · intro c x hc hx hv
    rw [hattempts c hc] at hx
    rw [hreached]
    exact h.right hc hx hv
  · intro c x hc hx hv
    rw [hattempts c hc] at hx
    rw [hread, hreached]
    exact h.wrong hc hx hv
  · intro hnone
    rw [hread, hreached]
    apply h.quiet
    intro c x hc hx
    rw [← hattempts c hc] at hx
    exact hnone hc hx

variable {s : Logins Ip Conn} {a : Ip} {conn : Conn}

omit [DecidableEq Ip] in
/-- Where no other attempt of the address is under way, a new state of one is the only one. -/
theorem sole_attempt (hidle : ∀ other, ip other = ip conn → other ≠ conn → s.attempts other = none)
    {y : Option Attempt} {c : Conn} {x : Attempt} (hc : ip c = ip conn)
    (hx : Function.update s.attempts conn y c = some x) : c = conn ∧ y = some x := by
  by_cases hcc : c = conn
  · subst hcc
    rw [Function.update_self] at hx
    exact ⟨rfl, hx⟩
  · rw [Function.update_of_ne hcc, hidle c hc hcc] at hx
    cases hx

omit [DecidableEq Ip] [DecidableEq Conn] in
/-- The attempt of a connection is the only one of its address. -/
theorem Sound.idle (h : Sound ip s (ip conn)) {x : Attempt} (hx : s.attempts conn = some x)
    (other : Conn) (ho : ip other = ip conn) (hne : other ≠ conn) : s.attempts other = none := by
  cases hy : s.attempts other with
  | none => rfl
  | some y => exact absurd (h.alone ho rfl hy hx) hne

omit [DecidableEq Ip] in
/-- The other addresses do not see the step. -/
theorem Sound.frame (h : Sound ip s a) (hother : ip conn ≠ a) {failures : Failures Ip}
    {reached : Ip → List Int} (hfailures : failures a = s.failures a)
    (hreached : reached a = s.reached a) (y : Option Attempt) :
    Sound ip ⟨failures, Function.update s.attempts conn y, reached⟩ a := by
  refine h.congr hfailures hreached ?_
  intro c hc
  apply Function.update_of_ne
  intro hcc
  rw [hcc] at hc
  exact hother hc

theorem Sound.check {time : Int} (h : Sound ip s a) (hturn : InTurn ip s (.check conn time)) :
    Sound ip (s.check ip conn time) a := by
  unfold Logins.check
  split
  next failure hcheck =>
    have hres : (checkFailure s.failures (ip conn) time).2 = none := by rw [hcheck]
    have hpair : (s.failures.read (ip conn), time) = failure := by
      rw [← checkFailure_fst s.failures (ip conn) time, hcheck]
    subst hpair
    obtain ⟨hidle, hclock⟩ := hturn hres
    by_cases hother : ip conn = a
    · subst hother
      have hsole : ∀ {y : Option Attempt} {c : Conn} {x : Attempt}, ip c = ip conn →
          Function.update s.attempts conn y c = some x → c = conn ∧ y = some x :=
        sole_attempt fun other ho _ => hidle other ho
      constructor
      · intro c d x y hc hd hx hy
        rw [(hsole hc hx).1, (hsole hd hy).1]
      · intro c x hc hx
        cases (hsole hc hx).2
        exact ⟨rfl, checkFailure_none hres, hclock⟩
      · intro c x hc hx hv
        cases (hsole hc hx).2
        cases hv
      · intro c x hc hx hv
        cases (hsole hc hx).2
        cases hv
      · intro _
        apply h.quiet
        intro c x hc hx
        rw [hidle c hc] at hx
        cases hx
    · exact h.frame hother rfl rfl _
  next => exact h

theorem Sound.verify {right : Bool} (h : Sound ip s a) (hcan : Can s (.verify conn right)) :
    Sound ip (s.verify ip conn right) a := by
  obtain ⟨x, hx, hv⟩ := hcan
  simp only [Logins.verify, hx]
  by_cases hother : ip conn = a
  · subst hother
    have hcounts : (s.failures.read (ip conn)).Counts (s.reached (ip conn)) := by
      apply h.quiet
      intro c y hc hy hwrong
      rw [h.alone hc rfl hy hx, hx] at hy
      cases hy
      rw [hv] at hwrong
      cases hwrong
    have hsole := fun {y c z} => sole_attempt (h.idle hx) (y := y) (c := c) (x := z)
    constructor
    · intro c d y z hc hd hy hz
      rw [(hsole hc hy).1, (hsole hd hz).1]
    · intro c y hc hy
      cases (hsole hc hy).2
      have hcurrent := h.current (c := conn) rfl hx
      exact hcurrent
    · intro c y hc hy hright
      cases (hsole hc hy).2
      cases hright
      simp only [Function.update_self, if_true]
    · intro c y hc hy hwrong
      cases (hsole hc hy).2
      cases hwrong
      refine ⟨s.reached (ip conn), ?_, hcounts⟩
      simp only [Function.update_self, Bool.false_eq_true, if_false]
    · intro hnone
      cases right with
      | false => exact absurd rfl (hnone (c := conn) rfl (Function.update_self ..))
      | true =>
        simp only [Function.update_self, if_true]
        exact hcounts.nil
  · exact h.frame hother rfl (Function.update_of_ne (Ne.symm hother) _ _) _

omit [DecidableEq Ip] [DecidableEq Conn] in
/-- The record, one further, accounts for a wrong password that is not written back yet. -/
theorem Sound.bump {x : Attempt} (h : Sound ip s a) {c : Conn} (hc : ip c = a)
    (hx : s.attempts c = some x) (hv : x.verdict = some false) :
    ((s.failures.read a).bump x.time).Counts (s.reached a) := by
  obtain ⟨hcopy, hadmits, hclock⟩ := h.current hc hx
  obtain ⟨reached, hreached, hcounts⟩ := h.wrong hc hx hv
  rw [hreached]
  rw [hcopy] at hadmits
  apply hcounts.bump hadmits
  cases hstored : s.failures a with
  | none =>
    right
    have hlength := hcounts.length_le
    simpa only [Failures.read, hstored, Option.getD_none, Nat.le_zero_eq,
      List.length_eq_zero_iff] using hlength
  | some f =>
    left
    simp only [Failures.read, hstored, Option.getD_some]
    exact hclock f hstored

omit [DecidableEq Conn] in
/-- What `update_failure` leaves accounts for the attempt it was for. -/
theorem Sound.recorded {x : Attempt} {right : Bool} (h : Sound ip s (ip conn))
    (hx : s.attempts conn = some x) (hv : x.verdict = some right) :
    ((updateFailure s.failures (ip conn) (x.failure, x.time) right).read (ip conn)).Counts
      (s.reached (ip conn)) := by
  cases right with
  | true =>
    have hreached := h.right rfl hx hv
    have hcounts := h.quiet ?_
    · simp only [updateFailure, if_true]
      split
      · rw [hreached]
        simp only [Failures.read, Function.update_self, Option.getD_none]
        have hfresh : Sound ip Logins.fresh (ip conn) := .fresh (ip conn)
        exact hfresh.quiet (fun _ hc => by cases hc)
      · exact hcounts
    · intro c y hc hy hwrong
      rw [h.alone hc rfl hy hx, hx] at hy
      cases hy
      rw [hv] at hwrong
      cases hwrong
  | false =>
    have hbump := h.bump rfl hx hv
    rw [(h.current rfl hx).1]
    simpa only [updateFailure, Bool.false_eq_true, if_false, Failures.read, Function.update_self,
      Option.getD_some] using hbump

theorem Sound.update (h : Sound ip s a) (hcan : Can s (.update conn)) :
    Sound ip (s.update ip conn) a := by
  obtain ⟨⟨failure, time, verdict⟩, right, hx, hv⟩ := hcan
  cases hv
  simp only [Logins.update, hx]
  by_cases hother : ip conn = a
  · subst hother
    have hsole := fun {y c z} => sole_attempt (h.idle hx) (y := y) (c := c) (x := z)
    constructor
    · intro c d y z hc hd hy hz
      rw [(hsole hc hy).1, (hsole hd hz).1]
    · intro c y hc hy
      cases (hsole hc hy).2
    · intro c y hc hy hright
      cases (hsole hc hy).2
    · intro c y hc hy hwrong
      cases (hsole hc hy).2
    · intro _
      exact h.recorded hx rfl
  · refine h.frame hother ?_ rfl none
    simp only [updateFailure]
    split
    · split
      · exact Function.update_of_ne (Ne.symm hother) _ _
      · rfl
    · exact Function.update_of_ne (Ne.symm hother) _ _

/-- One step, taken in turn, keeps every address sound. -/
theorem Sound.next {step : LoginStep Conn} (h : Sound ip s a) (hturn : InTurn ip s step)
    (hcan : Can s step) : Sound ip (next ip s step) a := by
  cases step with
  | check conn time => exact h.check hturn
  | verify conn right => exact h.verify hcan
  | update conn => exact h.update hcan

omit [DecidableEq Ip] [DecidableEq Conn] in
theorem Sound.bounded (h : Sound ip s a) : s.Bounded a := by
  have hcounts : ∃ f : Failure, f.Counts (s.reached a) := by
    by_cases hwrong : ∃ c x, ip c = a ∧ s.attempts c = some x ∧ x.verdict = some false
    · obtain ⟨c, x, hc, hx, hv⟩ := hwrong
      exact ⟨_, h.bump hc hx hv⟩
    · exact ⟨_, h.quiet fun {c x} hc hx hv => hwrong ⟨c, x, hc, hx, hv⟩⟩
  obtain ⟨f, hcounts⟩ := hcounts
  exact ⟨hcounts.length_le.trans hcounts.total_le, hcounts.count_le⟩

/-- **Attempts that take turns are bounded.** In every run in which no check lets an attempt through
while another attempt of its address is under way, and no check runs with a clock behind the
record, at most 31 wrong passwords of an address reach the password check between two successful
logins, and at most 7 in any one minute. -/
theorem bounded_of_inTurn (ip : Conn → Ip) {steps : List (LoginStep Conn)} {s : Logins Ip Conn}
    (h : ((system ip).restrict (InTurn ip)).Run steps s) (a : Ip) : s.Bounded a := by
  have hsound : Sound ip s a := ?_
  · exact hsound.bounded
  refine h.invariant (I := fun s => Sound ip s a) ?_ ?_
  · intro s hs
    cases hs
    exact Sound.fresh a
  · intro s step s' hs hstep
    obtain ⟨hturn, hcan, rfl⟩ := hstep
    exact hs.next hturn hcan

/-- One wrong password of a connection on its own. -/
theorem bounded_of_inTurn_once :
    ∃ s : Logins String Nat, ((system fun _ => "192.0.2.1").restrict (InTurn fun _ => "192.0.2.1")).Run
        [.check 0 1, .verify 0 false, .update 0] s ∧
      s.failures "192.0.2.1" = some ⟨1, 1, 1⟩ ∧ s.Bounded "192.0.2.1" := by
  let ip : Nat → String := fun _ => "192.0.2.1"
  have hstart : ((system ip).restrict (InTurn ip)).Run [] fresh := .start rfl
  have hcheck := hstart.restrict_snoc (.check 0 1)
    (fun _ => ⟨fun _ _ => rfl, fun f hf => by cases hf⟩) rfl
  have hverify := hcheck.restrict_snoc (.verify 0 false) trivial ⟨_, rfl, rfl⟩
  have hupdate := hverify.restrict_snoc (.update 0) trivial ⟨_, false, rfl, rfl⟩
  exact ⟨_, hupdate, rfl, bounded_of_inTurn ip hupdate "192.0.2.1"⟩

/-! ## Side by side -/

/-- `n` connections of one address, all let through in one minute, `k` of them with their password
checked and found wrong. -/
def crowd (a : Ip) (time : Int) (n k : Nat) : Logins Ip Nat where
  failures _ := none
  attempts c := if c < n then some ⟨⟨0, 0, 0⟩, time, if c < k then some false else none⟩ else none
  reached := Function.update (fun _ => []) a (List.replicate k time)

variable (a : Ip) (time : Int)

theorem check_crowd (n : Nat) : (crowd a time n 0).check (fun _ => a) n time = crowd a time (n + 1) 0 := by
  have hcheck : checkFailure (crowd a time n 0).failures a time = ((⟨0, 0, 0⟩, time), none) := by
    simp [checkFailure, Failures.read, crowd]
  simp only [Logins.check, hcheck]
  simp only [crowd, Logins.mk.injEq, true_and, and_true]
  ext c : 1
  by_cases hc : c = n
  · subst hc
    simp only [Function.update_self, Nat.lt_succ_self, if_true, Nat.not_lt_zero, if_false]
  · have hlt : c < n + 1 ↔ c < n := by omega
    simp only [Function.update_of_ne hc, hlt]

theorem verify_crowd (n k : Nat) (hk : k < n) :
    (crowd a time n k).verify (fun _ => a) k false = crowd a time n (k + 1) := by
  have hattempt : (crowd a time n k).attempts k = some ⟨⟨0, 0, 0⟩, time, none⟩ := by
    simp only [crowd, hk, if_true, Nat.lt_irrefl, if_false]
  simp only [Logins.verify, hattempt]
  simp only [crowd, Logins.mk.injEq, true_and]
  constructor
  · ext c : 1
    by_cases hc : c = k
    · subst hc
      simp only [Function.update_self, hk, if_true, Nat.lt_succ_self]
    · have hlt : c < k + 1 ↔ c < k := by omega
      simp only [Function.update_of_ne hc, hlt]
  · simp only [Function.update_self, Function.update_idem, Bool.false_eq_true, if_false,
      List.replicate_succ]

/-- Nothing is written back while the checks run, so each of them lets its attempt through, and
every one of these may go on to a password check: a crowd of any size gets through. -/
theorem crowd_reachable (n k : Nat) (hk : k ≤ n) :
    (system fun _ => a).Reachable (crowd a time n k) := by
  induction k with
  | zero =>
    induction n with
    | zero =>
      refine ⟨[], .start ?_⟩
      simp only [crowd, List.replicate_zero, Function.update_eq_self]
      rfl
    | succ n ih =>
      obtain ⟨steps, hrun⟩ := ih (Nat.zero_le n)
      rw [← check_crowd a time n]
      refine ⟨_, hrun.guarded_snoc (.check n time) ?_⟩
      exact if_neg (Nat.lt_irrefl n)
  | succ k ih =>
    obtain ⟨steps, hrun⟩ := ih (by omega)
    rw [← verify_crowd a time n k hk]
    refine ⟨_, hrun.guarded_snoc (.verify k false) ?_⟩
    refine ⟨⟨⟨0, 0, 0⟩, time, none⟩, ?_, rfl⟩
    simp only [crowd, Nat.lt_of_succ_le hk, if_true, Nat.lt_irrefl, if_false]

/-- Thirty-two connections get thirty-two wrong passwords to the check in one minute. -/
theorem not_bounded :
    ¬ ∀ (ip : Nat → String) (s : Logins String Nat), (system ip).Reachable s → ∀ a, s.Bounded a := by
  intro h
  have hcrowd := crowd_reachable "192.0.2.1" 1 32 32 le_rfl
  have hlength := (h (fun _ => "192.0.2.1") _ hcrowd "192.0.2.1").1
  simp only [crowd, Function.update_self, List.length_replicate] at hlength
  exact absurd hlength (by decide)

end Logins

end HopToDesk.Host
