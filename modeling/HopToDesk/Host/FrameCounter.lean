import HopToDesk.Kit.System

/-!
# The counters of the portable service

Two 32-bit counters in shared memory (`utils` in `src/server/portable_service.rs`): the writer
counts up the first (`increase_counter`), and the reader takes it over into the second where the two
differ (`counter_ready`). `handshake` is the pair with its two ends, and what they have done:
whether there is an increase that the reader was not told of, how many there were since it was told,
and from which pair.
-/

set_option autoImplicit false

namespace HopToDesk.Host

/-- The pair at `counter`: what `wptr` and `rptr` point to. -/
structure FrameCounter where
  iw : Int32
  ir : Int32
deriving DecidableEq, Repr

namespace FrameCounter

def counterReady (c : FrameCounter) : Bool × FrameCounter :=
  if c.ir ≠ c.iw then (true, { c with ir := c.iw }) else (false, c)

def counterEqual (c : FrameCounter) : Bool := c.iw = c.ir

/-- The value after `iw`. -/
def plus1 (iw : Int32) : Int32 := if iw = Int32.maxValue then 0 else iw + 1

def increaseCounter (c : FrameCounter) : FrameCounter :=
  let iw := c.iw
  -- both are read at `counter`
  let ir := c.iw
  let iwPlus1 := plus1 iw
  let c := { c with iw := iwPlus1 }
  if ir = iwPlus1 then { c with ir := iw } else c

inductive Call
  | increaseCounter
  | counterReady
deriving DecidableEq, Repr

/-- The pair and the calls so far. -/
structure Watched where
  counter : FrameCounter
  /-- An increase happened since the reader was last told of one. -/
  pending : Bool
  /-- The increases since `counter_ready` last returned true, or since the start. -/
  since : Nat
  /-- The pair at that time. -/
  mark : FrameCounter
  /-- What `counter_ready` last returned, and what it should have. -/
  told : Option (Bool × Bool)
deriving DecidableEq, Repr

def Watched.new (c : FrameCounter) (pending : Bool) : Watched where
  counter := c
  pending := pending
  since := 0
  mark := c
  told := none

def Watched.next (s : Watched) : Call → Watched
  | .increaseCounter =>
    { s with counter := s.counter.increaseCounter, pending := true, since := s.since + 1 }
  | .counterReady =>
    let (ready, counter) := s.counter.counterReady
    let s := { s with counter := counter, told := some (ready, s.pending) }
    if ready then { s with pending := false, since := 0, mark := counter } else s

/-- Any calls, from any pair; `pending` is whether it counts as one with an increase to tell of. -/
def handshake (c : FrameCounter) (pending : Bool) : Kit.System Watched Call where
  init s := s = .new c pending
  step s a s' := s' = s.next a

/-- The reader was told what it should have been. -/
def Watched.ToldRight (s : Watched) : Prop := ∀ answer ∈ s.told, answer.1 = answer.2

/-- `n` increases bring the writer from `iw` to `ir`. The values below zero are left once; those
from zero on come round after `2^31`. -/
def ComesRound (iw ir : Int32) (n : Nat) : Prop :=
  if iw.toInt + n < 0 then iw.toInt + n = ir.toInt else (iw.toInt + n) % 2 ^ 31 = ir.toInt

/-- The call asks while the pair can tell: without an increase it has to differ as it is said to,
and with some the writer must not have come round to the reader. -/
def Watched.CanTell (s : Watched) : Call → Prop
  | .increaseCounter => True
  | .counterReady =>
    if s.since = 0 then (s.pending = true ↔ s.mark.iw ≠ s.mark.ir)
    else ¬ ComesRound s.mark.iw s.mark.ir s.since

end FrameCounter

end HopToDesk.Host

/-!
## What the reader of a frame counter is told

`increase_counter` would move the reader's counter away where the writer's comes round to it, but it
compares the writer's value with its own successor, and so never does (`increaseCounter_eq`). What
is left is counting: the writer's value after `n` increases has a closed form
(`toInt_iterate_plus1`), the reader's stays, and `counter_ready` says whether the two differ. So it
is right exactly when it is not asked after the writer has come all the way round (`toldRight_iff`).
-/

namespace HopToDesk.Host

namespace FrameCounter

/-! ### Counting up -/

theorem toInt_plus1 (iw : Int32) :
    (plus1 iw).toInt = if iw.toInt = 2 ^ 31 - 1 then 0 else iw.toInt + 1 := by
  have hmax : iw = Int32.maxValue ↔ iw.toInt = 2 ^ 31 - 1 := Int32.toInt_inj.symm
  unfold plus1
  by_cases h : iw = Int32.maxValue
  · rw [if_pos h, if_pos (hmax.mp h), Int32.toInt_zero]
  · rw [if_neg h, if_neg (mt hmax.mpr h), Int32.toInt_add]
    have hle := iw.le_toInt
    have hlt := iw.toInt_lt
    have hne := mt hmax.mpr h
    exact Int.bmod_eq_of_le (by simp; omega) (by simp; omega)

theorem plus1_ne (iw : Int32) : plus1 iw ≠ iw := by
  intro h
  have hval := toInt_plus1 iw
  rw [h] at hval
  split at hval <;> omega

/-- The writer's value after any number of increases. -/
theorem toInt_iterate_plus1 (iw : Int32) (n : Nat) :
    (plus1^[n] iw).toInt =
      if iw.toInt + n < 0 then iw.toInt + n else (iw.toInt + n) % 2 ^ 31 := by
  have hle := iw.le_toInt
  have hlt := iw.toInt_lt
  induction n with
  | zero =>
    rw [Function.iterate_zero_apply]
    split <;> omega
  | succ n ih =>
    rw [Function.iterate_succ_apply', toInt_plus1, ih]
    push_cast
    split_ifs <;> omega

theorem comesRound_iff {iw ir : Int32} {n : Nat} : ComesRound iw ir n ↔ plus1^[n] iw = ir := by
  rw [← Int32.toInt_inj, toInt_iterate_plus1, ComesRound]
  split <;> rfl

/-- From equal counters it takes the whole circle, and a value that is on it. -/
theorem comesRound_self {iw : Int32} {n : Nat} (hn : 0 < n) :
    ComesRound iw iw n ↔ 0 ≤ iw.toInt ∧ 2 ^ 31 ∣ n := by
  have hlt := iw.toInt_lt
  unfold ComesRound
  split <;> omega

/-! ### The calls -/

/-- The reader's counter is never moved. -/
@[simp] theorem increaseCounter_eq (c : FrameCounter) :
    c.increaseCounter = { c with iw := plus1 c.iw } := if_neg (plus1_ne c.iw).symm

theorem counterReady_fst (c : FrameCounter) : c.counterReady.1 = true ↔ c.iw ≠ c.ir := by
  unfold counterReady
  split
  next h => exact iff_of_true rfl h.symm
  next h => exact iff_of_false Bool.false_ne_true fun hne => h hne.symm

theorem counterReady_of_false {c : FrameCounter} (h : c.counterReady.1 = false) :
    c.counterReady.2 = c := by
  unfold counterReady at h ⊢
  split at h
  next => cases h
  next hne => rw [if_neg hne]

namespace Watched

variable {s s' : Watched} {a : Call}

/-- Where the counters are, from what was counted. -/
structure Counted (s : Watched) : Prop where
  iw : s.counter.iw = plus1^[s.since] s.mark.iw
  ir : s.counter.ir = s.mark.ir
  pending : 0 < s.since → s.pending = true
  told : s.ToldRight

theorem Counted.new (c : FrameCounter) (pending : Bool) : Counted (.new c pending) where
  iw := rfl
  ir := rfl
  pending h := absurd h (Nat.lt_irrefl 0)
  told _ h := by cases h

/-- What `counter_ready` answers, from what was counted. -/
theorem Counted.ready_iff (h : s.Counted) :
    s.counter.counterReady.1 = true ↔ ¬ ComesRound s.mark.iw s.mark.ir s.since := by
  rw [counterReady_fst, h.iw, h.ir, comesRound_iff]

/-- The answer is the one it should be exactly when the pair can tell. -/
theorem Counted.canTell_iff (h : s.Counted) :
    s.CanTell .counterReady ↔ s.counter.counterReady.1 = s.pending := by
  rw [Bool.eq_iff_iff, h.ready_iff, comesRound_iff]
  unfold CanTell
  by_cases hsince : s.since = 0
  · rw [if_pos hsince, hsince]
    exact iff_comm
  · rw [if_neg hsince, comesRound_iff, h.pending (Nat.pos_of_ne_zero hsince)]
    exact (iff_true_right rfl).symm

theorem next_told_counterReady : (s.next .counterReady).told =
    some (s.counter.counterReady.1, s.pending) := by
  simp only [next]
  split <;> rfl

theorem Counted.next (h : s.Counted) (hcan : s.CanTell a) : (s.next a).Counted := by
  cases a with
  | increaseCounter =>
    refine ⟨?_, ?_, fun _ => rfl, h.told⟩
    · simp only [Watched.next, increaseCounter_eq, Function.iterate_succ_apply', h.iw]
    · simp only [Watched.next, increaseCounter_eq, h.ir]
  | counterReady =>
    have hright := h.canTell_iff.mp hcan
    have htold : (s.next .counterReady).ToldRight := by
      unfold ToldRight
      rw [next_told_counterReady]
      rintro answer hanswer
      obtain rfl := Option.mem_some_iff.mp hanswer
      exact hright
    cases hready : s.counter.counterReady.1 with
    | true =>
      simp only [Watched.next, hready, if_true] at htold ⊢
      exact ⟨rfl, rfl, fun h => absurd h (Nat.lt_irrefl 0), htold⟩
    | false =>
      have hkept := counterReady_of_false hready
      simp only [Watched.next, hready, hkept, Bool.false_eq_true, if_false] at htold ⊢
      exact ⟨h.iw, h.ir, h.pending, htold⟩

end Watched

/-! ### Runs -/

/-- **What `counter_ready` answers.** From any pair, which may count as one with an increase to tell
of or not, and for any calls in any order: `counter_ready` was always true exactly if there was an
increase since it last was, exactly when each time it was asked the pair could tell. -/
theorem toldRight_iff (c : FrameCounter) (pending : Bool) (tr : List (Watched × Call))
    (s : Watched) (h : (handshake c pending).Trace tr s) :
    Kit.System.Always Watched.ToldRight tr s ↔ ∀ x ∈ tr, x.1.CanTell x.2 := by
  refine Kit.System.Trace.always_iff (I := Watched.Counted) ?_ (fun h => h.told) ?_ ?_ h
  · rintro s rfl
    exact .new c pending
  · rintro s a s' hs rfl hcan
    exact hs.next hcan
  · rintro s a s' hs rfl hright
    cases a with
    | increaseCounter => trivial
    | counterReady => exact hs.canTell_iff.mpr (hright _ Watched.next_told_counterReady)

theorem toldRight_iff_once :
    Kit.System.Always Watched.ToldRight
        (Kit.System.path Watched.next (.new ⟨0, 0⟩ false) [.increaseCounter, .counterReady])
        ([Call.increaseCounter, .counterReady].foldl Watched.next (.new ⟨0, 0⟩ false)) ↔
      ∀ x ∈ Kit.System.path Watched.next (.new ⟨0, 0⟩ false)
        [Call.increaseCounter, .counterReady], x.1.CanTell x.2 :=
  toldRight_iff ⟨0, 0⟩ false _ _ (Kit.System.Trace.of_foldl (fun _ _ => rfl) rfl _)

/-- The pair after increases only. -/
theorem foldl_increaseCounter (s : Watched) (n : Nat) :
    ((List.replicate n Call.increaseCounter).foldl Watched.next s).counter =
      ⟨plus1^[n] s.counter.iw, s.counter.ir⟩ := by
  induction n generalizing s with
  | zero => rfl
  | succ n ih =>
    rw [List.replicate_succ, List.foldl_cons, ih, Function.iterate_succ_apply]
    simp only [Watched.next, increaseCounter_eq]

theorem foldl_increaseCounter_pending (s : Watched) (n : Nat) (hn : 0 < n) :
    ((List.replicate n Call.increaseCounter).foldl Watched.next s).pending = true := by
  obtain ⟨n, rfl⟩ := Nat.exists_eq_succ_of_ne_zero hn.ne'
  rw [List.replicate_succ', List.foldl_append]
  rfl

/-- The writer goes all the way round, and the reader is told of nothing. -/
theorem handshake_all_the_way_round : ¬ ∀ (c : FrameCounter) (tr : List (Watched × Call))
    (s : Watched), (handshake c false).Trace tr s → Kit.System.Always Watched.ToldRight tr s := by
  intro hall
  obtain ⟨n, hn⟩ : ∃ n, n = 2 ^ 31 := ⟨_, rfl⟩
  have hround : plus1^[n] (0 : Int32) = 0 :=
    comesRound_iff.mp ((comesRound_self (by omega)).mpr ⟨Int32.toInt_zero.ge, hn ▸ dvd_rfl⟩)
  have htrace := Kit.System.Trace.of_foldl (S := handshake ⟨0, 0⟩ false) (fun _ _ => rfl) rfl
    (List.replicate n .increaseCounter ++ [.counterReady])
  have hright := (hall _ _ _ htrace).2
  rw [List.foldl_append] at hright
  have hcounter := foldl_increaseCounter (.new ⟨0, 0⟩ false) n
  have hpending := foldl_increaseCounter_pending (.new ⟨0, 0⟩ false) n (by omega)
  have htold := hright _ Watched.next_told_counterReady
  rw [hcounter, hpending] at htold
  simp only [Watched.new, hround] at htold
  exact absurd htold (by decide)

end FrameCounter

end HopToDesk.Host
