import HopToDesk.Laws.Host.OutputBuffer

/-!
# How much an output buffer holds

A call that goes on with a line and does not end it returns before the loop: nothing is dropped, and
the line grows with each such call. A call that comes to the loop drops lines until the count and
the number of lines are within their limits. The count is short by what has closed lines so far
(`uncounted`), so that the bytes are within their limit too exactly where no tail of the lines is
over it by no more than that (`Kept`).

The lines are described by what they are once the data is behind them (`linesWith`), so that the
condition says nothing about the loop.
-/

set_option autoImplicit false

namespace HopToDesk.Host

open Kit

/-! ## Cutting -/

/-- A byte in front of the first line. -/
def consByte (b : UInt8) : List (List UInt8) → List (List UInt8)
  | [] => [[b]]
  | line :: lines => (b :: line) :: lines

/-- The data cut behind each newline. -/
def cutLines : List UInt8 → List (List UInt8)
  | [] => []
  | b :: bs => if b = newline then [b] :: cutLines bs else consByte b (cutLines bs)

/-- The lines that the loop over new data puts behind the others. -/
def pushedLines (endsWithNewline : Bool) : List (List UInt8) → List (List UInt8)
  | [] => []
  | [line] => if line.isEmpty then [] else [if endsWithNewline then line ++ [newline] else line]
  | line :: next :: lines => (line ++ [newline]) :: pushedLines endsWithNewline (next :: lines)

theorem pushedLines_cons {line : List UInt8} {lines : List (List UInt8)} {endsWithNewline : Bool}
    (b : UInt8) (h : line = [] → lines = [] → endsWithNewline = false) :
    pushedLines endsWithNewline ((b :: line) :: lines) =
      consByte b (pushedLines endsWithNewline (line :: lines)) := by
  cases lines with
  | cons next lines => rfl
  | nil =>
    cases line with
    | nil =>
      rw [h rfl rfl]
      rfl
    | cons c line =>
      cases endsWithNewline with
      | false => rfl
      | true => rfl

/-- What is pushed for the data is the data cut behind its newlines. -/
theorem pushedLines_splitLines (data : List UInt8) :
    pushedLines (data.getLast? = some newline) (splitLines data) = cutLines data := by
  induction data with
  | nil => rfl
  | cons b bs ih =>
    obtain ⟨line, lines, hlines⟩ := List.exists_cons_of_ne_nil (splitLines_ne_nil bs)
    have hends : bs ≠ [] → (b :: bs).getLast? = bs.getLast? := by
      intro hne
      obtain ⟨c, cs, rfl⟩ := List.exists_cons_of_ne_nil hne
      exact List.getLast?_cons_cons
    unfold splitLines cutLines
    rw [← ih, hlines]
    by_cases hb : b = newline
    · rw [if_pos hb, if_pos hb]
      cases bs with
      | nil =>
        cases hlines
        rw [hb]
        rfl
      | cons c cs =>
        rw [hends (List.cons_ne_nil c cs), hb]
        rfl
    · rw [if_neg hb, if_neg hb]
      cases bs with
      | nil =>
        cases hlines
        have hlast : decide ([b].getLast? = some newline) = false := by simpa using hb
        rw [hlast]
        rfl
      | cons c cs =>
        rw [hends (List.cons_ne_nil c cs)]
        refine pushedLines_cons b fun hline hnone => ?_
        -- one empty line is no data at all
        have hdata := intercalate_splitLines (c :: cs)
        rw [hlines, hline, hnone] at hdata
        cases hdata

namespace OutputBuffer

variable (self : OutputBuffer)

theorem lines_pushLines (endsWithNewline : Bool) (lines : List (List UInt8)) :
    (self.pushLines endsWithNewline lines).lines =
      self.lines ++ pushedLines endsWithNewline lines := by
  fun_induction pushLines self endsWithNewline lines with
  | case1 self => exact (List.append_nil _).symm
  | case2 self line self' hne =>
    have hself : self'.lines = self.lines := by
      unfold self'
      split
      · rfl
      · rfl
    have hline : ¬ line.isEmpty = true := by simpa using hne
    rw [pushedLines, if_neg hline, ← hself]
    rfl
  | case3 self line self' hempty =>
    have hself : self'.lines = self.lines := by
      unfold self'
      split
      · rfl
      · rfl
    have hline : line.isEmpty = true := by simpa using hempty
    rw [pushedLines, if_pos hline, hself, List.append_nil]
  | case4 self line next lines ih =>
    rw [ih]
    change self.lines ++ [line ++ [newline]] ++ _ = _
    rw [List.append_assoc]
    rfl

theorem lines_pushRemaining (data : List UInt8) :
    (self.pushRemaining data).lines = self.lines ++ cutLines data := by
  rw [pushRemaining, lines_pushLines, pushedLines_splitLines]

/-! ## What a call adds -/

/-- A line was left open, and new data goes on with it. -/
def Open : Prop := self.lastLineIncomplete = true ∧ self.lines ≠ []

instance : Decidable self.Open := inferInstanceAs (Decidable (_ ∧ _))

/-- The part of the data that closes an open line. -/
def closing (data : List UInt8) : List UInt8 := data.take (data.idxOf newline + 1)

/-- The lines with the data behind them. -/
def linesWith (data : List UInt8) : List (List UInt8) :=
  if self.Open then
    self.lines.dropLast ++ ((self.lines.getLast?.getD []) ++ closing data) ::
      cutLines (data.drop (data.idxOf newline + 1))
  else self.lines ++ cutLines data

/-- The bytes that are not counted: those of before, and what closes a line now. -/
def uncounted (data : List UInt8) : Nat :=
  self.size - self.totalSize + if self.Open then (closing data).length else 0

def WithinLimits : Prop :=
  self.size ≤ maxOutputBufferSize ∧ self.lines.length ≤ maxBufferLines

instance : Decidable self.WithinLimits := inferInstanceAs (Decidable (_ ∧ _))

/-- What it takes for the buffer to stay within its limits. Where the data goes on with a line and
does not end it, it has to fit. Elsewhere some tail of the lines is within the limits and as large
as what is not counted, and no tail is over its limit by less than that. -/
def Kept (data : List UInt8) : Prop :=
  if self.Open ∧ newline ∉ data then self.size + data.length ≤ maxOutputBufferSize
  else
    (∃ tail, tail <:+ self.linesWith data ∧ tail.length ≤ maxBufferLines ∧
      self.uncounted data ≤ tail.flatten.length ∧ tail.flatten.length ≤ maxOutputBufferSize) ∧
    ∀ tail, tail <:+ self.linesWith data → tail.length ≤ maxBufferLines →
      tail.flatten.length ≤ maxOutputBufferSize + self.uncounted data →
        tail.flatten.length ≤ maxOutputBufferSize

/-! ## append -/

variable {self} {data : List UInt8}

theorem append_nil : self.append [] = (self, false) := rfl

/-- What goes on with an open line and does not end it is not followed by the loop. -/
theorem append_unfinished (hopen : self.Open) (hunfinished : newline ∉ data) (hne : data ≠ []) :
    self.append data =
      ({ self.extendLast data with totalSize := self.totalSize + data.length }, false) := by
  obtain ⟨hincomplete, hlines⟩ := hopen
  have hdata : data.isEmpty = false := by simpa using hne
  have hlines' : self.lines.isEmpty = false := by simpa using hlines
  have hnone : data.findIdx? (· = newline) = none := by
    rw [List.findIdx?_eq_none_iff]
    intro b hb
    exact decide_eq_false fun heq => hunfinished (heq ▸ hb)
  unfold append
  simp only [hdata, hincomplete, hlines', hnone, Bool.false_eq_true, if_false, Bool.not_false,
    Bool.and_true, if_true]
  rfl

/-- What ends an open line is put behind it, and the rest of the data behind that. -/
theorem append_closing (hopen : self.Open) (hmem : newline ∈ data) :
    self.append data =
      (({ self.extendLast (closing data) with lastLineIncomplete := false } :
        OutputBuffer).pushRemaining (data.drop (data.idxOf newline + 1)), true) := by
  obtain ⟨hincomplete, hlines⟩ := hopen
  have hdata : data.isEmpty = false := by simpa using List.ne_nil_of_mem hmem
  have hlines' : self.lines.isEmpty = false := by simpa using hlines
  have hpos : data.findIdx? (· = newline) = some (data.idxOf newline) :=
    List.findIdx?_eq_some_of_exists ⟨newline, hmem, decide_eq_true rfl⟩
  unfold append
  simp only [hdata, hincomplete, hlines', hpos, Bool.false_eq_true, if_false, Bool.not_false,
    Bool.and_true, if_true]
  rfl

theorem append_of_not_open (hopen : ¬ self.Open) (hne : data ≠ []) :
    self.append data = (self.pushRemaining data, true) := by
  have hdata : data.isEmpty = false := by simpa using hne
  have hclosed : (self.lastLineIncomplete && !self.lines.isEmpty) = false := by
    rw [Bool.eq_false_iff]
    intro hboth
    obtain ⟨hincomplete, hlines⟩ := Bool.and_eq_true_iff.mp hboth
    exact hopen ⟨hincomplete, by simpa using hlines⟩
  unfold append
  simp only [hdata, hclosed, Bool.false_eq_true, if_false]

/-- Any data but what goes on with an open line is put behind the lines, and the loop follows. The
count is then short by what is not counted. -/
theorem append_finished (hcount : self.totalSize ≤ self.size)
    (h : ¬ (self.Open ∧ newline ∉ data)) (hne : data ≠ []) :
    (self.append data).2 = true ∧ (self.append data).1.lines = self.linesWith data ∧
      (self.append data).1.totalSize + self.uncounted data = (self.append data).1.size := by
  unfold linesWith uncounted
  by_cases hopen : self.Open
  · have hmem : newline ∈ data := by
      by_contra hnot
      exact h ⟨hopen, hnot⟩
    rw [append_closing hopen hmem, if_pos hopen, if_pos hopen]
    set closed : OutputBuffer :=
      { self.extendLast (closing data) with lastLineIncomplete := false } with hclosed
    refine ⟨rfl, ?_, ?_⟩
    · rw [lines_pushRemaining]
      change (self.extendLast (closing data)).lines ++ _ = _
      unfold extendLast
      rw [List.getLast?_eq_some_getLast hopen.2]
      simp
    · have hpush := closed.size_pushRemaining (data.drop (data.idxOf newline + 1))
      have htotal : closed.totalSize = self.totalSize := rfl
      have hsize : closed.size = self.size + (closing data).length :=
        self.size_extendLast hopen.2 _
      dsimp only
      omega
  · rw [append_of_not_open hopen hne, if_neg hopen, if_neg hopen]
    refine ⟨rfl, lines_pushRemaining self data, ?_⟩
    have hpush := self.size_pushRemaining data
    dsimp only
    omega

/-! ## The loop -/

theorem size_cons {removed : List UInt8} {rest : List (List UInt8)}
    (hlines : self.lines = removed :: rest) :
    self.size = removed.length + rest.flatten.length := by
  rw [size, hlines, List.flatten_cons, List.length_append]

theorem lines_popFront {removed : List UInt8} {rest : List (List UInt8)}
    (hlines : self.lines = removed :: rest) :
    self.popFront.lines = rest ∧
      self.popFront.totalSize = usizeSub self.totalSize removed.length := by
  unfold popFront
  rw [hlines]
  exact ⟨rfl, rfl⟩

/-- What is within the limits, and counted for no more than it is, is not too large. -/
theorem tooLarge_eq_false_iff :
    self.tooLarge = false ↔
      self.totalSize ≤ maxOutputBufferSize ∧ self.lines.length ≤ maxBufferLines := by
  simp [tooLarge]

theorem length_flatten_le {tail lines : List (List UInt8)} (h : tail <:+ lines) :
    tail.flatten.length ≤ lines.flatten.length := by
  obtain ⟨front, rfl⟩ := h
  rw [List.flatten_append, List.length_append]
  exact Nat.le_add_left _ _

/-- Down to a tail that is within the limits, and as large as what is not counted, the loop takes
line by line, and ends. -/
theorem exists_trimmed {uncounted : Nat} {tail : List (List UInt8)}
    (hcount : self.totalSize + uncounted = self.size) (htail : tail <:+ self.lines)
    (hlines : tail.length ≤ maxBufferLines) (hle : uncounted ≤ tail.flatten.length)
    (hsize : tail.flatten.length ≤ maxOutputBufferSize) :
    ∃ after, Trimmed self after ∧ after.tooLarge = false ∧ after.lines <:+ self.lines ∧
      after.totalSize + uncounted = after.size := by
  induction hall : self.lines generalizing self with
  | nil =>
    have hnone : self.size = 0 := by rw [size, hall]; rfl
    have hfits : self.tooLarge = false := by
      rw [tooLarge_eq_false_iff, hall]
      exact ⟨by omega, Nat.zero_le _⟩
    exact ⟨self, .done hfits, hfits, hall ▸ List.suffix_rfl, hcount⟩
  | cons removed rest ih =>
    cases hlarge : self.tooLarge with
    | false => exact ⟨self, .done hlarge, hlarge, hall ▸ List.suffix_rfl, hcount⟩
    | true =>
      have hrest : tail <:+ rest := by
        rw [hall, List.suffix_cons_iff] at htail
        rcases htail with rfl | hrest
        · -- the tail is all there is, and is not too large
          have hfits : self.tooLarge = false := by
            rw [tooLarge_eq_false_iff, hall]
            have hwhole : self.size = (removed :: rest).flatten.length := by rw [size, hall]
            exact ⟨by omega, hlines⟩
          rw [hfits] at hlarge
          cases hlarge
        · exact hrest
      have hsub := length_flatten_le hrest
      have hself := size_cons hall
      obtain ⟨hpop, hpopped⟩ := lines_popFront hall
      rw [usizeSub, if_pos (by omega)] at hpopped
      have hpopSize : self.popFront.size = rest.flatten.length := by rw [size, hpop]
      have hpopCount : self.popFront.totalSize + uncounted = self.popFront.size := by omega
      obtain ⟨after, htrim, hend, hafter, hcount'⟩ := ih hpopCount (hpop ▸ hrest) hpop
      exact ⟨after, .turn hlarge htrim, hend, hafter.trans (List.suffix_cons removed rest), hcount'⟩

/-- A count that has wrapped round stays too large. -/
theorem not_trimmed_of_wrapped {uncounted : Nat} {after : OutputBuffer}
    (hcount : self.totalSize + uncounted = self.size + 2 ^ 64)
    (hfew : uncounted + maxOutputBufferSize < 2 ^ 64) : ¬ Trimmed self after := by
  intro htrim
  induction htrim with
  | @done self h =>
    have hfits := (tooLarge_eq_false_iff.mp h).1
    omega
  | @turn self after h htrim ih =>
    cases hall : self.lines with
    | nil => exact ih (by rwa [self.popFront_empty hall])
    | cons removed rest =>
      have hself := size_cons hall
      obtain ⟨hpop, hpopped⟩ := lines_popFront hall
      have hpopSize : self.popFront.size = rest.flatten.length := by rw [size, hpop]
      rw [usizeSub, if_pos (by omega)] at hpopped
      exact ih (by omega)

/-- A loop that ends within the limits has not taken more than there was, and has stopped above any
tail that is over the limit by less than what is not counted. -/
theorem kept_of_trimmed {uncounted : Nat} {after : OutputBuffer}
    (hcount : self.totalSize + uncounted = self.size)
    (hfew : uncounted + maxOutputBufferSize < 2 ^ 64) (htrim : Trimmed self after)
    (hafter : after.WithinLimits) :
    (∃ tail, tail <:+ self.lines ∧ tail.length ≤ maxBufferLines ∧
      uncounted ≤ tail.flatten.length ∧ tail.flatten.length ≤ maxOutputBufferSize) ∧
    (∀ tail, tail <:+ self.lines → tail.length ≤ maxBufferLines →
      tail.flatten.length ≤ maxOutputBufferSize + uncounted →
        tail.flatten.length ≤ maxOutputBufferSize) ∧
    after.totalSize ≤ after.size := by
  induction htrim with
  | @done self h =>
    have hself : self.size = self.lines.flatten.length := rfl
    refine ⟨⟨self.lines, List.suffix_rfl, hafter.2, by omega, hafter.1⟩, ?_, by omega⟩
    intro tail htail _ _
    exact (length_flatten_le htail).trans hafter.1
  | @turn self after h htrim ih =>
    cases hall : self.lines with
    | nil =>
      have hnone : self.size = 0 := by rw [size, hall]; rfl
      have hfits : self.tooLarge = false := by
        rw [tooLarge_eq_false_iff, hall]
        exact ⟨by omega, Nat.zero_le _⟩
      rw [hfits] at h
      cases h
    | cons removed rest =>
      have hself := size_cons hall
      obtain ⟨hpop, hpopped⟩ := lines_popFront hall
      have hpopSize : self.popFront.size = rest.flatten.length := by rw [size, hpop]
      by_cases htakes : removed.length ≤ self.totalSize
      · rw [usizeSub, if_pos htakes] at hpopped
        obtain ⟨⟨tail, htail, hfacts⟩, habove, hcounted⟩ := ih (by omega) hafter
        rw [hpop] at htail habove
        refine ⟨⟨tail, htail.trans (List.suffix_cons removed rest), hfacts⟩, ?_, hcounted⟩
        intro tail htail hlines hsize
        rcases List.suffix_cons_iff.mp htail with rfl | hrest
        · -- with all its lines it was too large
          have hwhole : self.size = (removed :: rest).flatten.length := by rw [size, hall]
          have hfits : self.tooLarge = false := by
            rw [tooLarge_eq_false_iff, hall]
            exact ⟨by omega, hlines⟩
          rw [hfits] at h
          cases h
        · exact habove tail hrest hlines hsize
      · rw [usizeSub, if_neg htakes] at hpopped
        exact absurd htrim (not_trimmed_of_wrapped (by omega) hfew)

/-- The loop ends in one way. -/
theorem Trimmed.unique {after other : OutputBuffer} (h : Trimmed self after)
    (hother : Trimmed self other) : after = other := by
  induction h with
  | done hfits =>
    cases hother with
    | done => rfl
    | turn hlarge => exact absurd (hfits.symm.trans hlarge) Bool.false_ne_true
  | turn hlarge _ ih =>
    cases hother with
    | done hfits => exact absurd (hfits.symm.trans hlarge) Bool.false_ne_true
    | turn _ htrim => exact ih htrim

/-! ## A call -/

theorem Returns.unique {after other : OutputBuffer} (h : self.Returns data after)
    (hother : self.Returns data other) : after = other := by
  unfold Returns at h hother
  split at h
  next hloop =>
    rw [if_pos hloop] at hother
    exact h.unique hother
  next hloop =>
    rw [if_neg hloop] at hother
    rw [h, hother]

/-- What every call finds: no more is counted than there is, and it is within the limits. -/
structure Within (buffer : OutputBuffer) : Prop where
  counted : buffer.totalSize ≤ buffer.size
  limits : buffer.WithinLimits

theorem uncounted_le (h : self.Within) (data : List UInt8) :
    self.uncounted data ≤ maxOutputBufferSize + data.length := by
  have hclosing : (closing data).length ≤ data.length := List.length_take_le' _ _
  have hsize := h.limits.1
  unfold uncounted
  split
  · omega
  · omega

/-- No data is always kept. -/
theorem kept_nil (h : self.Within) : self.Kept [] := by
  have hcount := h.counted
  have hsize := h.limits.1
  unfold Kept
  by_cases hopen : self.Open
  · rw [if_pos ⟨hopen, List.not_mem_nil⟩]
    exact hsize
  · have hwith : self.linesWith [] = self.lines := by
      rw [linesWith, if_neg hopen]
      exact List.append_nil _
    have hless : self.uncounted [] ≤ self.size := by
      rw [uncounted, if_neg hopen]
      omega
    rw [if_neg fun hboth => hopen hboth.1, hwith]
    refine ⟨⟨self.lines, List.suffix_rfl, h.limits.2, hless, hsize⟩, ?_⟩
    intro tail htail _ _
    exact (length_flatten_le htail).trans hsize

/-- A call returns within the limits exactly where the data is kept. -/
theorem exists_returns_iff (h : self.Within) (hlen : data.length < 2 ^ 63) :
    (∃ after, self.Returns data after ∧ after.WithinLimits) ↔ self.Kept data := by
  have hcount := h.counted
  by_cases hne : data = []
  · rw [hne]
    exact iff_of_true ⟨self, rfl, h.limits⟩ (kept_nil h)
  · by_cases hunfinished : self.Open ∧ newline ∉ data
    · have happend := append_unfinished hunfinished.1 hunfinished.2 hne
      have hsize := self.size_extendLast hunfinished.1.2 data
      have hlines : (self.extendLast data).lines.length = self.lines.length := by
        unfold extendLast
        rw [List.getLast?_eq_some_getLast hunfinished.1.2]
        have hpos : 0 < self.lines.length := List.length_pos_iff.mpr hunfinished.1.2
        simp only [Option.map_some, Option.toList_some, List.length_append, List.length_dropLast,
          List.length_singleton]
        omega
      unfold Kept Returns
      rw [if_pos hunfinished, happend]
      constructor
      · rintro ⟨after, hafter, hwithin⟩
        cases hafter
        have hfits : (self.extendLast data).size ≤ maxOutputBufferSize := hwithin.1
        omega
      · intro hfits
        refine ⟨_, rfl, ?_, ?_⟩
        · change (self.extendLast data).size ≤ _
          omega
        · change (self.extendLast data).lines.length ≤ _
          rw [hlines]
          exact h.limits.2
    · obtain ⟨hloop, hlines, hcounted⟩ := append_finished hcount hunfinished hne
      have hfew : self.uncounted data + maxOutputBufferSize < 2 ^ 64 := by
        have hle := uncounted_le h data
        have hmax : maxOutputBufferSize = 1048576 := rfl
        omega
      unfold Kept Returns
      rw [if_neg hunfinished, ← hlines]
      simp only [hloop, if_true]
      constructor
      · rintro ⟨after, htrim, hwithin⟩
        obtain ⟨htail, habove, -⟩ := kept_of_trimmed hcounted hfew htrim hwithin
        exact ⟨htail, habove⟩
      · rintro ⟨⟨tail, htail, hfew', hle, hsize⟩, habove⟩
        obtain ⟨after, htrim, hend, hafter, hcount'⟩ :=
          exists_trimmed hcounted htail hfew' hle hsize
        obtain ⟨htotal, hfits⟩ := tooLarge_eq_false_iff.mp hend
        refine ⟨after, htrim, habove _ hafter hfits ?_, hfits⟩
        change after.size ≤ _
        omega

/-- No more is counted than there is, after a call that returns within the limits. -/
theorem within_of_returns (h : self.Within) (hlen : data.length < 2 ^ 63) {after : OutputBuffer}
    (hreturns : self.Returns data after) (hwithin : after.WithinLimits) : after.Within := by
  refine ⟨?_, hwithin⟩
  have hcount := h.counted
  by_cases hne : data = []
  · rw [hne] at hreturns
    cases hreturns
    exact hcount
  · by_cases hunfinished : self.Open ∧ newline ∉ data
    · have hsize := self.size_extendLast hunfinished.1.2 data
      unfold Returns at hreturns
      rw [append_unfinished hunfinished.1 hunfinished.2 hne] at hreturns
      cases hreturns
      change self.totalSize + data.length ≤ (self.extendLast data).size
      omega
    · obtain ⟨hloop, hlines, hcounted⟩ := append_finished hcount hunfinished hne
      have hfew : self.uncounted data + maxOutputBufferSize < 2 ^ 64 := by
        have hle := uncounted_le h data
        have hmax : maxOutputBufferSize = 1048576 := rfl
        omega
      unfold Returns at hreturns
      rw [if_pos hloop] at hreturns
      exact (kept_of_trimmed hcounted hfew hreturns hwithin).2.2

end OutputBuffer

/-! ## The steps of a call -/

namespace Appending

/-- A loop that runs to its end is run in turns. -/
theorem run_of_trimmed {es : List AppendEvent} {buffer after : OutputBuffer}
    (h : system.Run es ⟨buffer, true⟩) (htrim : buffer.Trimmed after) :
    ∃ turns, system.Run (es ++ List.replicate turns .trim) ⟨after, false⟩ := by
  induction htrim generalizing es with
  | @done buffer hfits =>
    refine ⟨1, ?_⟩
    have hnext : next ⟨buffer, true⟩ .trim = ⟨buffer, false⟩ := by
      unfold next
      simp only [hfits, Bool.false_eq_true, if_false]
    exact hnext ▸ h.guarded_snoc .trim rfl
  | @turn buffer after hlarge _ ih =>
    have hnext : next ⟨buffer, true⟩ .trim = ⟨buffer.popFront, true⟩ := by
      unfold next
      simp only [hlarge, if_true]
    obtain ⟨turns, hrun⟩ := ih (hnext ▸ h.guarded_snoc AppendEvent.trim rfl)
    refine ⟨turns + 1, ?_⟩
    rwa [List.append_assoc, List.singleton_append, ← List.replicate_succ] at hrun

/-- A call that returns is a run of its steps. -/
theorem run_of_returns {es : List AppendEvent} {buffer after : OutputBuffer} {data : List UInt8}
    (h : system.Run es ⟨buffer, false⟩) (hreturns : buffer.Returns data after) :
    ∃ turns, system.Run (es ++ .append data :: List.replicate turns .trim) ⟨after, false⟩ := by
  have hcall := h.guarded_snoc (AppendEvent.append data) rfl
  unfold OutputBuffer.Returns at hreturns
  split at hreturns
  next hloop =>
    change system.Run _ ⟨(buffer.append data).1, (buffer.append data).2⟩ at hcall
    rw [hloop] at hcall
    obtain ⟨turns, hrun⟩ := run_of_trimmed hcall hreturns
    refine ⟨turns, ?_⟩
    rwa [List.append_assoc] at hrun
  next hloop =>
    change system.Run _ ⟨(buffer.append data).1, (buffer.append data).2⟩ at hcall
    rw [Bool.eq_false_iff.mpr hloop, ← hreturns] at hcall
    exact ⟨0, hcall⟩

end Appending

/-! ## Any calls -/

namespace OutputBuffer

/-- The calls so far have returned, and the buffer is within its limits. -/
def ReturnedWithin (s : Option OutputBuffer) : Prop :=
  ∃ buffer, s = some buffer ∧ buffer.WithinLimits

/-- The data of a call is kept. -/
def KeptBy (s : Option OutputBuffer) (data : List UInt8) : Prop :=
  ∀ buffer, s = some buffer → buffer.Kept data

/-- Every call returns within the limits exactly where the data of every call is kept. -/
theorem within_limits_iff_kept {tr : List (Option OutputBuffer × List UInt8)}
    {s : Option OutputBuffer} (h : appendCalls.Trace tr s) :
    System.Always ReturnedWithin tr s ↔ ∀ x ∈ tr, KeptBy x.1 x.2 := by
  refine h.always_iff (I := fun s => ∃ buffer, s = some buffer ∧ buffer.Within) ?_ ?_ ?_ ?_
  · rintro s rfl
    exact ⟨.new, rfl, Nat.zero_le _, Nat.zero_le _, Nat.zero_le _⟩
  · rintro s ⟨buffer, rfl, hwithin⟩
    exact ⟨buffer, rfl, hwithin.limits⟩
  · rintro s data s' ⟨buffer, rfl, hwithin⟩ ⟨buffer', heq, hlen, hstep⟩ hkept
    cases heq
    obtain ⟨after, hreturns, hafter⟩ :=
      (exists_returns_iff hwithin hlen).mpr (hkept buffer rfl)
    rcases hstep with ⟨after', rfl, hreturns'⟩ | ⟨-, hnever⟩
    · cases hreturns.unique hreturns'
      exact ⟨after, rfl, within_of_returns hwithin hlen hreturns hafter⟩
    · exact absurd hreturns (hnever after)
  · rintro s data s' ⟨buffer, rfl, hwithin⟩ ⟨buffer', heq, hlen, hstep⟩ ⟨after, rfl, hafter⟩
    cases heq
    rintro buffer' heq
    cases heq
    rcases hstep with ⟨after', heq, hreturns⟩ | ⟨hnone, -⟩
    · cases heq
      exact (exists_returns_iff hwithin hlen).mp ⟨after, hreturns, hafter⟩
    · cases hnone

/-- A line in one call. -/
theorem within_limits_line :
    System.Always ReturnedWithin [(some OutputBuffer.new, [97, newline])]
      (some ⟨[[97, newline]], 2, false⟩) := by
  have hline : OutputBuffer.new.Returns [97, newline] ⟨[[97, newline]], 2, false⟩ :=
    .done (by decide)
  have hcall : appendCalls.Trace [(some OutputBuffer.new, [97, newline])]
      (some ⟨[[97, newline]], 2, false⟩) :=
    .snoc (.start rfl) ⟨.new, rfl, by decide, .inl ⟨_, rfl, hline⟩⟩
  refine (within_limits_iff_kept hcall).mpr ?_
  rintro x hx buffer heq
  cases List.mem_singleton.mp hx
  cases heq
  have hwithin : OutputBuffer.new.Within := ⟨Nat.zero_le _, Nat.zero_le _, Nat.zero_le _⟩
  exact (exists_returns_iff hwithin (by decide)).mp ⟨_, hline, by decide⟩

/-- A megabyte that goes on with a line and does not end it. -/
theorem not_within_limits_unfinished :
    ¬ ∀ (tr : List (Option OutputBuffer × List UInt8)) (s : Option OutputBuffer),
      appendCalls.Trace tr s → System.Always ReturnedWithin tr s := by
  intro hall
  obtain ⟨data, hdata⟩ : ∃ data : List UInt8, data = List.replicate maxOutputBufferSize 98 :=
    ⟨_, rfl⟩
  have hlen : data.length = maxOutputBufferSize := by rw [hdata, List.length_replicate]
  have hopened : OutputBuffer.new.Returns [97] ⟨[[97]], 1, true⟩ := .done (by decide)
  have hunfinished : newline ∉ data := by
    rw [hdata, List.mem_replicate]
    rintro ⟨-, heq⟩
    cases heq
  have hne : data ≠ [] := by
    intro hnil
    rw [hnil] at hlen
    cases hlen
  have hopened' : OutputBuffer.Open ⟨[[97]], 1, true⟩ := ⟨rfl, List.cons_ne_nil _ _⟩
  have happend := append_unfinished hopened' hunfinished hne
  set grown : OutputBuffer :=
    { (⟨[[97]], 1, true⟩ : OutputBuffer).extendLast data with totalSize := 1 + data.length }
  have hgrown : OutputBuffer.Returns ⟨[[97]], 1, true⟩ data grown := by
    unfold Returns
    rw [happend]
    rfl
  have hopen : appendCalls.Trace [(some OutputBuffer.new, [97])] (some ⟨[[97]], 1, true⟩) :=
    .snoc (.start rfl) ⟨.new, rfl, by decide, .inl ⟨_, rfl, hopened⟩⟩
  have hgrows : appendCalls.Trace
      ([(some OutputBuffer.new, [97])] ++ [(some ⟨[[97]], 1, true⟩, data)]) (some grown) := by
    refine hopen.snoc ⟨_, rfl, ?_, .inl ⟨_, rfl, hgrown⟩⟩
    rw [hlen]
    decide
  obtain ⟨buffer, heq, hsize, -⟩ := (hall _ _ hgrows).2
  cases heq
  have hsum : grown.size = 1 + data.length :=
    size_extendLast ⟨[[97]], 1, true⟩ (List.cons_ne_nil _ _) data
  omega

end OutputBuffer

end HopToDesk.Host
