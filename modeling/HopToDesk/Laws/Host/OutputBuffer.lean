import HopToDesk.Host.OutputBuffer

/-!
# What an output buffer holds

The lines, put together, are the end of the output (`recent_suffix`): new data is cut and put behind
them, whatever the cut (`flatten_append`), and the loop takes from the front only.

The size that is counted is the size of the lines as long as no line that was left open is closed:
what closes it is not counted (`size_append`). From then on the count is short, and the loop can
take more than it says there is. It then wraps round and the loop goes on forever
(`popFront_empty`).
-/

set_option autoImplicit false

namespace HopToDesk.Host

open Kit

/-! ## Lines -/

theorem splitLines_ne_nil (data : List UInt8) : splitLines data ≠ [] := by
  cases data with
  | nil => exact List.cons_ne_nil _ _
  | cons b bs =>
    unfold splitLines
    split
    · exact List.cons_ne_nil _ _
    · split
      · exact List.cons_ne_nil _ _
      · exact List.cons_ne_nil _ _

/-- The lines with newlines between them are the data. -/
theorem intercalate_splitLines (data : List UInt8) :
    [newline].intercalate (splitLines data) = data := by
  induction data with
  | nil => rfl
  | cons b bs ih =>
    obtain ⟨line, lines, hlines⟩ := List.exists_cons_of_ne_nil (splitLines_ne_nil bs)
    rw [hlines] at ih
    unfold splitLines
    rw [hlines]
    split
    next hb =>
      rw [List.intercalate_cons_cons, ih, hb]
      rfl
    next =>
      dsimp only
      cases lines with
      | nil =>
        rw [List.intercalate_singleton] at ih ⊢
        rw [ih]
      | cons next lines =>
        rw [List.intercalate_cons_cons] at ih ⊢
        rw [← ih]
        rfl

/-- Nothing comes after a newline at the end. -/
theorem getLast_splitLines {data : List UInt8} (h : data.getLast? = some newline) :
    (splitLines data).getLast? = some [] := by
  induction data with
  | nil => cases h
  | cons b bs ih =>
    obtain ⟨line, lines, hlines⟩ := List.exists_cons_of_ne_nil (splitLines_ne_nil bs)
    cases bs with
    | nil =>
      rw [List.getLast?_singleton, Option.some.injEq] at h
      subst h
      rfl
    | cons c bs =>
      rw [List.getLast?_cons_cons] at h
      have hlast := ih h
      unfold splitLines
      split
      · rw [List.getLast?_cons, hlast]
        rfl
      · rw [hlines] at hlast ⊢
        dsimp only
        cases lines with
        | nil =>
          -- One empty line would be no data at all.
          rw [List.getLast?_singleton, Option.some.injEq] at hlast
          have hdata := intercalate_splitLines (c :: bs)
          rw [hlines, hlast] at hdata
          cases hdata
        | cons next lines =>
          rw [List.getLast?_cons_cons] at hlast ⊢
          exact hlast

namespace OutputBuffer

/-- The size of the lines. -/
def size (self : OutputBuffer) : Nat := self.lines.flatten.length

variable (self : OutputBuffer)

theorem flatten_pushBack (line : List UInt8) :
    (self.pushBack line).lines.flatten = self.lines.flatten ++ line := by
  simp [pushBack]

theorem size_pushBack (line : List UInt8) :
    (self.pushBack line).totalSize + self.size = self.totalSize + (self.pushBack line).size := by
  have htotal : (self.pushBack line).totalSize = self.totalSize + line.length := rfl
  rw [size, size, flatten_pushBack, List.length_append, htotal]
  omega

/-- The lines go behind the others, put together again. -/
theorem flatten_pushLines {endsWithNewline : Bool} {lines : List (List UInt8)}
    (hlast : endsWithNewline = true → lines.getLast? = some []) :
    (self.pushLines endsWithNewline lines).lines.flatten =
      self.lines.flatten ++ [newline].intercalate lines := by
  fun_induction pushLines self endsWithNewline lines with
  | case1 self =>
    rw [List.intercalate_nil, List.append_nil]
  | case2 self line self' hne =>
    have hself : self'.lines = self.lines := by
      unfold self'
      split
      · rfl
      · rfl
    rw [List.intercalate_singleton]
    cases endsWithNewline with
    | false => rw [flatten_pushBack, hself]; rfl
    | true =>
      have hempty := hlast rfl
      rw [List.getLast?_singleton, Option.some.injEq] at hempty
      rw [hempty] at hne
      cases hne
  | case3 self line self' hempty =>
    have hself : self'.lines = self.lines := by
      unfold self'
      split
      · rfl
      · rfl
    have hline : line = [] := by simpa using hempty
    rw [hself, hline, List.intercalate_singleton, List.append_nil]
  | case4 self line next lines ih =>
    rw [ih hlast, flatten_pushBack, List.intercalate_cons_cons]
    simp only [List.append_assoc]

theorem size_pushLines (endsWithNewline : Bool) (lines : List (List UInt8)) :
    (self.pushLines endsWithNewline lines).totalSize + self.size =
      self.totalSize + (self.pushLines endsWithNewline lines).size := by
  fun_induction pushLines self endsWithNewline lines with
  | case1 self => rfl
  | case2 self line self' hne =>
    have hself : self'.totalSize = self.totalSize ∧ self'.size = self.size := by
      unfold self'
      split
      · exact ⟨rfl, rfl⟩
      · exact ⟨rfl, rfl⟩
    have hpush := self'.size_pushBack (if endsWithNewline = true then line ++ [newline] else line)
    rwa [hself.1, hself.2] at hpush
  | case3 self line self' hempty =>
    unfold self'
    split
    · rfl
    · rfl
  | case4 self line next lines ih =>
    have hpush := self.size_pushBack (line ++ [newline])
    omega

theorem flatten_pushRemaining (remaining : List UInt8) :
    (self.pushRemaining remaining).lines.flatten = self.lines.flatten ++ remaining := by
  rw [pushRemaining, flatten_pushLines, intercalate_splitLines]
  intro hends
  exact getLast_splitLines (of_decide_eq_true hends)

theorem size_pushRemaining (remaining : List UInt8) :
    (self.pushRemaining remaining).totalSize + self.size =
      self.totalSize + (self.pushRemaining remaining).size :=
  self.size_pushLines _ _

theorem flatten_extendLast (hne : self.lines ≠ []) (data : List UInt8) :
    (self.extendLast data).lines.flatten = self.lines.flatten ++ data := by
  have hlines : self.lines = self.lines.dropLast ++ [self.lines.getLast hne] :=
    (List.dropLast_append_getLast hne).symm
  unfold extendLast
  rw [List.getLast?_eq_some_getLast hne]
  conv_rhs => rw [hlines]
  simp

theorem size_extendLast (hne : self.lines ≠ []) (data : List UInt8) :
    (self.extendLast data).size = self.size + data.length := by
  rw [size, size, flatten_extendLast self hne, List.length_append]

/-! ## append -/

/-- The data closes a line that was left open. -/
def Closes (data : List UInt8) : Prop :=
  self.lastLineIncomplete = true ∧ self.lines ≠ [] ∧ newline ∈ data

/-- The data goes behind the lines. -/
theorem flatten_append (data : List UInt8) :
    (self.append data).1.lines.flatten = self.lines.flatten ++ data := by
  unfold append
  split
  next hempty =>
    rw [List.isEmpty_iff.mp hempty, List.append_nil]
  next =>
    split
    next hopen =>
      have hne : self.lines ≠ [] := by simpa using (Bool.and_eq_true_iff.mp hopen).2
      split
      next pos _ =>
        rw [flatten_pushRemaining, self.flatten_extendLast hne, List.append_assoc,
          List.take_append_drop]
      next => exact self.flatten_extendLast hne data
    next => exact self.flatten_pushRemaining data

/-- The count follows the lines, unless a line that was left open is closed. -/
theorem size_append {data : List UInt8} (h : ¬ self.Closes data) :
    (self.append data).1.totalSize + self.size =
      self.totalSize + (self.append data).1.size := by
  unfold append
  split
  · rfl
  · split
    next hopen =>
      obtain ⟨hincomplete, hlines⟩ := Bool.and_eq_true_iff.mp hopen
      have hne : self.lines ≠ [] := by simpa using hlines
      split
      next pos hpos =>
        have hmem : newline ∈ data := by
          obtain ⟨hlt, hat, -⟩ := List.findIdx?_eq_some_iff_getElem.mp hpos
          have heq : data[pos] = newline := of_decide_eq_true hat
          exact heq ▸ List.getElem_mem hlt
        exact absurd ⟨hincomplete, hne, hmem⟩ h
      next =>
        have hsize := self.size_extendLast hne data
        change self.totalSize + data.length + self.size =
          self.totalSize + (self.extendLast data).size
        omega
    next => exact self.size_pushRemaining data

/-- What closes a line is not counted. -/
theorem size_append_closes {data : List UInt8} (h : self.Closes data) :
    (self.append data).1.totalSize + self.size <
      self.totalSize + (self.append data).1.size := by
  obtain ⟨hincomplete, hne, hmem⟩ := h
  have hdata : data.isEmpty = false := by
    cases data with
    | nil => cases hmem
    | cons => rfl
  have hopen : (self.lastLineIncomplete && !self.lines.isEmpty) = true := by
    rw [hincomplete, Bool.true_and]
    simpa using hne
  obtain ⟨pos, hpos⟩ : ∃ pos, data.findIdx? (· = newline) = some pos := by
    rw [← Option.isSome_iff_exists, List.findIdx?_isSome, List.any_eq_true]
    exact ⟨newline, hmem, decide_eq_true rfl⟩
  have hlt : pos < data.length := (List.findIdx?_eq_some_iff_getElem.mp hpos).1
  unfold append
  simp only [hdata, hopen, hpos, Bool.false_eq_true, if_false, if_true]
  set closed : OutputBuffer :=
    { self.extendLast (data.take (pos + 1)) with lastLineIncomplete := false } with hclosed
  have hpush := closed.size_pushRemaining (data.drop (pos + 1))
  have htotal : closed.totalSize = self.totalSize := rfl
  have hsize : closed.size = self.size + (data.take (pos + 1)).length :=
    self.size_extendLast hne _
  rw [List.length_take_of_le hlt] at hsize
  omega

/-! ## The loop -/

theorem flatten_popFront : self.popFront.lines.flatten <:+ self.lines.flatten := by
  unfold popFront
  split
  · exact List.suffix_rfl
  next removed lines hlines =>
    rw [hlines, List.flatten_cons]
    exact List.suffix_append _ _

/-- With nothing left a turn does nothing. -/
theorem popFront_empty (h : self.lines = []) : self.popFront = self := by
  unfold popFront
  rw [h]

/-- Where the count says that something is left when nothing is, the loop goes on forever. -/
theorem popFront_iterate_empty (h : self.lines = []) (turns : Nat) :
    popFront^[turns] self = self :=
  Function.iterate_fixed (self.popFront_empty h) turns

variable {self}

/-- With the right count, the loop takes what is there. -/
theorem exists_cons_of_tooLarge (hcount : self.totalSize = self.size)
    (hlarge : self.tooLarge = true) :
    ∃ removed rest, self.lines = removed :: rest ∧ removed.length ≤ self.totalSize := by
  cases hlines : self.lines with
  | nil =>
    rw [size, hlines] at hcount
    simp [tooLarge, hlines, hcount] at hlarge
  | cons removed rest =>
    refine ⟨removed, rest, rfl, ?_⟩
    rw [hcount, size, hlines, List.flatten_cons, List.length_append]
    exact Nat.le_add_right _ _

/-- A turn keeps the right count. -/
theorem size_popFront (hcount : self.totalSize = self.size) :
    self.popFront.totalSize = self.popFront.size := by
  cases hlines : self.lines with
  | nil => rwa [self.popFront_empty hlines]
  | cons removed rest =>
    rw [size, hlines, List.flatten_cons, List.length_append] at hcount
    have hle : removed.length ≤ self.totalSize := by omega
    unfold popFront
    rw [hlines]
    simp only [size, usizeSub, if_pos hle]
    omega

/-- With the right count, the loop ends, at the latest when every line is taken. -/
theorem exists_not_tooLarge (hcount : self.totalSize = self.size) :
    ∃ turns ≤ self.lines.length, (popFront^[turns] self).tooLarge = false := by
  induction hlen : self.lines.length generalizing self with
  | zero =>
    refine ⟨0, Nat.le_refl _, ?_⟩
    refine Bool.eq_false_iff.mpr fun hlarge => ?_
    obtain ⟨removed, rest, hlines, -⟩ := exists_cons_of_tooLarge hcount hlarge
    rw [hlines] at hlen
    cases hlen
  | succ len ih =>
    cases hlarge : self.tooLarge with
    | false => exact ⟨0, Nat.zero_le _, hlarge⟩
    | true =>
      obtain ⟨removed, rest, hlines, -⟩ := exists_cons_of_tooLarge hcount hlarge
      have hpop : self.popFront.lines.length = len := by
        unfold popFront
        rw [hlines] at hlen ⊢
        exact Nat.succ.inj hlen
      obtain ⟨turns, hle, hend⟩ := ih (size_popFront hcount) hpop
      exact ⟨turns + 1, Nat.succ_le_succ hle, hend⟩

/-! ## get_recent -/

/-- Whole lines from the end, no more than asked for. -/
theorem recent_spec {maxBytes : Nat} (before : List (List UInt8)) {result : List UInt8}
    (hmax : result.length ≤ maxBytes) :
    (recent maxBytes before result.length result).length ≤ maxBytes ∧
      recent maxBytes before result.length result <:+ before.reverse.flatten ++ result := by
  induction before generalizing result with
  | nil => exact ⟨hmax, List.suffix_rfl⟩
  | cons line before ih =>
    unfold recent
    split
    next => exact ⟨hmax, List.suffix_append _ _⟩
    next hfits =>
      have hlen : result.length + line.length = (line ++ result).length := by
        rw [List.length_append, Nat.add_comm]
      rw [hlen] at hfits ⊢
      obtain ⟨hle, hsuffix⟩ := ih (Nat.le_of_not_gt hfits)
      refine ⟨hle, ?_⟩
      rwa [List.reverse_cons, List.flatten_append, List.flatten_singleton, List.append_assoc]

theorem getRecent_spec (self : OutputBuffer) (maxBytes : Nat) :
    (self.getRecent maxBytes).length ≤ maxBytes ∧
      self.getRecent maxBytes <:+ self.lines.flatten := by
  have hnone : ([] : List UInt8).length ≤ maxBytes := Nat.zero_le maxBytes
  have hrecent := recent_spec self.lines.reverse hnone
  rwa [List.reverse_reverse, List.append_nil] at hrecent

/-- What is claimed of a buffer: it is counted right, and so the loop takes what is there, and
ends. -/
structure Sound (buffer : OutputBuffer) : Prop where
  counted : buffer.totalSize = buffer.size
  takes : buffer.tooLarge = true →
    ∃ removed rest, buffer.lines = removed :: rest ∧ removed.length ≤ buffer.totalSize
  ends : ∃ turns ≤ buffer.lines.length, (popFront^[turns] buffer).tooLarge = false

theorem sound_iff : self.Sound ↔ self.totalSize = self.size :=
  ⟨fun h => h.counted, fun h => ⟨h, exists_cons_of_tooLarge h, exists_not_tooLarge h⟩⟩

end OutputBuffer

/-! ## A buffer in use -/

namespace Appending

variable {s s' : Appending} {e : AppendEvent}

/-- The call closes a line that was left open. -/
def ClosesLine (s : Appending) : AppendEvent → Prop
  | .append data => s.buffer.Closes data
  | .trim => False

/-- A step keeps the right count where it closes no line. -/
theorem counted_step (hcount : s.buffer.totalSize = s.buffer.size) (hs : system.step s e s')
    (hopen : ¬ s.ClosesLine e) : s'.buffer.totalSize = s'.buffer.size := by
  obtain ⟨-, rfl⟩ := hs
  cases e with
  | append data =>
    have hsize := s.buffer.size_append hopen
    change (s.buffer.append data).1.totalSize = (s.buffer.append data).1.size
    omega
  | trim =>
    unfold next
    dsimp only
    split
    · exact OutputBuffer.size_popFront hcount
    · exact hcount

/-- A step that closes a line loses the count. -/
theorem closes_of_step (hcount : s.buffer.totalSize = s.buffer.size) (hs : system.step s e s')
    (hcount' : s'.buffer.totalSize = s'.buffer.size) : ¬ s.ClosesLine e := by
  obtain ⟨-, rfl⟩ := hs
  intro hcloses
  cases e with
  | append data =>
    have hsize := s.buffer.size_append_closes hcloses
    change (s.buffer.append data).1.totalSize = (s.buffer.append data).1.size at hcount'
    omega
  | trim => exact hcloses

/-- The buffers of a run are sound exactly as long as no call closes a line that was left open. -/
theorem sound_iff_never_closes {tr : List (Appending × AppendEvent)}
    (h : system.Trace tr s) :
    System.Always (fun s => s.buffer.Sound) tr s ↔ ∀ x ∈ tr, ¬ x.1.ClosesLine x.2 := by
  refine h.always_iff (G := fun s => s.buffer.Sound) (I := fun s => s.buffer.Sound)
    (P := fun s e => ¬ s.ClosesLine e) ?_ id ?_ ?_
  · rintro s rfl
    exact OutputBuffer.sound_iff.mpr rfl
  · intro s e s' hI hs hP
    exact OutputBuffer.sound_iff.mpr (counted_step hI.counted hs hP)
  · intro s e s' hI hs hG
    exact closes_of_step hI.counted hs hG.counted

/-- Output in two parts, the first of them cut behind a newline. -/
theorem sound_iff_never_closes_lines :
    System.Always (fun s => s.buffer.Sound)
      [(⟨.new, false⟩, AppendEvent.append [97, newline]),
        (⟨⟨[[97, newline]], 2, false⟩, true⟩, .trim),
        (⟨⟨[[97, newline]], 2, false⟩, false⟩, .append [98])]
      (⟨⟨[[97, newline], [98]], 3, true⟩, true⟩ : Appending) := by
  have hnew : system.Trace [] ⟨.new, false⟩ := .start rfl
  have hline := hnew.guarded_snoc (.append [97, newline]) rfl
  have htrim := hline.guarded_snoc .trim rfl
  refine (sound_iff_never_closes (htrim.guarded_snoc (.append [98]) rfl)).mpr ?_
  intro x hx
  simp only [List.mem_append, List.mem_singleton, List.not_mem_nil, false_or] at hx
  rcases hx with (rfl | rfl) | rfl
  · exact fun hcloses => Bool.false_ne_true hcloses.1
  · exact id
  · exact fun hcloses => Bool.false_ne_true hcloses.1

/-- Output in two parts, cut in the middle of a line. -/
theorem not_sound_split_line :
    ¬ ∀ (tr : List (Appending × AppendEvent)) (s : Appending), system.Trace tr s →
      System.Always (fun s => s.buffer.Sound) tr s := by
  intro hall
  have hnew : system.Trace [] ⟨.new, false⟩ := .start rfl
  have hopen := hnew.guarded_snoc (.append [97]) rfl
  have htrim := hopen.guarded_snoc .trim rfl
  have hclose := hall _ _ (htrim.guarded_snoc (.append [98, newline]) rfl)
  have hcount := hclose.2.counted
  revert hcount
  decide

/-! ## The end of the output -/

theorem appended_append (es es' : List AppendEvent) :
    appended (es ++ es') = appended es ++ appended es' := by
  induction es with
  | nil => rfl
  | cons e es ih =>
    cases e with
    | append data => simp only [List.cons_append, appended, ih, List.append_assoc]
    | trim => simp only [List.cons_append, appended, ih]

/-- The lines, put together, are the end of what was appended. -/
theorem flatten_suffix {es : List AppendEvent} (h : system.Run es s) :
    s.buffer.lines.flatten <:+ appended es := by
  induction h with
  | start h =>
    cases h
    exact List.suffix_rfl
  | @snoc es s e s' _ hs ih =>
    obtain ⟨-, rfl⟩ := hs
    rw [appended_append]
    cases e with
    | append data =>
      change (s.buffer.append data).1.lines.flatten <:+ appended es ++ (data ++ [])
      rw [OutputBuffer.flatten_append, List.append_nil]
      obtain ⟨dropped, hdropped⟩ := ih
      exact ⟨dropped, by rw [← List.append_assoc, hdropped]⟩
    | trim =>
      rw [appended, appended, List.append_nil]
      unfold next
      dsimp only
      split
      · exact s.buffer.flatten_popFront.trans ih
      · exact ih

/-- What a buffer holds, and what is asked for of it, is the end of what was appended. -/
theorem recent_suffix {es : List AppendEvent} (h : system.Run es s) :
    s.buffer.lines.flatten <:+ appended es ∧
      ∀ maxBytes : Nat, (s.buffer.getRecent maxBytes).length ≤ maxBytes ∧
        s.buffer.getRecent maxBytes <:+ appended es := by
  have hlines := flatten_suffix h
  refine ⟨hlines, fun maxBytes => ?_⟩
  obtain ⟨hle, hsuffix⟩ := s.buffer.getRecent_spec maxBytes
  exact ⟨hle, hsuffix.trans hlines⟩

/-- A line in two parts, the second of which goes on behind the newline. -/
theorem recent_suffix_split_line :
    [97, 98, newline, 99] <:+ appended [.append [97], .trim, .append [98, newline, 99]] ∧
      ∀ maxBytes : Nat,
        (OutputBuffer.getRecent ⟨[[97, 98, newline], [99]], 2, true⟩ maxBytes).length ≤ maxBytes ∧
          OutputBuffer.getRecent ⟨[[97, 98, newline], [99]], 2, true⟩ maxBytes <:+
            appended [.append [97], .trim, .append [98, newline, 99]] := by
  have hnew : system.Run [] ⟨.new, false⟩ := System.guarded_start
  have hopen := hnew.guarded_snoc (.append [97]) rfl
  have htrim := hopen.guarded_snoc AppendEvent.trim rfl
  exact recent_suffix (htrim.guarded_snoc (.append [98, newline, 99]) rfl)

end Appending

end HopToDesk.Host
