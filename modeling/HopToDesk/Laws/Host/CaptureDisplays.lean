import HopToDesk.Laws.Host.Login

/-!
# The displays a connection captures

A client names the displays to add, those to subtract, or those to set. Adding and setting do what
they say. To subtract, the server is told to exclude, and what it excludes is every video service
that is not named: the connection keeps the displays it wants to leave, and loses the others
(`displaysSubed_captureDisplays_iff`).
-/

set_option autoImplicit false

namespace HopToDesk.Host

namespace State

variable (s : State)

/-- The video services the connection is subscribed to. -/
def displaysSubed : Set ServiceName := {n | n.isVideo = true ∧ s.Subed n}

/-- The services of some displays. -/
def displays (displays : List Int) : Set ServiceName := {n | n ∈ s.displayNames displays}

/-- What the client asks for, of the displays subscribed to so far. -/
def displaysAsked (add sub set : List Int) : Set ServiceName :=
  if add ≠ [] then s.displaysSubed ∪ s.displays add
  else if sub ≠ [] then s.displaysSubed \ s.displays sub
  else s.displays set

variable {s}

theorem isVideo_of_mem_displays {displays : List Int} {n : ServiceName}
    (h : n ∈ s.displays displays) : n.isVideo = true := by
  obtain ⟨idx, -, rfl⟩ := List.mem_map.mp h
  rfl

variable (s)

/-- What the connection is subscribed to then. -/
theorem displaysSubed_captureDisplays (add sub set : List Int) :
    (s.captureDisplays add sub set).displaysSubed =
      if add ≠ [] then s.displaysSubed ∪ s.displays add
      else if sub ≠ [] then s.displaysSubed ∩ s.displays sub
      else s.displays set := by
  ext n
  have hmem : n ∈ (s.captureDisplays add sub set).displaysSubed ↔
      n.isVideo = true ∧ (s.captureDisplays add sub set).Subed n := Iff.rfl
  rw [hmem]
  by_cases hn : n.isVideo = true
  · rw [and_iff_right hn, s.subed_captureDisplays add sub set hn]
    have hsubed : n ∈ s.displaysSubed ↔ s.Subed n := and_iff_right hn
    split
    · rw [Set.mem_union, hsubed]
      exact Or.comm
    split
    · rw [Set.mem_inter_iff, hsubed]
      exact And.comm
    · rfl
  · refine iff_of_false (fun h => hn h.1) ?_
    split
    · rintro (h | h)
      · exact hn h.1
      · exact hn (isVideo_of_mem_displays h)
    split
    · rintro ⟨h, -⟩
      exact hn h.1
    · exact fun h => hn (isVideo_of_mem_displays h)

/-- The connection gets what it asks for exactly where it adds, where it does not subtract, and
where there is nothing to subtract from. -/
theorem displaysSubed_captureDisplays_iff (add sub set : List Int) :
    (s.captureDisplays add sub set).displaysSubed = s.displaysAsked add sub set ↔
      add ≠ [] ∨ sub = [] ∨ s.displaysSubed = ∅ := by
  rw [displaysSubed_captureDisplays, displaysAsked]
  by_cases hadd : add ≠ []
  · rw [if_pos hadd, if_pos hadd]
    exact iff_of_true rfl (.inl hadd)
  · rw [if_neg hadd, if_neg hadd, or_iff_right hadd]
    by_cases hsub : sub ≠ []
    · rw [if_pos hsub, if_pos hsub, or_iff_right hsub]
      constructor
      · intro heq
        ext n
        refine ⟨fun hn => ?_, False.elim⟩
        by_cases hmem : n ∈ s.displays sub
        · have hboth : n ∈ s.displaysSubed ∩ s.displays sub := ⟨hn, hmem⟩
          rw [heq] at hboth
          exact hboth.2 hmem
        · have hdiff : n ∈ s.displaysSubed \ s.displays sub := ⟨hn, hmem⟩
          rw [← heq] at hdiff
          exact hmem hdiff.2
      · intro hnone
        rw [hnone, Set.empty_inter, Set.empty_sdiff]
    · rw [if_neg hsub, if_neg hsub]
      exact iff_of_true rfl (.inl (not_not.mp hsub))

/-- A connection that watches two displays and leaves the second. -/
theorem not_displaysAsked_subtracted :
    ¬ ∀ (s : State) (add sub set : List Int),
      (s.captureDisplays add sub set).displaysSubed = s.displaysAsked add sub set := by
  intro hall
  let watching := (State.plain none).captureDisplays [] [] [0, 1]
  have hwatched : watching.displaysSubed = (State.plain none).displays [0, 1] :=
    displaysSubed_captureDisplays (State.plain none) [] [] [0, 1]
  have hleft : ServiceName.video .monitor 1 ∈ watching.displaysSubed := by
    rw [hwatched]
    exact List.mem_cons_of_mem _ List.mem_cons_self
  have hnamed : ServiceName.video .monitor 1 ∈ watching.displays [1] := List.mem_cons_self
  have hasked := hall watching [] [1] []
  have hstill :
      ServiceName.video .monitor 1 ∈ (watching.captureDisplays [] [1] []).displaysSubed := by
    rw [displaysSubed_captureDisplays]
    exact ⟨hleft, hnamed⟩
  rw [hasked] at hstill
  exact hstill.2 hnamed

end State

end HopToDesk.Host
