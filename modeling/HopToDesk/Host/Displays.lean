import HopToDesk.Kit.System

/-!
# The list of displays and who has been told

`src/server/display_service.rs` keeps the displays as they were last seen and whether the clients
have been sent that list (`SyncDisplaysInfo`, under a lock). While a guard of
`temp_ignore_displays_changed` is held, a flag keeps a change from being announced; the guard, when
it is dropped, lowers the flag and then has the list announced.

The flag is an atomic of its own. A step of `DisplaysStep` is one access to it or one section under
the lock. `check_changed` reads the flag inside its section, and nothing else sees the list before
the section ends, so that section is one step, at its read of the flag. Any number of threads check,
and any number of guards is held at a time.
-/

set_option autoImplicit false

namespace HopToDesk.Host

open Kit

-- `DisplayInfo`, and how two are compared
variable {D : Type} [BEq D]

/-- `SyncDisplaysInfo`. -/
structure SyncDisplaysInfo (D : Type) where
  displays : List D
  isSynced : Bool
deriving DecidableEq, Repr

namespace SyncDisplaysInfo

/-- `Default`. -/
def default : SyncDisplaysInfo D := ⟨[], false⟩

/-- The displays are replaced; `ignoring` is what the flag is read as. -/
def replace (self : SyncDisplaysInfo D) (ignoring : Bool) (displays : List D) :
    SyncDisplaysInfo D :=
  ⟨displays, if !ignoring then false else self.isSynced⟩

def checkChanged (self : SyncDisplaysInfo D) (ignoring : Bool) (displays : List D) :
    SyncDisplaysInfo D :=
  if self.displays.length ≠ displays.length then self.replace ignoring displays
  else if (displays.zip self.displays).any (fun x => x.1 != x.2) then
    self.replace ignoring displays
  else self

def getUpdateSyncDisplays (self : SyncDisplaysInfo D) : Option (List D) × SyncDisplaysInfo D :=
  if self.isSynced then (none, self) else (some self.displays, { self with isSynced := true })

end SyncDisplaysInfo

/-- `SYNC_DISPLAYS` and `TEMP_IGNORE_DISPLAYS_CHANGED`, and where the threads stand: how many guards
are held, how many are being dropped and have lowered the flag, and how many rounds of the service
are about to ask for a message for a new subscriber. Last, the list that was last given out. The
code keeps the first two. -/
structure DisplaysState (D : Type) where
  info : SyncDisplaysInfo D
  ignoring : Bool
  held : Nat
  dropping : Nat
  subscribed : Nat
  lastSent : Option (List D)
deriving DecidableEq, Repr

inductive DisplaysStep (D : Type)
  /-- The section of `check_update_displays`. -/
  | checkChanged (displays : List D)
  /-- The section of `get_displays_msg`. -/
  | getDisplays
  /-- `temp_ignore_displays_changed`. -/
  | ignore
  /-- A guard is dropped, up to its store. -/
  | lowerFlag
  /-- The rest of it. -/
  | dropped
  /-- `run` reads the flag, with a new subscriber there. -/
  | newSubscriber
  /-- It has read it as lowered. -/
  | announce
deriving DecidableEq, Repr

namespace DisplaysState

def start : DisplaysState D := ⟨.default, false, 0, 0, 0, none⟩

/-- One step. A guard that is not held is not dropped. -/
def next (s : DisplaysState D) : DisplaysStep D → Option (DisplaysState D)
  | .checkChanged displays => some { s with info := s.info.checkChanged s.ignoring displays }
  | .getDisplays =>
    match s.info.getUpdateSyncDisplays with
    | (some displays, info) => some { s with info, lastSent := some displays }
    | (none, info) => some { s with info }
  | .ignore => some { s with ignoring := true, held := s.held + 1 }
  | .lowerFlag =>
    if s.held = 0 then none
    else some { s with ignoring := false, held := s.held - 1, dropping := s.dropping + 1 }
  | .dropped =>
    if s.dropping = 0 then none
    else some { s with info := { s.info with isSynced := false }, dropping := s.dropping - 1 }
  | .newSubscriber =>
    if s.ignoring then some s else some { s with subscribed := s.subscribed + 1 }
  | .announce =>
    if s.subscribed = 0 then none
    else some { s with
      info := { s.info with isSynced := false }, subscribed := s.subscribed - 1 }

/-- Any order of the steps. -/
def system : System (DisplaysState D) (DisplaysStep D) := .stepping (· = start) next

/-- A guard is alive until its drop is over. -/
def NoGuard (s : DisplaysState D) : Prop := s.held = 0 ∧ s.dropping = 0

end DisplaysState

end HopToDesk.Host

/-!
## No change of the displays is lost

A change that was seen while the flag was raised is not announced by the check that saw it. But a
raised flag means that a guard is held, and a guard announces when it is dropped: as long as the
list has changed since it was last sent, and counts as sent, some guard is not done yet
(`Recoverable`).
-/

namespace HopToDesk.Host

open Kit

variable {D : Type}

/-- What a check does to the list: nothing, or it replaces it. -/
theorem SyncDisplaysInfo.checkChanged_cases [BEq D] (self : SyncDisplaysInfo D) (ignoring : Bool)
    (displays : List D) :
    self.checkChanged ignoring displays = self ∨
      self.checkChanged ignoring displays = self.replace ignoring displays := by
  unfold checkChanged
  split_ifs
  · exact .inr rfl
  · exact .inr rfl
  · exact .inl rfl

namespace DisplaysState

/-- A raised flag has a guard that will lower it, and a list that counts as sent has been sent, or
has a guard that will announce it. -/
structure Recoverable (s : DisplaysState D) : Prop where
  raised : s.ignoring = true → 0 < s.held
  synced : s.info.isSynced = true →
    s.lastSent = some s.info.displays ∨ 0 < s.held + s.dropping

theorem recoverable_start : (start : DisplaysState D).Recoverable where
  raised h := nomatch h
  synced h := nomatch h

/-- A list that does not count as sent needs no one. -/
theorem Recoverable.of_unsynced {s s' : DisplaysState D} (hs : s.Recoverable)
    (hflag : s'.ignoring = s.ignoring) (hheld : s'.held = s.held)
    (hsynced : s'.info.isSynced = false) : s'.Recoverable where
  raised h := by
    rw [hheld]
    exact hs.raised (hflag ▸ h)
  synced h := by
    rw [hsynced] at h
    cases h

variable [BEq D]

theorem Recoverable.checkChanged {s : DisplaysState D} (hs : s.Recoverable) (displays : List D) :
    Recoverable { s with info := s.info.checkChanged s.ignoring displays } := by
  rcases s.info.checkChanged_cases s.ignoring displays with h | h <;> rw [h]
  · exact hs
  · cases hflag : s.ignoring with
    | false => exact hs.of_unsynced hflag.symm rfl rfl
    | true =>
      -- the change is kept back, and the flag has a guard
      have hheld := hs.raised hflag
      exact ⟨fun _ => hheld, fun _ => .inr (Nat.add_pos_left hheld _)⟩

theorem Recoverable.step {s s' : DisplaysState D} (hs : s.Recoverable) {a : DisplaysStep D}
    (h : s.next a = some s') : s'.Recoverable := by
  cases a with
  | checkChanged displays =>
    cases h
    exact hs.checkChanged displays
  | getDisplays =>
    unfold next SyncDisplaysInfo.getUpdateSyncDisplays at h
    cases hsynced : s.info.isSynced with
    | true =>
      simp only [hsynced, if_true, Option.some.injEq] at h
      exact h ▸ hs
    | false =>
      simp only [hsynced, Bool.false_eq_true, if_false, Option.some.injEq] at h
      subst h
      exact ⟨hs.raised, fun _ => .inl rfl⟩
  | ignore =>
    cases h
    refine ⟨fun _ => Nat.succ_pos _, fun hsynced => ?_⟩
    exact (hs.synced hsynced).imp id fun hpos => by
      show 0 < s.held + 1 + s.dropping
      omega
  | lowerFlag =>
    simp only [next] at h
    split_ifs at h with hheld
    cases h
    refine ⟨fun hflag => (nomatch hflag), fun _ => .inr ?_⟩
    show 0 < s.held - 1 + (s.dropping + 1)
    omega
  | dropped =>
    simp only [next] at h
    split_ifs at h
    cases h
    exact hs.of_unsynced rfl rfl rfl
  | newSubscriber =>
    simp only [next] at h
    split_ifs at h <;> cases h
    · exact hs
    · exact ⟨hs.raised, hs.synced⟩
  | announce =>
    simp only [next] at h
    split_ifs at h
    cases h
    exact hs.of_unsynced rfl rfl rfl

theorem recoverable {s : DisplaysState D} (h : system.Reachable s) : s.Recoverable :=
  h.invariant (fun {_} hstart => hstart ▸ recoverable_start) fun {_ _ _} hs hstep => hs.step hstep

/-- **No display change is lost.** Whatever the order of checks, messages and guards, where no guard
is alive and the list counts as sent, it is the list that was last given out. -/
theorem lastSent_of_isSynced {s : DisplaysState D} (h : system.Reachable s) (hguard : s.NoGuard)
    (hsynced : s.info.isSynced = true) : s.lastSent = some s.info.displays := by
  rcases (recoverable h).synced hsynced with hsent | hpos
  · exact hsent
  · obtain ⟨hheld, hdropping⟩ := hguard
    omega

/-- Two guards overlap, and a display appears while the flag is raised; it is lowered by the first
and raised by a third. -/
def overlapping : List (DisplaysStep Nat) :=
  [.checkChanged [1], .getDisplays, .ignore, .ignore, .checkChanged [1, 2], .lowerFlag, .ignore,
    .dropped, .getDisplays, .checkChanged [1, 3], .lowerFlag, .lowerFlag, .dropped, .dropped,
    .getDisplays]

/-- The last guard to be dropped has the display announced. -/
theorem lastSent_of_isSynced_overlapping :
    ∃ s : DisplaysState Nat, overlapping.foldlM next start = some s ∧ s.NoGuard ∧
      s.info.isSynced = true ∧ s.lastSent = some s.info.displays := by
  obtain ⟨s, hs⟩ : ∃ s : DisplaysState Nat, overlapping.foldlM next start = some s :=
    Option.isSome_iff_exists.mp (by decide)
  have hreach : system.Reachable s :=
    ⟨_, (System.Run.start rfl).of_foldlM (fun {_ _ _} h => h) hs⟩
  have hend : s.NoGuard ∧ s.info.isSynced = true := by
    obtain rfl : _ = s := Option.some.inj (Eq.trans (by rfl) hs)
    exact ⟨⟨rfl, rfl⟩, rfl⟩
  exact ⟨s, hs, hend.1, hend.2, lastSent_of_isSynced hreach hend.1 hend.2⟩

end DisplaysState

end HopToDesk.Host
