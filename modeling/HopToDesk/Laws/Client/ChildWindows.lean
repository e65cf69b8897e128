import HopToDesk.Client.Children

/-!
# What is known of the windows

A child that runs is kept under its key until it has exited (`Registered`), so none is forgotten.
But there is one pipe for all windows of a peer, one of them is closed, and the list asks none
whether it still runs. So the calls do what they are for (`Served`) exactly in the runs in which no
step finds more than it can see (`served_iff`): a child that exits while another of its peer has no
pipe, a closing that leaves another window, a list with a child that has exited.
-/

set_option autoImplicit false

namespace HopToDesk.Client

open Kit

namespace Windows

/-- The key of a child that runs. -/
def runsAs (s : Windows) (c : Nat) : Option WindowKey :=
  s.procs[c]?.bind fun child => if child.exited then none else some child.key

/-- A command for the peer gets to a window of it, if there is one. -/
def Sends (s : Windows) (peerId : Text) : Prop :=
  ∀ c t, s.runsAs c = some (peerId, t) → ∃ c' t', s.writesTo peerId = some c' ∧
    s.runsAs c' = some (peerId, t')

/-- What the calls are for: a command gets to a window of its peer, a peer that is closed has no
window left, and only children that run are listed as alive. -/
structure Served (s : Windows) : Prop where
  sends : ∀ peerId, s.Sends peerId
  closed : ∀ peerId, s.last = .closed peerId → ∀ c t, s.runsAs c ≠ some (peerId, t)
  listed : ∀ l, s.last = .listed l → ∀ id t, (id, t, true) ∈ l →
    ∀ c, s.children.lookup (id, t) = some c → s.running c = true

/-- The child is the only one of the peer that runs. -/
def Only (s : Windows) (peerId : Text) (c : Nat) : Prop :=
  ∀ c' t, s.runsAs c' = some (peerId, t) → c' = c

/-- The step finds the windows as it takes them to be: a child whose pipe is kept goes only as the
last of its peer, or for one that takes its place; all of a peer is under the key that is closed;
and what is listed runs. -/
def Foreseen (s : Windows) : WindowStep → Prop
  | .newRemote id remoteType spawned => spawned = false → remoteType = "rdp".toList →
      ∀ c, s.children.lookup (id, remoteType) = some c → s.running c = true →
        s.stdins.lookup id = some c → s.Only id c
  | .sendToChild _ _ => True
  | .closeRemoteConnection peerId keyToRemove =>
      ∀ c t, s.runsAs c = some (peerId, t) → keyToRemove = some (peerId, t)
  | .listActiveConnections => ∀ key c, s.children.lookup key = some c → s.running c = true
  | .exit c => ∀ peerId, s.stdins.lookup peerId = some c → s.Only peerId c

/-- The maps are about children that were started, and have all that run. -/
structure Registered (s : Windows) : Prop where
  running : ∀ c key, s.runsAs c = some key → s.children.lookup key = some c
  child : ∀ key c, s.children.lookup key = some c → s.procs[c]?.map Child.key = some key
  pipe : ∀ peerId c, s.stdins.lookup peerId = some c →
    ∃ t, s.procs[c]?.map Child.key = some (peerId, t)

variable {s : Windows} {c c' : Nat} {key : WindowKey} {peerId cmd : Text}

theorem running_eq : s.running c = (s.runsAs c).isSome := by
  unfold running runsAs
  cases s.procs[c]? with
  | none => rfl
  | some child =>
    simp only [Option.any_some, Option.bind_some]
    cases child.exited <;> rfl

theorem key_of_runsAs (h : s.runsAs c = some key) : s.procs[c]?.map Child.key = some key := by
  unfold runsAs at h
  obtain ⟨child, hchild, hkey⟩ := Option.bind_eq_some_iff.mp h
  rw [hchild]
  split at hkey
  next => cases hkey
  next => exact hkey

/-- A child that runs does so under the key it was started with. -/
theorem runsAs_of_running (h : s.running c = true) (hkey : s.procs[c]?.map Child.key = some key) :
    s.runsAs c = some key := by
  rw [running_eq, Option.isSome_iff_exists] at h
  obtain ⟨key', hruns⟩ := h
  rw [hruns, ← hkey, key_of_runsAs hruns]

/-! ## One child -/

/-- What is done to one child leaves the others as they are. -/
theorem getElem?_modify_child {f : Child → Child} : (s.procs.modify c f)[c']? =
    if c' = c then s.procs[c']?.map f else s.procs[c']? := by
  split
  next hsame =>
    rw [hsame, List.getElem?_modify_eq]
    rfl
  next hother => rw [List.getElem?_modify_ne _ _ (Ne.symm hother)]

theorem runsAs_stop : (s.stop c).runsAs c' = if c' = c then none else s.runsAs c' := by
  unfold runsAs stop
  dsimp only
  rw [getElem?_modify_child]
  split
  next => cases s.procs[c']? <;> rfl
  next => rfl

theorem key_stop : (s.stop c).procs[c']?.map Child.key = s.procs[c']?.map Child.key := by
  unfold stop
  dsimp only
  rw [getElem?_modify_child]
  split
  next => cases s.procs[c']? <;> rfl
  next => rfl

/-- A child that was started is not the next one. -/
theorem ne_length_of_key (h : s.procs[c]?.map Child.key = some key) : c ≠ s.procs.length := by
  rintro rfl
  rw [List.getElem?_eq_none (le_refl _)] at h
  cases h

theorem getElem?_concat_child {child : Child} : (s.procs ++ [child])[c]? =
    if c = s.procs.length then some child else s.procs[c]? := by
  split
  next hnew => rw [hnew, List.getElem?_concat_length]
  next hold =>
    rw [List.getElem?_append]
    split
    next => rfl
    next hbeyond =>
      rw [List.getElem?_eq_none (Nat.le_of_not_lt hbeyond), List.getElem?_eq_none]
      simp only [List.length_singleton]
      omega

theorem runsAs_spawn : (s.spawn key true).runsAs c =
    if c = s.procs.length then some key else s.runsAs c := by
  unfold runsAs spawn
  simp only [if_true]
  rw [getElem?_concat_child]
  split <;> rfl

theorem key_spawn : (s.spawn key true).procs[c]?.map Child.key =
    if c = s.procs.length then some key else s.procs[c]?.map Child.key := by
  unfold spawn
  simp only [if_true]
  rw [getElem?_concat_child]
  split <;> rfl

theorem writesTo_eq_some_iff :
    s.writesTo peerId = some c ↔ s.stdins.lookup peerId = some c ∧ s.running c = true :=
  Option.filter_eq_some_iff

/-- The child that a command gets to runs, as a window of the peer. -/
theorem Registered.runsAs_writesTo (h : s.Registered) (hwrites : s.writesTo peerId = some c) :
    ∃ t, s.runsAs c = some (peerId, t) := by
  obtain ⟨hpipe, hrunning⟩ := writesTo_eq_some_iff.mp hwrites
  obtain ⟨t, hkey⟩ := h.pipe peerId c hpipe
  exact ⟨t, runsAs_of_running hrunning hkey⟩

/-! ## What the calls do -/

theorem Registered.stop (h : s.Registered) (c : Nat) : (s.stop c).Registered where
  running := by
    intro c' key hruns
    rw [runsAs_stop] at hruns
    split at hruns
    next => cases hruns
    next => exact h.running c' key hruns
  child := by
    intro key c' hlookup
    rw [key_stop]
    exact h.child key c' hlookup
  pipe := by
    intro peerId c' hlookup
    rw [key_stop]
    exact h.pipe peerId c' hlookup

/-- A child that does not run may be forgotten. -/
theorem Registered.erase (h : s.Registered)
    (hstopped : ∀ c, s.children.lookup key = some c → s.runsAs c = none) :
    Registered { s with children := s.children.erase key } where
  running := by
    intro c key' hruns
    have hlookup := h.running c key' hruns
    rw [AList.lookup_erase_ne, hlookup]
    rintro rfl
    cases (hstopped c hlookup).symm.trans hruns
  child := fun key' c hlookup => h.child key' c (lookup_erase_eq_some hlookup).2
  pipe := h.pipe

/-- A child is started in a place that is free. -/
theorem Registered.spawn (h : s.Registered) (hfree : s.children.lookup key = none)
    (spawned : Bool) : (s.spawn key spawned).Registered := by
  cases spawned with
  | false => exact h
  | true =>
    refine ⟨?_, ?_, ?_⟩
    · intro c key' hruns
      rw [runsAs_spawn] at hruns
      split at hruns
      next hnew =>
        cases hruns
        rw [hnew]
        exact AList.lookup_insert _
      next =>
        have hlookup := h.running c key' hruns
        refine (AList.lookup_insert_ne ?_).trans hlookup
        rintro rfl
        cases hfree.symm.trans hlookup
    · intro key' c hlookup
      rw [key_spawn]
      rcases lookup_insert_eq_some hlookup with ⟨rfl, rfl⟩ | ⟨-, hlookup⟩
      · exact if_pos rfl
      · have hchild := h.child key' c hlookup
        rwa [if_neg (ne_length_of_key hchild)]
    · intro peerId c hlookup
      rw [key_spawn]
      rcases lookup_insert_eq_some hlookup with ⟨rfl, rfl⟩ | ⟨-, hlookup⟩
      · exact ⟨key.2, if_pos rfl⟩
      · obtain ⟨t, hchild⟩ := h.pipe peerId c hlookup
        exact ⟨t, by rwa [if_neg (ne_length_of_key hchild)]⟩

/-! ## Where a command gets to -/

theorem running_stop : (s.stop c).running c' = if c' = c then false else s.running c' := by
  rw [running_eq, running_eq, runsAs_stop]
  split <;> rfl

theorem writesTo_stop : (s.stop c).writesTo peerId =
    if s.writesTo peerId = some c then none else s.writesTo peerId := by
  unfold writesTo
  change ((s.stdins.lookup peerId).filter (s.stop c).running) = _
  cases hpipe : s.stdins.lookup peerId with
  | none => rfl
  | some c' =>
    rw [Option.filter_some, Option.filter_some, running_stop]
    by_cases hsame : c' = c
    · subst hsame
      cases s.running c' <;> simp
    · cases s.running c' <;> simp [hsame]

/-- A child may go whose pipe is not kept, or which is the last of its peer. -/
theorem sends_stop_iff (h : s.Sends peerId) :
    (s.stop c).Sends peerId ↔ (s.writesTo peerId = some c → s.Only peerId c) := by
  constructor
  · intro hsends hwrites c' t hruns
    by_contra hother
    have hruns' : (s.stop c).runsAs c' = some (peerId, t) := by rwa [runsAs_stop, if_neg hother]
    obtain ⟨c₁, t₁, hwrites₁, -⟩ := hsends c' t hruns'
    rw [writesTo_stop, if_pos hwrites] at hwrites₁
    cases hwrites₁
  · intro honly c' t hruns
    rw [runsAs_stop] at hruns
    split at hruns
    next => cases hruns
    next hother =>
      obtain ⟨c₁, t₁, hwrites, hruns₁⟩ := h c' t hruns
      have hkept : c₁ ≠ c := by
        rintro rfl
        exact hother (honly hwrites c' t hruns)
      refine ⟨c₁, t₁, ?_, by rwa [runsAs_stop, if_neg hkept]⟩
      rw [writesTo_stop, if_neg, hwrites]
      rw [hwrites]
      exact fun heq => hkept (Option.some.inj heq)

/-- The pipe of a new child is the one that is kept. -/
theorem sends_spawn_self : (s.spawn key true).Sends key.1 := by
  intro c t hruns
  have hnew : (s.spawn key true).runsAs s.procs.length = some key := by
    rw [runsAs_spawn, if_pos rfl]
  refine ⟨s.procs.length, key.2, writesTo_eq_some_iff.mpr ⟨AList.lookup_insert _, ?_⟩, hnew⟩
  rw [running_eq, hnew]
  rfl

theorem sends_spawn_other (hother : peerId ≠ key.1) (h : s.Sends peerId) :
    (s.spawn key true).Sends peerId := by
  intro c t hruns
  rw [runsAs_spawn] at hruns
  split at hruns
  next =>
    cases hruns
    exact absurd rfl hother
  next =>
    obtain ⟨c', t', hwrites, hruns'⟩ := h c t hruns
    have hold := ne_length_of_key (key_of_runsAs hruns')
    have hruns₁ : (s.spawn key true).runsAs c' = some (peerId, t') := by
      rwa [runsAs_spawn, if_neg hold]
    refine ⟨c', t', writesTo_eq_some_iff.mpr ⟨?_, ?_⟩, hruns₁⟩
    · exact (AList.lookup_insert_ne hother).trans (writesTo_eq_some_iff.mp hwrites).1
    · rw [running_eq, hruns₁]
      rfl

theorem Sends.spawn (h : ∀ peerId, s.Sends peerId) (spawned : Bool) (peerId : Text) :
    (s.spawn key spawned).Sends peerId := by
  cases spawned with
  | false => exact h peerId
  | true =>
    by_cases hpeer : peerId = key.1
    · rw [hpeer]
      exact sends_spawn_self
    · exact sends_spawn_other hpeer (h peerId)

/-! ## The steps -/

/-- What `new_remote` finds: the window is open, it was never opened, its child has exited, or it is
one that is killed for the new one. -/
theorem newRemote_cases (s : Windows) (id remoteType : Text) (spawned : Bool) :
    (remoteType ≠ "rdp".toList ∧ s.newRemote id remoteType spawned = s) ∨
    (s.children.lookup (id, remoteType) = none ∧
      s.newRemote id remoteType spawned = s.spawn (id, remoteType) spawned) ∨
    ∃ c, s.children.lookup (id, remoteType) = some c ∧
      ((s.running c = false ∧ s.newRemote id remoteType spawned =
          Windows.spawn { s with children := s.children.erase (id, remoteType) } (id, remoteType)
            spawned) ∨
        (remoteType = "rdp".toList ∧ s.newRemote id remoteType spawned =
          Windows.spawn { s.stop c with children := s.children.erase (id, remoteType) }
            (id, remoteType) spawned)) := by
  cases hlookup : s.children.lookup (id, remoteType) with
  | none =>
    have heq : s.newRemote id remoteType spawned = s.spawn (id, remoteType) spawned := by
      simp only [newRemote, hlookup]
    exact .inr (.inl ⟨rfl, heq⟩)
  | some c =>
    simp only [newRemote, hlookup]
    cases hrunning : s.running c with
    | false => exact .inr (.inr ⟨c, rfl, .inl ⟨hrunning, rfl⟩⟩)
    | true =>
      by_cases hrdp : remoteType = "rdp".toList
      · exact .inr (.inr ⟨c, rfl, .inr ⟨hrdp, if_pos hrdp⟩⟩)
      · exact .inl ⟨hrdp, if_neg hrdp⟩

theorem runsAs_eq_none (h : s.running c = false) : s.runsAs c = none := by
  rw [running_eq] at h
  exact Option.isSome_eq_false_iff.mp h |> Option.isNone_iff_eq_none.mp

theorem Registered.newRemote (h : s.Registered) (id remoteType : Text) (spawned : Bool) :
    (s.newRemote id remoteType spawned).Registered := by
  have hfree : (s.children.erase (id, remoteType)).lookup (id, remoteType) = none :=
    AList.lookup_erase _ _
  rcases newRemote_cases s id remoteType spawned with
    ⟨-, heq⟩ | ⟨hnone, heq⟩ | ⟨c, hlookup, ⟨hstopped, heq⟩ | ⟨-, heq⟩⟩
  · rw [heq]
    exact h
  · rw [heq]
    exact h.spawn hnone spawned
  · rw [heq]
    refine (h.erase fun c' hc' => ?_).spawn hfree spawned
    cases hlookup.symm.trans hc'
    exact runsAs_eq_none hstopped
  · rw [heq]
    have hstopped : ∀ c', (s.stop c).children.lookup (id, remoteType) = some c' →
        (s.stop c).runsAs c' = none := by
      intro c' hc'
      cases hlookup.symm.trans hc'
      rw [runsAs_stop, if_pos rfl]
    exact ((h.stop c).erase hstopped).spawn hfree spawned

/-- The child that a command for a peer gets to has a key of the peer. -/
theorem Registered.peer_of_writesTo (h : s.Registered) (hwrites : s.writesTo peerId = some c)
    (hlookup : s.children.lookup key = some c) : key.1 = peerId := by
  obtain ⟨t, hruns⟩ := h.runsAs_writesTo hwrites
  have hkey := (h.child key c hlookup).symm.trans (key_of_runsAs hruns)
  cases hkey
  rfl

/-- A window that is killed may have the pipe of its peer, which a new one replaces. -/
theorem sends_newRemote_iff (h : s.Registered) (hsends : ∀ peerId, s.Sends peerId)
    (id remoteType : Text) (spawned : Bool) :
    (∀ peerId, (s.newRemote id remoteType spawned).Sends peerId) ↔
      s.Foreseen (.newRemote id remoteType spawned) := by
  rcases newRemote_cases s id remoteType spawned with
    ⟨hrdp, heq⟩ | ⟨hnone, heq⟩ | ⟨c, hlookup, ⟨hstopped, heq⟩ | ⟨hrdp, heq⟩⟩
  · rw [heq]
    exact iff_of_true hsends fun _ hsame => absurd hsame hrdp
  · rw [heq]
    refine iff_of_true (Sends.spawn hsends spawned) fun _ _ c hlookup => ?_
    cases hnone.symm.trans hlookup
  · rw [heq]
    have herased : ∀ peerId,
        Sends { s with children := s.children.erase (id, remoteType) } peerId := hsends
    refine iff_of_true (Sends.spawn herased spawned) ?_
    intro _ _ c' hlookup' hrunning
    cases hlookup.symm.trans hlookup'
    cases hstopped.symm.trans hrunning
  · rw [heq]
    cases spawned with
    | true =>
      refine iff_of_true ?_ ?_
      · intro peerId
        by_cases hpeer : peerId = id
        · rw [hpeer]
          exact sends_spawn_self
        · refine sends_spawn_other hpeer ((sends_stop_iff (hsends peerId)).mpr fun hwrites => ?_)
          exact absurd (h.peer_of_writesTo hwrites hlookup).symm hpeer
      · rintro ⟨⟩
    | false =>
      constructor
      · intro hall _ _ c' hlookup' hrunning hpipe
        cases hlookup.symm.trans hlookup'
        exact (sends_stop_iff (hsends id)).mp (hall id) (writesTo_eq_some_iff.mpr ⟨hpipe, hrunning⟩)
      · intro hforeseen peerId
        refine (sends_stop_iff (hsends peerId)).mpr fun hwrites => ?_
        have hpeer := h.peer_of_writesTo hwrites hlookup
        subst hpeer
        obtain ⟨hpipe, hrunning⟩ := writesTo_eq_some_iff.mp hwrites
        exact hforeseen rfl hrdp c hlookup hrunning hpipe

/-- What is written to a child changes nothing else. -/
theorem runsAs_sendToChild : (s.sendToChild peerId cmd).2.runsAs c = s.runsAs c := by
  unfold sendToChild
  split
  next => rfl
  next c' =>
    unfold runsAs
    dsimp only
    rw [getElem?_modify_child]
    split
    next => cases s.procs[c]? <;> rfl
    next => rfl

theorem key_sendToChild :
    (s.sendToChild peerId cmd).2.procs[c]?.map Child.key = s.procs[c]?.map Child.key := by
  unfold sendToChild
  split
  next => rfl
  next c' =>
    dsimp only
    rw [getElem?_modify_child]
    split
    next => cases s.procs[c]? <;> rfl
    next => rfl

/-- Nothing but where it is written changes. -/
theorem Registered.sendToChild (h : s.Registered) :
    (s.sendToChild peerId cmd).2.Registered ∧
      ∀ p, (s.sendToChild peerId cmd).2.Sends p ↔ s.Sends p := by
  have hmaps : (s.sendToChild peerId cmd).2.children = s.children ∧
      (s.sendToChild peerId cmd).2.stdins = s.stdins := by
    unfold Windows.sendToChild
    split <;> exact ⟨rfl, rfl⟩
  refine ⟨⟨?_, ?_, ?_⟩, fun p => ?_⟩
  · intro c key hruns
    rw [hmaps.1]
    rw [runsAs_sendToChild] at hruns
    exact h.running c key hruns
  · intro key c hlookup
    rw [hmaps.1] at hlookup
    rw [key_sendToChild]
    exact h.child key c hlookup
  · intro p c hlookup
    rw [hmaps.2] at hlookup
    rw [key_sendToChild]
    exact h.pipe p c hlookup
  · have hwrites : (s.sendToChild peerId cmd).2.writesTo p = s.writesTo p := by
      unfold writesTo
      rw [hmaps.2]
      congr 1
      funext c
      rw [running_eq, running_eq, runsAs_sendToChild]
    unfold Sends
    simp only [runsAs_sendToChild, hwrites]

/-- The key that is closed has a child of the peer, or the peer has none. -/
theorem finds_cases {keyToRemove : Option WindowKey} (h : s.Registered)
    (hfinds : s.Finds peerId keyToRemove) :
    (keyToRemove = none ∧ ∀ c t, s.runsAs c ≠ some (peerId, t)) ∨
      ∃ key c, keyToRemove = some key ∧ key.1 = peerId ∧ s.children.lookup key = some c ∧
        s.closeRemoteConnection peerId keyToRemove =
          { s.stop c with
            children := s.children.erase key
            stdins := s.stdins.erase peerId } := by
  cases keyToRemove with
  | none =>
    refine .inl ⟨rfl, fun c t hruns => ?_⟩
    have hlookup := h.running c _ hruns
    refine hfinds (peerId, t) ?_ rfl
    rw [← AList.mem_keys, ← AList.lookup_isSome, hlookup]
    rfl
  | some key =>
    obtain ⟨hmem, hpeer⟩ := hfinds
    rw [← AList.mem_keys, ← AList.lookup_isSome, Option.isSome_iff_exists] at hmem
    obtain ⟨c, hlookup⟩ := hmem
    refine .inr ⟨key, c, rfl, hpeer, hlookup, ?_⟩
    unfold closeRemoteConnection
    dsimp only
    rw [hlookup]
    rfl

theorem Registered.close {keyToRemove : Option WindowKey} (h : s.Registered)
    (hfinds : s.Finds peerId keyToRemove) :
    (s.closeRemoteConnection peerId keyToRemove).Registered := by
  rcases finds_cases h hfinds with ⟨rfl, -⟩ | ⟨key, c, -, -, hlookup, heq⟩
  · exact h
  · rw [heq]
    have hstopped : ∀ c', (s.stop c).children.lookup key = some c' →
        (s.stop c).runsAs c' = none := by
      intro c' hc'
      cases hlookup.symm.trans hc'
      rw [runsAs_stop, if_pos rfl]
    have herased := (h.stop c).erase hstopped
    exact ⟨herased.running, herased.child, fun p c' hpipe =>
      herased.pipe p c' (lookup_erase_eq_some hpipe).2⟩

/-- One window is closed, and the pipe of all of them. -/
theorem close_iff {keyToRemove : Option WindowKey} (h : s.Registered)
    (hsends : ∀ p, s.Sends p) (hfinds : s.Finds peerId keyToRemove) :
    ((∀ c t, (s.closeRemoteConnection peerId keyToRemove).runsAs c ≠ some (peerId, t)) ∧
      ∀ p, (s.closeRemoteConnection peerId keyToRemove).Sends p) ↔
      s.Foreseen (.closeRemoteConnection peerId keyToRemove) := by
  rcases finds_cases h hfinds with ⟨rfl, hnone⟩ | ⟨key, c, rfl, hpeer, hlookup, heq⟩
  · exact iff_of_true ⟨hnone, hsends⟩ fun c t hruns => absurd hruns (hnone c t)
  · have hruns_iff (c' : Nat) : (s.closeRemoteConnection peerId (some key)).runsAs c' =
        if c' = c then none else s.runsAs c' := by
      rw [heq, ← runsAs_stop]
      rfl
    constructor
    · rintro ⟨hgone, -⟩ c' t hruns
      by_cases hsame : c' = c
      · subst hsame
        have hkey := (h.child key c' hlookup).symm.trans (key_of_runsAs hruns)
        exact hkey
      · refine absurd ?_ (hgone c' t)
        rwa [hruns_iff, if_neg hsame]
    · intro hforeseen
      have hgone (c' : Nat) (t : Text) :
          (s.closeRemoteConnection peerId (some key)).runsAs c' ≠ some (peerId, t) := by
        intro hruns
        rw [hruns_iff] at hruns
        split at hruns
        next => cases hruns
        next hother =>
          cases hforeseen c' t hruns
          cases hlookup.symm.trans (h.running c' _ hruns)
          exact hother rfl
      refine ⟨hgone, fun p c' t hruns => ?_⟩
      have hother : p ≠ peerId := by
        rintro rfl
        exact hgone c' t hruns
      rw [hruns_iff] at hruns
      split at hruns
      next => cases hruns
      next =>
        obtain ⟨c₁, t₁, hwrites, hruns₁⟩ := hsends p c' t hruns
        have hkept : c₁ ≠ c := by
          rintro rfl
          exact hother ((h.peer_of_writesTo hwrites hlookup).symm.trans hpeer)
        have hruns₂ : (s.closeRemoteConnection peerId (some key)).runsAs c₁ = some (p, t₁) := by
          rwa [hruns_iff, if_neg hkept]
        refine ⟨c₁, t₁, writesTo_eq_some_iff.mpr ⟨?_, ?_⟩, hruns₂⟩
        · rw [heq]
          exact (AList.lookup_erase_ne hother).trans (writesTo_eq_some_iff.mp hwrites).1
        · rw [running_eq, hruns₂]
          rfl

/-- Every child that is kept is listed as alive. -/
theorem listed_iff : (∀ id t, (id, t, true) ∈ s.listActiveConnections →
      ∀ c, s.children.lookup (id, t) = some c → s.running c = true) ↔
    s.Foreseen .listActiveConnections := by
  constructor
  · intro hall key c hlookup
    refine hall key.1 key.2 (List.mem_map.mpr ⟨⟨key, c⟩, ?_, rfl⟩) c hlookup
    exact AList.mem_lookup_iff.mp hlookup
  · intro hall id t _ c hlookup
    exact hall (id, t) c hlookup

/-! ## Every run -/

variable {s' : Windows} {a : WindowStep}

theorem Registered.next (h : s.Registered) (hs : s.next a = some s') : s'.Registered := by
  cases a with
  | newRemote id remoteType spawned =>
    cases hs
    have hnext := h.newRemote id remoteType spawned
    exact ⟨hnext.running, hnext.child, hnext.pipe⟩
  | sendToChild peerId cmd =>
    cases hs
    obtain ⟨hnext, -⟩ : (s.sendToChild peerId cmd).2.Registered ∧ _ := h.sendToChild
    exact ⟨hnext.running, hnext.child, hnext.pipe⟩
  | closeRemoteConnection peerId keyToRemove =>
    simp only [Windows.next, Option.ite_none_right_eq_some] at hs
    obtain ⟨hfinds, hs⟩ := hs
    cases hs
    have hnext := h.close hfinds
    exact ⟨hnext.running, hnext.child, hnext.pipe⟩
  | listActiveConnections =>
    cases hs
    exact ⟨h.running, h.child, h.pipe⟩
  | exit c =>
    simp only [Windows.next, Option.ite_none_right_eq_some] at hs
    cases hs.2
    have hnext := h.stop c
    exact ⟨hnext.running, hnext.child, hnext.pipe⟩

/-- A step whose outcome is not looked at serves as long as commands get where they should. -/
theorem served_iff_sends {s : Windows} :
    Served { s with last := .other } ↔ ∀ peerId, s.Sends peerId := by
  refine ⟨fun h => h.sends, fun h => ⟨h, ?_, ?_⟩⟩
  · rintro peerId ⟨⟩
  · rintro l ⟨⟩

/-- **One step.** -/
theorem served_next_iff (h : s.Registered) (hserved : s.Served) (hs : s.next a = some s') :
    s'.Served ↔ s.Foreseen a := by
  have hsends := hserved.sends
  cases a with
  | newRemote id remoteType spawned =>
    cases hs
    exact served_iff_sends.trans (sends_newRemote_iff h hsends id remoteType spawned)
  | sendToChild peerId cmd =>
    cases hs
    refine iff_of_true (served_iff_sends.mpr fun p => ?_) trivial
    exact (h.sendToChild.2 p).mpr (hsends p)
  | closeRemoteConnection peerId keyToRemove =>
    simp only [Windows.next, Option.ite_none_right_eq_some] at hs
    obtain ⟨hfinds, hs⟩ := hs
    cases hs
    rw [← close_iff h hsends hfinds]
    constructor
    · intro hs'
      exact ⟨hs'.closed peerId rfl, hs'.sends⟩
    · rintro ⟨hgone, hall⟩
      refine ⟨hall, ?_, ?_⟩
      · rintro p ⟨⟩
        exact hgone
      · rintro l ⟨⟩
  | listActiveConnections =>
    cases hs
    rw [← listed_iff]
    constructor
    · intro hs'
      exact hs'.listed _ rfl
    · intro hlisted
      refine ⟨hsends, ?_, ?_⟩
      · rintro p ⟨⟩
      · rintro l ⟨⟩
        exact hlisted
  | exit c =>
    simp only [Windows.next, Option.ite_none_right_eq_some] at hs
    obtain ⟨hrunning, hs⟩ := hs
    cases hs
    rw [served_iff_sends]
    refine forall_congr' fun peerId => (sends_stop_iff (hsends peerId)).trans ?_
    rw [writesTo_eq_some_iff]
    exact ⟨fun honly hpipe => honly ⟨hpipe, hrunning⟩, fun honly hwrites => honly hwrites.1⟩

theorem registered_new : new.Registered ∧ new.Served := by
  refine ⟨⟨?_, ?_, ?_⟩, ?_, ?_, ?_⟩
  · rintro c key ⟨⟩
  · rintro key c ⟨⟩
  · rintro peerId c ⟨⟩
  · rintro peerId c t ⟨⟩
  · rintro peerId ⟨⟩
  · rintro l ⟨⟩

/-- The calls do what they are for all along a run exactly when no step of it finds a window it does
not see: no child whose pipe is kept goes while another of its peer runs, no peer is closed that has
a window under another key, and none is listed that has exited. -/
theorem windows_served_iff {tr : List (Windows × WindowStep)} (h : windows.Trace tr s) :
    System.Always Served tr s ↔ ∀ x ∈ tr, x.1.Foreseen x.2 := by
  refine h.always_iff (I := fun s => s.Registered ∧ s.Served) ?_ And.right ?_ ?_
  · rintro s rfl
    exact registered_new
  · rintro s a s' ⟨hreg, hserved⟩ hs hforeseen
    exact ⟨hreg.next hs, (served_next_iff hreg hserved hs).mpr hforeseen⟩
  · rintro s a s' ⟨hreg, hserved⟩ hs hserved'
    exact (served_next_iff hreg hserved hs).mp hserved'

/-- A window is opened, and is sent a command, listed and closed. -/
def oneWindow : List WindowStep :=
  [.newRemote ['7'] "connect".toList true, .sendToChild ['7'] "dismiss".toList,
    .listActiveConnections, .closeRemoteConnection ['7'] (some (['7'], "connect".toList))]

theorem windows_served_oneWindow : ∃ tr s, windows.Trace tr s ∧ tr.map Prod.snd = oneWindow ∧
    System.Always Served tr s := by
  have hstart : windows.Trace [] new := .start rfl
  have hopened := hstart.snoc
    (show Windows.next _ (.newRemote ['7'] "connect".toList true) = some _ from rfl)
  have hsent := hopened.snoc
    (show Windows.next _ (.sendToChild ['7'] "dismiss".toList) = some _ from rfl)
  have hlisted := hsent.snoc (show Windows.next _ .listActiveConnections = some _ from rfl)
  have hclosed := hlisted.snoc (show Windows.next _
    (.closeRemoteConnection ['7'] (some (['7'], "connect".toList))) = some _ from rfl)
  refine ⟨_, _, hclosed, rfl, (windows_served_iff hclosed).mpr ?_⟩
  refine List.forall_mem_cons.mpr ⟨?_, List.forall_mem_cons.mpr ⟨trivial,
    List.forall_mem_cons.mpr ⟨?_, List.forall_mem_singleton.mpr ?_⟩⟩⟩
  · rintro ⟨⟩
  · intro key c hlookup
    rcases lookup_insert_eq_some hlookup with ⟨-, rfl⟩ | ⟨-, hnone⟩
    · rfl
    · cases hnone
  · intro c t hruns
    cases c with
    | zero =>
      cases hruns
      rfl
    | succ c => cases hruns

/-- A second window is opened for the peer, and exits. -/
def secondWindow : List WindowStep :=
  [.newRemote ['7'] "connect".toList true, .newRemote ['7'] "file-transfer".toList true, .exit 1]

/-- The first one still runs, and gets no command any more. -/
theorem second_window_takes_pipe : ¬ ∀ s : Windows, windows.Reachable s → s.Served := by
  intro hall
  obtain ⟨s, hrun, hruns, hwrites⟩ : ∃ s, windows.Run secondWindow s ∧
      s.runsAs 0 = some (['7'], "connect".toList) ∧ s.writesTo ['7'] = none :=
    ⟨_, .of_foldlM (fun hs => hs) (.start rfl) rfl, rfl, rfl⟩
  obtain ⟨c', t', hwrites', -⟩ := (hall s ⟨_, hrun⟩).sends ['7'] 0 _ hruns
  cases hwrites.symm.trans hwrites'

end Windows

end HopToDesk.Client

/-!
## What a window makes of its commands

A line is recognised as the command that was sent if it is one line, and white space at its end is
none of it (`ofLine_cmd`). Only the text of a chat message can be otherwise: the buttons are from a
list (`isValid_single`). So the window gets the commands that were sent unless there is such a
message among them (`commands_recognised_iff`).
-/

namespace HopToDesk.Client

open Kit Kit.Text ChildCommands

/-- A text that a line can hold to its end. -/
def SingleLine (t : Text) : Prop := '\n' ∉ t ∧ endsBlank t = false

instance (t : Text) : Decidable (SingleLine t) :=
  inferInstanceAs (Decidable ('\n' ∉ t ∧ endsBlank t = false))

/-- The command that the window is to recognise, if the tool sends any. -/
def ToolCall.command : ToolCall → Option ChildCommand
  | .dismissDialog => some .dismiss
  | .queryChildState => some .queryState
  | .clickToolbarButton buttonId => if isValid buttonId then some (.clickButton buttonId) else none
  | .sendChatMessage text => some (.chat text)

/-- A chat message has a text that a line can hold. -/
def ToolCall.Single : ToolCall → Prop
  | .sendChatMessage text => SingleLine text
  | _ => True

/-! ### One line -/

section line

variable {p t cmd : Text} {command : ChildCommand} {buttonId : Text}

theorem SingleLine.append (hp : SingleLine p) (ht : SingleLine t) : SingleLine (p ++ t) := by
  refine ⟨?_, (endsBlank_append hp.2).trans ht.2⟩
  rw [List.mem_append, not_or]
  exact ⟨hp.1, ht.1⟩

theorem isValid_single (h : isValid buttonId = true) : SingleLine buttonId := by
  have hbuttons : ∀ t ∈ validButtons, SingleLine t := by decide
  have hmenus : ∀ menu ∈ ["action".toList, "display".toList, "keyboard".toList],
      SingleLine (menu ++ [':']) := by decide
  have hitems : ∀ t ∈ validActionItems ++ validDisplayItems ++ validKeyboardItems,
      SingleLine t := by decide
  unfold isValid at h
  cases hrest : buttonId.dropWhile (· != ':') with
  | nil =>
    rw [hrest] at h
    exact hbuttons _ (List.contains_iff_mem.mp h)
  | cons c item =>
    have hc : c = ':' := by
      have hhead := List.head?_dropWhile_not (· != ':') buttonId
      rw [hrest] at hhead
      simpa using hhead
    have hsplit : buttonId = buttonId.takeWhile (· != ':') ++ [':'] ++ item := by
      have happend := List.takeWhile_append_dropWhile (p := (· != ':')) (l := buttonId)
      rw [hrest, hc] at happend
      rw [List.append_assoc, List.singleton_append, happend]
    rw [hrest] at h
    dsimp only at h
    rw [hsplit]
    split_ifs at h with haction hdisplay hkeyboard
    all_goals refine SingleLine.append (hmenus _ ?_) (hitems _ ?_)
    · simp [haction]
    · simp [List.contains_iff_mem.mp h]
    · simp [hdisplay]
    · simp [List.contains_iff_mem.mp h]
    · simp [hkeyboard]
    · simp [List.contains_iff_mem.mp h]

theorem ofLine_chat (h : SingleLine t) :
    ChildCommand.ofLine ("chat:".toList ++ t) = some (.chat t) := by
  have htrim : trim ("chat:".toList ++ t) = "chat:".toList ++ t :=
    trim_cons_eq_self (by decide) (SingleLine.append (p := "chat:".toList) (by decide) h).2
  unfold ChildCommand.ofLine
  rw [htrim]
  rfl

theorem ofLine_clickButton (h : SingleLine t) :
    ChildCommand.ofLine ("click_button:".toList ++ t) = some (.clickButton t) := by
  have htrim : trim ("click_button:".toList ++ t) = "click_button:".toList ++ t :=
    trim_cons_eq_self (by decide) (SingleLine.append (p := "click_button:".toList) (by decide) h).2
  unfold ChildCommand.ofLine
  rw [htrim]
  rfl

/-- **What a tool sends is one line, and is recognised.** -/
theorem ofLine_cmd {call : ToolCall} (hcmd : call.cmd = .ok cmd) (hsingle : call.Single) :
    SingleLine cmd ∧ ChildCommand.ofLine cmd = call.command := by
  cases call with
  | dismissDialog =>
    cases hcmd
    exact ⟨by decide, by decide⟩
  | queryChildState =>
    cases hcmd
    exact ⟨by decide, by decide⟩
  | clickToolbarButton buttonId =>
    by_cases hvalid : isValid buttonId = true
    · simp only [ToolCall.cmd, hvalid, if_true, Except.ok.injEq] at hcmd
      have hbutton := isValid_single hvalid
      rw [← hcmd, ofLine_clickButton hbutton]
      exact ⟨SingleLine.append (by decide) hbutton, (if_pos hvalid).symm⟩
    · simp only [ToolCall.cmd, hvalid] at hcmd
      cases hcmd
  | sendChatMessage text =>
    cases hcmd
    exact ⟨SingleLine.append (by decide) hsingle, ofLine_chat hsingle⟩

theorem command_of_error {call : ToolCall} {msg : Text} (hcmd : call.cmd = .error msg) :
    call.command = none := by
  cases call with
  | clickToolbarButton buttonId =>
    by_cases hvalid : isValid buttonId = true
    · simp only [ToolCall.cmd, hvalid, if_true] at hcmd
      cases hcmd
    · exact if_neg hvalid
  | _ => cases hcmd

/-- A chat message that is recognised is the end of one line. -/
theorem single_of_ofLine (hline : '\n' ∉ t) (h : ChildCommand.ofLine t = some (.chat cmd)) :
    SingleLine cmd := by
  unfold ChildCommand.ofLine at h
  dsimp only at h
  split_ifs at h with hdismiss hquery hclick hchat hpassword
  · cases h
  · cases h
  · cases h
  · obtain ⟨rest, hrest⟩ := List.isPrefixOf_iff_prefix.mp hchat
    rw [← hrest, List.drop_left] at h
    obtain rfl : rest = cmd := by
      cases h
      rfl
    constructor
    · exact fun hmem => hline (mem_of_mem_trim (hrest ▸ List.mem_append_right _ hmem))
    · rw [← endsBlank_append (p := "chat:".toList) (by decide), hrest]
      exact endsBlank_trim
  · cases h

end line

/-! ### All of them -/

/-- The lines that calls write. -/
def sentLines (calls : List ToolCall) : List Text := calls.filterMap fun call => call.cmd.toOption

theorem foldl_run (calls : List ToolCall) (pipe : Text) :
    calls.foldl ToolCall.run pipe = pipe ++ (sentLines calls).flatMap fun t => t ++ ['\n'] := by
  induction calls generalizing pipe with
  | nil => exact (List.append_nil _).symm
  | cons call calls ih =>
    unfold sentLines at ih ⊢
    rw [List.foldl_cons, ih, ToolCall.run, List.filterMap_cons]
    cases call.cmd with
    | ok cmd =>
      dsimp only [Except.toOption]
      rw [sendToChild, List.append_assoc, List.flatMap_cons]
    | error msg => rfl

theorem written_eq (calls : List ToolCall) :
    written calls = (sentLines calls).flatMap fun t => t ++ ['\n'] :=
  (foldl_run calls []).trans (List.nil_append _)

theorem recognised_written {calls : List ToolCall} (h : ∀ call ∈ calls, call.Single) :
    recognised (written calls) = calls.filterMap ToolCall.command := by
  have hsingle : ∀ t ∈ sentLines calls, SingleLine t := by
    intro t ht
    obtain ⟨call, hcall, ht⟩ := List.mem_filterMap.mp ht
    cases hcmd : call.cmd with
    | ok cmd =>
      rw [hcmd] at ht
      cases ht
      exact (ofLine_cmd hcmd (h call hcall)).1
    | error msg =>
      rw [hcmd] at ht
      cases ht
  have hlines : lines (written calls) = sentLines calls := by
    rw [written_eq, lines_flatMap fun t ht => (hsingle t ht).1,
      List.map_congr_left fun t ht => endLine_eq_self (hsingle t ht).2, List.map_id']
  unfold recognised
  rw [hlines, sentLines, List.filterMap_filterMap]
  refine List.filterMap_congr fun call hcall => ?_
  cases hcmd : call.cmd with
  | ok cmd => exact (ofLine_cmd hcmd (h call hcall)).2
  | error msg => exact (command_of_error hcmd).symm

/-- **A chat message that the window recognises was one line.** -/
theorem single_of_mem_recognised {stdin text : Text}
    (h : ChildCommand.chat text ∈ recognised stdin) : SingleLine text := by
  obtain ⟨line, hline, hchat⟩ := List.mem_filterMap.mp h
  exact single_of_ofLine (not_mem_of_mem_lines hline) hchat

/-- What the window keeps is what the recognised commands ask for, in their order. -/
theorem startStdinCommandReader_eq (s : McpRequests) (stdin : Text) :
    s.startStdinCommandReader stdin = (recognised stdin).foldl McpRequests.store s := by
  unfold McpRequests.startStdinCommandReader recognised
  rw [List.foldl_filterMap]
  congr 1
  funext s line
  unfold McpRequests.readLine
  cases ChildCommand.ofLine line <;> rfl

/-- The window recognises the commands that were sent exactly when the text of each chat message is
one line that does not end in white space. -/
theorem commands_recognised_iff (calls : List ToolCall) :
    recognised (written calls) = calls.filterMap ToolCall.command ↔
      ∀ text, ToolCall.sendChatMessage text ∈ calls → SingleLine text := by
  constructor
  · intro hall text hcall
    have hchat : ChildCommand.chat text ∈ recognised (written calls) := by
      rw [hall]
      exact List.mem_filterMap.mpr ⟨_, hcall, rfl⟩
    exact single_of_mem_recognised hchat
  · intro hsingle
    refine recognised_written fun call hcall => ?_
    cases call with
    | sendChatMessage text => exact hsingle text hcall
    | _ => trivial

/-- The second line of a message closes a dialog. -/
theorem chat_dismisses : ¬ ∀ calls : List ToolCall,
    recognised (written calls) = calls.filterMap ToolCall.command := by
  intro hall
  have hchat := hall [.sendChatMessage ['o', 'k', '\n', 'd', 'i', 's', 'm', 'i', 's', 's']]
  exact absurd hchat (by decide)

end HopToDesk.Client
