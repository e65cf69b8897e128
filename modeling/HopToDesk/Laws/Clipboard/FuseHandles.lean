import HopToDesk.Laws.Clipboard.FuseTree

/-!
# The handles of the mount

What counts of a server is a table: for each inode its handles, and the counter. An operation adds a
handle, takes one out, clears the table, or leaves it as it is (`Moves`). As long as the counter has
not come round, a new handle is greater than all before it, so that every list stays sorted and the
search finds what is in it.

The counter comes round after 2^64 handles, and then gives the same ones again.
-/

set_option autoImplicit false

namespace HopToDesk.Clipboard.Unix

open Kit UnixPath

/-! ## The table -/

namespace FuseServer

/-- The handles of an inode. -/
def handlersAt (s : FuseServer) (ino : Nat) : List Nat :=
  ((s.entry ino).map (·.fileHandlers.handlers)).getD []

/-- Every child is a node, and no node is being collected. -/
structure Shown (s : FuseServer) : Prop where
  closed : Closed s.files
  unmarked : ∀ {ino node}, s.entry ino = some node → node.fileHandlers.marked = false

variable {s : FuseServer} {ino : Nat} {node : FuseNode} {handles : FileHandles}

theorem entry_setHandlers (h : s.entry ino = some node) (ino' : Nat) :
    (s.setHandlers ino handles).entry ino' =
      if ino' = ino then some { node with fileHandlers := handles } else s.entry ino' := by
  cases ino with
  | zero => cases h
  | succ p =>
    cases ino' with
    | zero => rfl
    | succ p' =>
      rw [entry_succ] at h
      simp only [entry_succ, setHandlers, Nat.add_sub_cancel, List.getElem?_modify,
        Nat.add_right_cancel_iff]
      split
      next heq =>
        rw [if_pos heq.symm, ← heq, h]
        rfl
      next hne =>
        rw [if_neg (Ne.symm hne)]
        exact Option.map_id'

theorem handlersAt_eq (h : s.entry ino = some node) :
    s.handlersAt ino = node.fileHandlers.handlers := by
  rw [handlersAt, h]
  rfl

theorem handlersAt_none (h : s.entry ino = none) : s.handlersAt ino = [] := by
  rw [handlersAt, h]
  rfl

theorem handlersAt_setHandlers (h : s.entry ino = some node) :
    (s.setHandlers ino handles).handlersAt =
      Function.update s.handlersAt ino handles.handlers := by
  funext ino'
  rw [handlersAt, entry_setHandlers h]
  rcases eq_or_ne ino' ino with rfl | hne
  · rw [if_pos rfl, Function.update_self]
    rfl
  · rw [if_neg hne, Function.update_of_ne hne]
    rfl

theorem Shown.setHandlers (h : s.Shown) (hentry : s.entry ino = some node)
    (hmarked : handles.marked = false) : (s.setHandlers ino handles).Shown where
  closed x hx c hc := by
    obtain ⟨p, hp⟩ := List.mem_iff_getElem?.mp hx
    have hlength : (s.setHandlers ino handles).files.length = s.files.length :=
      List.length_modify ..
    rw [hlength]
    rw [← entry_succ, entry_setHandlers hentry] at hp
    split at hp
    · obtain rfl := Option.some.inj hp
      exact h.closed node (mem_of_entry hentry) c hc
    · exact h.closed x (mem_of_entry hp) c hc
  unmarked {ino' x} hx := by
    rw [entry_setHandlers hentry] at hx
    split at hx
    · obtain rfl := Option.some.inj hx
      exact hmarked
    · exact h.unmarked hx

/-- The check of a handle searches the handles of the inode. -/
theorem finds_eq (ino fh : Nat) :
    s.finds ino fh = (binarySearch (s.handlersAt ino) fh).isOk := by
  rw [finds, handlersAt]
  cases s.entry ino with
  | none => rfl
  | some node => rfl

/-! ## What the operations answer -/

theorem release_ok_iff (fh : Nat) : (s.release ino fh).1 = .ok () ↔ s.finds ino fh = true := by
  unfold release finds
  cases s.entry ino with
  | none => simp
  | some node =>
    simp only [FileHandles.unregister, FileHandles.haveHandler]
    cases binarySearch node.fileHandlers.handlers fh with
    | ok idx => simp [Except.isOk, Except.toBool]
    | error idx => simp [Except.isOk, Except.toBool]

theorem releasedir_ok_iff (h : s.entry ino = some node) (hkind : node.attributes.kind = .directory)
    (fh : Nat) : (s.releasedir ino fh).1 = .ok () ↔ s.finds ino fh = true := by
  unfold releasedir finds
  rw [h]
  dsimp only
  rw [if_neg (not_not_intro hkind)]
  cases hfound : node.fileHandlers.haveHandler fh with
  | false => simp
  | true =>
    rw [if_pos rfl]
    split
    · simp
    · simp

theorem readdir_eq_badf_iff (h : s.entry ino = some node) (fh offset : Nat) :
    s.readdir ino fh offset = some (.error .ebadf) ↔ s.finds ino fh = false := by
  unfold readdir finds
  rw [h]
  dsimp only
  cases node.fileHandlers.haveHandler fh with
  | false => simp
  | true =>
    rw [if_neg (not_not_intro rfl)]
    split
    · simp
    · simp

theorem read_eq_badf_iff (h : s.entry ino = some node)
    (readNode : FuseNode → Except PathStr (List UInt8)) (fh : Nat) :
    s.read readNode ino fh = .error .ebadf ↔ s.finds ino fh = false := by
  unfold read finds
  rw [h]
  dsimp only
  cases node.fileHandlers.haveHandler fh with
  | false => simp
  | true =>
    rw [if_neg (not_not_intro rfl)]
    split
    · simp
    · split
      · simp
      · split
        · simp
        · simp

/-- A new handle is the counter, and goes to the end of the list. -/
theorem opened_eq (h : s.Shown) (hentry : s.entry ino = some node) :
    ∃ s', s.opened ino node = some (.ok s.fileHandleCounter, s') ∧ s'.Shown ∧
      s'.fileHandleCounter = (s.fileHandleCounter + 1) % 2 ^ 64 ∧
      s'.handlersAt =
        Function.update s.handlersAt ino (s.handlersAt ino ++ [s.fileHandleCounter]) ∧
      ∀ ino', (s'.entry ino').map (·.attributes) = (s.entry ino').map (·.attributes) := by
  have hmarked := h.unmarked hentry
  have hentry' : s.allocFd.2.entry ino = some node := hentry
  have hshown : s.allocFd.2.Shown := ⟨h.closed, h.unmarked⟩
  refine ⟨s.allocFd.2.setHandlers ino { node.fileHandlers with
    handlers := node.fileHandlers.handlers ++ [s.fileHandleCounter] }, ?_,
    hshown.setHandlers hentry' hmarked, rfl, ?_, ?_⟩
  · simp only [opened, hmarked, allocFd, FileHandles.addHandler]
    rfl
  · rw [handlersAt_setHandlers hentry', ← handlersAt_eq hentry]
    rfl
  · intro ino'
    rw [entry_setHandlers hentry']
    split
    next heq =>
      rw [heq, hentry]
      rfl
    next => rfl

/-- What is taken back goes out of the list. -/
theorem unregister_eq (h : s.Shown) (hentry : s.entry ino = some node) (fh : Nat) :
    (∃ handles idx, node.fileHandlers.unregister fh = some handles ∧
      (s.setHandlers ino handles).Shown ∧ binarySearch (s.handlersAt ino) fh = .ok idx ∧
      (s.setHandlers ino handles).handlersAt =
        Function.update s.handlersAt ino ((s.handlersAt ino).eraseIdx idx)) ∨
      (node.fileHandlers.unregister fh = none ∧ node.fileHandlers.haveHandler fh = false) := by
  unfold FileHandles.unregister FileHandles.haveHandler
  rw [handlersAt_eq hentry]
  cases hfound : binarySearch node.fileHandlers.handlers fh with
  | ok idx =>
    refine .inl ⟨_, idx, rfl, h.setHandlers hentry (h.unmarked hentry), rfl, ?_⟩
    rw [handlersAt_setHandlers hentry]
  | error idx => exact .inr ⟨rfl, rfl⟩

end FuseServer

/-! ## What an operation does to the table -/

namespace Mount

variable {s s' : Mount}

/-- What a step does to the table, and what is noted of it. -/
inductive Moves (s s' : Mount) : Prop
  | stays (hcounter : s'.server.fileHandleCounter = s.server.fileHandleCounter)
      (htable : s'.server.handlersAt = s.server.handlersAt) (hnotes : s'.notes = s.notes)
  | opens (ino : Nat)
      (hcounter : s'.server.fileHandleCounter = (s.server.fileHandleCounter + 1) % 2 ^ 64)
      (htable : s'.server.handlersAt = Function.update s.server.handlersAt ino
        (s.server.handlersAt ino ++ [s.server.fileHandleCounter]))
      (hnotes : s'.notes = s.notes ++ [.opened ino s.server.fileHandleCounter])
  | releases (ino fh : Nat) {idx : Nat}
      (hcounter : s'.server.fileHandleCounter = s.server.fileHandleCounter)
      (hfound : binarySearch (s.server.handlersAt ino) fh = .ok idx)
      (htable : s'.server.handlersAt = Function.update s.server.handlersAt ino
        ((s.server.handlersAt ino).eraseIdx idx))
      (hnotes : s'.notes = s.notes ++ [.released ino fh])
  | loads (hcounter : s'.server.fileHandleCounter = s.server.fileHandleCounter)
      (htable : s'.server.handlersAt = fun _ => []) (hnotes : s'.notes = s.notes ++ [.loaded])

theorem moves_same (hnotes : s'.notes = s.notes) (hserver : s'.server = s.server) : Moves s s' :=
  .stays (by rw [hserver]) (by rw [hserver]) hnotes

/-- What `open` and `opendir` come to: an error of their checks, or a new handle. -/
def Opening (server : FuseServer) (ino : Nat)
    (result : Option (Except Errno Nat × FuseServer)) : Prop :=
  (∃ err, result = some (.error err, server)) ∨
    ∃ node, server.entry ino = some node ∧ result = server.opened ino node

theorem opening_openFile (server : FuseServer) (ino : Nat) :
    Opening server ino (server.openFile ino) := by
  unfold FuseServer.openFile
  cases hentry : server.entry ino with
  | none => exact .inl ⟨_, rfl⟩
  | some node =>
    dsimp only
    split
    · exact .inl ⟨_, rfl⟩
    · exact .inr ⟨node, hentry, rfl⟩

theorem opening_opendir (server : FuseServer) (ino : Nat) :
    Opening server ino (server.opendir ino) := by
  unfold FuseServer.opendir
  cases hentry : server.entry ino with
  | none => exact .inl ⟨_, rfl⟩
  | some node =>
    dsimp only
    split
    · exact .inl ⟨_, rfl⟩
    · exact .inr ⟨node, hentry, rfl⟩

theorem moves_opening (h : s.server.Shown) {ino : Nat}
    {result : Option (Except Errno Nat × FuseServer)} (hresult : Opening s.server ino result) :
    ∃ s', (result.map fun (r, server) =>
        (⟨server, s.notes ++ noted (.opened ino) r⟩ : Mount)) = some s' ∧
      s'.server.Shown ∧ Moves s s' := by
  rcases hresult with ⟨err, rfl⟩ | ⟨node, hentry, rfl⟩
  · exact ⟨_, rfl, h, moves_same (List.append_nil _) rfl⟩
  · obtain ⟨server, hopened, hshown, hcounter, htable, -⟩ := FuseServer.opened_eq h hentry
    rw [hopened]
    exact ⟨_, rfl, hshown, .opens ino hcounter htable rfl⟩

theorem moves_openFile (h : s.server.Shown) (ino : Nat) :
    ∃ s', s.next (.openFile ino) = some s' ∧ s'.server.Shown ∧ Moves s s' :=
  moves_opening h (opening_openFile s.server ino)

theorem moves_opendir (h : s.server.Shown) (ino : Nat) :
    ∃ s', s.next (.opendir ino) = some s' ∧ s'.server.Shown ∧ Moves s s' :=
  moves_opening h (opening_opendir s.server ino)

theorem moves_release (h : s.server.Shown) (ino fh : Nat) :
    ∃ s', s.next (.release ino fh) = some s' ∧ s'.server.Shown ∧ Moves s s' := by
  refine ⟨⟨(s.server.release ino fh).2,
    s.notes ++ noted (fun () => .released ino fh) (s.server.release ino fh).1⟩, rfl, ?_⟩
  unfold FuseServer.release
  cases hentry : s.server.entry ino with
  | none => exact ⟨h, moves_same (List.append_nil _) rfl⟩
  | some node =>
    dsimp only
    rcases FuseServer.unregister_eq h hentry fh with
      ⟨handles, idx, hgone, hshown, hfound, htable⟩ | ⟨hnone, -⟩
    · rw [hgone]
      exact ⟨hshown, .releases ino fh rfl hfound htable rfl⟩
    · rw [hnone]
      exact ⟨h, moves_same (List.append_nil _) rfl⟩

theorem moves_releasedir (h : s.server.Shown) (ino fh : Nat) :
    ∃ s', s.next (.releasedir ino fh) = some s' ∧ s'.server.Shown ∧ Moves s s' := by
  refine ⟨⟨(s.server.releasedir ino fh).2,
    s.notes ++ noted (fun () => .released ino fh) (s.server.releasedir ino fh).1⟩, rfl, ?_⟩
  unfold FuseServer.releasedir
  cases hentry : s.server.entry ino with
  | none => exact ⟨h, moves_same (List.append_nil _) rfl⟩
  | some node =>
    dsimp only
    split
    · exact ⟨h, moves_same (List.append_nil _) rfl⟩
    · rcases FuseServer.unregister_eq h hentry fh with
        ⟨handles, idx, hgone, hshown, hfound, htable⟩ | ⟨hnone, hnot⟩
      · have hhave : node.fileHandlers.haveHandler fh = true := by
          rw [FileHandles.haveHandler, ← FuseServer.handlersAt_eq hentry, hfound]
          rfl
        rw [if_pos hhave, hgone]
        exact ⟨hshown, .releases ino fh rfl hfound htable rfl⟩
      · rw [if_neg (Bool.eq_false_iff.mp hnot)]
        exact ⟨h, moves_same (List.append_nil _) rfl⟩

theorem moves_init (h : s.server.Shown) (rand : Int32) :
    ∃ s', s.next (.init rand) = some s' ∧ s'.server.Shown ∧ Moves s s' := by
  refine ⟨⟨s.server.init rand, s.notes⟩, rfl, ?_⟩
  unfold FuseServer.init
  split
  next hfiles =>
    have hroot {ino : Nat} {node : FuseNode}
        (hentry : FuseServer.entry { s.server with files := [.newRoot rand] } ino = some node) :
        node = .newRoot rand := by
      rcases ino with _ | _ | p
      · cases hentry
      · exact (Option.some.inj hentry).symm
      · cases hentry
    have hentry (ino : Nat) : s.server.entry ino = none := by
      cases ino with
      | zero => rfl
      | succ p => rw [FuseServer.entry_succ, hfiles, List.getElem?_nil]
    refine ⟨⟨?_, fun hentry => by rw [hroot hentry]; rfl⟩, .stays rfl ?_ rfl⟩
    · intro node hnode c hc
      rw [List.mem_singleton.mp hnode] at hc
      cases hc
    · funext ino
      rw [FuseServer.handlersAt_none (hentry ino), FuseServer.handlersAt]
      cases hfound : FuseServer.entry { s.server with files := [.newRoot rand] } ino with
      | none => rfl
      | some node =>
        rw [hroot hfound]
        rfl
  next => exact ⟨h, moves_same rfl rfl⟩

theorem moves_loadFileList (h : s.server.Shown) (rand : Nat → Int32)
    (files : List FileDescription) :
    ∃ s', s.next (.loadFileList rand files) = some s' ∧ s'.server.Shown ∧ Moves s s' := by
  obtain ⟨r, hbuilt, htree⟩ := buildTree_cases rand files
  cases r with
  | error e =>
    refine ⟨s, ?_, h, moves_same rfl rfl⟩
    simp [next, FuseServer.loadFileList, hbuilt, noted]
  | ok tree =>
    have htree := htree tree rfl
    refine ⟨⟨{ s.server with
      files := tree, generation := (s.server.generation + 1) % 2 ^ 64 }, s.notes ++ [.loaded]⟩,
      ?_, ⟨htree.isTree.closed, ?_⟩, .loads rfl ?_ rfl⟩
    · simp [next, FuseServer.loadFileList, hbuilt, noted]
    · intro ino node hentry
      rw [htree.fileHandlers_eq (FuseServer.mem_of_entry hentry)]
      rfl
    · funext ino
      rw [FuseServer.handlersAt]
      cases hentry : FuseServer.entry { s.server with
          files := tree, generation := (s.server.generation + 1) % 2 ^ 64 } ino with
      | none => rfl
      | some node =>
        rw [Option.map_some, htree.fileHandlers_eq (FuseServer.mem_of_entry hentry)]
        rfl

/-- **No operation panics, and each does one thing to the table.** -/
theorem moves (h : s.server.Shown) (op : Operation) :
    ∃ s', s.next op = some s' ∧ s'.server.Shown ∧ Moves s s' := by
  cases op with
  | init rand => exact moves_init h rand
  | openFile ino => exact moves_openFile h ino
  | opendir ino => exact moves_opendir h ino
  | release ino fh => exact moves_release h ino fh
  | releasedir ino fh => exact moves_releasedir h ino fh
  | loadFileList rand files => exact moves_loadFileList h rand files

/-! ## Runs -/

section Notes

variable {notes : List Note} {ino fh ino' fh' : Nat}

theorem given_opened : given (notes ++ [.opened ino fh]) = given notes ++ [fh] :=
  List.filterMap_append

theorem given_released : given (notes ++ [.released ino fh]) = given notes := by
  rw [given, List.filterMap_append]
  exact List.append_nil _

theorem given_loaded : given (notes ++ [.loaded]) = given notes := by
  rw [given, List.filterMap_append]
  exact List.append_nil _

theorem live_opened : Live (notes ++ [.opened ino fh]) ino' fh' ↔
    (ino' = ino ∧ fh' = fh) ∨ Live notes ino' fh' := by
  have hafter (after : List Note) :
      (∀ note ∈ after ++ [Note.opened ino fh], note ≠ .loaded ∧ note ≠ .released ino' fh') ↔
        ∀ note ∈ after, note ≠ .loaded ∧ note ≠ .released ino' fh' := by
    rw [List.forall_mem_append]
    exact and_iff_left (List.forall_mem_singleton.mpr ⟨by simp, by simp⟩)
  rw [Live, since_snoc]
  simp only [hafter]
  constructor
  · rintro (⟨heq, -⟩ | ⟨-, h⟩)
    · cases heq
      exact .inl ⟨rfl, rfl⟩
    · exact .inr h
  · intro h
    by_cases heq : Note.opened ino fh = .opened ino' fh'
    · exact .inl ⟨heq, List.forall_mem_nil _⟩
    · refine .inr ⟨heq, h.resolve_left ?_⟩
      rintro ⟨rfl, rfl⟩
      exact heq rfl

theorem live_released : Live (notes ++ [.released ino fh]) ino' fh' ↔
    Live notes ino' fh' ∧ ¬ (ino' = ino ∧ fh' = fh) := by
  rw [Live, since_snoc]
  constructor
  · rintro (⟨heq, -⟩ | ⟨-, h⟩)
    · cases heq
    · refine ⟨h.imp fun after hall => (List.forall_mem_append.mp hall).1, ?_⟩
      rintro ⟨rfl, rfl⟩
      obtain ⟨before, a, after, -, -, -, hall⟩ := h
      exact (hall _ (List.mem_append_right _ List.mem_cons_self)).2 rfl
  · rintro ⟨h, hne⟩
    refine .inr ⟨by simp, h.imp fun after hall => List.forall_mem_append.mpr ⟨hall, ?_⟩⟩
    refine List.forall_mem_singleton.mpr ⟨by simp, fun heq => ?_⟩
    cases heq
    exact hne ⟨rfl, rfl⟩

theorem not_live_loaded : ¬ Live (notes ++ [.loaded]) ino' fh' := by
  rw [Live, since_snoc]
  rintro (⟨heq, -⟩ | ⟨-, before, a, after, -, -, -, hall⟩)
  · cases heq
  · exact (hall _ (List.mem_append_right _ List.mem_cons_self)).1 rfl

end Notes

/-- The handles given out are the numbers from zero on, the lists are sorted, and the table holds
what is live. -/
structure Handled (s : Mount) : Prop where
  counter : s.server.fileHandleCounter = (given s.notes).length % 2 ^ 64
  given : given s.notes = List.range (given s.notes).length
  sorted : ∀ ino, (s.server.handlersAt ino).Pairwise (· < ·)
  below : ∀ ino, ∀ fh ∈ s.server.handlersAt ino, fh < (Mount.given s.notes).length
  live : ∀ ino fh, fh ∈ s.server.handlersAt ino ↔ Live s.notes ino fh

theorem Handled.opens (h : Handled s) {ino : Nat}
    (hcount : (Mount.given s.notes).length < 2 ^ 64)
    (hcounter : s'.server.fileHandleCounter = (s.server.fileHandleCounter + 1) % 2 ^ 64)
    (htable : s'.server.handlersAt = Function.update s.server.handlersAt ino
      (s.server.handlersAt ino ++ [s.server.fileHandleCounter]))
    (hnotes : s'.notes = s.notes ++ [.opened ino s.server.fileHandleCounter]) : Handled s' := by
  have hfh : s.server.fileHandleCounter = (Mount.given s.notes).length := by
    rw [h.counter, Nat.mod_eq_of_lt hcount]
  have hlength : (Mount.given s'.notes).length = (Mount.given s.notes).length + 1 := by
    rw [hnotes, given_opened, List.length_append, List.length_singleton]
  refine { counter := ?_, given := ?_, sorted := ?_, below := ?_, live := ?_ }
  · rw [hcounter, hfh, hlength]
  · rw [hlength, List.range_succ, ← h.given, hnotes, given_opened, hfh]
  · intro ino'
    rw [htable]
    rcases eq_or_ne ino' ino with rfl | hne
    · rw [Function.update_self]
      refine List.pairwise_append.mpr ⟨h.sorted _, List.pairwise_singleton _ _, ?_⟩
      intro fh hfh' fh' heq
      rw [List.mem_singleton.mp heq, hfh]
      exact h.below _ fh hfh'
    · rw [Function.update_of_ne hne]
      exact h.sorted ino'
  · intro ino' fh hmem
    rw [hlength]
    rw [htable] at hmem
    rcases eq_or_ne ino' ino with rfl | hne
    · rw [Function.update_self] at hmem
      rcases List.mem_append.mp hmem with hmem | heq
      · exact (h.below _ fh hmem).trans (Nat.lt_succ_self _)
      · rw [List.mem_singleton.mp heq, hfh]
        exact Nat.lt_succ_self _
    · rw [Function.update_of_ne hne] at hmem
      exact (h.below _ fh hmem).trans (Nat.lt_succ_self _)
  · intro ino' fh
    rw [hnotes, live_opened, htable, ← h.live]
    rcases eq_or_ne ino' ino with rfl | hne
    · rw [Function.update_self, List.mem_append, List.mem_singleton, or_comm]
      simp
    · rw [Function.update_of_ne hne]
      simp [hne]

theorem Handled.releases (h : Handled s) {ino fh idx : Nat}
    (hcounter : s'.server.fileHandleCounter = s.server.fileHandleCounter)
    (hfound : binarySearch (s.server.handlersAt ino) fh = .ok idx)
    (htable : s'.server.handlersAt = Function.update s.server.handlersAt ino
      ((s.server.handlersAt ino).eraseIdx idx))
    (hnotes : s'.notes = s.notes ++ [.released ino fh]) : Handled s' := by
  have hgiven : Mount.given s'.notes = Mount.given s.notes := by rw [hnotes, given_released]
  have hsub (ino' : Nat) : (s'.server.handlersAt ino').Sublist (s.server.handlersAt ino') := by
    rw [htable]
    rcases eq_or_ne ino' ino with rfl | hne
    · rw [Function.update_self]
      exact List.eraseIdx_sublist _ _
    · rw [Function.update_of_ne hne]
  refine { counter := ?_, given := ?_, sorted := ?_, below := ?_, live := ?_ }
  · rw [hcounter, hgiven, h.counter]
  · rw [hgiven]
    exact h.given
  · exact fun ino' => (h.sorted ino').sublist (hsub ino')
  · intro ino' fh' hmem
    rw [hgiven]
    exact h.below ino' fh' ((hsub ino').mem hmem)
  · intro ino' fh'
    rw [hnotes, live_released, ← h.live, htable]
    rcases eq_or_ne ino' ino with rfl | hne
    · rw [Function.update_self, mem_eraseIdx_binarySearch (h.sorted _) hfound]
      simp
    · rw [Function.update_of_ne hne]
      simp [hne]

/-- One step, as long as the counter does not come round. -/
theorem Handled.step (h : Handled s) (hm : Moves s s')
    (hcount : (Mount.given s'.notes).length ≤ 2 ^ 64) : Handled s' := by
  cases hm with
  | stays hcounter htable hnotes =>
    exact {
      counter := by rw [hcounter, hnotes, h.counter]
      given := by rw [hnotes]; exact h.given
      sorted := by rw [htable]; exact h.sorted
      below := by rw [htable, hnotes]; exact h.below
      live := by rw [htable, hnotes]; exact h.live }
  | opens ino hcounter htable hnotes =>
    rw [hnotes, given_opened, List.length_append] at hcount
    exact h.opens hcount hcounter htable hnotes
  | releases ino fh hcounter hfound htable hnotes =>
    exact h.releases hcounter hfound htable hnotes
  | loads hcounter htable hnotes =>
    have hgiven : Mount.given s'.notes = Mount.given s.notes := by rw [hnotes, given_loaded]
    refine { counter := ?_, given := ?_, sorted := ?_, below := ?_, live := ?_ }
    · rw [hcounter, hgiven, h.counter]
    · rw [hgiven]
      exact h.given
    · intro ino
      rw [htable]
      exact List.Pairwise.nil
    · intro ino fh hmem
      rw [htable] at hmem
      cases hmem
    · intro ino fh
      rw [htable, hnotes]
      exact iff_of_false List.not_mem_nil not_live_loaded

theorem shown_start : start.server.Shown where
  closed node hnode := by cases hnode
  unmarked {ino node} h := by
    cases ino with
    | zero => cases h
    | succ p => cases h

theorem handled_start : Handled start where
  counter := rfl
  given := rfl
  sorted ino := by cases ino <;> exact List.Pairwise.nil
  below ino fh h := by cases ino <;> cases h
  live ino fh := by
    refine iff_of_false (by cases ino <;> exact List.not_mem_nil) ?_
    rintro ⟨before, a, after, heq, -⟩
    exact absurd heq.symm (List.append_ne_nil_of_right_ne_nil _ (List.cons_ne_nil _ _))

theorem given_length_mono (hm : Moves s s') :
    (Mount.given s.notes).length ≤ (Mount.given s'.notes).length := by
  cases hm with
  | stays _ _ hnotes => rw [hnotes]
  | opens ino _ _ hnotes =>
    rw [hnotes, given_opened, List.length_append]
    exact Nat.le_add_right _ _
  | releases ino fh _ _ _ hnotes => rw [hnotes, given_released]
  | loads _ _ hnotes => rw [hnotes, given_loaded]

theorem handled_of_run {ops : List Operation} (h : system.Run ops s) : s.server.Shown ∧
    ((Mount.given s.notes).length ≤ 2 ^ 64 → Handled s) := by
  refine h.invariant (I := fun s : Mount => s.server.Shown ∧
    ((Mount.given s.notes).length ≤ 2 ^ 64 → Handled s)) ?_ ?_
  · intro s hs
    obtain rfl : s = start := hs
    exact ⟨shown_start, fun _ => handled_start⟩
  · intro s op s' hs hstep
    obtain ⟨s'', hnext, hshown, hm⟩ := moves hs.1 op
    obtain rfl : s'' = s' := Option.some.inj (hnext.symm.trans hstep)
    exact ⟨hshown, fun hcount => (hs.2 ((given_length_mono hm).trans hcount)).step hm hcount⟩

/-- **A handle is found as long as it is live.** In every run in which at most 2^64 handles are
given out, none is given out twice and every list of handles is sorted. -/
theorem finds_iff_live {ops : List Operation} (h : system.Run ops s)
    (hcount : (given s.notes).length ≤ 2 ^ 64) :
    (∀ ino fh, s.server.finds ino fh = true ↔ Live s.notes ino fh) ∧ (given s.notes).Nodup ∧
      ∀ node ∈ s.server.files, node.fileHandlers.handlers.Pairwise (· < ·) := by
  have hs := (handled_of_run h).2 hcount
  refine ⟨?_, ?_, ?_⟩
  · intro ino fh
    rw [FuseServer.finds_eq, isOk_binarySearch (hs.sorted ino)]
    exact hs.live ino fh
  · rw [hs.given]
    exact List.nodup_range
  · intro node hnode
    obtain ⟨p, hp⟩ := List.mem_iff_getElem?.mp hnode
    have hentry : s.server.entry (p + 1) = some node := hp
    rw [← FuseServer.handlersAt_eq hentry]
    exact hs.sorted (p + 1)

theorem run_next {ops : List Operation} (h : system.Run ops s) (op : Operation)
    (hnext : s.next op = some s') : system.Run (ops ++ [op]) s' := h.snoc hnext

/-- The mount is opened, listed and closed: the handle is live in between. -/
theorem finds_iff_live_root : ∃ s, system.Run [.init 0, .opendir 1] s ∧
    s.server.finds 1 0 = true ∧ (s.server.finds 1 0 = true ↔ Live s.notes 1 0) := by
  have hstart : system.Run [] start := .start rfl
  have hinit := run_next hstart (.init 0) rfl
  have hopened := run_next hinit (.opendir 1) rfl
  exact ⟨_, hopened, by decide, (finds_iff_live hopened (by decide)).1 1 0⟩

/-! ### Too many handles -/

/-- The root is there. -/
def Rooted (s : Mount) : Prop :=
  s.server.Shown ∧ ∃ node, s.server.entry fuseRootId = some node ∧
    node.attributes.kind = .directory

theorem Rooted.opendir (h : Rooted s) : ∃ s', s.next (.opendir fuseRootId) = some s' ∧
    Rooted s' ∧ s'.server.fileHandleCounter = (s.server.fileHandleCounter + 1) % 2 ^ 64 ∧
    s'.notes = s.notes ++ [.opened fuseRootId s.server.fileHandleCounter] := by
  obtain ⟨hshown, node, hentry, hkind⟩ := h
  obtain ⟨server, hopened, hshown', hcounter, -, hkeeps⟩ := FuseServer.opened_eq hshown hentry
  refine ⟨⟨server, s.notes ++ [.opened fuseRootId s.server.fileHandleCounter]⟩, ?_,
    ⟨hshown', ?_⟩, hcounter, rfl⟩
  · unfold next FuseServer.opendir
    dsimp only
    rw [hentry]
    dsimp only
    rw [if_neg (not_not_intro hkind), hopened]
    rfl
  · have hkept := hkeeps fuseRootId
    rw [hentry] at hkept
    obtain ⟨node', hnode', hattributes⟩ := Option.map_eq_some_iff.mp hkept
    exact ⟨node', hnode', by rw [hattributes]; exact hkind⟩

/-- The root can be opened as often as one likes. -/
theorem run_opendirs (n : Nat) : ∃ ops s, system.Run ops s ∧ Rooted s ∧
    s.server.fileHandleCounter = n % 2 ^ 64 ∧
    given s.notes = (List.range n).map (· % 2 ^ 64) := by
  induction n with
  | zero =>
    have hinit := run_next (.start rfl : system.Run [] start) (.init 0) rfl
    obtain ⟨hshown, -⟩ := handled_of_run hinit
    exact ⟨_, _, hinit, ⟨hshown, _, rfl, rfl⟩, rfl, rfl⟩
  | succ n ih =>
    obtain ⟨ops, s, hrun, hrooted, hcounter, hgiven⟩ := ih
    obtain ⟨s', hnext, hrooted', hcounter', hnotes⟩ := hrooted.opendir
    refine ⟨_, s', run_next hrun _ hnext, hrooted', ?_, ?_⟩
    · rw [hcounter', hcounter, Nat.mod_add_mod]
    · rw [hnotes, given_opened, hgiven, hcounter, List.range_succ, List.map_append,
        List.map_singleton]

theorem not_nodup_mod {m : Nat} (hm : 0 < m) : ¬ ((List.range (m + 1)).map (· % m)).Nodup := by
  rw [List.range_succ, List.map_append, List.map_singleton, Nat.mod_self]
  intro h
  have hdisjoint := (List.nodup_append.mp h).2.2
  have hzero : 0 ∈ (List.range m).map (· % m) :=
    List.mem_map.mpr ⟨0, List.mem_range.mpr hm, Nat.zero_mod m⟩
  exact hdisjoint 0 hzero 0 List.mem_cons_self rfl

/-- A list that is refused: its file has no name. -/
def listsParent : List FileDescription := [⟨0, ['.', '.'], .directory, 0, 0, 0, 0, 0, permRwx⟩]

/-- A handle may still be valid right after `load_file_list`, and a handle may be given out
twice. -/
theorem handles_kept_and_reused :
    (¬ ∀ (ops : List Operation) (rand : Nat → Int32) (files : List FileDescription) (s : Mount),
      system.Run (ops ++ [.loadFileList rand files]) s →
        ∀ ino fh, s.server.finds ino fh = false) ∧
      ¬ ∀ (ops : List Operation) (s : Mount), system.Run ops s → (given s.notes).Nodup := by
  constructor
  · intro hall
    have hinit := run_next (.start rfl : system.Run [] start) (.init 0) rfl
    have hopened := run_next hinit (.opendir 1) rfl
    have hrefused := run_next hopened (.loadFileList (fun _ => 0) listsParent) rfl
    exact absurd (hall _ _ _ _ hrefused 1 0) (by decide)
  · intro hall
    obtain ⟨ops, s, hrun, -, -, hgiven⟩ := run_opendirs (2 ^ 64 + 1)
    have hnodup := hall ops s hrun
    rw [hgiven] at hnodup
    exact not_nodup_mod (Nat.two_pow_pos 64) hnodup

end Mount

end HopToDesk.Clipboard.Unix
