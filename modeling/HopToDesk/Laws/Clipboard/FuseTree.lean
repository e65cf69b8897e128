import HopToDesk.Clipboard.FuseServer

/-!
# The tree of the mount

The list of nodes that `build_tree` makes of the peer's list is a tree: each node but the root is
once in the children of its parent, which is a directory that stands before it. So no inode in it
leads out of the list.

Where the peer lists each directory before what is in it, and every directory on the way to a file,
a file is found by the names on the way to it, as long as no two files of a directory have one name.
-/

set_option autoImplicit false

namespace HopToDesk.Clipboard.Unix

open Kit UnixPath

/-! ## Growing a tree -/

/-- The parent of the node at a place. -/
def parentAt (tree : List FuseNode) (p : Nat) : Option Nat := tree[p]?.bind (·.parent)

/-- A tree with one more node, below the node of `parent`. -/
def planted (tree : List FuseNode) (parent : Nat) (node : FuseNode) : List FuseNode :=
  tree.modify (parent - 1) (·.addChild (tree.length + 1)) ++ [node]

section Planted

variable {tree : List FuseNode} {parent : Nat} {node old : FuseNode} {p : Nat}

theorem length_planted : (planted tree parent node).length = tree.length + 1 := by
  rw [planted, List.length_append, List.length_modify, List.length_singleton]

theorem planted_last : (planted tree parent node)[tree.length]? = some node := by
  have hlength : (tree.modify (parent - 1) (·.addChild (tree.length + 1))).length = tree.length :=
    List.length_modify ..
  rw [planted, List.getElem?_append_right hlength.le, hlength, Nat.sub_self]
  rfl

theorem planted_old (h : tree[p]? = some old) : (planted tree parent node)[p]? =
    some (if parent - 1 = p then old.addChild (tree.length + 1) else old) := by
  have hp : p < (tree.modify (parent - 1) (·.addChild (tree.length + 1))).length := by
    rw [List.length_modify]
    exact (List.getElem?_eq_some_iff.mp h).1
  rw [planted, List.getElem?_append_left hp, List.getElem?_modify, h]
  rfl

/-- A node is an old one, that may have got a child, or the new one. -/
theorem planted_cases {x : FuseNode} (h : (planted tree parent node)[p]? = some x) :
    (∃ old, tree[p]? = some old ∧
      x = if parent - 1 = p then old.addChild (tree.length + 1) else old) ∨
      (p = tree.length ∧ x = node) := by
  have hp : p < tree.length + 1 := by
    rw [← length_planted]
    exact (List.getElem?_eq_some_iff.mp h).1
  rcases Nat.lt_succ_iff_lt_or_eq.mp hp with hlt | rfl
  · have hold := List.getElem?_eq_getElem hlt
    rw [planted_old hold] at h
    exact .inl ⟨_, hold, (Option.some.inj h).symm⟩
  · rw [planted_last] at h
    exact .inr ⟨rfl, (Option.some.inj h).symm⟩

theorem parentAt_planted : parentAt (planted tree parent node) p =
    if p = tree.length then node.parent else parentAt tree p := by
  unfold parentAt
  split
  next hp =>
    rw [hp, planted_last]
    rfl
  next hp =>
    cases hold : tree[p]? with
    | some old =>
      rw [planted_old hold]
      simp only [Option.bind_some]
      split
      · rfl
      · rfl
    | none =>
      have hlen := List.getElem?_eq_none_iff.mp hold
      have hnone : (planted tree parent node)[p]? = none := by
        rw [List.getElem?_eq_none_iff, length_planted]
        omega
      rw [hnone]

end Planted

/-! ## Where a file is put -/

/-- The inode a file is put below, after these: the root, or a directory that its parent path is
the path of. -/
inductive Placed (before : List FileDescription) (file : FileDescription) : Nat → Prop
  | root
      (h : ∀ dir ∈ before, dir.kind = .directory →
        Component.parent (components file.name) ≠ some (components dir.name)) :
      Placed before file fuseRootId
  | below {j : Nat} {dir : FileDescription} (hdir : before[j]? = some dir)
      (hkind : dir.kind = .directory)
      (hparent : Component.parent (components file.name) = some (components dir.name)) :
      Placed before file (j + 2)

/-- The map of the loop: the root, and a directory for the path of each directory so far. -/
structure Mapped (done : List FileDescription) (m : SubRootMap) : Prop where
  listed : ∀ {path ino}, m.get path = some ino → ino = fuseRootId ∨
    ∃ (j : Nat) (dir : FileDescription), done[j]? = some dir ∧ dir.kind = .directory ∧
      components dir.name = path ∧ ino = j + 2
  known : ∀ dir ∈ done, dir.kind = .directory →
    ∃ ino, m.get (components dir.name) = some ino ∧ ino ≠ fuseRootId

section Placed

variable {done : List FileDescription} {m : SubRootMap} {file : FileDescription}

theorem Placed.bounds {parent : Nat} (h : Placed done file parent) :
    1 ≤ parent ∧ parent ≤ done.length + 1 := by
  cases h with
  | root => exact ⟨le_refl _, Nat.le_add_left _ _⟩
  | below hdir =>
    have hlt := (List.getElem?_eq_some_iff.mp hdir).1
    exact ⟨Nat.le_add_left _ _, Nat.succ_le_succ hlt⟩

theorem mapped_root : Mapped [] FuseNode.rootMap where
  listed h := by
    refine .inl ?_
    unfold SubRootMap.get FuseNode.rootMap at h
    simp only [List.lookup_cons] at h
    split at h
    · exact (Option.some.inj h).symm
    · split at h
      · exact (Option.some.inj h).symm
      · cases h
  known := by simp

theorem Mapped.placed (h : Mapped done m) (file : FileDescription) :
    Placed done file (FuseNode.parentInode m file) := by
  unfold FuseNode.parentInode
  split
  next path hpath =>
    cases hget : m.get path with
    | none =>
      refine .root fun dir hdir hkind hparent => ?_
      obtain ⟨ino, hino, -⟩ := h.known dir hdir hkind
      rw [← Option.some.inj (hpath.symm.trans hparent), hget] at hino
      cases hino
    | some ino =>
      rw [Option.getD_some]
      rcases h.listed hget with rfl | ⟨j, dir, hdir, hkind, hcomps, rfl⟩
      · refine .root fun dir hdir hkind hparent => ?_
        obtain ⟨ino, hino, hne⟩ := h.known dir hdir hkind
        rw [← Option.some.inj (hpath.symm.trans hparent), hget] at hino
        exact hne (Option.some.inj hino).symm
      · exact .below hdir hkind (hpath.trans (congrArg some hcomps.symm))
  next hpath =>
    refine .root fun dir _ _ hparent => ?_
    cases hpath.symm.trans hparent

/-- What is at a place stays there. -/
theorem getElem?_snoc {j : Nat} {dir : FileDescription} (h : done[j]? = some dir) :
    (done ++ [file])[j]? = some dir :=
  (List.getElem?_append_left (List.getElem?_eq_some_iff.mp h).1).trans h

theorem Mapped.snoc (h : Mapped done m) (file : FileDescription) :
    Mapped (done ++ [file]) (if file.kind = .directory then
      (components file.name, done.length + 2) :: m else m) := by
  split
  next hkind =>
    constructor
    · intro path ino hget
      unfold SubRootMap.get at hget
      rw [List.lookup_cons] at hget
      split at hget
      next heq =>
        refine .inr ⟨done.length, file, ?_, hkind, (beq_iff_eq.mp heq).symm, ?_⟩
        · rw [List.getElem?_concat_length]
        · exact (Option.some.inj hget).symm
      next =>
        refine (h.listed hget).imp_right ?_
        rintro ⟨j, dir, hdir, hrest⟩
        exact ⟨j, dir, getElem?_snoc hdir, hrest⟩
    · intro dir hdir hdirKind
      unfold SubRootMap.get
      rw [List.lookup_cons]
      split
      next => exact ⟨_, rfl, by simp [fuseRootId]⟩
      next hne =>
        rcases List.mem_append.mp hdir with hdir | hdir
        · exact h.known dir hdir hdirKind
        · rw [List.mem_singleton.mp hdir, beq_self_eq_true] at hne
          cases hne
  next hkind =>
    constructor
    · intro path ino hget
      refine (h.listed hget).imp_right ?_
      rintro ⟨j, dir, hdir, hrest⟩
      exact ⟨j, dir, getElem?_snoc hdir, hrest⟩
    · intro dir hdir hdirKind
      rcases List.mem_append.mp hdir with hdir | hdir
      · exact h.known dir hdir hdirKind
      · rw [List.mem_singleton.mp hdir] at hdirKind
        exact absurd hdirKind hkind

end Placed

/-! ## The tree -/

/-- It is the node of the file at this place of the list. -/
structure NodeOf (files : List FileDescription) (i : Nat) (file : FileDescription)
    (node : FuseNode) : Prop where
  connId : node.connId = file.connId
  index : node.index = i
  attributes : node.attributes = .fromDescription (i + 2) file
  fileHandlers : node.fileHandlers = .new
  name : Component.fileName (components file.name) = some node.name
  parent : ∃ parent, node.parent = some parent ∧ Placed (files.take i) file parent

/-- The tree of the files. -/
structure TreeOf (files : List FileDescription) (tree : List FuseNode) : Prop where
  length : tree.length = files.length + 1
  root : ∃ root, tree[0]? = some root ∧ root.parent = none ∧ root.attributes = .newRoot ∧
    root.fileHandlers = .new
  node : ∀ {i file}, files[i]? = some file → ∃ node, tree[i + 1]? = some node ∧
    NodeOf files i file node
  children : ∀ {p node}, tree[p]? = some node → node.children.Pairwise (· < ·) ∧
    ∀ c, c ∈ node.children ↔ parentAt tree (c - 1) = some (p + 1)

section Tree

variable {files : List FileDescription} {tree : List FuseNode} {file : FileDescription}
  {node : FuseNode} {i : Nat}

theorem treeOf_root (streamId : Int32) : TreeOf [] [.newRoot streamId] where
  length := rfl
  root := ⟨_, rfl, rfl, rfl, rfl⟩
  node h := by cases h
  children {p node} h := by
    have hnone (q : Nat) : parentAt [FuseNode.newRoot streamId] q = none := by
      cases q with
      | zero => rfl
      | succ q => rfl
    cases p with
    | zero =>
      cases h
      refine ⟨List.Pairwise.nil, fun c => ?_⟩
      rw [hnone]
      simp [FuseNode.newRoot]
    | succ p => cases h

/-- What becomes of a node that may get a child keeps all but its children. -/
theorem NodeOf.addChild (h : NodeOf files i file node) (hi : i < files.length)
    (next : FileDescription) (P : Prop) [Decidable P] (inode : Nat) :
    NodeOf (files ++ [next]) i file (if P then node.addChild inode else node) := by
  have hnode : NodeOf (files ++ [next]) i file node := by
    obtain ⟨parent, hparent, hplaced⟩ := h.parent
    refine { h with parent := ⟨parent, hparent, ?_⟩ }
    rwa [List.take_append_of_le_length hi.le]
  split
  · exact { hnode with }
  · exact hnode

theorem NodeOf.parent_lt (h : NodeOf files i file node) {parent : Nat}
    (hparent : node.parent = some parent) : 1 ≤ parent ∧ parent ≤ i + 1 := by
  obtain ⟨parent', hparent', hplaced⟩ := h.parent
  obtain rfl := Option.some.inj (hparent.symm.trans hparent')
  obtain ⟨hpos, hle⟩ := hplaced.bounds
  rw [List.length_take] at hle
  exact ⟨hpos, by omega⟩

/-- A node behind the root is one of a file. -/
theorem TreeOf.exists_file (h : TreeOf files tree) (hnode : tree[i + 1]? = some node) :
    ∃ file, files[i]? = some file ∧ NodeOf files i file node := by
  have hi : i < files.length := by
    have hlt := (List.getElem?_eq_some_iff.mp hnode).1
    rw [h.length] at hlt
    omega
  obtain ⟨node', hnode', hof⟩ := h.node (List.getElem?_eq_getElem hi)
  obtain rfl := Option.some.inj (hnode.symm.trans hnode')
  exact ⟨_, List.getElem?_eq_getElem hi, hof⟩

/-- No node of a tree has been opened. -/
theorem TreeOf.fileHandlers_eq (h : TreeOf files tree) (hnode : node ∈ tree) :
    node.fileHandlers = .new := by
  obtain ⟨p, hp⟩ := List.mem_iff_getElem?.mp hnode
  cases p with
  | zero =>
    obtain ⟨root, hroot, -, -, hnew⟩ := h.root
    obtain rfl := Option.some.inj (hp.symm.trans hroot)
    exact hnew
  | succ p =>
    obtain ⟨file, -, hof⟩ := h.exists_file hp
    exact hof.fileHandlers

/-- A node with a parent is one of a file. -/
theorem TreeOf.of_parentAt (h : TreeOf files tree) {p : Nat} {parent : Nat}
    (hp : parentAt tree p = some parent) : ∃ i file node, p = i + 1 ∧ files[i]? = some file ∧
      tree[p]? = some node ∧ NodeOf files i file node ∧ node.parent = some parent := by
  obtain ⟨node, hnode, hparent⟩ := Option.bind_eq_some_iff.mp hp
  cases p with
  | zero =>
    obtain ⟨root, hroot, hnone, -⟩ := h.root
    obtain rfl := Option.some.inj (hnode.symm.trans hroot)
    cases hnone.symm.trans hparent
  | succ i =>
    obtain ⟨file, hfile, hof⟩ := h.exists_file hnode
    exact ⟨i, file, node, rfl, hfile, hnode, hof, hparent⟩

/-- A node has no child that does not stand behind it. -/
theorem TreeOf.parentAt_lt (h : TreeOf files tree) {p : Nat} {parent : Nat}
    (hp : parentAt tree p = some parent) : 1 ≤ parent ∧ parent ≤ p ∧ p < tree.length := by
  obtain ⟨i, file, node, rfl, -, hnode, hof, hparent⟩ := h.of_parentAt hp
  obtain ⟨hpos, hle⟩ := hof.parent_lt hparent
  exact ⟨hpos, hle, (List.getElem?_eq_some_iff.mp hnode).1⟩

/-- **One more file.** -/
theorem TreeOf.plant (h : TreeOf files tree) {parent : Nat}
    (hplaced : Placed files file parent) (hparent : node.parent = some parent)
    (hof : NodeOf (files ++ [file]) files.length file node) (hleaf : node.children = []) :
    TreeOf (files ++ [file]) (planted tree parent node) where
  length := by rw [length_planted, h.length, List.length_append, List.length_singleton]
  root := by
    obtain ⟨root, hroot, hrest⟩ := h.root
    refine ⟨_, planted_old hroot, ?_⟩
    split
    · exact hrest
    · exact hrest
  node {i file'} hi := by
    rcases Nat.lt_or_ge i files.length with hlt | hge
    · rw [List.getElem?_append_left hlt] at hi
      obtain ⟨node', hnode', hof'⟩ := h.node hi
      exact ⟨_, planted_old hnode', hof'.addChild hlt file _ _⟩
    · have hlen : i = files.length := by
        have hlt := (List.getElem?_eq_some_iff.mp hi).1
        rw [List.length_append, List.length_singleton] at hlt
        omega
      subst hlen
      rw [List.getElem?_concat_length] at hi
      cases hi
      refine ⟨node, ?_, hof⟩
      rw [← h.length]
      exact planted_last
  children {p x} hx := by
    obtain ⟨hpos, hle⟩ := hplaced.bounds
    rw [← h.length] at hle
    rcases planted_cases hx with ⟨old, hold, rfl⟩ | ⟨rfl, rfl⟩
    · obtain ⟨hsorted, hmem⟩ := h.children hold
      have hbelow : ∀ c ∈ old.children, c < tree.length + 1 := by
        intro c hc
        have hlt := (h.parentAt_lt ((hmem c).mp hc)).2.2
        omega
      split
      next hp =>
        refine ⟨?_, fun c => ?_⟩
        · refine List.pairwise_append.mpr ⟨hsorted, List.pairwise_singleton _ _, ?_⟩
          intro c hc d hd
          rw [List.mem_singleton.mp hd]
          exact hbelow c hc
        · rw [FuseNode.addChild, List.mem_append, List.mem_singleton, parentAt_planted, hparent]
          split
          next hc =>
            have hlast : c = tree.length + 1 := by omega
            have hroot : parent = p + 1 := by omega
            simp [hlast, hroot]
          next hc =>
            rw [← hmem c]
            exact or_iff_left (by omega)
      next hp =>
        refine ⟨hsorted, fun c => ?_⟩
        rw [parentAt_planted, hparent]
        split
        next hc =>
          constructor
          · intro hmemc
            have hlt := hbelow c hmemc
            omega
          · intro heq
            have hroot := Option.some.inj heq
            omega
        next => exact hmem c
    · rw [hleaf]
      refine ⟨List.Pairwise.nil, fun c => ⟨fun hc => absurd hc List.not_mem_nil, fun hc => ?_⟩⟩
      rw [parentAt_planted] at hc
      split at hc
      · rw [hparent] at hc
        have heq := Option.some.inj hc
        omega
      · have hlt := h.parentAt_lt hc
        omega

/-- **The loop.** It does not panic, and a list that it returns is a tree of all the files. -/
theorem TreeOf.buildFrom (h : TreeOf files tree) {m : SubRootMap} (hm : Mapped files m)
    (rand : Nat → Int32) (rest : List FileDescription) :
    ∃ r, FuseNode.buildFrom rand tree m rest = some r ∧
      ∀ tree', r = .ok tree' → TreeOf (files ++ rest) tree' := by
  induction rest generalizing files tree m with
  | nil =>
    refine ⟨_, rfl, fun tree' htree => ?_⟩
    cases htree
    rwa [List.append_nil]
  | cons file rest ih =>
    have hplaced := hm.placed file
    have hadds : FuseNode.addChildTo tree (FuseNode.parentInode m file) (tree.length + 1) =
        some (tree.modify (FuseNode.parentInode m file - 1) (·.addChild (tree.length + 1))) := by
      have hbounds := hplaced.bounds
      rw [FuseNode.addChildTo, if_pos]
      rw [h.length]
      omega
    rw [FuseNode.buildFrom]
    dsimp only [fuseRootId]
    rw [hadds]
    dsimp only
    cases hname : Component.fileName (components file.name) with
    | none =>
      refine ⟨_, rfl, fun tree' htree => ?_⟩
      cases htree
    | some baseName =>
      have hlen : tree.length = files.length + 1 := h.length
      have hnext := hm.snoc file
      rw [show files.length + 2 = tree.length + 1 from congrArg (· + 1) hlen.symm] at hnext
      have hof : NodeOf (files ++ [file]) files.length file
          { FuseNode.fromDescription (rand (tree.length + 1)) (tree.length + 1)
              { file with name := baseName } with
            parent := some (FuseNode.parentInode m file) } := {
        connId := rfl
        index := by simp [FuseNode.fromDescription, hlen]
        attributes := by simp [FuseNode.fromDescription, InodeAttributes.fromDescription, hlen]
        fileHandlers := rfl
        name := hname
        parent := ⟨_, rfl, by rwa [List.take_left']; rfl⟩ }
      obtain ⟨r, hr, hok⟩ := ih (h.plant hplaced rfl hof rfl) hnext
      refine ⟨r, hr, fun tree' htree => ?_⟩
      rw [List.append_cons]
      exact hok tree' htree

/-- The parent of a node is a directory that stands before it. -/
theorem TreeOf.parent_directory (h : TreeOf files tree) (hof : NodeOf files i file node)
    {parent : Nat} (hparent : node.parent = some parent) :
    ∃ q parentNode, parent = q + 1 ∧ q ≤ i ∧ tree[q]? = some parentNode ∧
      parentNode.attributes.kind = .directory := by
  obtain ⟨parent', hparent', hplaced⟩ := hof.parent
  obtain rfl := Option.some.inj (hparent.symm.trans hparent')
  have hle := (hof.parent_lt hparent).2
  cases hplaced with
  | root =>
    obtain ⟨root, hroot, -, hattributes, -⟩ := h.root
    refine ⟨0, root, rfl, Nat.zero_le i, hroot, ?_⟩
    rw [hattributes]
    rfl
  | @below j dir hdir hkind =>
    have hdir' : files[j]? = some dir := by
      rw [List.getElem?_take] at hdir
      exact (Option.ite_none_right_eq_some.mp hdir).2
    obtain ⟨parentNode, hnode, hof'⟩ := h.node hdir'
    refine ⟨j + 1, parentNode, rfl, Nat.le_of_succ_le_succ hle, hnode, ?_⟩
    rw [hof'.attributes]
    exact hkind

end Tree

/-- It is a tree: the nodes are numbered, each but the root is once in the children of its parent,
which is a directory before it, and in those of no other node, and the children of a node are
nodes. -/
structure IsTree (n : Nat) (tree : List FuseNode) : Prop where
  length : tree.length = n + 1
  inode : ∀ {p : Nat} {node : FuseNode}, tree[p]? = some node → node.attributes.inode = p + 1
  index : ∀ {p : Nat} {node : FuseNode}, tree[p + 1]? = some node → node.index = p
  orphan : ∀ {root : FuseNode}, tree[0]? = some root → root.parent = none
  parent : ∀ {p : Nat} {node : FuseNode}, tree[p + 1]? = some node →
    ∃ q parentNode, node.parent = some (q + 1) ∧ q < p + 1 ∧ tree[q]? = some parentNode ∧
      parentNode.attributes.kind = .directory
  once : ∀ {c p : Nat} {node child : FuseNode}, tree[c]? = some child → tree[p]? = some node →
    node.children.count (c + 1) = if child.parent = some (p + 1) then 1 else 0
  inside : ∀ {p c : Nat} {node : FuseNode}, tree[p]? = some node → c ∈ node.children →
    2 ≤ c ∧ c ≤ n + 1

theorem TreeOf.isTree {files : List FileDescription} {tree : List FuseNode}
    (h : TreeOf files tree) : IsTree files.length tree := by
  obtain ⟨root, hroot, hnone, hattributes, -⟩ := h.root
  refine { length := h.length, inode := ?_, index := ?_, orphan := ?_, parent := ?_, once := ?_,
           inside := ?_ }
  · intro p node hnode
    cases p with
    | zero =>
      obtain rfl := Option.some.inj (hnode.symm.trans hroot)
      rw [hattributes]
      rfl
    | succ p =>
      obtain ⟨file, -, hof⟩ := h.exists_file hnode
      rw [hof.attributes]
      rfl
  · intro p node hnode
    obtain ⟨file, -, hof⟩ := h.exists_file hnode
    exact hof.index
  · intro root' hroot'
    obtain rfl := Option.some.inj (hroot'.symm.trans hroot)
    exact hnone
  · intro p node hnode
    obtain ⟨file, -, hof⟩ := h.exists_file hnode
    obtain ⟨parent, hparent, -⟩ := hof.parent
    obtain ⟨q, parentNode, rfl, hle, hq, hkind⟩ := h.parent_directory hof hparent
    exact ⟨q, parentNode, hparent, Nat.lt_succ_of_le hle, hq, hkind⟩
  · intro c p node child hchild hnode
    obtain ⟨hsorted, hmem⟩ := h.children hnode
    have hnodup : node.children.Nodup := hsorted.imp ne_of_lt
    have hparent : parentAt tree c = child.parent := by
      rw [parentAt, hchild]
      rfl
    rw [List.Nodup.count hnodup]
    simp only [hmem, Nat.add_sub_cancel, hparent]
  · intro p c node hnode hc
    obtain ⟨hpos, hle, hlt⟩ := h.parentAt_lt (((h.children hnode).2 c).mp hc)
    rw [h.length] at hlt
    omega

/-! ## Looking up -/

/-- The children of every node are nodes. -/
def Closed (tree : List FuseNode) : Prop :=
  ∀ node ∈ tree, ∀ c ∈ node.children, 1 ≤ c ∧ c ≤ tree.length

theorem IsTree.closed {n : Nat} {tree : List FuseNode} (h : IsTree n tree) : Closed tree := by
  intro node hnode c hc
  obtain ⟨p, hp⟩ := List.mem_iff_getElem?.mp hnode
  obtain ⟨hpos, hle⟩ := h.inside hp hc
  exact ⟨Nat.le_of_succ_le hpos, hle.trans_eq h.length.symm⟩

namespace FuseServer

section Closed

variable {s : FuseServer} {node : FuseNode} {name : PathStr}

@[simp]
theorem entry_succ (p : Nat) : s.entry (p + 1) = s.files[p]? := rfl

theorem mem_of_entry {ino : Nat} (h : s.entry ino = some node) : node ∈ s.files := by
  cases ino with
  | zero => cases h
  | succ p => exact List.mem_of_getElem? h

theorem exists_entry {c : Nat} (h : 1 ≤ c ∧ c ≤ s.files.length) :
    ∃ child, s.entry c = some child := by
  obtain ⟨p, rfl⟩ := Nat.exists_eq_succ_of_ne_zero (Nat.one_le_iff_ne_zero.mp h.1)
  exact ⟨_, List.getElem?_eq_getElem h.2⟩

theorem lookupIn_ne_none {inodes : List Nat}
    (h : ∀ c ∈ inodes, 1 ≤ c ∧ c ≤ s.files.length) : s.lookupIn name inodes ≠ none := by
  induction inodes with
  | nil => exact Option.some_ne_none _
  | cons c inodes ih =>
    obtain ⟨hc, hrest⟩ := List.forall_mem_cons.mp h
    obtain ⟨child, hchild⟩ := exists_entry hc
    rw [lookupIn, hchild]
    dsimp only
    split
    · exact Option.some_ne_none _
    · exact ih hrest

/-- `lookup` does not index out of bounds. -/
theorem lookup_ne_none (h : Closed s.files) (parent : Nat) (name : PathStr) :
    s.lookup parent name ≠ none := by
  unfold lookup
  split
  · exact Option.some_ne_none _
  · split
    next => exact Option.some_ne_none _
    next node hnode =>
      split
      · exact Option.some_ne_none _
      · exact lookupIn_ne_none (h node (mem_of_entry hnode))

/-- What is asked of the children of a node is there for all of them. -/
theorem mapM_entry {β : Type} (f : Nat → FuseNode → β) {inodes : List Nat}
    (h : ∀ c ∈ inodes, 1 ≤ c ∧ c ≤ s.files.length) :
    inodes.mapM (fun c => (s.entry c).map (f c)) ≠ none := by
  induction inodes with
  | nil => exact Option.some_ne_none _
  | cons c inodes ih =>
    obtain ⟨hc, hrest⟩ := List.forall_mem_cons.mp h
    obtain ⟨child, hchild⟩ := exists_entry hc
    obtain ⟨rest, heq⟩ := Option.ne_none_iff_exists'.mp (ih hrest)
    simp [List.mapM_cons, hchild, heq]

/-- Nor does `readdir`. -/
theorem readdir_ne_none (h : Closed s.files) (ino fh offset : Nat) :
    s.readdir ino fh offset ≠ none := by
  unfold readdir
  split
  next => exact Option.some_ne_none _
  next node hnode =>
    split
    · exact Option.some_ne_none _
    · split
      · exact Option.some_ne_none _
      · dsimp only
        rw [Ne, Option.map_eq_none_iff]
        exact mapM_entry _ (h node (mem_of_entry hnode))

/-- Nor does `list_root`, once there is a root. -/
theorem listRoot_ne_none (h : Closed s.files) (hroot : s.files ≠ []) : s.listRoot ≠ none := by
  unfold listRoot
  split
  next hnone => exact absurd (List.getElem?_eq_none_iff.mp hnone) (by
    simpa [List.length_eq_zero_iff] using hroot)
  next root hfirst => exact mapM_entry _ (h root (List.mem_of_getElem? hfirst))

end Closed

end FuseServer

/-- Nodes below one parent have different names. -/
def DistinctSiblings (tree : List FuseNode) : Prop :=
  ∀ (p q : Nat) (x y : FuseNode), tree[p]? = some x → tree[q]? = some y →
    x.parent = y.parent → x.name = y.name → p = q

/-- The list as a peer makes it: all below one path, each directory before what is in it, and every
directory on the way to a file. -/
structure Listed (pre : List Component) (files : List FileDescription) : Prop where
  below : ∀ file ∈ files, ∃ rel, rel ≠ [] ∧ components file.name = pre ++ rel
  ordered : ∀ {i j : Nat} {dir file : FileDescription}, files[i]? = some dir →
    files[j]? = some file → dir.kind = .directory → components dir.name <+: components file.name →
    components dir.name ≠ components file.name → i < j
  ancestors : ∀ file ∈ files, ∀ rel, rel ≠ [] → pre ++ rel <+: components file.name →
    pre ++ rel ≠ components file.name →
    ∃ dir ∈ files, dir.kind = .directory ∧ components dir.name = pre ++ rel

section Paths

variable {files : List FileDescription} {tree : List FuseNode} {s : FuseServer}

namespace FuseServer

theorem lookupIn_eq {name : PathStr} {inodes : List Nat} {c : Nat} {child : FuseNode}
    (hc : c ∈ inodes) (hchild : s.entry c = some child) (hname : child.name = name)
    (hall : ∀ c' ∈ inodes, ∃ child', s.entry c' = some child' ∧ (child'.name = name → c' = c)) :
    s.lookupIn name inodes = some (.ok ⟨child.attributes.toFileAttr, s.generation⟩) := by
  induction inodes with
  | nil => cases hc
  | cons c' inodes ih =>
    obtain ⟨⟨child', hchild', honly⟩, hrest⟩ := List.forall_mem_cons.mp hall
    rw [lookupIn, hchild']
    dsimp only
    split
    next heq =>
      obtain rfl := honly heq
      obtain rfl := Option.some.inj (hchild'.symm.trans hchild)
      rfl
    next hne =>
      refine ih (List.mem_of_ne_of_mem ?_ hc) hrest
      rintro rfl
      obtain rfl := Option.some.inj (hchild'.symm.trans hchild)
      exact hne hname

/-- A file is found in the directory it is put in. -/
theorem lookup_child (h : TreeOf files tree) (hs : s.files = tree)
    (hdistinct : DistinctSiblings tree) {i : Nat} {file : FileDescription} {node : FuseNode}
    {parent : Nat} (hnode : tree[i + 1]? = some node) (hof : NodeOf files i file node)
    (hparent : node.parent = some parent) (hshort : byteLength node.name ≤ maxNameLen) :
    s.lookup parent node.name = some (.ok ⟨node.attributes.toFileAttr, s.generation⟩) := by
  obtain ⟨q, parentNode, rfl, -, hq, hkind⟩ := h.parent_directory hof hparent
  have hentry : s.entry (q + 1) = some parentNode := by rw [entry_succ, hs, hq]
  have hmem := (h.children hq).2
  rw [lookup, if_neg (Nat.not_lt.mpr hshort), hentry]
  dsimp only
  rw [if_neg (not_not_intro hkind)]
  have hc : i + 2 ∈ parentNode.children := by
    rw [hmem]
    show tree[i + 1]?.bind (·.parent) = _
    rw [hnode]
    exact hparent
  have hchild : s.entry (i + 2) = some node := by rw [entry_succ, hs, hnode]
  refine lookupIn_eq hc hchild rfl fun c' hc' => ?_
  obtain ⟨i', file', child', heq, -, hchild', -, hparent'⟩ := h.of_parentAt ((hmem c').mp hc')
  obtain rfl : c' = i' + 2 := by omega
  rw [heq] at hchild'
  refine ⟨child', by rw [entry_succ, hs, hchild'], fun hname => ?_⟩
  have hsame := hdistinct _ _ child' node hchild' hnode (hparent'.trans hparent.symm) hname
  omega

theorem lookupPath_snoc {parent parent' : Nat} {names : List PathStr} {name : PathStr}
    {found : Entry} (h : s.lookupPath parent names = some (.ok parent'))
    (hname : s.lookup parent' name = some (.ok found)) :
    s.lookupPath parent (names ++ [name]) = some (.ok found.attr.ino) := by
  induction names generalizing parent with
  | nil =>
    cases h
    simp only [List.nil_append, lookupPath, hname]
  | cons first names ih =>
    rw [lookupPath] at h
    cases hfirst : s.lookup parent first with
    | none =>
      rw [hfirst] at h
      cases h
    | some r =>
      rw [hfirst] at h
      cases r with
      | error e => cases h
      | ok entry =>
        rw [List.cons_append, lookupPath, hfirst]
        exact ih h

end FuseServer

/-- A part of the way to a file is the path of a directory that stands before the file. -/
theorem Listed.before {pre rel : List Component} (h : Listed pre files) {i : Nat}
    {file : FileDescription} {name : Name} (hfile : files[i]? = some file)
    (hcomps : components file.name = pre ++ rel ++ [.normal name]) (hrel : rel ≠ []) :
    ∃ j dir, j < i ∧ files[j]? = some dir ∧ dir.kind = .directory ∧
      components dir.name = pre ++ rel := by
  have hprefix : pre ++ rel <+: components file.name := hcomps ▸ List.prefix_append _ _
  have hne : pre ++ rel ≠ components file.name := by
    rw [hcomps]
    simp
  obtain ⟨dir, hdir, hkind, heq⟩ :=
    h.ancestors file (List.mem_of_getElem? hfile) rel hrel hprefix hne
  obtain ⟨j, hj⟩ := List.mem_iff_getElem?.mp hdir
  refine ⟨j, dir, ?_, hj, hkind, heq⟩
  refine h.ordered hj hfile hkind ?_ ?_
  · rwa [heq]
  · rwa [heq]

/-- The way to a file consists of names. -/
theorem Listed.exists_names {pre : List Component} (h : Listed pre files)
    (htree : TreeOf files tree) {rel : List Component} {i : Nat} {file : FileDescription}
    (hfile : files[i]? = some file) (hcomps : components file.name = pre ++ rel) :
    ∃ names : List PathStr, rel = names.map .normal := by
  induction rel using List.reverseRecOn generalizing i file with
  | nil => exact ⟨[], rfl⟩
  | append_singleton rel c ih =>
    obtain ⟨node, -, hof⟩ := htree.node hfile
    have hlast := Component.fileName_eq_some hof.name
    rw [hcomps, ← List.append_assoc, List.dropLast_concat] at hlast
    obtain ⟨-, hc⟩ := List.append_inj' hlast rfl
    obtain rfl := List.singleton_inj.mp hc
    rw [← List.append_assoc] at hcomps
    rcases eq_or_ne rel [] with rfl | hrel
    · exact ⟨[node.name], rfl⟩
    · obtain ⟨j, dir, -, hdir, -, heq⟩ := h.before hfile hcomps hrel
      obtain ⟨names, rfl⟩ := ih hdir heq
      exact ⟨names ++ [node.name], by rw [List.map_append, List.map_singleton]⟩

/-- **A file is found by the names on the way to it.** -/
theorem Listed.lookupPath_eq {pre : List Component} (h : Listed pre files)
    (htree : TreeOf files tree) (hs : s.files = tree) (hdistinct : DistinctSiblings tree)
    {names : List PathStr} (hshort : ∀ name ∈ names, byteLength name ≤ maxNameLen) {i : Nat}
    {file : FileDescription} (hfile : files[i]? = some file)
    (hcomps : components file.name = pre ++ names.map .normal) :
    s.lookupPath fuseRootId names = some (.ok (i + 2)) := by
  induction names using List.reverseRecOn generalizing i file with
  | nil =>
    obtain ⟨rel, hrel, heq⟩ := h.below file (List.mem_of_getElem? hfile)
    rw [hcomps] at heq
    exact absurd (List.append_cancel_left heq).symm hrel
  | append_singleton names name ih =>
    obtain ⟨hinit, hlast⟩ := List.forall_mem_append.mp hshort
    rw [List.map_append, List.map_singleton, ← List.append_assoc] at hcomps
    obtain ⟨node, hnode, hof⟩ := htree.node hfile
    have hname : node.name = name := by
      have hfound := hof.name
      rw [hcomps, Component.fileName_snoc] at hfound
      exact (Option.some.inj hfound).symm
    have hparents : Component.parent (components file.name) = some (pre ++ names.map .normal) := by
      rw [hcomps, Component.parent_snoc]
    obtain ⟨parent, hparent, hplaced⟩ := hof.parent
    have hfound := FuseServer.lookup_child htree hs hdistinct hnode hof hparent
      (hname ▸ hlast name List.mem_cons_self)
    rw [hname] at hfound
    have hino : node.attributes.toFileAttr.ino = i + 2 := by
      rw [hof.attributes]
      rfl
    rw [← hino]
    refine FuseServer.lookupPath_snoc ?_ hfound
    cases hplaced with
    | root hnone =>
      -- No directory has the path of the way to the file, so there is no way.
      rcases eq_or_ne names [] with rfl | hne
      · rfl
      · obtain ⟨j, dir, hj, hdir, hkind, heq⟩ := h.before hfile hcomps (by simpa using hne)
        have hmem : dir ∈ files.take i := by
          refine List.mem_of_getElem? (i := j) ?_
          rw [List.getElem?_take, if_pos hj, hdir]
        exact absurd (hparents.trans (congrArg some heq.symm)) (hnone dir hmem hkind)
    | @below j dir hdir hkind hpath =>
      rw [List.getElem?_take] at hdir
      have hdir' := (Option.ite_none_right_eq_some.mp hdir).2
      exact ih hinit hdir' (Option.some.inj (hpath.symm.trans hparents))

end Paths

/-! ## What `build_tree` makes -/

/-- `build_tree` does not panic, and what it returns is the tree of the files. -/
theorem buildTree_cases (rand : Nat → Int32) (files : List FileDescription) :
    ∃ r, FuseNode.buildTree rand files = some r ∧ ∀ tree, r = .ok tree → TreeOf files tree := by
  have h := (treeOf_root (rand 0)).buildFrom mapped_root rand files
  rwa [List.nil_append] at h

theorem treeOf_buildTree {rand : Nat → Int32} {files : List FileDescription}
    {tree : List FuseNode} (h : FuseNode.buildTree rand files = some (.ok tree)) :
    TreeOf files tree := by
  obtain ⟨r, hr, hok⟩ := buildTree_cases rand files
  exact hok tree (Option.some.inj (hr.symm.trans h))

/-- **The mount shows the peer's files as a tree.** Nothing that walks it indexes out of bounds,
and a file whose list is as a peer makes it is found by the names on the way to it, as long as none
of them is too long to be looked up. -/
theorem mounts_tree {rand : Nat → Int32} {files : List FileDescription} {tree : List FuseNode}
    (h : FuseNode.buildTree rand files = some (.ok tree)) :
    IsTree files.length tree ∧
      ∀ s : FuseServer, s.files = tree →
        (∀ parent name, s.lookup parent name ≠ none) ∧
        (∀ ino fh offset, s.readdir ino fh offset ≠ none) ∧ s.listRoot ≠ none ∧
        ∀ pre, Listed pre files → DistinctSiblings tree →
          ∀ (i : Nat) (file : FileDescription), files[i]? = some file →
            ∃ names : List PathStr, components file.name = pre ++ names.map .normal ∧
              ((∀ name ∈ names, byteLength name ≤ maxNameLen) →
                ∃ ino node, s.lookupPath fuseRootId names = some (.ok ino) ∧
                  s.entry ino = some node ∧ node.index = i) := by
  have htree := treeOf_buildTree h
  have his := htree.isTree
  refine ⟨his, fun s hs => ?_⟩
  have hclosed : Closed s.files := hs ▸ his.closed
  have hroot : s.files ≠ [] := by
    rw [hs]
    refine List.ne_nil_of_length_pos ?_
    rw [his.length]
    exact Nat.succ_pos _
  refine ⟨fun parent name => FuseServer.lookup_ne_none hclosed parent name,
    fun ino fh offset => FuseServer.readdir_ne_none hclosed ino fh offset,
    FuseServer.listRoot_ne_none hclosed hroot, ?_⟩
  intro pre hlisted hdistinct i file hfile
  obtain ⟨rel, -, hrel⟩ := hlisted.below file (List.mem_of_getElem? hfile)
  obtain ⟨names, rfl⟩ := hlisted.exists_names htree hfile hrel
  refine ⟨names, hrel, fun hshort => ?_⟩
  obtain ⟨node, hnode, hof⟩ := htree.node hfile
  exact ⟨i + 2, node, hlisted.lookupPath_eq htree hs hdistinct hshort hfile hrel,
    by rw [FuseServer.entry_succ, hs, hnode], hof.index⟩

/-- A directory `a` and a file `a/b`. -/
def listsAB : List FileDescription :=
  [⟨0, ['a'], .directory, 0, 0, 0, 0, 0, permRwx⟩,
    ⟨0, ['a', '/', 'b'], .file, 0, 0, 0, 0, 1, permRw⟩]

theorem components_listsAB : listsAB.map (components ·.name) =
    [[.normal ['a']], [.normal ['a'], .normal ['b']]] := by decide

theorem listed_listsAB : Listed [] listsAB := by
  have hcomps {file : FileDescription} (hfile : file ∈ listsAB) :
      components file.name = [.normal ['a']] ∨
        components file.name = [.normal ['a'], .normal ['b']] := by
    have hmem := List.mem_map_of_mem (f := (components ·.name)) hfile
    rw [components_listsAB] at hmem
    simpa using hmem
  refine { below := ?_, ordered := ?_, ancestors := ?_ }
  · intro file hfile
    refine ⟨components file.name, ?_, rfl⟩
    rcases hcomps hfile with heq | heq
    · simp [heq]
    · simp [heq]
  · intro i j dir file hi hj hkind hprefix hne
    -- The directory is the first of the list.
    obtain rfl : i = 0 := by
      rcases i with _ | _ | i
      · rfl
      · cases hi
        cases hkind
      · cases hi
    cases j with
    | zero => exact absurd (congrArg (components ·.name) (Option.some.inj (hi.symm.trans hj))) hne
    | succ j => exact Nat.succ_pos j
  · intro file hfile rel hrel hprefix hne
    refine ⟨_, List.mem_cons_self, rfl, ?_⟩
    have hfirst : components ['a'] = [.normal ['a']] := by decide
    rw [hfirst]
    have hinit : rel ∈ (components file.name).inits := (List.mem_inits _ _).mpr hprefix
    rcases hcomps hfile with heq | heq
    · rw [heq] at hinit hne
      simp [hrel] at hinit
      exact absurd hinit hne
    · rw [heq] at hinit hne
      simp [hrel] at hinit
      exact (hinit.resolve_right hne).symm

/-- The tree of these: the root, `a` and `b`. -/
def treeAB : List FuseNode :=
  [⟨0, 0, 0, none, ['/'], .newRoot, [2], .new⟩,
    ⟨0, 0, 0, some 1, ['a'], ⟨2, 0, .directory, permRwx⟩, [3], .new⟩,
    ⟨0, 0, 1, some 2, ['b'], ⟨3, 1, .file, permRw⟩, [], .new⟩]

theorem distinctSiblings_of_nodup {tree : List FuseNode}
    (h : (tree.map fun node => (node.parent, node.name)).Nodup) : DistinctSiblings tree := by
  intro p q x y hx hy hparent hname
  obtain ⟨hp, rfl⟩ := List.getElem?_eq_some_iff.mp hx
  obtain ⟨hq, rfl⟩ := List.getElem?_eq_some_iff.mp hy
  have hinj := List.nodup_iff_injective_get.mp h
  refine Fin.mk.inj_iff.mp (@hinj ⟨p, by simpa using hp⟩ ⟨q, by simpa using hq⟩ ?_)
  simp [hparent, hname]

/-- `b` is found in `a`. -/
theorem mounts_tree_listsAB : FuseNode.buildTree (fun _ => 0) listsAB = some (.ok treeAB) ∧
    IsTree 2 treeAB ∧
    ∃ ino node, FuseServer.lookupPath ⟨0, treeAB, 0⟩ fuseRootId [['a'], ['b']] = some (.ok ino) ∧
      FuseServer.entry ⟨0, treeAB, 0⟩ ino = some node ∧ node.index = 1 := by
  have hbuilt : FuseNode.buildTree (fun _ => 0) listsAB = some (.ok treeAB) := by decide +kernel
  obtain ⟨htree, hmount⟩ := mounts_tree hbuilt
  refine ⟨hbuilt, htree, ?_⟩
  obtain ⟨-, -, -, hpaths⟩ := hmount ⟨0, treeAB, 0⟩ rfl
  have hdistinct : DistinctSiblings treeAB := distinctSiblings_of_nodup (by decide)
  obtain ⟨names, hnames, hfound⟩ := hpaths [] listed_listsAB hdistinct 1 _ rfl
  have hcomps : components ['a', '/', 'b'] = [['a'], ['b']].map .normal := by decide
  have heq : names = [['a'], ['b']] :=
    List.map_injective_iff.mpr (fun _ _ => Component.normal.inj) (hnames.symm.trans hcomps)
  subst heq
  exact hfound (by decide)

/-- A file with a name of 256 letters. -/
def listsLong : List FileDescription :=
  [⟨0, List.replicate 256 'a', .file, 0, 0, 0, 0, 0, permRw⟩]

/-- A name of more than 255 bytes is not looked up. -/
theorem long_name_not_found : ¬ ∀ (rand : Nat → Int32) (files : List FileDescription)
    (tree : List FuseNode), FuseNode.buildTree rand files = some (.ok tree) →
      ∀ s : FuseServer, s.files = tree → ∀ pre, Listed pre files → DistinctSiblings tree →
        ∀ (i : Nat) (file : FileDescription), files[i]? = some file →
          ∀ names : List PathStr, components file.name = pre ++ names.map .normal →
            ∃ ino node, s.lookupPath fuseRootId names = some (.ok ino) ∧
              s.entry ino = some node ∧ node.index = i := by
  intro hall
  have hcomps : components (List.replicate 256 'a') = [.normal (List.replicate 256 'a')] := by
    decide +kernel
  obtain ⟨tree, htree, hshape⟩ : ∃ tree,
      FuseNode.buildTree (fun _ => 0) listsLong = some (.ok tree) ∧
        tree = [⟨0, 0, 0, none, ['/'], .newRoot, [2], .new⟩,
          ⟨0, 0, 0, some 1, List.replicate 256 'a', ⟨2, 0, .file, permRw⟩, [], .new⟩] :=
    ⟨_, by decide +kernel, rfl⟩
  have hdistinct : DistinctSiblings tree := by
    apply distinctSiblings_of_nodup
    rw [hshape]
    decide +kernel
  have hlisted : Listed [] listsLong := {
    below := fun file hfile => by
      obtain rfl := List.mem_singleton.mp hfile
      exact ⟨[.normal (List.replicate 256 'a')], List.cons_ne_nil _ _, hcomps⟩
    ordered := fun {i j dir file} hi _ hkind => by
      have hdir := List.mem_singleton.mp (List.mem_of_getElem? hi)
      rw [hdir] at hkind
      cases hkind
    ancestors := fun file hfile rel hrel hprefix hne => by
      obtain rfl := List.mem_singleton.mp hfile
      rw [hcomps] at hprefix hne
      rcases List.prefix_cons_iff.mp hprefix with hnil | ⟨rest, heq, hrest⟩
      · exact absurd hnil hrel
      · rw [List.prefix_nil.mp hrest] at heq
        exact absurd heq hne }
  obtain ⟨ino, node, hfound, -⟩ := hall _ _ tree htree ⟨0, tree, 0⟩ rfl [] hlisted hdistinct 0 _ rfl
    [List.replicate 256 'a'] hcomps
  have hlong : FuseServer.lookup ⟨0, tree, 0⟩ fuseRootId (List.replicate 256 'a') =
      some (.error .enametoolong) := by
    rw [FuseServer.lookup, if_pos (by decide +kernel)]
  rw [FuseServer.lookupPath, hlong] at hfound
  cases hfound

end HopToDesk.Clipboard.Unix
