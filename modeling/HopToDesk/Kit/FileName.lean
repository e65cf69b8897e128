import HopToDesk.Kit.UnixPath

/-!
# File names

The last component of a path is its file name, when it is a name. What stands behind the last dot of
it is the extension, unless the dot is its first character. `withFileName` puts another name in
place of the last component and leaves the text before it as it is.
-/

set_option autoImplicit false

namespace Kit.UnixPath

/-- `Path::file_name`. -/
def fileName (s : PathStr) : Option Name :=
  match (parse s).comps.getLast? with
  | some (.name n) => some n
  | _ => none

/-- A file name cut at its last dot. One without a dot, or with none but the leading one, is not
cut. -/
def splitAtDot (n : Name) : Name × Option Name :=
  let before := ((n.reverse.dropWhile (· ≠ '.')).drop 1).reverse
  if before = [] then (n, none) else (before, some (n.reverse.takeWhile (· ≠ '.')).reverse)

/-- `Path::file_stem`. -/
def fileStem (s : PathStr) : Option Name := (fileName s).map fun n => (splitAtDot n).1

/-- `Path::extension`. -/
def extension (s : PathStr) : Option Name := (fileName s).bind fun n => (splitAtDot n).2

/-- The pieces with another one for the last component. -/
def swapTip (new : Name) : List Name → List Name
  | [] => [new]
  | p :: ps => if ps.filterMap toComp = [] ∧ toComp p ≠ none then [new] else p :: swapTip new ps

/-- Text from its pieces. -/
def ofPieces : List Name → PathStr
  | [] => []
  | [p] => p
  | p :: ps => p ++ '/' :: ofPieces ps

/-- `Path::with_file_name`, up to slashes and dots that do not count. -/
def withFileName (s : PathStr) (new : Name) : PathStr :=
  if fileName s = none then join s new else ofPieces (swapTip new (pieces s))

/-- `Path::with_extension`, of an extension without a slash. -/
def withExtension (s : PathStr) (ext : Name) : PathStr :=
  match fileStem s with
  | none => s
  | some stem => withFileName s (if ext = [] then stem else stem ++ '.' :: ext)

example : extension "a/b.tar.gz".toList = some "gz".toList ∧ extension "a/.b".toList = none ∧
    withFileName "/a/b.c//.".toList "x".toList = "/a/x".toList := by decide

theorem swapTip_ne_nil (new : Name) (ps : List Name) : swapTip new ps ≠ [] := by
  cases ps with
  | nil => exact List.cons_ne_nil _ _
  | cons p ps =>
    unfold swapTip
    split_ifs <;> exact List.cons_ne_nil _ _

theorem swapTip_comps {new : Name} (hnew : toComp new = some (.name new)) (ps : List Name) :
    (swapTip new ps).filterMap toComp = (ps.filterMap toComp).dropLast ++ [.name new] := by
  induction ps with
  | nil => exact List.filterMap_cons_some hnew
  | cons p ps ih =>
    unfold swapTip
    split_ifs with h
    · obtain ⟨c, hc⟩ := Option.ne_none_iff_exists'.mp h.2
      rw [List.filterMap_cons_some hc, h.1]
      exact List.filterMap_cons_some hnew
    · cases hp : toComp p with
      | none => rw [List.filterMap_cons_none hp, List.filterMap_cons_none hp, ih]
      | some c =>
        have hps : ps.filterMap toComp ≠ [] :=
          fun he => h ⟨he, by rw [hp]; exact Option.some_ne_none c⟩
        rw [List.filterMap_cons_some hp, List.filterMap_cons_some hp, ih,
          List.dropLast_cons_of_ne_nil hps, List.cons_append]

theorem mem_swapTip {new p : Name} {ps : List Name} (h : p ∈ swapTip new ps) :
    p = new ∨ p ∈ ps := by
  induction ps with
  | nil => exact .inl (List.mem_singleton.mp h)
  | cons q ps ih =>
    unfold swapTip at h
    split_ifs at h
    · exact .inl (List.mem_singleton.mp h)
    · rcases List.mem_cons.mp h with rfl | h
      · exact .inr List.mem_cons_self
      · exact (ih h).imp_right (List.mem_cons_of_mem q)

theorem pieces_no_slash {s : PathStr} {p : Name} (h : p ∈ pieces s) : '/' ∉ p := by
  induction s generalizing p with
  | nil =>
    obtain rfl := List.mem_singleton.mp h
    exact List.not_mem_nil
  | cons c s ih =>
    by_cases hc : c = '/'
    · subst hc
      rw [pieces_slash] at h
      rcases List.mem_cons.mp h with rfl | h
      · exact List.not_mem_nil
      · exact ih h
    · obtain ⟨n, ns, hs⟩ := List.exists_cons_of_ne_nil (pieces_ne_nil s)
      rw [pieces_cons hc hs] at h
      rw [hs] at ih
      rcases List.mem_cons.mp h with rfl | h
      · rw [List.mem_cons, not_or]
        exact ⟨Ne.symm hc, ih List.mem_cons_self⟩
      · exact ih (List.mem_cons_of_mem n h)

/-- Pieces are what their text is cut into. -/
theorem pieces_ofPieces {ps : List Name} (hne : ps ≠ []) (h : ∀ p ∈ ps, '/' ∉ p) :
    pieces (ofPieces ps) = ps := by
  induction ps with
  | nil => exact absurd rfl hne
  | cons p ps ih =>
    have hp := pieces_of_no_slash (h p List.mem_cons_self)
    cases ps with
    | nil => exact hp
    | cons q ps =>
      have hrest := ih (List.cons_ne_nil q ps) fun r hr => h r (List.mem_cons_of_mem p hr)
      rw [ofPieces, pieces_append_slash, hp, hrest, List.singleton_append]
      exact List.cons_ne_nil q ps

/-- A path is absolute when it has an empty piece first and another one. -/
theorem isAbsolute_iff (s : PathStr) :
    isAbsolute s = true ↔ ∃ p ps, pieces s = [] :: p :: ps := by
  cases s with
  | nil => simp [isAbsolute, pieces]
  | cons c s =>
    obtain ⟨n, ns, hs⟩ := List.exists_cons_of_ne_nil (pieces_ne_nil s)
    by_cases hc : c = '/'
    · subst hc
      simp [isAbsolute, hs]
    · simp [isAbsolute, hc, pieces_cons hc hs]

theorem parent_concat (absolute : Bool) (cs : List Comp) (c : Comp) :
    parent ⟨absolute, cs ++ [c]⟩ = some ⟨absolute, cs⟩ := by
  have hne : cs ++ [c] ≠ [] := List.append_ne_nil_of_right_ne_nil _ (List.cons_ne_nil _ _)
  rw [parent, if_neg hne, List.dropLast_concat]

/-! ## Parts of a file name -/

theorem toComp_of_length {n : Name} (h : 3 ≤ n.length) : toComp n = some (.name n) := by
  have short (l : Name) (hl : l.length < 3) : n ≠ l := by
    rintro rfl
    omega
  unfold toComp
  rw [if_neg (short [] (by decide)), if_neg (short ['.'] (by decide)),
    if_neg (short ['.', '.'] (by decide))]

theorem mem_splitAtDot_fst {n : Name} {c : Char} (h : c ∈ (splitAtDot n).1) : c ∈ n := by
  unfold splitAtDot at h
  dsimp only at h
  split_ifs at h
  · exact h
  · have hrev := List.mem_of_mem_drop (List.mem_reverse.mp h)
    exact List.mem_reverse.mp ((List.dropWhile_sublist _).subset hrev)

theorem mem_splitAtDot_snd {n ext : Name} {c : Char} (h : (splitAtDot n).2 = some ext)
    (hc : c ∈ ext) : c ∈ n := by
  unfold splitAtDot at h
  dsimp only at h
  split_ifs at h
  cases h
  exact List.mem_reverse.mp ((List.takeWhile_sublist _).subset (List.mem_reverse.mp hc))

/-- The last component is a piece, and so has no slash. -/
theorem fileName_no_slash {s : PathStr} {n : Name} (h : fileName s = some n) : '/' ∉ n := by
  unfold fileName at h
  split at h
  · rename_i hlast
    cases h
    obtain ⟨piece, hpiece, hname⟩ := List.mem_filterMap.mp (List.mem_of_getLast? hlast)
    unfold toComp at hname
    split_ifs at hname
    · cases hname
    · cases hname
      exact pieces_no_slash hpiece
  · cases h

/-- What is cut at the dot is put together again. -/
theorem eq_of_splitAtDot {n ext : Name} (h : (splitAtDot n).2 = some ext) :
    n = (splitAtDot n).1 ++ '.' :: ext := by
  have hsplit := List.takeWhile_append_dropWhile (p := (· ≠ '.')) (l := n.reverse)
  unfold splitAtDot at h ⊢
  dsimp only at h ⊢
  split_ifs at h ⊢ with hbefore
  cases h
  cases hdrop : n.reverse.dropWhile (· ≠ '.') with
  | nil =>
    rw [hdrop] at hbefore
    exact absurd rfl hbefore
  | cons c before =>
    have hdot : c = '.' := by
      have hnot := List.head?_dropWhile_not (· ≠ '.') n.reverse
      rw [hdrop] at hnot
      exact not_not.mp (of_decide_eq_false hnot)
    rw [hdrop, hdot] at hsplit
    rw [List.drop_one, List.tail_cons]
    have hrev := congrArg List.reverse hsplit
    rw [List.reverse_append, List.reverse_reverse, List.reverse_cons, List.append_assoc] at hrev
    exact hrev.symm

/-- A name and an extension are cut where they were put together. -/
theorem splitAtDot_append {n ext : Name} (hn : n ≠ []) (hext : '.' ∉ ext) :
    splitAtDot (n ++ '.' :: ext) = (n, some ext) := by
  have hall : ∀ c ∈ ext.reverse, decide (c ≠ '.') = true := by
    intro c hc
    rw [decide_eq_true_eq]
    rintro rfl
    exact hext (List.mem_reverse.mp hc)
  have hrev : (n ++ '.' :: ext).reverse = ext.reverse ++ '.' :: n.reverse := by
    rw [List.reverse_append, List.reverse_cons, List.append_assoc, List.singleton_append]
  unfold splitAtDot
  rw [hrev, List.dropWhile_append_of_pos hall, List.takeWhile_append_of_pos hall]
  simp only [ne_eq, List.dropWhile_cons, List.takeWhile_cons, not_true_eq_false, decide_false,
    Bool.false_eq_true, if_false, List.drop_one, List.tail_cons, List.reverse_reverse, hn,
    List.append_nil]

/-- Text is put together again from its pieces. -/
theorem ofPieces_pieces (s : PathStr) : ofPieces (pieces s) = s := by
  induction s with
  | nil => rfl
  | cons c s ih =>
    obtain ⟨n, ns, hs⟩ := List.exists_cons_of_ne_nil (pieces_ne_nil s)
    by_cases hc : c = '/'
    · subst hc
      rw [pieces_slash, hs]
      rw [hs] at ih
      exact congrArg ('/' :: ·) ih
    · rw [pieces_cons hc hs]
      rw [hs] at ih
      cases ns with
      | nil => exact congrArg (c :: ·) ih
      | cons m ms => exact congrArg (c :: ·) ih

/-! ## Single slashes -/

/-- Where no slash comes first, and none behind another, only the last piece may be empty. -/
theorem pieces_of_isChain (t : PathStr) :
    (List.IsChain (fun c d => c ≠ '/' ∨ d ≠ '/') ('/' :: t) → ∀ p ∈ (pieces t).dropLast, p ≠ []) ∧
      ∀ c, c ≠ '/' → List.IsChain (fun c d => c ≠ '/' ∨ d ≠ '/') (c :: t) →
        ∀ p ∈ (pieces t).tail.dropLast, p ≠ [] := by
  induction t with
  | nil =>
    refine ⟨fun _ p hp => ?_, fun _ _ _ p hp => ?_⟩
    · cases hp
    · cases hp
  | cons d t ih =>
    obtain ⟨n, ns, hpieces⟩ := List.exists_cons_of_ne_nil (pieces_ne_nil t)
    by_cases hd : d = '/'
    · subst hd
      refine ⟨fun hchain => ?_, fun c hc hchain p hp => ?_⟩
      · exact absurd (List.isChain_cons_cons.mp hchain).1 (by simp)
      · rw [pieces_slash, List.tail_cons] at hp
        exact ih.1 (List.isChain_cons_cons.mp hchain).2 p hp
    · have hrest := ih.2 d hd
      rw [hpieces, List.tail_cons] at hrest
      rw [pieces_cons hd hpieces]
      refine ⟨fun hchain p hp => ?_, fun c hc hchain p hp => ?_⟩
      · have hns := hrest (List.isChain_cons_cons.mp hchain).2
        cases ns with
        | nil => cases hp
        | cons m ms =>
          rw [List.dropLast_cons_of_ne_nil (List.cons_ne_nil m ms)] at hp
          rcases List.mem_cons.mp hp with rfl | hp
          · exact List.cons_ne_nil d n
          · exact hns p hp
      · exact hrest (List.isChain_cons_cons.mp hchain).2 p hp

/-- The text without a slash at its end. -/
def trimSlash (t : PathStr) : PathStr := if t.getLast? = some '/' then t.dropLast else t

theorem trimSlash_slash (t : PathStr) : trimSlash (t ++ ['/']) = t := by
  rw [trimSlash, List.getLast?_concat, if_pos rfl, List.dropLast_concat]

theorem trimSlash_or (t : PathStr) : trimSlash t = t ∨ trimSlash t ++ ['/'] = t := by
  unfold trimSlash
  split_ifs with hlast
  · exact .inr (List.dropLast_append_getLast? '/' hlast)
  · exact .inl rfl

theorem mem_of_mem_trimSlash {t : PathStr} {c : Char} (h : c ∈ trimSlash t) : c ∈ t := by
  unfold trimSlash at h
  split_ifs at h
  · exact List.mem_of_mem_dropLast h
  · exact h

/-- Text ends in a slash, or its last piece has the last character. -/
theorem trimSlash_cases {t : PathStr} (ht : t ≠ []) :
    (∃ u, t = u ++ ['/'] ∧ trimSlash t = u ∧ pieces t = pieces u ++ [[]]) ∨
      (trimSlash t = t ∧ tip t ≠ []) := by
  obtain ⟨u, c, rfl⟩ := (List.eq_nil_or_concat' t).resolve_left ht
  by_cases hc : c = '/'
  · subst hc
    exact .inl ⟨u, rfl, trimSlash_slash u, pieces_append_slash u []⟩
  · refine .inr ⟨?_, ?_⟩
    · rw [trimSlash, List.getLast?_concat, if_neg fun h => hc (Option.some.inj h)]
    · have hslash : '/' ∉ [c] := fun h => hc (List.mem_singleton.mp h).symm
      rw [tip_append u [c] hslash]
      exact List.append_ne_nil_of_right_ne_nil _ (List.cons_ne_nil _ _)

/-- The pieces of the text without its last slash are not empty. -/
theorem pieces_trimSlash {t : PathStr} (ht : t ≠ [])
    (hchain : List.IsChain (fun c d => c ≠ '/' ∨ d ≠ '/') ('/' :: t)) :
    (∀ p ∈ pieces (trimSlash t), p ≠ []) ∧
      (parse t).comps = (pieces (trimSlash t)).filterMap toComp := by
  have hpieces := (pieces_of_isChain t).1 hchain
  rcases trimSlash_cases ht with ⟨u, -, htrim, hsplit⟩ | ⟨htrim, htip⟩
  · rw [hsplit, List.dropLast_concat] at hpieces
    rw [htrim]
    refine ⟨hpieces, ?_⟩
    show (pieces t).filterMap toComp = _
    rw [hsplit, List.filterMap_append]
    exact List.append_nil _
  · rw [htrim]
    refine ⟨fun p hp => ?_, rfl⟩
    rw [← List.dropLast_append_getLast (pieces_ne_nil t), List.mem_append] at hp
    rcases hp with hp | hp
    · exact hpieces p hp
    · rw [List.mem_singleton.mp hp]
      exact htip

theorem mem_of_mem_pieces {t : PathStr} {p : Name} {c : Char} (hp : p ∈ pieces t) (hc : c ∈ p) :
    c ∈ t := by
  induction t generalizing p with
  | nil =>
    obtain rfl := List.mem_singleton.mp hp
    exact hc
  | cons d t ih =>
    by_cases hd : d = '/'
    · subst hd
      rw [pieces_slash] at hp
      rcases List.mem_cons.mp hp with rfl | hp
      · cases hc
      · exact List.mem_cons_of_mem _ (ih hp hc)
    · obtain ⟨n, ns, hpieces⟩ := List.exists_cons_of_ne_nil (pieces_ne_nil t)
      rw [pieces_cons hd hpieces] at hp
      rw [hpieces] at ih
      rcases List.mem_cons.mp hp with rfl | hp
      · rcases List.mem_cons.mp hc with rfl | hc
        · exact List.mem_cons_self
        · exact List.mem_cons_of_mem _ (ih List.mem_cons_self hc)
      · exact List.mem_cons_of_mem _ (ih (List.mem_cons_of_mem _ hp) hc)

/-- Without dots every piece that is not empty is a name. -/
theorem filterMap_toComp {ps : List Name} (hne : ∀ p ∈ ps, p ≠ []) (hdot : ∀ p ∈ ps, '.' ∉ p) :
    ps.filterMap toComp = ps.map .name := by
  rw [← List.filterMap_eq_map]
  refine List.filterMap_congr fun p hp => ?_
  have hnodot : ∀ l : Name, '.' ∈ l → p ≠ l := fun l hl h => hdot p hp (h ▸ hl)
  unfold toComp
  rw [if_neg (hne p hp), if_neg (hnodot _ (by simp)), if_neg (hnodot _ (by simp))]
  rfl

/-! ## Another file name -/

section WithFileName

variable {s : PathStr} {n new : Name} (hs : fileName s = some n)
  (hnew : toComp new = some (.name new)) (hslash : '/' ∉ new)

include hs in
theorem comps_fileName : ∃ cs, (parse s).comps = cs ++ [.name n] := by
  unfold fileName at hs
  split at hs
  · rename_i hlast
    cases hs
    exact List.getLast?_eq_some_iff.mp hlast
  · cases hs

include hs hslash in
theorem pieces_withFileName : pieces (withFileName s new) = swapTip new (pieces s) := by
  unfold withFileName
  rw [hs, if_neg (Option.some_ne_none n)]
  refine pieces_ofPieces (swapTip_ne_nil new _) fun p hp => ?_
  rcases mem_swapTip hp with rfl | hp
  · exact hslash
  · exact pieces_no_slash hp

include hs hnew hslash in
/-- It is the same path up to its last component. -/
theorem parse_withFileName : parse (withFileName s new) =
    ⟨isAbsolute s, (parse s).comps.dropLast ++ [.name new]⟩ := by
  have hpieces := pieces_withFileName hs hslash
  have hcomps : (parse (withFileName s new)).comps = (parse s).comps.dropLast ++ [.name new] := by
    show (pieces (withFileName s new)).filterMap toComp = _
    rw [hpieces]
    exact swapTip_comps hnew (pieces s)
  have habs : isAbsolute (withFileName s new) = isAbsolute s := by
    obtain ⟨cs, hcs⟩ := comps_fileName hs
    have hne : new ≠ [] := by
      rintro rfl
      cases hnew
    rw [Bool.eq_iff_iff, isAbsolute_iff, isAbsolute_iff, hpieces]
    cases hp : pieces s with
    | nil => exact absurd hp (pieces_ne_nil s)
    | cons p ps =>
      have hall : (p :: ps).filterMap toComp = cs ++ [.name n] := hp ▸ hcs
      unfold swapTip
      split_ifs with hlast
      · -- the name is the only component, so what stands before it is none
        have hp0 : p ≠ [] := by
          rintro rfl
          exact hlast.2 rfl
        simp [hne, hp0]
      · cases ps with
        | nil =>
          cases hp' : toComp p with
          | none =>
            rw [List.filterMap_cons_none hp'] at hall
            simp at hall
          | some c => exact absurd ⟨rfl, by rw [hp']; exact Option.some_ne_none c⟩ hlast
        | cons q ps =>
          obtain ⟨r, rs, hr⟩ := List.exists_cons_of_ne_nil (swapTip_ne_nil new (q :: ps))
          rw [hr]
          simp
  rw [← habs, ← hcomps]
  rfl

end WithFileName

end Kit.UnixPath
