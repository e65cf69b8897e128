import HopToDesk.Config.PeerFile

/-!
# Which ids have a file of their own

The path of a peer is that of the directory, with the components of the encoded id behind it and an
extension on the last one (`parse_path`). An id that is a name has one component. The base 64 of an
id has one more for each slash in it; there are never two slashes in a row, and none comes first,
since no byte of UTF-8 begins with six ones.

So ids that are encoded never meet, but an id that reads like an encoded one meets the id it reads
like, and the empty id meets the dot (`parse_path_eq_iff`). An id is known by its file again where
its base 64 has no slash, or where it is not encoded, is a name and does not read like one that is
(`named_iff`); such ids do not meet at all (`ownFiles_iff`).
-/

set_option autoImplicit false

namespace HopToDesk.Config

open Kit Text UnixPath

/-! ## The extension -/

theorem fileName_eq_some {s : PathStr} {cs : List Comp} {n : Name}
    (h : (parse s).comps = cs ++ [.name n]) : fileName s = some n := by
  unfold fileName
  rw [h, List.getLast?_concat]

theorem withExtension_of_none {p : PathStr} (h : fileName p = none) : withExtension p = p := by
  unfold withExtension extension UnixPath.withExtension fileStem
  rw [h]
  rfl

/-- The extension is put to the last component, whether it has one or not. -/
theorem parse_withExtension {p : PathStr} {n : Name} (h : fileName p = some n) :
    parse (withExtension p) =
      ⟨isAbsolute p, (parse p).comps.dropLast ++ [.name (n ++ ".toml".toList)]⟩ := by
  have hname : withExtension p = withFileName p (n ++ ".toml".toList) := by
    unfold withExtension extension UnixPath.withExtension fileStem
    rw [h, Option.bind_some, Option.map_some]
    cases hext : (splitAtDot n).2 with
    | none =>
      have hwhole : (splitAtDot n).1 = n := by
        unfold splitAtDot at hext ⊢
        dsimp only at hext ⊢
        split_ifs at hext ⊢
        rfl
      dsimp only
      rw [hwhole, if_neg (by decide)]
      rfl
    | some ext =>
      have hsplit := eq_of_splitAtDot hext
      have hne : ext ++ ".toml".toList ≠ [] :=
        List.append_ne_nil_of_right_ne_nil _ (by decide)
      dsimp only
      rw [if_neg hne]
      conv_rhs => rw [hsplit]
      rw [List.append_assoc, List.cons_append]
  have hlong : 3 ≤ (n ++ ".toml".toList).length := by
    rw [List.length_append]
    exact Nat.le_add_left_of_le (by decide)
  have hslash : '/' ∉ n ++ ".toml".toList := by
    rw [List.mem_append, not_or]
    exact ⟨fileName_no_slash h, by decide⟩
  rw [hname]
  exact parse_withFileName h (toComp_of_length hlong) hslash

namespace PeerConfig

/-- Components with the extension on the last one, if it is a name. -/
def toml (cs : List Comp) : List Comp :=
  match cs.getLast? with
  | some (.name n) => cs.dropLast ++ [.name (n ++ ".toml".toList)]
  | _ => cs

theorem toml_name (cs : List Comp) (n : Name) :
    toml (cs ++ [.name n]) = cs ++ [.name (n ++ ".toml".toList)] := by
  unfold toml
  rw [List.getLast?_concat]
  dsimp only
  rw [List.dropLast_concat]

theorem toml_up (cs : List Comp) : toml (cs ++ [.up]) = cs ++ [.up] := by
  unfold toml
  rw [List.getLast?_concat]

theorem toml_nil : toml [] = [] := rfl

/-- The extension tells what it is put to. -/
theorem toml_injective : Function.Injective toml := by
  intro cs cs' h
  rcases List.eq_nil_or_concat' cs with rfl | ⟨as, a, rfl⟩
  · rcases List.eq_nil_or_concat' cs' with rfl | ⟨as', a', rfl⟩
    · rfl
    · cases a' with
      | name n => simp [toml_name, toml_nil] at h
      | up => simp [toml_up, toml_nil] at h
  · rcases List.eq_nil_or_concat' cs' with rfl | ⟨as', a', rfl⟩
    · cases a with
      | name n => simp [toml_name, toml_nil] at h
      | up => simp [toml_up, toml_nil] at h
    · cases a with
      | name n =>
        cases a' with
        | name n' =>
          rw [toml_name, toml_name] at h
          obtain ⟨rfl, hlast⟩ := List.append_inj' h rfl
          simp only [List.cons.injEq, Comp.name.injEq, List.append_cancel_right_eq,
            and_true] at hlast
          rw [hlast]
        | up =>
          rw [toml_name, toml_up] at h
          cases (List.append_inj' h rfl).2
      | up =>
        cases a' with
        | name n' =>
          rw [toml_name, toml_up] at h
          cases (List.append_inj' h rfl).2
        | up => rwa [toml_up, toml_up] at h

section

variable (base64 : Base64.Standard) (dir : PathStr)

/-- An id is no absolute path, since one with a slash is encoded. -/
theorem isAbsolute_idEncoded (id : Text) : isAbsolute (idEncoded base64 id) = false := by
  unfold idEncoded
  split
  next => rfl
  next hplain =>
    unfold isAbsolute
    rw [decide_eq_false_iff_not]
    intro hhead
    refine hplain (List.any_eq_true.mpr ⟨'/', List.mem_of_head? hhead, by decide⟩)

/-- The components of the path before the extension is put to it. -/
theorem comps_join_idEncoded (id : Text) :
    (parse (join dir (join PEERS (idEncoded base64 id)))).comps =
      (parse dir).comps ++ .name PEERS :: (parse (idEncoded base64 id)).comps := by
  have hid := isAbsolute_idEncoded base64 id
  have hpeers : (parse PEERS).comps = [.name PEERS] := by decide
  rw [comps_join dir ((isAbsolute_join PEERS hid).trans rfl), comps_join PEERS hid, hpeers]
  rfl

theorem parse_path (id : Text) :
    parse (path base64 dir id) =
      ⟨isAbsolute dir,
        (parse dir).comps ++ toml (.name PEERS :: (parse (idEncoded base64 id)).comps)⟩ := by
  have hid := isAbsolute_idEncoded base64 id
  have habsolute : isAbsolute (join dir (join PEERS (idEncoded base64 id))) = isAbsolute dir :=
    isAbsolute_join dir ((isAbsolute_join PEERS hid).trans rfl)
  have hcomps := comps_join_idEncoded base64 dir id
  obtain ⟨cs, last, hlast⟩ : ∃ cs last,
      .name PEERS :: (parse (idEncoded base64 id)).comps = cs ++ [last] := by
    rcases List.eq_nil_or_concat' (.name PEERS :: (parse (idEncoded base64 id)).comps) with
      hnil | hconcat
    · cases hnil
    · exact hconcat
  rw [hlast, ← List.append_assoc] at hcomps
  rw [hlast]
  cases last with
  | name n =>
    unfold path
    rw [parse_withExtension (fileName_eq_some hcomps), habsolute, hcomps, List.dropLast_concat,
      toml_name, List.append_assoc]
  | up =>
    have hnone : fileName (join dir (join PEERS (idEncoded base64 id))) = none := by
      unfold fileName
      rw [hcomps, List.getLast?_concat]
    unfold path
    rw [withExtension_of_none hnone, toml_up, ← List.append_assoc, ← hcomps, ← habsolute]
    rfl

/-- Two ids have the same path where their encoded ids have the same components. -/
theorem parse_path_eq_iff_comps (id id' : Text) :
    parse (path base64 dir id) = parse (path base64 dir id') ↔
      (parse (idEncoded base64 id)).comps = (parse (idEncoded base64 id')).comps := by
  rw [parse_path, parse_path, Parsed.mk.injEq, List.append_cancel_left_eq,
    toml_injective.eq_iff, List.cons.injEq]
  exact ⟨fun h => h.2.2, fun h => ⟨rfl, rfl, h⟩⟩

/-! ## The components of an encoded id -/

variable {id : Text}

theorem idEncoded_of_forbidden (h : isForbidden id = true) :
    idEncoded base64 id = encodedPrefix ++ base64.encode (utf8 id) := by
  rw [idEncoded, if_pos h]

theorem idEncoded_of_plain (h : isForbidden id = false) : idEncoded base64 id = id := by
  rw [idEncoded, if_neg (Bool.eq_false_iff.mp h)]

theorem slash_not_mem_of_plain (h : isForbidden id = false) : '/' ∉ id := by
  intro hmem
  have hall := List.any_eq_false.mp h '/' hmem
  exact hall (by decide)

/-- A plain id is a component, or none. -/
theorem comps_of_plain (h : isForbidden id = false) :
    (parse (idEncoded base64 id)).comps = (toComp id).toList := by
  rw [idEncoded_of_plain base64 h]
  show (pieces id).filterMap toComp = _
  rw [pieces_of_no_slash (slash_not_mem_of_plain h)]
  rfl

theorem isChain_idEncoded (h : isForbidden id = true) :
    List.IsChain (fun c d => c ≠ '/' ∨ d ≠ '/') ('/' :: idEncoded base64 id) := by
  have hencoded := Base64.isChain_encodeOriginal
    (fun b (hb : b ∈ utf8 id) => toNat_lt_of_mem_utf8 hb) '_'
  rw [← base64.encode_eq] at hencoded
  rw [idEncoded_of_forbidden base64 h]
  have hbegins : encodedPrefix = ['b', 'a', 's', 'e', '6', '4'] ++ ['_'] := by decide
  rw [hbegins]
  simp only [List.cons_append, List.nil_append, List.isChain_cons_cons]
  refine ⟨?_, ?_, ?_, ?_, ?_, ?_, ?_, hencoded⟩ <;> decide

theorem dot_not_mem_idEncoded (h : isForbidden id = true) : '.' ∉ idEncoded base64 id := by
  rw [idEncoded_of_forbidden base64 h, base64.encode_eq, List.mem_append, not_or]
  exact ⟨by decide, Base64.dot_not_mem_encodeOriginal _⟩

theorem idEncoded_ne_nil (h : isForbidden id = true) : idEncoded base64 id ≠ [] := by
  rw [idEncoded_of_forbidden base64 h]
  exact List.append_ne_nil_of_left_ne_nil (by decide) _

/-- An encoded id has a component for each of its pieces, but for a slash at its end. -/
theorem comps_of_forbidden (h : isForbidden id = true) :
    (parse (idEncoded base64 id)).comps =
      (pieces (trimSlash (idEncoded base64 id))).map .name := by
  obtain ⟨hpieces, hcomps⟩ :=
    pieces_trimSlash (idEncoded_ne_nil base64 h) (isChain_idEncoded base64 h)
  rw [hcomps]
  refine filterMap_toComp hpieces fun p hp hdot => dot_not_mem_idEncoded base64 h ?_
  exact mem_of_mem_trimSlash (mem_of_mem_pieces hp hdot)

/-! ## Ids with the same path -/

theorem toComp_eq_none {n : Name} : toComp n = none ↔ n ∈ [[], ['.']] := by
  unfold toComp
  split_ifs <;> simp_all

theorem toComp_eq_name {n m : Name} (h : toComp n = some (.name m)) : n = m := by
  unfold toComp at h
  split_ifs at h
  · cases h
  · cases h
    rfl

theorem toComp_injective {n m : Name} (h : toComp n = toComp m) (hn : toComp n ≠ none) :
    n = m := by
  cases hc : toComp n with
  | none => exact absurd hc hn
  | some c =>
    rw [hc] at h
    cases c with
    | up => rw [toComp_up hc, toComp_up h.symm]
    | name k => rw [toComp_eq_name hc, toComp_eq_name h.symm]

variable {id' : Text}

theorem comps_plain_eq_iff (h : isForbidden id = false) (h' : isForbidden id' = false) :
    (parse (idEncoded base64 id)).comps = (parse (idEncoded base64 id')).comps ↔
      id = id' ∨ (id ∈ [[], ['.']] ∧ id' ∈ [[], ['.']]) := by
  rw [comps_of_plain base64 h, comps_of_plain base64 h']
  constructor
  · intro hlist
    have heq := congrArg List.head? hlist
    rw [Option.head?_toList, Option.head?_toList] at heq
    by_cases hnone : toComp id = none
    · exact .inr ⟨toComp_eq_none.mp hnone, toComp_eq_none.mp (heq ▸ hnone)⟩
    · exact .inl (toComp_injective heq hnone)
  · rintro (rfl | ⟨hid, hid'⟩)
    · rfl
    · rw [toComp_eq_none.mpr hid, toComp_eq_none.mpr hid']

/-- Base 64 without its slash at the end is told by its length. -/
theorem comps_forbidden_eq_iff (h : isForbidden id = true) (h' : isForbidden id' = true) :
    (parse (idEncoded base64 id)).comps = (parse (idEncoded base64 id')).comps ↔ id = id' := by
  refine ⟨fun hcomps => ?_, fun heq => by rw [heq]⟩
  rw [comps_of_forbidden base64 h, comps_of_forbidden base64 h',
    (List.map_injective_iff.mpr fun _ _ => Comp.name.inj).eq_iff] at hcomps
  have htrim := congrArg ofPieces hcomps
  rw [ofPieces_pieces, ofPieces_pieces] at htrim
  have htext : idEncoded base64 id = idEncoded base64 id' := by
    have hfour := Base64.four_dvd_length (utf8 id)
    have hfour' := Base64.four_dvd_length (utf8 id')
    rw [← base64.encode_eq] at hfour hfour'
    have hlen := congrArg List.length (idEncoded_of_forbidden base64 h)
    have hlen' := congrArg List.length (idEncoded_of_forbidden base64 h')
    rw [List.length_append] at hlen hlen'
    rcases trimSlash_or (idEncoded base64 id) with hid | hid <;>
      rcases trimSlash_or (idEncoded base64 id') with hid' | hid'
    · rw [← hid, htrim, hid']
    · rw [← hid', ← htrim, hid, List.length_append] at hlen'
      simp only [List.length_singleton] at hlen'
      omega
    · rw [← hid, htrim, hid', List.length_append] at hlen
      simp only [List.length_singleton] at hlen
      omega
    · rw [← hid, htrim, hid']
  rw [idEncoded_of_forbidden base64 h, idEncoded_of_forbidden base64 h',
    List.append_cancel_left_eq] at htext
  have hbytes := base64.encode_injective htext
  rw [← fromUtf8Lossy_utf8 id, hbytes, fromUtf8Lossy_utf8]

/-- The components of an encoded id are one where the text of it is, up to a slash at the end. -/
theorem comps_plain_eq_forbidden_iff (h : isForbidden id = false) (h' : isForbidden id' = true) :
    (parse (idEncoded base64 id)).comps = (parse (idEncoded base64 id')).comps ↔
      trimSlash (idEncoded base64 id') = id := by
  have hslash := slash_not_mem_of_plain h
  constructor
  · rw [comps_of_plain base64 h, comps_of_forbidden base64 h']
    intro hcomps
    obtain ⟨p, ps, hpieces⟩ :=
      List.exists_cons_of_ne_nil (pieces_ne_nil (trimSlash (idEncoded base64 id')))
    rw [hpieces, List.map_cons] at hcomps
    cases hc : toComp id with
    | none =>
      rw [hc] at hcomps
      cases hcomps
    | some c =>
      rw [hc, Option.toList_some, List.cons.injEq] at hcomps
      obtain ⟨rfl, hrest⟩ := hcomps
      rw [List.map_eq_nil_iff.mp hrest.symm] at hpieces
      rw [toComp_eq_name hc, ← ofPieces_pieces (trimSlash _), hpieces]
      rfl
  · intro htrim
    have hpieces := pieces_of_no_slash hslash
    have hcomps := comps_of_forbidden base64 h'
    have hparse := (pieces_trimSlash (idEncoded_ne_nil base64 h')
      (isChain_idEncoded base64 h')).2
    rw [hparse, htrim, hpieces, comps_of_plain base64 h]
    rfl

/-- **Which ids have the same path**: the empty one and the dot, and one that reads like an encoded
id with the id it reads like. -/
theorem parse_path_eq_iff (id id' : Text) :
    parse (path base64 dir id) = parse (path base64 dir id') ↔
      id = id' ∨ Collide base64 id id' := by
  have hempty {id : Text} (h : isForbidden id = true) : id ∉ [[], ['.']] := by
    intro hmem
    simp only [List.mem_cons, List.not_mem_nil, or_false] at hmem
    rcases hmem with rfl | rfl <;> cases h
  have hdiffer {id id' : Text} (h : isForbidden id = false) (h' : isForbidden id' = true) :
      id ≠ id' := by
    rintro rfl
    rw [h] at h'
    cases h'
  rw [parse_path_eq_iff_comps]
  unfold Collide Shadows
  cases h : isForbidden id with
  | false =>
    cases h' : isForbidden id' with
    | false =>
      rw [comps_plain_eq_iff base64 h h']
      simp only [Bool.false_eq_true, false_and, and_false, or_false]
      tauto
    | true =>
      rw [comps_plain_eq_forbidden_iff base64 h h']
      have hne := hdiffer h h'
      have hid' := hempty h'
      simp only [Bool.true_eq_false, false_and, true_and, or_false, hid', and_false, false_or, hne,
        not_false_eq_true, ne_eq]
  | true =>
    have hid := hempty h
    cases h' : isForbidden id' with
    | false =>
      rw [eq_comm, comps_plain_eq_forbidden_iff base64 h' h]
      have hne := (hdiffer h' h).symm
      simp only [Bool.true_eq_false, false_and, true_and, false_or, hid, hne, not_false_eq_true,
        ne_eq]
    | true =>
      rw [comps_forbidden_eq_iff base64 h h']
      simp only [Bool.true_eq_false, false_and, and_false, or_false, hid]

/-! ## Ids that are known by their files -/

theorem parse_peers :
    parse (join dir PEERS) = ⟨isAbsolute dir, (parse dir).comps ++ [.name PEERS]⟩ := by
  have hpeers : isAbsolute PEERS = false := rfl
  have hname : (parse PEERS).comps = [.name PEERS] := by decide
  rw [← isAbsolute_join dir hpeers, ← hname, ← comps_join dir hpeers]
  rfl

variable {base64 dir}

/-- The components of the id of a named peer are one name. -/
theorem Named.comps (hnamed : Named base64 dir id) :
    ∃ n, (parse (idEncoded base64 id)).comps = [.name n] := by
  have hinside := hnamed.inside
  have hlisted := hnamed.listed
  have hpath := parse_path base64 dir id
  rw [parse_peers] at hinside
  rcases List.eq_nil_or_concat' (parse (idEncoded base64 id)).comps with hnil | ⟨cs, c, hcs⟩
  · -- the extension went to the directory itself
    have htoml : toml [.name PEERS] = [] ++ [.name (PEERS ++ ".toml".toList)] := toml_name [] PEERS
    rw [hpath, hnil, htoml, List.nil_append, parent_concat, Option.some.injEq,
      Parsed.mk.injEq] at hinside
    simp at hinside
  · rw [hcs, ← List.cons_append] at hpath
    cases c with
    | up =>
      have hnone : fileName (path base64 dir id) = none := by
        rw [fileName, hpath, toml_up]
        dsimp only
        rw [← List.append_assoc, List.getLast?_concat]
      rw [isPeerFile, extension, hnone] at hlisted
      cases hlisted
    | name n =>
      rw [hpath, toml_name, ← List.append_assoc, parent_concat, Option.some.injEq,
        Parsed.mk.injEq] at hinside
      simp at hinside
      exact ⟨n, by rw [hcs, hinside]; rfl⟩

section

variable {n : Name} (hcomps : (parse (idEncoded base64 id)).comps = [.name n])

include hcomps

theorem name_ne_nil : n ≠ [] := by
  rintro rfl
  have hmem : Comp.name [] ∈ (pieces (idEncoded base64 id)).filterMap toComp := by
    show _ ∈ (parse _).comps
    rw [hcomps]
    exact List.mem_singleton_self _
  obtain ⟨piece, -, hpiece⟩ := List.mem_filterMap.mp hmem
  rw [toComp_eq_name hpiece] at hpiece
  cases hpiece

theorem parse_path_name : parse (path base64 dir id) =
    ⟨isAbsolute dir, (parse dir).comps ++ [.name PEERS] ++ [.name (n ++ ".toml".toList)]⟩ := by
  have htoml : toml ([.name PEERS] ++ [.name n]) = [.name PEERS] ++ [.name (n ++ ".toml".toList)] :=
    toml_name [.name PEERS] n
  rw [parse_path, hcomps, ← List.singleton_append, htoml, List.append_assoc]

theorem fileName_path : fileName (path base64 dir id) = some (n ++ '.' :: "toml".toList) :=
  fileName_eq_some (congrArg Parsed.comps (parse_path_name hcomps))

theorem splitAtDot_name : splitAtDot (n ++ '.' :: "toml".toList) = (n, some "toml".toList) :=
  splitAtDot_append (name_ne_nil hcomps) (by decide)

/-- A peer whose encoded id is a name is named where its id is derived from that name. -/
theorem named_iff_of_comps : Named base64 dir id ↔ idOfFile base64 (path base64 dir id) = id := by
  refine ⟨Named.derived, fun hderived => ⟨?_, ?_, hderived⟩⟩
  · rw [parse_path_name hcomps, parent_concat, parse_peers]
  · rw [isPeerFile, extension, fileName_path hcomps, Option.bind_some, splitAtDot_name hcomps]
    rfl

theorem idOfFile_path : idOfFile base64 (path base64 dir id) =
    if encodedPrefix <+: n ∧ (utf8 n).length ≠ 7 then
      fromUtf8Lossy ((base64.decode (n.drop 7)).getD [])
    else n := by
  have hstem : fileStem (path base64 dir id) = some n := by
    rw [fileStem, fileName_path hcomps, Option.map_some, splitAtDot_name hcomps]
  rw [idOfFile, hstem, Option.getD_some]

end

variable (base64) in
/-- What is decoded is not longer than its text. -/
theorem length_decoded_le (t : Text) :
    (fromUtf8Lossy ((base64.decode t).getD [])).length ≤ t.length := by
  cases hdecode : base64.decode t with
  | none => exact Nat.zero_le _
  | some bytes =>
    have hlossy := length_fromUtf8Lossy_le bytes
    have hencode := base64.length_le bytes
    rw [← (base64.decode_eq_some_iff t bytes).mp hdecode] at hencode
    exact hlossy.trans hencode

/-- A plain id is known again where it does not read like an encoded one. -/
theorem named_plain_iff (h : isForbidden id = false) : Named base64 dir id ↔
    id ∉ [[], ['.'], ['.', '.']] ∧ (encodedPrefix <+: id → id = encodedPrefix) := by
  have hplain := comps_of_plain base64 h
  have hname : id ∉ [[], ['.'], ['.', '.']] → toComp id = some (.name id) := by
    intro hid
    simp only [List.mem_cons, List.not_mem_nil, or_false, not_or] at hid
    rw [toComp, if_neg hid.1, if_neg hid.2.1, if_neg hid.2.2]
  constructor
  · intro hnamed
    obtain ⟨n, hn⟩ := hnamed.comps
    have hderived := hnamed.derived
    have hcomp := congrArg List.head? (hplain.symm.trans hn)
    rw [Option.head?_toList, List.head?_cons] at hcomp
    obtain rfl := toComp_eq_name hcomp
    refine ⟨fun hid => ?_, fun hbegins => ?_⟩
    · simp only [List.mem_cons, List.not_mem_nil, or_false] at hid
      rcases hid with rfl | rfl | rfl <;> cases hcomp
    · obtain ⟨rest, hrest⟩ := hbegins
      by_contra hne
      have hseven : encodedPrefix.length = 7 := by decide
      have hlength := congrArg List.length hrest
      rw [List.length_append, hseven] at hlength
      have hpositive : rest.length ≠ 0 := by
        intro hnil
        rw [List.length_eq_zero_iff.mp hnil, List.append_nil] at hrest
        exact hne hrest.symm
      have hutf8 := length_le_utf8 id
      -- what is decoded is shorter than the id
      have hshort := length_decoded_le base64 (id.drop 7)
      rw [idOfFile_path hn, if_pos ⟨⟨rest, hrest⟩, by omega⟩] at hderived
      rw [hderived, List.length_drop] at hshort
      omega
  · rintro ⟨hid, hbegins⟩
    rw [hname hid] at hplain
    rw [named_iff_of_comps hplain, idOfFile_path hplain, if_neg]
    rintro ⟨hstarts, hlength⟩
    rw [hbegins hstarts] at hlength
    exact hlength (by decide)

theorem ne_nil_of_forbidden (h : isForbidden id = true) : id ≠ [] := by
  rintro rfl
  cases h

variable (base64) in
/-- The base 64 of an encoded id has four characters at least. -/
theorem length_encode_of_forbidden (h : isForbidden id = true) :
    4 ≤ (base64.encode (utf8 id)).length ∧ 4 ∣ (base64.encode (utf8 id)).length := by
  have hpositive := List.length_pos_of_ne_nil (ne_nil_of_forbidden h)
  have hutf8 := length_le_utf8 id
  have hencode := base64.length_le (utf8 id)
  have hfour := Base64.four_dvd_length (utf8 id)
  rw [← base64.encode_eq] at hfour
  exact ⟨Nat.le_of_dvd (by omega) hfour, hfour⟩

variable (base64) in
/-- What an encoded id is named by starts as all of them do, and goes on. -/
theorem prefix_trimSlash (h : isForbidden id = true) :
    encodedPrefix <+: trimSlash (idEncoded base64 id) ∧
      10 ≤ (trimSlash (idEncoded base64 id)).length := by
  have hencode := (length_encode_of_forbidden base64 h).1
  have hseven : encodedPrefix.length = 7 := by decide
  have htext := idEncoded_of_forbidden base64 h
  have hbegins : encodedPrefix <+: idEncoded base64 id := htext ▸ List.prefix_append _ _
  have hlength := congrArg List.length htext
  rw [List.length_append, hseven] at hlength
  rcases trimSlash_or (idEncoded base64 id) with htrim | htrim
  · rw [htrim]
    exact ⟨hbegins, by omega⟩
  · rw [← htrim] at hbegins
    rw [← htrim, List.length_append, List.length_singleton] at hlength
    have hshort : encodedPrefix.length ≤ (trimSlash (idEncoded base64 id)).length := by omega
    exact ⟨List.prefix_of_prefix_length_le hbegins (List.prefix_append _ _) hshort, by omega⟩

/-- Base 64 without its slash at the end is not base 64. -/
theorem not_derived_of_slash (h : isForbidden id = true) {n : Name}
    (hcomps : (parse (idEncoded base64 id)).comps = [.name n])
    (hlast : n ++ ['/'] = idEncoded base64 id) :
    idOfFile base64 (path base64 dir id) ≠ id := by
  have hencode := length_encode_of_forbidden base64 h
  have hseven : encodedPrefix.length = 7 := by decide
  have htrim : trimSlash (idEncoded base64 id) = n := hlast ▸ trimSlash_slash n
  obtain ⟨hbegins, hlong⟩ := prefix_trimSlash base64 h
  rw [htrim] at hbegins hlong
  have hlength := congrArg List.length (hlast.trans (idEncoded_of_forbidden base64 h))
  rw [List.length_append, List.length_append, hseven, List.length_singleton] at hlength
  have hnone : base64.decode (n.drop 7) = none := by
    cases hdecode : base64.decode (n.drop 7) with
    | none => rfl
    | some bytes =>
      have hfour := Base64.four_dvd_length bytes
      rw [← base64.encode_eq, ← (base64.decode_eq_some_iff _ _).mp hdecode,
        List.length_drop] at hfour
      omega
  have hutf8 := length_le_utf8 n
  rw [idOfFile_path hcomps, if_pos ⟨hbegins, by omega⟩, hnone]
  exact (ne_nil_of_forbidden h).symm

/-- An encoded id is known again where its base 64 is one piece. -/
theorem named_forbidden_iff (h : isForbidden id = true) :
    Named base64 dir id ↔ '/' ∉ base64.encode (utf8 id) := by
  have htext := idEncoded_of_forbidden base64 h
  have hcomps := comps_of_forbidden base64 h
  constructor
  · intro hnamed hslash
    obtain ⟨n, hn⟩ := hnamed.comps
    have hpieces : pieces (trimSlash (idEncoded base64 id)) = [n] := by
      obtain ⟨p, hp, hname⟩ := List.map_eq_singleton_iff.mp (hcomps.symm.trans hn)
      cases hname
      exact hp
    have htrim : trimSlash (idEncoded base64 id) = n := by
      rw [← ofPieces_pieces (trimSlash _), hpieces]
      rfl
    have hn_slash : '/' ∉ n := pieces_no_slash (hpieces ▸ List.mem_singleton_self n)
    -- a slash that is no separator is the last character
    have hlast : n ++ ['/'] = idEncoded base64 id := by
      rw [← htrim]
      refine (trimSlash_or _).resolve_left fun heq => hn_slash ?_
      rw [← htrim, heq, htext]
      exact List.mem_append_right _ hslash
    exact not_derived_of_slash h hn hlast hnamed.derived
  · intro hslash
    have hname : '/' ∉ idEncoded base64 id := by
      rw [htext, List.mem_append, not_or]
      exact ⟨by decide, hslash⟩
    have htrim : trimSlash (idEncoded base64 id) = idEncoded base64 id :=
      (trimSlash_or _).resolve_right fun hlast => hname (hlast ▸ List.mem_concat_self)
    rw [htrim, pieces_of_no_slash hname, List.map_singleton] at hcomps
    have hbegins : encodedPrefix <+: idEncoded base64 id := htext ▸ List.prefix_append _ _
    have hlength : (utf8 (idEncoded base64 id)).length ≠ 7 := by
      have hutf8 := length_le_utf8 (idEncoded base64 id)
      have hencode := length_encode_of_forbidden base64 h
      have hseven : encodedPrefix.length = 7 := by decide
      rw [htext, List.length_append, hseven, ← htext] at hutf8
      omega
    have hdrop : (idEncoded base64 id).drop 7 = base64.encode (utf8 id) := by
      rw [htext]
      rfl
    rw [named_iff_of_comps hcomps, idOfFile_path hcomps, if_pos ⟨hbegins, hlength⟩, hdrop,
      base64.decode_of_encode, Option.getD_some, fromUtf8Lossy_utf8]

theorem named_iff : Named base64 dir id ↔ Nameable base64 id := by
  unfold Nameable
  cases h : isForbidden id with
  | false => exact named_plain_iff h
  | true => exact named_forbidden_iff h

/-- Ids that are named do not collide. -/
theorem not_collide (h : Nameable base64 id) (h' : Nameable base64 id') :
    ¬ Collide base64 id id' := by
  have hshadows {p e : Text} (hp : Nameable base64 p) : ¬ Shadows base64 p e := by
    rintro ⟨hplain, hforbidden, htrim⟩
    obtain ⟨hbegins, hlong⟩ := prefix_trimSlash base64 hforbidden
    rw [Nameable, if_neg (Bool.eq_false_iff.mp hplain)] at hp
    rw [htrim] at hbegins hlong
    rw [hp.2 hbegins] at hlong
    revert hlong
    decide
  rintro ⟨-, ⟨hid, -⟩ | hid | hid⟩
  · simp only [List.mem_cons, List.not_mem_nil, or_false] at hid
    rcases hid with rfl | rfl <;> exact h.1 (by decide)
  · exact hshadows h hid
  · exact hshadows h' hid

end

end PeerConfig

end HopToDesk.Config
