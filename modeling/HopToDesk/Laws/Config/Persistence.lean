import HopToDesk.Config.Persistence

/-!
# What comes back from the files

Text comes back as it was stored where it is not too long and is not an encryption itself
(`Storable`): then it is stored encrypted, or is empty. Text that is too long is stored as nothing,
and an encryption comes back decrypted, which is shorter (`loaded_stored_eq_iff`). An empty
temporary password or id is drawn anew.
-/

set_option autoImplicit false
set_option linter.dupNamespace false

namespace HopToDesk.Config

open Kit Text

/-! ## Encrypted text -/

section

variable (crypt : SymmetricCrypt) (base64 : Base64)

/-- The text of sealed data, with its version. -/
def encryption (data : List UInt8) : Text := ['0', '0'] ++ base64.encode (crypt.sealData data)

/-- The text is an encryption. -/
def IsEncrypted (s : Text) : Prop := ∃ data, s = encryption crypt base64 data

/-- The text is stored so that it is loaded again. -/
def Storable (s : Text) : Prop :=
  ¬ IsEncrypted crypt base64 s ∧ (utf8 s).length ≤ encryptMaxLen

variable {crypt base64}

/-- An encryption is longer than what it encrypts. -/
theorem length_encryption (data : List UInt8) :
    data.length + 18 ≤ (encryption crypt base64 data).length := by
  have hlength := base64.length_le (crypt.sealData data)
  rw [crypt.length_seal] at hlength
  rw [encryption, List.length_append]
  simp only [List.length_cons, List.length_nil]
  omega

theorem not_isEncrypted_of_length_lt {s : Text} (h : s.length < 18) :
    ¬ IsEncrypted crypt base64 s := by
  rintro ⟨data, rfl⟩
  have hlength : data.length + 18 ≤ (encryption crypt base64 data).length :=
    length_encryption data
  omega

theorem decrypted_eq_some_iff {s : Text} {data : List UInt8} :
    decrypted crypt base64 s = some data ↔ s = encryption crypt base64 data := by
  unfold decrypted decrypt encryption
  constructor
  · intro h
    rw [Option.ite_none_right_eq_some, Option.ite_none_right_eq_some] at h
    obtain ⟨⟨-, t, rfl⟩, -, h⟩ := h
    obtain ⟨sealed, hdecode, hopen⟩ := Option.bind_eq_some_iff.mp h
    have ht := (base64.decode_eq_some_iff _ _).mp hdecode
    rw [(crypt.openSealed_eq_some_iff _ _).mp hopen] at ht
    exact congrArg _ ht
  · rintro rfl
    have hlength := base64.length_le (crypt.sealData data)
    rw [crypt.length_seal] at hlength
    have hne : base64.encode (crypt.sealData data) ≠ [] := by
      intro h
      rw [h, List.length_nil] at hlength
      omega
    have hlong := length_le_utf8 (['0', '0'] ++ base64.encode (crypt.sealData data))
    rw [List.length_append] at hlong
    simp only [List.length_cons, List.length_nil] at hlong
    have hdrop : (['0', '0'] ++ base64.encode (crypt.sealData data)).drop versionLen =
        base64.encode (crypt.sealData data) := rfl
    rw [if_pos ⟨by unfold versionLen; omega, List.prefix_append _ _⟩, hdrop, if_pos hne,
      base64.decode_of_encode]
    exact (crypt.openSealed_eq_some_iff _ _).mpr rfl

theorem loaded_encryption (data : List UInt8) :
    loaded crypt base64 (encryption crypt base64 data) = (fromUtf8Lossy data, true, false) := by
  unfold loaded decryptStrOrOriginal
  rw [decrypted_eq_some_iff.mpr rfl]
  rfl

theorem loaded_of_not_isEncrypted {s : Text} (h : ¬ IsEncrypted crypt base64 s) :
    loaded crypt base64 s = (s, false, !s.isEmpty) := by
  have hnone : decrypted crypt base64 s = none := by
    rw [Option.eq_none_iff_forall_not_mem]
    exact fun data hdata => h ⟨data, decrypted_eq_some_iff.mp hdata⟩
  unfold loaded decryptStrOrOriginal
  rw [hnone]

theorem not_isEncrypted_nil : ¬ IsEncrypted crypt base64 [] :=
  not_isEncrypted_of_length_lt (Nat.zero_lt_succ _)

theorem loaded_nil : loaded crypt base64 [] = ([], false, false) :=
  loaded_of_not_isEncrypted not_isEncrypted_nil

/-! ## Stored text -/

/-- An encryption is stored as it is. -/
theorem stored_encryption (data : List UInt8) :
    stored crypt base64 (encryption crypt base64 data) = encryption crypt base64 data := by
  have hloaded : loaded crypt base64 (encryption crypt base64 data) =
      (fromUtf8Lossy data, true, false) := loaded_encryption data
  unfold loaded at hloaded
  unfold stored encryptStrOrOriginal
  rw [hloaded]
  rfl

theorem stored_of_not_isEncrypted {s : Text} (h : ¬ IsEncrypted crypt base64 s) :
    stored crypt base64 s =
      if (utf8 s).length > encryptMaxLen then []
      else if s = [] then [] else encryption crypt base64 (utf8 s) := by
  have hloaded := loaded_of_not_isEncrypted h
  unfold loaded at hloaded
  unfold stored encryptStrOrOriginal
  rw [hloaded, if_neg Bool.false_ne_true]
  by_cases hlong : (utf8 s).length > encryptMaxLen
  · rw [if_pos hlong, if_pos hlong]
  · have hversion : passwordEncVersion = ['0', '0'] := rfl
    rw [if_neg hlong, if_neg hlong, if_pos hversion]
    unfold encrypt
    by_cases hempty : s = []
    · rw [if_pos hempty, hempty]
      rfl
    · have hne : utf8 s ≠ [] := by
        intro hnil
        have hlength := length_le_utf8 s
        rw [hnil, List.length_nil, Nat.le_zero, List.length_eq_zero_iff] at hlength
        exact hempty hlength
      rw [if_neg hempty, if_pos ⟨hne, Nat.not_lt.mp hlong⟩]
      rfl

/-- What is storable is stored encrypted. -/
theorem loaded_stored {s : Text} (h : Storable crypt base64 s) (hne : s ≠ []) :
    loaded crypt base64 (stored crypt base64 s) = (s, true, false) := by
  rw [stored_of_not_isEncrypted h.1, if_neg (Nat.not_lt.mpr h.2), if_neg hne, loaded_encryption,
    fromUtf8Lossy_utf8]

theorem stored_nil : stored crypt base64 [] = [] := by
  rw [stored_of_not_isEncrypted not_isEncrypted_nil, if_pos rfl, ite_self]

/-- What is not storable is an encryption, which is loaded as something shorter, or is stored as
nothing. -/
theorem not_storable_cases {s : Text} (h : ¬ Storable crypt base64 s) :
    (∃ t flag, stored crypt base64 s = s ∧ s ≠ [] ∧
      loaded crypt base64 s = (t, true, flag) ∧ t.length < s.length) ∨
      (stored crypt base64 s = [] ∧ encryptMaxLen < (utf8 s).length) := by
  by_cases hencrypted : IsEncrypted crypt base64 s
  · obtain ⟨data, rfl⟩ := hencrypted
    have hlength : data.length + 18 ≤ (encryption crypt base64 data).length :=
      length_encryption data
    have hlossy := length_fromUtf8Lossy_le data
    refine .inl ⟨_, _, stored_encryption data, ?_, loaded_encryption data, by omega⟩
    intro hnil
    rw [hnil, List.length_nil] at hlength
    omega
  · have hlong : encryptMaxLen < (utf8 s).length := by
      by_contra hle
      exact h ⟨hencrypted, Nat.not_lt.mp hle⟩
    refine .inr ⟨?_, hlong⟩
    rw [stored_of_not_isEncrypted hencrypted, if_pos hlong]

/-- Text is loaded as it was stored exactly where it is storable. -/
theorem loaded_stored_eq_iff (s : Text) :
    (loaded crypt base64 (stored crypt base64 s)).1 = s ↔ Storable crypt base64 s := by
  by_cases h : Storable crypt base64 s
  · refine iff_of_true ?_ h
    by_cases hempty : s = []
    · rw [hempty, stored_nil, loaded_nil]
    · rw [loaded_stored h hempty]
  · refine iff_of_false ?_ h
    rcases not_storable_cases h with ⟨t, flag, hstored, -, hloaded, hshorter⟩ | ⟨hstored, hlong⟩
    · rw [hstored, hloaded]
      intro heq
      dsimp only at heq
      rw [heq] at hshorter
      omega
    · rw [hstored, loaded_nil]
      intro heq
      dsimp only at heq
      rw [← heq] at hlong
      exact absurd hlong (Nat.not_lt_zero _)

/-! ## Drawn text -/

theorem length_autoPassword (rng : Rng) (n : Nat) : (rng.autoPassword n).length = n := by
  rw [Rng.autoPassword, List.length_map, List.length_range]

theorem length_autoId (rng : Rng) : 0 < rng.autoId.length ∧ rng.autoId.length ≤ 9 := by
  have hid := rng.id.isLt
  refine ⟨Nat.length_toDigits_pos, ?_⟩
  exact (Nat.length_toDigits_le_iff (by decide) (by decide)).mpr (by omega)

/-- What is not storable is longer than anything drawn. -/
theorem length_gt_of_not_storable {s : Text} (h : ¬ Storable crypt base64 s) : 16 < s.length := by
  by_contra hshort
  refine h ⟨not_isEncrypted_of_length_lt (by omega), ?_⟩
  have hutf8 := utf8_length_le s
  unfold encryptMaxLen
  omega

variable {settings : Settings}

theorem temporaryPasswordLength_bounds (options : Options) :
    0 < temporaryPasswordLength settings options ∧
      temporaryPasswordLength settings options ≤ 10 := by
  unfold temporaryPasswordLength
  dsimp only
  split_ifs <;> omega

/-! ## One start -/

/-- The temporary password comes back where it is not empty, and storable. -/
theorem loadTemporaryPassword_eq_iff {options : Options} {rng : Rng} {file : Config} {p : Text}
    (hon : settings.getOption options "unattended-access" = "true")
    (hfile : file.temporaryPassword = stored crypt base64 p) :
    (file.loadTemporaryPassword crypt base64 settings options rng).1 = p ↔
      p ≠ [] ∧ Storable crypt base64 p := by
  have hbounds : 0 < temporaryPasswordLength settings options ∧
      temporaryPasswordLength settings options ≤ 10 := temporaryPasswordLength_bounds options
  have hdrawn := length_autoPassword rng (temporaryPasswordLength settings options)
  unfold Config.loadTemporaryPassword
  rw [hfile]
  by_cases hstored : stored crypt base64 p = []
  · have hnot : ¬ (p ≠ [] ∧ Storable crypt base64 p) := by
      rintro ⟨hne, hstorable⟩
      have hback := loaded_stored hstorable hne
      rw [hstored, loaded_nil] at hback
      exact hne (congrArg Prod.fst hback).symm
    rw [hstored, if_pos (.inr rfl)]
    refine iff_of_false ?_ hnot
    intro heq
    dsimp only at heq
    rw [heq] at hdrawn
    have hne : p ≠ [] := List.ne_nil_of_length_pos (by omega)
    have hlong := length_gt_of_not_storable fun hstorable => hnot ⟨hne, hstorable⟩
    omega
  · have hcond : ¬ (settings.getOption options "unattended-access" ≠ "true" ∨
        (stored crypt base64 p).length = 0) := by
      rintro (hoff | hnil)
      · exact hoff hon
      · exact hstored (List.length_eq_zero_iff.mp hnil)
    rw [if_neg hcond]
    refine (loaded_stored_eq_iff p).trans (iff_and_self.mpr ?_)
    rintro - rfl
    exact hstored stored_nil

/-- An id that is not storable comes back as another one, or not at all. -/
theorem loadId_of_not_storable {rng : Rng} {file : Config} {id : Text} (hid : file.id = [])
    (hfile : file.encId = stored crypt base64 id) (h : ¬ Storable crypt base64 id) :
    (file.loadId crypt base64 rng).1.length < id.length := by
  unfold Config.loadId
  rw [hfile, hid]
  rcases not_storable_cases h with ⟨t, flag, hstored, -, hloaded, hshorter⟩ | ⟨hstored, -⟩
  · rw [hstored, hloaded]
    exact hshorter
  · have hdrawn := length_autoId rng
    have hlong := length_gt_of_not_storable h
    rw [hstored, loaded_nil]
    exact Nat.lt_of_le_of_lt hdrawn.2 (by omega)

theorem loadId_of_storable {rng : Rng} {file : Config} {id : Text}
    (hfile : file.encId = stored crypt base64 id) (h : Storable crypt base64 id) (hne : id ≠ []) :
    (file.loadId crypt base64 rng).1 = id := by
  unfold Config.loadId
  rw [hfile, loaded_stored h hne]
  rfl

namespace Process

theorem start_config2 (s : Process) (rng : Rng) :
    (s.start crypt base64 settings rng).config2 = (s.file2.load crypt base64).1 := by
  unfold start
  dsimp only
  split_ifs <;> rfl

theorem start_config (s : Process) (rng : Rng) :
    (s.start crypt base64 settings rng).config =
      (s.file.load crypt base64 settings s.file2.options rng).1 := by
  unfold start
  dsimp only
  split_ifs <;> rfl

/-! ## The getters -/

theorem setId_spec (s : Process) (id : Text) :
    (s.setId crypt base64 id).config = { s.config with id } ∧
      (s.setId crypt base64 id).config2 = s.config2 := by
  unfold setId
  split
  next hsame => exact ⟨by rw [hsame], rfl⟩
  next => exact ⟨rfl, rfl⟩

theorem setSalt_spec (s : Process) (salt : Text) :
    (s.setSalt crypt base64 salt).config = { s.config with salt } ∧
      (s.setSalt crypt base64 salt).config2 = s.config2 := by
  unfold setSalt
  split
  next hsame => exact ⟨by rw [hsame], rfl⟩
  next => exact ⟨rfl, rfl⟩

theorem getId_spec (s : Process) (rng : Rng) :
    (s.getId crypt base64 rng).1 = (if s.config.id = [] then rng.autoId else s.config.id) ∧
      (s.getId crypt base64 rng).2.config =
        { s.config with id := (s.getId crypt base64 rng).1 } ∧
      (s.getId crypt base64 rng).2.config2 = s.config2 := by
  unfold getId
  split
  next => exact ⟨rfl, s.setId_spec rng.autoId⟩
  next => exact ⟨rfl, rfl, rfl⟩

theorem getSalt_spec (s : Process) (rng : Rng) :
    (s.getSalt crypt base64 rng).1 =
        (if s.config.salt = [] then rng.autoPassword 6 else s.config.salt) ∧
      (s.getSalt crypt base64 rng).2.config =
        { s.config with salt := (s.getSalt crypt base64 rng).1 } ∧
      (s.getSalt crypt base64 rng).2.config2 = s.config2 := by
  unfold getSalt
  split
  next => exact ⟨rfl, s.setSalt_spec (rng.autoPassword 6)⟩
  next => exact ⟨rfl, rfl, rfl⟩

/-- The getters change the id and the salt to what they return, and nothing else. -/
theorem values_spec (s : Process) (rng : Rng) :
    (s.values crypt base64 rng).2.config =
        { s.config with
          id := (s.values crypt base64 rng).1.id
          salt := (s.values crypt base64 rng).1.salt } ∧
      (s.values crypt base64 rng).2.config2 = s.config2 ∧
      (s.values crypt base64 rng).1 =
        ⟨if s.config.id = [] then rng.autoId else s.config.id, s.config.temporaryPassword,
          s.config.permanentPassword,
          if s.config.salt = [] then rng.autoPassword 6 else s.config.salt,
          s.config2.unlockPin⟩ := by
  obtain ⟨hid, hconfig, hconfig2⟩ := getId_spec s rng
  obtain ⟨hsalt, hconfig', hconfig2'⟩ := getSalt_spec (s.getId crypt base64 rng).2 rng
  rw [hconfig] at hconfig' hsalt
  rw [hconfig2] at hconfig2'
  unfold values
  dsimp only
  rw [hconfig', hconfig2', hid, hsalt]
  exact ⟨rfl, rfl, rfl⟩

/-! ## Storing and starting again -/

/-- What comes back is the salt, and everything else that is storable. -/
structure GivenBack (crypt : SymmetricCrypt) (base64 : Base64) (before after : Values) : Prop where
  id : after.id = before.id ↔ Storable crypt base64 before.id
  temporaryPassword : after.temporaryPassword = before.temporaryPassword ↔
    before.temporaryPassword ≠ [] ∧ Storable crypt base64 before.temporaryPassword
  permanentPassword : after.permanentPassword = before.permanentPassword ↔
    Storable crypt base64 before.permanentPassword
  salt : after.salt = before.salt
  unlockPin : after.unlockPin = before.unlockPin ↔ Storable crypt base64 before.unlockPin

theorem restart_config2 (s : Process) (rng : Rng) :
    (s.restart crypt base64 settings rng).config2 =
      ((s.config2.store crypt base64).load crypt base64).1 :=
  start_config2 _ rng

theorem restart_config (s : Process) (rng : Rng) :
    (s.restart crypt base64 settings rng).config =
      ((s.config.store crypt base64).load crypt base64 settings s.config2.options rng).1 :=
  start_config _ rng

/-- What the getters return where there are an id and a salt. -/
def current (s : Process) : Values :=
  ⟨s.config.id, s.config.temporaryPassword, s.config.permanentPassword, s.config.salt,
    s.config2.unlockPin⟩

theorem values_ne_nil (s : Process) (rng : Rng) :
    (s.values crypt base64 rng).1.id ≠ [] ∧ (s.values crypt base64 rng).1.salt ≠ [] := by
  obtain ⟨-, -, hvalues⟩ := values_spec s rng
  rw [hvalues]
  constructor
  · dsimp only
    split
    next => exact List.ne_nil_of_length_pos (length_autoId rng).1
    next hne => exact hne
  · dsimp only
    split
    next =>
      refine List.ne_nil_of_length_pos ?_
      rw [length_autoPassword]
      exact Nat.zero_lt_succ _
    next hne => exact hne

theorem givenBack_restart (s : Process) (rng rng' : Rng)
    (hon : settings.getOption s.config2.options "unattended-access" = "true")
    (hid : s.config.id ≠ []) (hsalt : s.config.salt ≠ []) :
    GivenBack crypt base64 s.current
      ((s.restart crypt base64 settings rng).values crypt base64 rng').1 := by
  obtain ⟨-, -, hvalues⟩ := values_spec (s.restart crypt base64 settings rng) rng'
  rw [hvalues, restart_config, restart_config2]
  constructor
  · have hloaded : ((s.config.store crypt base64).load crypt base64 settings s.config2.options
        rng).1.id = ((s.config.store crypt base64).loadId crypt base64 rng).1 := rfl
    dsimp only [current]
    rw [hloaded]
    by_cases h : Storable crypt base64 s.config.id
    · have hback : ((s.config.store crypt base64).loadId crypt base64 rng).1 = s.config.id :=
        loadId_of_storable rfl h hid
      rw [hback, if_neg hid]
      exact iff_of_true rfl h
    · have hshorter : ((s.config.store crypt base64).loadId crypt base64 rng).1.length <
          s.config.id.length := loadId_of_not_storable rfl rfl h
      have hlong := length_gt_of_not_storable h
      have hdrawn := length_autoId rng'
      refine iff_of_false (fun heq => ?_) h
      rw [← heq] at hshorter hlong
      split at hshorter
      next hnone =>
        rw [if_pos hnone] at hlong
        omega
      next => omega
  · exact loadTemporaryPassword_eq_iff hon rfl
  · exact loaded_stored_eq_iff _
  · exact if_neg hsalt
  · exact loaded_stored_eq_iff _

theorem givenBack_of_getters (s : Process) (rng rng' rng'' : Rng)
    (hon : settings.getOption s.config2.options "unattended-access" = "true") :
    GivenBack crypt base64 (s.beforeAndAfter crypt base64 settings rng rng' rng'').1
      (s.beforeAndAfter crypt base64 settings rng rng' rng'').2 := by
  obtain ⟨hconfig, hconfig2, hvalues⟩ := values_spec s rng
  obtain ⟨hid, hsalt⟩ := values_ne_nil s rng
  have hcurrent : (s.values crypt base64 rng).2.current = (s.values crypt base64 rng).1 := by
    unfold current
    rw [hconfig, hconfig2, hvalues]
  have hback : GivenBack crypt base64 (s.values crypt base64 rng).2.current
      (((s.values crypt base64 rng).2.restart crypt base64 settings rng').values crypt base64
        rng'').1 := by
    refine givenBack_restart _ rng' rng'' ?_ ?_ ?_
    · rw [hconfig2]
      exact hon
    · rw [hconfig]
      exact hid
    · rw [hconfig]
      exact hsalt
  rw [hcurrent] at hback
  exact hback

/-! ## Setters -/

/-- No setter changes the options. -/
theorem options_set (s : Process) (setter : Setter) :
    (s.set crypt base64 setter).config2.options = s.config2.options := by
  cases setter with
  | setId id => rw [set, (s.setId_spec id).2]
  | setSalt salt => rw [set, (s.setSalt_spec salt).2]
  | setTemporaryPassword password =>
    show (s.setTemporaryPassword crypt base64 password).config2.options = s.config2.options
    unfold setTemporaryPassword
    split <;> rfl
  | setPermanentPassword password =>
    show (s.setPermanentPassword crypt base64 password).config2.options = s.config2.options
    unfold setPermanentPassword
    split <;> rfl
  | setUnlockPin pin =>
    show (s.setUnlockPin crypt base64 pin).config2.options = s.config2.options
    unfold setUnlockPin
    split <;> rfl

theorem options_setAll (s : Process) (setters : List Setter) :
    (s.setAll crypt base64 setters).config2.options = s.config2.options := by
  induction setters generalizing s with
  | nil => rfl
  | cons setter setters ih => exact (ih _).trans (s.options_set setter)

/-- After any setters, the salt comes back as the getter returned it, and so does exactly what is
storable. -/
theorem givenBack_setAll (s : Process) (setters : List Setter) (rng rng' rng'' : Rng)
    (hon : settings.getOption s.config2.options "unattended-access" = "true") :
    GivenBack crypt base64
      ((s.setAll crypt base64 setters).beforeAndAfter crypt base64 settings rng rng' rng'').1
      ((s.setAll crypt base64 setters).beforeAndAfter crypt base64 settings rng rng' rng'').2 := by
  refine givenBack_of_getters _ rng rng' rng'' ?_
  rw [options_setAll]
  exact hon

end Process

end

/-! ## Runs -/

/-- A box that puts zeros in front of the data. -/
def SymmetricCrypt.zeros : SymmetricCrypt where
  sealData data := List.replicate 16 0 ++ data
  openSealed sealed :=
    if sealed.take 16 = List.replicate 16 0 then some (sealed.drop 16) else none
  openSealed_eq_some_iff sealed data := by
    rw [Option.ite_none_right_eq_some, Option.some.injEq]
    constructor
    · rintro ⟨htag, rfl⟩
      rw [← htag, List.take_append_drop]
    · rintro rfl
      exact ⟨List.take_left' List.length_replicate, List.drop_left' List.length_replicate⟩
  length_seal data := by
    rw [List.length_append, List.length_replicate, Nat.add_comm]

namespace Process

/-- Nothing is kept but that unattended access is on. -/
def unattended : Process where
  config := .default
  config2 := { Config2.default with
    options := Function.update (fun _ => none) "unattended-access" (some "true") }
  file := .default
  file2 := .default

/-- The settings of a process without defaults. -/
def noSettings : Settings := ⟨fun _ => none, fun _ => none⟩

theorem unattended_on :
    noSettings.getOption unattended.config2.options "unattended-access" = "true" := by decide

def firstDraws : Rng := ⟨fun _ => 0, 0⟩

theorem givenBack_secret :
    GivenBack .zeros .original
      ((unattended.setAll .zeros .original [.setPermanentPassword "secret".toList]).beforeAndAfter
        .zeros .original noSettings firstDraws firstDraws firstDraws).1
      ((unattended.setAll .zeros .original [.setPermanentPassword "secret".toList]).beforeAndAfter
        .zeros .original noSettings firstDraws firstDraws firstDraws).2 :=
  givenBack_setAll unattended _ firstDraws firstDraws firstDraws unattended_on

/-- A password of 129 characters comes back as none. -/
theorem not_givenBack_long :
    ¬ ∀ (crypt : SymmetricCrypt) (base64 : Base64) (settings : Settings) (s : Process)
        (setters : List Setter) (rng rng' rng'' : Rng),
      settings.getOption s.config2.options "unattended-access" = "true" →
        ((s.setAll crypt base64 setters).beforeAndAfter crypt base64 settings rng rng' rng'').2 =
          ((s.setAll crypt base64 setters).beforeAndAfter crypt base64 settings rng rng'
            rng'').1 := by
  intro hall
  obtain ⟨long, hlong⟩ : ∃ long : Text, long = List.replicate 129 'a' := ⟨_, rfl⟩
  have hlength : long.length = 129 := by rw [hlong, List.length_replicate]
  obtain ⟨s, hs⟩ : ∃ s, s = unattended.setPermanentPassword .zeros .original long := ⟨_, rfl⟩
  have hset : s.config.permanentPassword = long := by
    have hnew : ¬ long = unattended.config.permanentPassword := by
      rintro rfl
      cases hlength
    rw [hs, setPermanentPassword, if_neg hnew]
    rfl
  have hon : noSettings.getOption s.config2.options "unattended-access" = "true" := by
    rw [hs]
    exact (options_set unattended (.setPermanentPassword long)).symm ▸ unattended_on
  have hsame := hall .zeros .original noSettings unattended [.setPermanentPassword long]
    firstDraws firstDraws firstDraws unattended_on
  have hback : GivenBack .zeros .original
      (s.beforeAndAfter .zeros .original noSettings firstDraws firstDraws firstDraws).1
      (s.beforeAndAfter .zeros .original noSettings firstDraws firstDraws firstDraws).2 :=
    givenBack_of_getters s firstDraws firstDraws firstDraws hon
  have hbefore : (s.beforeAndAfter .zeros .original noSettings firstDraws firstDraws
      firstDraws).1.permanentPassword = long := by
    rw [← hset]
    exact congrArg Values.permanentPassword (values_spec s firstDraws).2.2
  have hrun : unattended.setAll .zeros .original [.setPermanentPassword long] = s := hs.symm
  rw [hrun] at hsame
  obtain ⟨-, hshort⟩ := hback.permanentPassword.mp (congrArg Values.permanentPassword hsame)
  rw [hbefore] at hshort
  have hutf8 := length_le_utf8 long
  unfold encryptMaxLen at hshort
  omega

end Process

end HopToDesk.Config
