import HopToDesk.Client.PasswordMemory

/-!
# Which passwords are remembered

A session is followed with the origin of the password that its handler has. What `handle_hash` can
come to is said once (`Found`), and what holds of a handler and its origin is kept by every call
(`Remembers.apply`), as long as `handle_hash` does not, while passwords are to be remembered, log in
with the preset password or take a shared one on to another salt. A call that does is all it takes
for the wrong password to be remembered (`remembered_rightly_iff`).
-/

set_option autoImplicit false

namespace HopToDesk.Client

open Kit Kit.Text Kit.System

namespace PasswordMemory

variable {sha : Sha256} {base64 : Base64} {parseUuid : Text → Option (List UInt8)}
  {s : LoginConfigHandler} {call : HashCall}

/-- Where the password of a handler comes from. -/
inductive Origin
  | nothing
  | typed (password salt : Text) (remember : Bool)
  | preset (password salt : Text)
  | shared (password salt : Text)
  | saved
  | personalAb (hash : List UInt8)
deriving DecidableEq, Repr

/-- The origin after `handle_hash`: the default password counts as a shared one. -/
def HashCall.origin (base64 : Base64) (parseUuid : Text → Option (List UInt8)) (call : HashCall)
    (s : LoginConfigHandler) (origin : Origin) : Origin :=
  let salt := call.hash.salt
  if (s.switchUuid.bind parseUuid).isSome then origin
  else if s.sharedPassword.getD [] ≠ [] then .shared (s.sharedPassword.getD []) salt
  else if s.password ≠ [] then origin
  else if call.passwordPreset ≠ [] then .preset call.passwordPreset salt
  else if s.config.password ≠ [] then .saved
  else
    ((personalAbPassword base64 s.id call).map .personalAb).getD
      (if call.defaultConnectPassword ≠ [] then .shared call.defaultConnectPassword salt
      else .nothing)

/-- The origin after a call. -/
def Event.origin (base64 : Base64) (parseUuid : Text → Option (List UInt8))
    (s : LoginConfigHandler) (origin : Origin) : Event → Origin
  | hash call => call.origin base64 parseUuid s origin
  | loginFromUi _ _ password remember =>
    if password ≠ [] then .typed password s.hash.salt remember
    else if s.password = [] ∧ s.config.password ≠ [] then .saved
    else origin
  | loginError err =>
    if err = "Empty Password".toList ∨ err = "Wrong Password".toList then .nothing else origin
  | peerInfo => origin
  | reconnect => origin

/-- A handler, and the origin of its password. -/
structure Session where
  handler : LoginConfigHandler
  origin : Origin

section

variable (sha : Sha256) (base64 : Base64) (parseUuid : Text → Option (List UInt8))

def Session.next (x : Session) (event : Event) : Session :=
  ⟨event.apply sha base64 parseUuid x.handler, event.origin base64 parseUuid x.handler x.origin⟩

/-- Any sequence of calls, for any peer and whatever is stored of it. -/
def memory : System Session Event where
  init x := ∃ id isTerminal isTerminalAdmin switchUuid sharedPassword stored,
    x = ⟨.initialized id isTerminal isTerminalAdmin switchUuid sharedPassword stored, .nothing⟩
  step x event x' := x' = x.next sha base64 parseUuid event

/-- If `handle_peer_info` comes now and changes the password that is stored, to one, then to one
that was typed with `remember` set, or to that of the personal address book. -/
def RemembersRightly (x : Session) : Prop :=
  let stored := (x.handler.handlePeerInfo sha).stored.password
  stored ≠ x.handler.stored.password → stored ≠ [] →
    (∃ password salt, x.origin = .typed password salt true ∧ stored = salted sha password salt) ∨
      x.origin = .personalAb stored

/-- While passwords are to be remembered, `handle_hash` does not log in with the preset password,
or the last one where it is shared and no longer recognised, unless that is stored already. -/
def Recognised (x : Session) : Event → Prop
  | .hash call =>
    let s := x.handler
    s.remember = true → s.switchUuid.bind parseUuid = none → s.sharedPassword.getD [] = [] →
      (s.password = [] → call.passwordPreset ≠ [] →
        salted sha call.passwordPreset call.hash.salt = s.stored.password) ∧
      ∀ password, s.password ≠ [] → s.passwordSource = .sharedAb password →
        s.password = s.stored.password ∨ s.passwordSource.isSharedAb sha s.password call.hash = true
  | _ => True

end

/-! ## What `handle_hash` finds -/

theorem salted_ne_nil (password salt : Text) : salted sha password salt ≠ [] := by
  rw [salted, ← List.length_pos_iff, sha.length_digest]
  decide

theorem personalAbPassword_ne_nil {hash : List UInt8} {id : Text}
    (h : personalAbPassword base64 id call = some hash) : hash ≠ [] := by
  unfold personalAbPassword at h
  split at h
  next =>
    simp only [Option.bind_eq_bind, Option.bind_eq_some_iff, Option.filter_eq_some_iff,
      decide_eq_true_eq] at h
    obtain ⟨entry, hentry, peer, hpeer, hdecode, hne⟩ := h
    exact hne
  next => cases h

/-- What `handle_hash` logs in with, if no switch is under way, and the origin of it. -/
inductive Found (sha : Sha256) (base64 : Base64) (s : LoginConfigHandler) (call : HashCall)
    (origin : Origin) : Candidate → Origin → Prop
  | shared (hshared : s.sharedPassword.getD [] ≠ []) :
      Found sha base64 s call origin
        ⟨salted sha (s.sharedPassword.getD []) call.hash.salt,
          .sharedAb (s.sharedPassword.getD [])⟩
        (.shared (s.sharedPassword.getD []) call.hash.salt)
  | last (hshared : s.sharedPassword.getD [] = []) (hlast : s.password ≠ []) :
      Found sha base64 s call origin ⟨s.password, s.passwordSource⟩ origin
  | preset (hshared : s.sharedPassword.getD [] = []) (hlast : s.password = [])
      (hpreset : call.passwordPreset ≠ []) :
      Found sha base64 s call origin
        ⟨salted sha call.passwordPreset call.hash.salt, .undefined⟩
        (.preset call.passwordPreset call.hash.salt)
  | saved (hlast : s.password = []) (hpreset : call.passwordPreset = [])
      (hsaved : s.config.password ≠ []) :
      Found sha base64 s call origin ⟨s.config.password, .undefined⟩ .saved
  | personalAb {hash : List UInt8} (hlast : s.password = []) (hpreset : call.passwordPreset = [])
      (hhash : hash ≠ []) :
      Found sha base64 s call origin ⟨hash, .personalAb hash⟩ (.personalAb hash)
  | default {password : Text} (hlast : s.password = []) (hpreset : call.passwordPreset = [])
      (hne : password ≠ []) :
      Found sha base64 s call origin
        ⟨salted sha password call.hash.salt, .sharedAb password⟩ (.shared password call.hash.salt)
  | nothing (hlast : s.password = []) (hpreset : call.passwordPreset = []) :
      Found sha base64 s call origin ⟨[], s.passwordSource⟩ .nothing

theorem orShared_of_ne {salt shared : Text} {sharedPassword : Option Text} (c : Candidate)
    (h : sharedPassword.getD [] = shared) (hne : shared ≠ []) :
    c.orShared sha salt sharedPassword = ⟨salted sha shared salt, .sharedAb shared⟩ := by
  cases sharedPassword with
  | none => exact absurd h.symm hne
  | some password =>
    obtain rfl : password = shared := h
    rw [Candidate.orShared, if_pos hne]

theorem orShared_of_nil {salt : Text} {sharedPassword : Option Text} (c : Candidate)
    (h : sharedPassword.getD [] = []) : c.orShared sha salt sharedPassword = c := by
  cases sharedPassword with
  | none => rfl
  | some password =>
    obtain rfl : password = [] := h
    rfl

theorem orConfig_of_ne {c : Candidate} (h : c.password ≠ []) (config : List UInt8) :
    c.orConfig config = c :=
  if_neg fun hfound => h hfound.1

theorem orPersonalAb_of_ne {c : Candidate} (h : c.password ≠ []) (hash : Option (List UInt8)) :
    c.orPersonalAb hash = c := by
  cases hash with
  | none => rfl
  | some hash => exact if_neg h

theorem orDefault_of_ne {c : Candidate} (h : c.password ≠ []) (salt password : Text) :
    c.orDefault sha salt password = c :=
  if_neg fun hfound => h hfound.1

/-- A password that is found is not looked for further. -/
theorem kept_of_ne {c : Candidate} (h : c.password ≠ []) (config : List UInt8)
    (hash : Option (List UInt8)) (salt password : Text) :
    ((c.orConfig config).orPersonalAb hash).orDefault sha salt password = c := by
  rw [orConfig_of_ne h, orPersonalAb_of_ne h, orDefault_of_ne h]

/-- Where there is neither a last nor a preset password. -/
theorem found_saved (base64 : Base64) (origin : Origin) (hlast : s.password = [])
    (hpreset : call.passwordPreset = []) :
    Found sha base64 s call origin
      (((⟨[], s.passwordSource⟩ : Candidate).orConfig s.config.password).orPersonalAb
        (personalAbPassword base64 s.id call) |>.orDefault sha call.hash.salt
          call.defaultConnectPassword)
      (if s.config.password ≠ [] then .saved
      else
        ((personalAbPassword base64 s.id call).map Origin.personalAb).getD
          (if call.defaultConnectPassword ≠ [] then
            .shared call.defaultConnectPassword call.hash.salt
          else .nothing)) := by
  by_cases hsaved : s.config.password = []
  · have hconfig : (⟨[], s.passwordSource⟩ : Candidate).orConfig s.config.password =
        ⟨[], s.passwordSource⟩ := if_neg fun hfound => hfound.2 hsaved
    rw [if_neg (not_not.mpr hsaved), hconfig]
    cases hpersonal : personalAbPassword base64 s.id call with
    | some hash =>
      have hne := personalAbPassword_ne_nil hpersonal
      have hfound : (⟨[], s.passwordSource⟩ : Candidate).orPersonalAb (some hash) =
          ⟨hash, .personalAb hash⟩ := rfl
      rw [hfound, orDefault_of_ne hne]
      exact .personalAb hlast hpreset hne
    | none =>
      simp only [Candidate.orPersonalAb, Candidate.orDefault, true_and, Option.map_none,
        Option.getD_none]
      split
      next hdefault => exact .default hlast hpreset hdefault
      next => exact .nothing hlast hpreset
  · have hconfig : (⟨[], s.passwordSource⟩ : Candidate).orConfig s.config.password =
        ⟨s.config.password, .undefined⟩ := if_pos ⟨rfl, hsaved⟩
    rw [if_pos hsaved, hconfig, orPersonalAb_of_ne hsaved, orDefault_of_ne hsaved]
    exact .saved hlast hpreset hsaved

open Candidate in
theorem found (sha : Sha256) (base64 : Base64) (call : HashCall)
    (hswitch : s.switchUuid.bind parseUuid = none) (origin : Origin) :
    Found sha base64 s call origin (candidate sha base64 s call)
      (call.origin base64 parseUuid s origin) := by
  simp only [HashCall.origin, hswitch, Option.isSome_none, Bool.false_eq_true, if_false, candidate]
  by_cases hshared : s.sharedPassword.getD [] = []
  · rw [if_neg (not_not.mpr hshared), orShared_of_nil _ hshared]
    by_cases hlast : s.password = []
    · rw [if_neg (not_not.mpr hlast)]
      by_cases hpreset : call.passwordPreset = []
      · have hnone : orPreset sha call.hash.salt call.passwordPreset
            ⟨s.password, s.passwordSource⟩ = ⟨[], s.passwordSource⟩ := by
          rw [hlast]
          exact if_neg fun hfound => hfound.2 hpreset
        rw [if_neg (not_not.mpr hpreset), hnone]
        exact found_saved base64 origin hlast hpreset
      · have hfirst : orPreset sha call.hash.salt call.passwordPreset
            ⟨s.password, s.passwordSource⟩ =
              ⟨salted sha call.passwordPreset call.hash.salt, .undefined⟩ :=
          if_pos ⟨hlast, hpreset⟩
        rw [if_pos hpreset, hfirst, kept_of_ne (salted_ne_nil _ _)]
        exact .preset hshared hlast hpreset
    · have hkept : orPreset sha call.hash.salt call.passwordPreset
          ⟨s.password, s.passwordSource⟩ = ⟨s.password, s.passwordSource⟩ :=
        if_neg fun hfound => hlast hfound.1
      rw [if_pos hlast, hkept, kept_of_ne hlast]
      exact .last hshared hlast
  · rw [if_pos hshared, orShared_of_ne _ rfl hshared, kept_of_ne (salted_ne_nil _ _)]
    exact .shared hshared

/-- A call of `handle_hash` where a switch is under way, or with what it has found. -/
theorem handleHash_fst (hswitch : s.switchUuid.bind parseUuid = none) :
    (s.handleHash sha base64 parseUuid call).1 =
      { s with
        hash := call.hash
        switchUuid := none
        password := (candidate sha base64 s call).password
        passwordSource := (candidate sha base64 s call).source
        sharedPassword := none } := by
  simp only [LoginConfigHandler.handleHash, hswitch]
  split
  · rfl
  · split <;> rfl

theorem handleHash_fst_switch (hswitch : (s.switchUuid.bind parseUuid).isSome = true) :
    (s.handleHash sha base64 parseUuid call).1 =
      { s with hash := call.hash, switchUuid := none, passwordSource := .undefined } := by
  obtain ⟨uuid, huuid⟩ := Option.isSome_iff_exists.mp hswitch
  simp only [LoginConfigHandler.handleHash, huuid]

/-! ## What is stored -/

/-- The password that `handle_peer_info` stores. -/
theorem stored_handlePeerInfo (sha : Sha256) (s : LoginConfigHandler) :
    (s.handlePeerInfo sha).stored.password =
      if s.remember then
        if s.password ≠ [] ∧ s.password ≠ s.stored.password ∧
            s.passwordSource.isSharedAb sha s.password s.hash = false then s.password
        else s.stored.password
      else if s.passwordSource.isPersonalAb s.password then s.password
      else [] := by
  simp only [LoginConfigHandler.handlePeerInfo, LoginConfigHandler.saveConfig]
  cases s.remember with
  | true =>
    simp only [if_true, apply_ite PeerLogin.password, Bool.and_eq_true, Bool.not_eq_true',
      List.isEmpty_eq_false_iff, bne_iff_ne, and_assoc]
  | false =>
    simp only [Bool.false_eq_true, if_false, apply_ite PeerLogin.password]
    have hempty : (if (!s.stored.password.isEmpty) = true then [] else s.stored.password) = [] := by
      split
      next => rfl
      next hnil => simpa using hnil
    rw [hempty]

/-- What is stored is kept, where there is nothing to remember, or a shared password. -/
theorem stored_kept (sha : Sha256) (hremember : s.remember = true)
    (h : s.password = [] ∨ s.password = s.stored.password ∨
      s.passwordSource.isSharedAb sha s.password s.hash = true) :
    (s.handlePeerInfo sha).stored.password = s.stored.password := by
  rw [stored_handlePeerInfo, if_pos hremember, if_neg]
  rintro ⟨hne, hdiffers, hshared⟩
  rcases h with hnil | heq | htrue
  · exact hne hnil
  · exact hdiffers heq
  · exact Bool.false_ne_true (hshared.symm.trans htrue)

theorem stored_changed (hremember : s.remember = true) (hne : s.password ≠ [])
    (hdiffers : s.password ≠ s.stored.password)
    (hshared : s.passwordSource.isSharedAb sha s.password s.hash ≠ true) :
    (s.handlePeerInfo sha).stored.password = s.password := by
  rw [stored_handlePeerInfo, if_pos hremember, if_pos]
  exact ⟨hne, hdiffers, Bool.not_eq_true _ ▸ hshared⟩

theorem isPersonalAb_eq_true {source : PasswordSource} {password : List UInt8}
    (h : source.isPersonalAb password = true) : password ≠ [] ∧ source = .personalAb password := by
  unfold PasswordSource.isPersonalAb at h
  split at h
  next => cases h
  next hne =>
    split at h
    next hash => exact ⟨by simpa using hne, by rw [of_decide_eq_true h]⟩
    next => cases h

theorem isSharedAb_salted {password salt : Text} {hash : PeerHash} (hsalt : hash.salt = salt) :
    (PasswordSource.sharedAb password).isSharedAb sha (salted sha password salt) hash = true := by
  subst hsalt
  rw [PasswordSource.isSharedAb, if_neg]
  · exact decide_eq_true rfl
  · rw [List.isEmpty_iff]
    exact salted_ne_nil _ _

/-! ## What holds of the origin -/

/-- What an origin says of the handler. A preset password, a saved one, and a shared one that is not
recognised, are not remembered, for they are stored already if they may be. -/
def Origin.Describes (sha : Sha256) (s : LoginConfigHandler) : Origin → Prop
  | nothing => s.password = []
  | typed password salt remember =>
    s.password = salted sha password salt ∧ s.passwordSource = .undefined ∧ s.remember = remember
  | preset _ _ =>
    s.passwordSource = .undefined ∧ (s.remember = true → s.password = s.stored.password)
  | shared password _ =>
    s.passwordSource = .sharedAb password ∧ (s.remember = true → s.password = s.stored.password ∨
      s.passwordSource.isSharedAb sha s.password s.hash = true)
  | saved => s.passwordSource = .undefined ∧ (s.remember = true → s.password = s.stored.password)
  | personalAb hash => s.password = hash ∧ s.passwordSource = .personalAb hash

/-- What every call keeps. -/
structure Remembers (sha : Sha256) (x : Session) : Prop where
  config : x.handler.config = x.handler.stored
  switch : x.handler.switchUuid.isSome = true → x.handler.passwordSource = .undefined
  origin : x.origin.Describes sha x.handler

/-- The password is remembered rightly. -/
theorem Remembers.rightly {x : Session} (h : Remembers sha x) : RemembersRightly sha x := by
  obtain ⟨s, origin⟩ := x
  intro hchanged hne
  have horigin := h.origin
  cases hremember : s.remember with
  | true =>
    have hkept := mt (stored_kept sha hremember) hchanged
    rw [not_or, not_or] at hkept
    obtain ⟨hpassword, hdiffers, hshared⟩ := hkept
    have hstored := stored_changed hremember hpassword hdiffers hshared
    cases origin with
    | nothing => exact absurd horigin hpassword
    | typed password salt remember =>
      obtain ⟨hsalted, -, hflag⟩ := horigin
      rw [← hremember, hflag]
      exact .inl ⟨password, salt, rfl, hstored.trans hsalted⟩
    | preset password salt => exact absurd (horigin.2 hremember) hdiffers
    | shared password salt =>
      rcases horigin.2 hremember with heq | htrue
      · exact absurd heq hdiffers
      · exact absurd htrue hshared
    | saved => exact absurd (horigin.2 hremember) hdiffers
    | personalAb hash =>
      have hhash : s.password = hash := horigin.1
      exact .inr (congrArg Origin.personalAb (hhash.symm.trans hstored.symm))
  | false =>
    have hstored := stored_handlePeerInfo sha s
    rw [hremember, if_neg Bool.false_ne_true] at hstored
    by_cases hpersonal : s.passwordSource.isPersonalAb s.password = true
    · rw [if_pos hpersonal] at hstored
      obtain ⟨hpassword, hsource⟩ := isPersonalAb_eq_true hpersonal
      cases origin with
      | nothing => exact absurd horigin hpassword
      | typed password salt remember =>
        cases hsource.symm.trans horigin.2.1
      | preset password salt => cases hsource.symm.trans horigin.1
      | shared password salt => cases hsource.symm.trans horigin.1
      | saved => cases hsource.symm.trans horigin.1
      | personalAb hash =>
        have hhash : s.password = hash := horigin.1
        exact .inr (congrArg Origin.personalAb (hhash.symm.trans hstored.symm))
    · rw [if_neg hpersonal] at hstored
      exact absurd hstored hne

/-- The parts of a handler that an origin is about. -/
theorem Origin.Describes.congr {origin : Origin} {s' : LoginConfigHandler}
    (h : origin.Describes sha s) (hpassword : s'.password = s.password)
    (hsource : s'.passwordSource = s.passwordSource) (hremember : s'.remember = s.remember)
    (hhash : s'.hash = s.hash) (hstored : s'.stored.password = s.stored.password) :
    origin.Describes sha s' := by
  cases origin <;> simp only [Describes, hpassword, hsource, hremember, hhash, hstored] <;> exact h

/-! ## The calls -/

/-- What is not remembered is stored, or shared, and then what is stored is kept. -/
theorem Remembers.peerInfo {x : Session} (h : Remembers sha x) :
    Remembers sha ⟨x.handler.handlePeerInfo sha, x.origin⟩ := by
  obtain ⟨s, origin⟩ := x
  have horigin := h.origin
  refine ⟨rfl, h.switch, ?_⟩
  have hsaved (hstored : s.remember = true → s.password = s.stored.password)
      (hremember : s.remember = true) :
      s.password = (s.handlePeerInfo sha).stored.password :=
    (hstored hremember).trans (stored_kept sha hremember (.inr (.inl (hstored hremember)))).symm
  cases origin with
  | nothing => exact horigin
  | typed password salt remember => exact horigin
  | preset password salt => exact ⟨horigin.1, hsaved horigin.2⟩
  | shared password salt =>
    refine ⟨horigin.1, fun hremember => ?_⟩
    rcases horigin.2 hremember with heq | hshared
    · exact .inl (hsaved (fun _ => heq) hremember)
    · exact .inr hshared
  | saved => exact ⟨horigin.1, hsaved horigin.2⟩
  | personalAb hash => exact horigin

theorem Remembers.loginFromUi {x : Session} (h : Remembers sha x) (base64 : Base64)
    (parseUuid : Text → Option (List UInt8)) (osUsername osPassword password : Text)
    (remember : Bool) :
    Remembers sha (x.next sha base64 parseUuid
      (.loginFromUi osUsername osPassword password remember)) := by
  obtain ⟨s, origin⟩ := x
  simp only [Session.next, Event.apply, Event.origin, LoginConfigHandler.handleLoginFromUi]
  by_cases hpassword : password = []
  · rw [if_pos (List.isEmpty_iff.mpr hpassword), if_neg (not_not.mpr hpassword)]
    by_cases hsaved : s.password = [] ∧ s.config.password ≠ []
    · have hempty : (s.password.isEmpty && !s.config.password.isEmpty) = true := by
        rw [Bool.and_eq_true, List.isEmpty_iff, Bool.not_eq_true', List.isEmpty_eq_false_iff]
        exact hsaved
      rw [if_pos hempty, if_pos hsaved]
      exact ⟨h.config, fun _ => rfl, rfl, fun _ => congrArg PeerLogin.password h.config⟩
    · have hempty : ¬ (s.password.isEmpty && !s.config.password.isEmpty) = true := by
        rw [Bool.and_eq_true, List.isEmpty_iff, Bool.not_eq_true', List.isEmpty_eq_false_iff]
        exact hsaved
      rw [if_neg hempty, if_neg hsaved]
      exact h
  · rw [if_neg (mt List.isEmpty_iff.mp hpassword), if_pos hpassword]
    exact ⟨h.config, fun _ => rfl, rfl, rfl, rfl⟩

theorem Remembers.loginError {x : Session} (h : Remembers sha x) (base64 : Base64)
    (parseUuid : Text → Option (List UInt8)) (err : Text) :
    Remembers sha (x.next sha base64 parseUuid (.loginError err)) := by
  obtain ⟨s, origin⟩ := x
  simp only [Session.next, Event.apply, Event.origin, LoginConfigHandler.handleLoginError]
  by_cases hempty : err = "Empty Password".toList
  · rw [if_pos hempty, if_pos (.inl hempty)]
    exact ⟨h.config, h.switch, rfl⟩
  by_cases hwrong : err = "Wrong Password".toList
  · rw [if_neg hempty, if_pos hwrong, if_pos (.inr hwrong)]
    exact ⟨h.config, h.switch, rfl⟩
  rw [if_neg hempty, if_neg hwrong, if_neg (not_or.mpr ⟨hempty, hwrong⟩)]
  by_cases hcode : err = "Wrong 2FA Code".toList ∨ err = "2FA Required".toList
  · rw [if_pos hcode]
    split
    · exact ⟨rfl, h.switch, h.origin.congr rfl rfl rfl rfl rfl⟩
    · exact h
  · rw [if_neg hcode]
    split <;> exact h

/-- A password that is found has its origin, if what is logged in with is recognised. -/
theorem Remembers.hash {x : Session} (h : Remembers sha x)
    (hrecognised : Recognised sha parseUuid x (.hash call)) :
    Remembers sha (x.next sha base64 parseUuid (.hash call)) := by
  obtain ⟨s, origin⟩ := x
  have horigin := h.origin
  cases hswitch : s.switchUuid.bind parseUuid with
  | some uuid =>
    -- no password was sent so far, so that the last one is none of the address book
    have hsome : s.switchUuid.isSome = true := by
      cases hs : s.switchUuid with
      | none =>
        rw [hs] at hswitch
        cases hswitch
      | some text => rfl
    have hsource : s.passwordSource = .undefined := h.switch hsome
    have horigin' : call.origin base64 parseUuid s origin = origin := by
      rw [HashCall.origin, hswitch]
      rfl
    simp only [Session.next, Event.apply, Event.origin, horigin']
    rw [handleHash_fst_switch (by rw [hswitch]; rfl), ← hsource]
    refine ⟨h.config, fun _ => hsource, ?_⟩
    cases origin with
    | shared password salt => cases hsource.symm.trans horigin.1
    | _ => exact horigin
  | none =>
    have hfound := found sha base64 call hswitch origin
    simp only [Session.next, Event.apply, Event.origin]
    rw [handleHash_fst hswitch]
    generalize candidate sha base64 s call = c, call.origin base64 parseUuid s origin = o at hfound
    have hnone : (none : Option Text).isSome = true → c.source = .undefined := fun h => by cases h
    refine ⟨h.config, hnone, ?_⟩
    cases hfound with
    | shared hshared => exact ⟨rfl, fun _ => .inr (isSharedAb_salted rfl)⟩
    | last hshared hlast =>
      cases origin with
      | shared password salt =>
        refine ⟨horigin.1, fun hremember => ?_⟩
        exact (hrecognised hremember hswitch hshared).2 password hlast horigin.1
      | _ => exact horigin
    | preset hshared hlast hpreset =>
      exact ⟨rfl, fun hremember => (hrecognised hremember hswitch hshared).1 hlast hpreset⟩
    | saved hlast hpreset hsaved => exact ⟨rfl, fun _ => congrArg PeerLogin.password h.config⟩
    | personalAb hlast hpreset hhash => exact ⟨rfl, rfl⟩
    | default hlast hpreset hne => exact ⟨rfl, fun _ => .inr (isSharedAb_salted rfl)⟩
    | nothing hlast hpreset => exact rfl

theorem Remembers.next {x : Session} (h : Remembers sha x) {event : Event}
    (hrecognised : Recognised sha parseUuid x event) :
    Remembers sha (x.next sha base64 parseUuid event) := by
  cases event with
  | hash call => exact h.hash hrecognised
  | loginFromUi osUsername osPassword password remember =>
    exact h.loginFromUi base64 parseUuid osUsername osPassword password remember
  | loginError err => exact h.loginError base64 parseUuid err
  | peerInfo => exact h.peerInfo
  | reconnect => exact h

/-- What is remembered now was typed, or is that of the personal address book. -/
theorem RemembersRightly.origin {x : Session} (h : RemembersRightly sha x)
    (hremember : x.handler.remember = true) (hne : x.handler.password ≠ [])
    (hdiffers : x.handler.password ≠ x.handler.stored.password)
    (hshared : x.handler.passwordSource.isSharedAb sha x.handler.password x.handler.hash ≠ true) :
    (∃ password salt, x.origin = .typed password salt true) ∨
      x.origin = .personalAb x.handler.password := by
  have hstored := stored_changed hremember hne hdiffers hshared
  simp only [RemembersRightly, hstored] at h
  rcases h hdiffers hne with ⟨password, salt, htyped, -⟩ | hpersonal
  · exact .inl ⟨password, salt, htyped⟩
  · exact .inr hpersonal

theorem isSharedAb_undefined (password : List UInt8) (hash : PeerHash) :
    PasswordSource.undefined.isSharedAb sha password hash ≠ true := by
  unfold PasswordSource.isSharedAb
  split <;> exact Bool.false_ne_true

/-- What is not recognised is stored as soon as the peer sends its information. -/
theorem Remembers.recognised {x : Session} (h : Remembers sha x) {event : Event}
    (hrightly : RemembersRightly sha (x.next sha base64 parseUuid event)) :
    Recognised sha parseUuid x event := by
  cases event with
  | hash call =>
    obtain ⟨s, origin⟩ := x
    intro hremember hswitch hshared
    have horigin := h.origin
    have hfound := found sha base64 call hswitch origin
    simp only [Session.next, Event.apply, Event.origin] at hrightly
    rw [handleHash_fst hswitch] at hrightly
    generalize candidate sha base64 s call = c, call.origin base64 parseUuid s origin = o
      at hfound hrightly
    constructor
    · intro hlast hpreset
      by_contra hdiffers
      cases hfound with
      | preset =>
        rcases hrightly.origin hremember (salted_ne_nil _ _) hdiffers (isSharedAb_undefined _ _)
          with ⟨password, salt, htyped⟩ | hpersonal
        · cases htyped
        · cases hpersonal
      | _ => contradiction
    · intro password hlast hsource
      by_contra hnot
      rw [not_or] at hnot
      cases hfound with
      | last =>
        rcases hrightly.origin hremember hlast hnot.1 hnot.2 with ⟨typed, salt, htyped⟩ | hpersonal
        · rw [show origin = _ from htyped] at horigin
          cases hsource.symm.trans horigin.2.1
        · rw [show origin = _ from hpersonal] at horigin
          cases hsource.symm.trans horigin.2
      | _ => contradiction
  | _ => trivial

/-! ## Runs -/

theorem remembers_initialized {x : Session} (h : (memory sha base64 parseUuid).init x) :
    Remembers sha x := by
  obtain ⟨id, isTerminal, isTerminalAdmin, switchUuid, sharedPassword, stored, rfl⟩ := h
  exact ⟨rfl, fun _ => rfl, rfl⟩

/-- **Which passwords are remembered.** Whenever `handle_peer_info` comes in a run, it remembers
nothing but what was typed to be remembered and what is in the personal address book, exactly when
each `handle_hash` logs in with what is recognised. -/
theorem remembered_rightly_iff {tr : List (Session × Event)} {x : Session}
    (h : (memory sha base64 parseUuid).Trace tr x) :
    Always (RemembersRightly sha) tr x ↔ ∀ step ∈ tr, Recognised sha parseUuid step.1 step.2 := by
  refine h.always_iff remembers_initialized (fun hx => hx.rightly) ?_ ?_
  · rintro x event x' hx rfl hrecognised
    exact hx.next hrecognised
  · rintro x event x' hx rfl hrightly
    exact hx.recognised hrightly

/-- The bytes themselves, as many as there are in a digest. -/
def bytesOnly : Sha256 where
  digest bytes := (bytes ++ List.replicate 32 0).take 32
  length_digest bytes := by
    rw [List.length_take, List.length_append, List.length_replicate]
    exact min_eq_left (Nat.le_add_left 32 _)

theorem remembered_rightly_typed : ∃ tr x,
    (memory bytesOnly .original fun _ => none).Trace tr x ∧
      tr.map Prod.snd = [.loginFromUi [] [] "key".toList true, .peerInfo] ∧
      Always (RemembersRightly bytesOnly) tr x ∧
      x.handler.stored.password = salted bytesOnly "key".toList [] := by
  have htrace := Trace.of_foldl (S := memory bytesOnly .original fun _ => none) (fun _ _ => rfl)
    ⟨[], false, false, none, none, ⟨[], ∅⟩, rfl⟩
    [.loginFromUi [] [] "key".toList true, .peerInfo]
  refine ⟨_, _, htrace, rfl, (remembered_rightly_iff htrace).mpr ?_, rfl⟩
  intro step hstep
  simp only [path, List.mem_cons, List.not_mem_nil, or_false] at hstep
  rcases hstep with rfl | rfl
  · trivial
  · trivial

/-- A call without a preset password, an address book or a default password. -/
def HashCall.plain (salt : Text) : HashCall := ⟨[], ⟨salt, []⟩, [], ⟨[], []⟩, []⟩

/-- After a reconnect the peer has another salt, and the shared password, hashed with the first, is
stored in the place of the one that was remembered. -/
theorem other_salt_remembers_shared : ¬ ∀ (sha : Sha256) (base64 : Base64)
    (parseUuid : Text → Option (List UInt8)) (tr : List (Session × Event)) (x : Session),
    (memory sha base64 parseUuid).Trace tr x → Always (RemembersRightly sha) tr x := by
  intro hall
  have htrace := Trace.of_foldl (S := memory bytesOnly .original fun _ => none) (fun _ _ => rfl)
    ⟨[], false, false, none, some "team".toList, ⟨[1], ∅⟩, rfl⟩
    [.hash (.plain ['a']), .reconnect, .hash (.plain ['b'])]
  have hrightly := (hall _ _ _ _ _ htrace).2
  rcases hrightly (by decide) (by decide) with ⟨password, salt, htyped, -⟩ | hpersonal
  · cases htyped
  · cases hpersonal

end PasswordMemory

end HopToDesk.Client
