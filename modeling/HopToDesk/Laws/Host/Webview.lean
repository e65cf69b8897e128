import HopToDesk.Host.Webview

/-!
# Whether a script says what it was meant to

A script is intact when it reads as one call with the texts it was made of. What that takes depends
on how the handler quotes (`Safe`): nothing is done about line terminators anywhere, about
backslashes only here and there, and an answer in single quotes undoes the escapes of its JSON. A
script is intact exactly when its texts have none of what its handler leaves alone (`Handler.intact_iff_safe`).
-/

set_option autoImplicit false

namespace HopToDesk.Host

open Kit EcmaScript

namespace Webview

/-! ## Scripts -/

def Data.value : Data → Literal
  | .object fields => .object (fields.map fieldValue)
  | .text _ t => .scalar (.string (utf16 t))
  | .word t => .scalar (.word t)

/-- The script reads as one call, of its method, with its texts. -/
def Script.Intact (s : Script) : Prop :=
  guardedCall onRustResponse s.text = some (utf16 s.method, s.data.value)

/-- Well written, but for what is in the texts. -/
def Data.WellFormed : Data → Prop
  | .object fields => fields ≠ [] ∧ EcmaScript.WellFormed fields
  | .text .. => True
  | .word t => t ≠ [] ∧ ∀ c ∈ t, isWordChar c = true

def Data.Keeps : Data → Prop
  | .object fields => ∀ x ∈ fields, x.2.Keeps
  | .text k t => k.Keeps t
  | .word _ => True

theorem Script.intact_iff_keeps {s : Script} (hmethod : PlainMethod s.method) (h : s.data.WellFormed) :
    s.Intact ↔ s.data.Keeps := by
  obtain ⟨method, data⟩ := s
  cases data with
  | object fields => exact guardedCall_object_iff hmethod h.1 h.2
  | text k t => exact guardedCall_quoted_iff hmethod k t
  | word t => exact iff_of_true (guardedCall_word hmethod h.1 h.2) trivial

/-! ## What the quoting leaves alone -/

/-- There is no line terminator. -/
def OneLine (t : Text) : Prop := ∀ c ∈ t, c ≠ '\n' ∧ c ≠ '\r'

/-- Nor a backslash. -/
def Straight (t : Text) : Prop := ∀ c ∈ t, c ≠ '\n' ∧ c ≠ '\r' ∧ c ≠ '\\'

/-- Nor a double quote. -/
def Bare (t : Text) : Prop := ∀ c ∈ t, c ≠ '\n' ∧ c ≠ '\r' ∧ c ≠ '\\' ∧ c ≠ '"'

/-- JSON escapes nothing in it. -/
def Unescaped (t : Text) : Prop := ∀ c ∈ t, ¬ Json.Escaped c

/-- Nor is there a single quote. -/
def Tame (t : Text) : Prop := ∀ c ∈ t, ¬ Json.Escaped c ∧ c ≠ '\''

instance (t : Text) : Decidable (OneLine t) := List.decidableBAll _ t

instance (t : Text) : Decidable (Straight t) := List.decidableBAll _ t

instance (t : Text) : Decidable (Bare t) := List.decidableBAll _ t

instance (t : Text) : Decidable (Unescaped t) := List.decidableBAll _ t

instance (t : Text) : Decidable (Tame t) := List.decidableBAll _ t

@[simp]
theorem keeps_bothEscaped (t : Text) : bothEscaped.Keeps t ↔ OneLine t := by
  simp [Quoting.Keeps, bothEscaped, OneLine]

@[simp]
theorem keeps_quotesEscaped (t : Text) : quotesEscaped.Keeps t ↔ Straight t := by
  simp [Quoting.Keeps, quotesEscaped, Straight]

@[simp]
theorem keeps_bare (t : Text) : bare.Keeps t ↔ Bare t := by
  simp [Quoting.Keeps, bare, Bare]

theorem keeps_json {k : Quoting} (hk : k.escapesBackslash = false) (hquote : k.quote = '\'')
    (x : Json) : k.Keeps x.write ↔ ∀ t ∈ x.strings, ∀ c ∈ t,
      ¬ Json.Escaped c ∧ (c = '\'' → k.escapesQuote = true) := by
  obtain ⟨hlf, hcr⟩ := x.line_not_mem_write
  constructor
  · intro h t ht c hc
    constructor
    · intro hescaped
      have := (h '\\' ((Json.backslash_mem_write x).mpr ⟨t, ht, c, hc, hescaped⟩)).2.2.1 rfl
      rw [hk] at this
      cases this
    · rintro rfl
      exact (h '\'' ((Json.quote_mem_write x).mpr ⟨t, ht, hc⟩)).2.2.2 hquote.symm
  · intro h c hc
    refine ⟨?_, ?_, ?_, ?_⟩
    · rintro rfl
      exact hlf hc
    · rintro rfl
      exact hcr hc
    · rintro rfl
      obtain ⟨t, ht, y, hy, hescaped⟩ := (Json.backslash_mem_write x).mp hc
      exact absurd hescaped (h t ht y hy).1
    · rintro rfl
      rw [hquote] at hc
      obtain ⟨t, ht, hy⟩ := (Json.quote_mem_write x).mp hc
      exact (h t ht '\'' hy).2 rfl

@[simp]
theorem keeps_single (x : Json) : single.Keeps x.write ↔ ∀ t ∈ x.strings, Tame t := by
  rw [keeps_json rfl rfl]
  simp [single, Tame]

@[simp]
theorem keeps_singleEscaped (x : Json) :
    singleEscaped.Keeps x.write ↔ ∀ t ∈ x.strings, Unescaped t := by
  rw [keeps_json rfl rfl]
  simp [singleEscaped, Unescaped]

section

variable {P : Text → Prop}

@[simp]
theorem forall_str (t : Text) : (∀ t' ∈ (Json.str t).strings, P t') ↔ P t := by
  simp [Json.strings]

@[simp]
theorem forall_arr (xs : List Json) :
    (∀ t ∈ (Json.arr xs).strings, P t) ↔ ∀ x ∈ xs, ∀ t ∈ x.strings, P t := by
  simp only [Json.strings, Json.mem_itemStrings]
  constructor
  · intro h x hx t ht
    exact h t ⟨x, hx, ht⟩
  · rintro h t ⟨x, hx, ht⟩
    exact h x hx t ht

@[simp]
theorem forall_textMap (m : List (Text × Text)) :
    (∀ t ∈ (textMap m).strings, P t) ↔ ∀ x ∈ m, P x.1 ∧ P x.2 := by
  simp only [textMap, Json.strings, Json.mem_fieldStrings, List.mem_map]
  constructor
  · intro h x hx
    exact ⟨h _ ⟨_, ⟨x, hx, rfl⟩, .inl rfl⟩, h _ ⟨_, ⟨x, hx, rfl⟩, .inr (List.mem_singleton_self _)⟩⟩
  · rintro h t ⟨-, ⟨x, hx, rfl⟩, rfl | ht⟩
    · exact (h x hx).1
    · cases List.mem_singleton.mp ht
      exact (h x hx).2

@[simp]
theorem forall_strings (ts : List Text) : (∀ t ∈ (strings ts).strings, P t) ↔ ∀ t ∈ ts, P t := by
  simp [strings]

end

/-- What is stored of a peer is tame. -/
structure PeerInfo.Tame (p : PeerInfo) : Prop where
  username : Webview.Tame p.username
  hostname : Webview.Tame p.hostname
  platform : Webview.Tame p.platform
  alias_ : Webview.Tame p.alias_

/-- And what was discovered of one. -/
structure DiscoveryPeer.Tame (p : DiscoveryPeer) : Prop where
  id : Webview.Tame p.id
  username : Webview.Tame p.username
  hostname : Webview.Tame p.hostname
  platform : Webview.Tame p.platform

@[simp]
theorem tame_peerInfo (id : Text) (p : PeerInfo) :
    (∀ t ∈ (p.json id).strings, Tame t) ↔ Tame id ∧ p.Tame := by
  have hkeys : Tame "id".toList ∧ Tame "username".toList ∧ Tame "hostname".toList ∧
      Tame "platform".toList ∧ Tame "alias".toList := by decide
  obtain ⟨hid, husername, hhostname, hplatform, halias⟩ := hkeys
  unfold PeerInfo.json
  simp only [forall_textMap, List.forall_mem_cons, List.not_mem_nil, hid, husername, hhostname,
    hplatform, halias, true_and]
  constructor
  · rintro ⟨h1, h2, h3, h4, h5, -⟩
    exact ⟨h1, h2, h3, h4, h5⟩
  · rintro ⟨h1, h2, h3, h4, h5⟩
    exact ⟨h1, h2, h3, h4, h5, by simp⟩

@[simp]
theorem tame_discoveryPeer (p : DiscoveryPeer) (order : Equiv.Perm (Fin 4)) :
    (∀ t ∈ (p.json order).strings, Tame t) ↔ p.Tame := by
  have hkeys : Tame "id".toList ∧ Tame "username".toList ∧ Tame "hostname".toList ∧
      Tame "platform".toList := by decide
  obtain ⟨hid, husername, hhostname, hplatform⟩ := hkeys
  unfold DiscoveryPeer.json
  simp only [forall_textMap, List.forall_mem_ofFn_iff]
  constructor
  · intro h
    have hall : ∀ i, Tame _ := fun i => order.apply_symm_apply i ▸ (h (order.symm i)).2
    exact ⟨hall 0, hall 1, hall 2, hall 3⟩
  · intro h i
    generalize order i = j
    fin_cases j
    · exact ⟨hid, h.id⟩
    · exact ⟨husername, h.username⟩
    · exact ⟨hhostname, h.hostname⟩
    · exact ⟨hplatform, h.platform⟩

/-! ## Handlers -/

theorem writeInt_word (n : Int) :
    Json.writeInt n ≠ [] ∧ ∀ c ∈ Json.writeInt n, isWordChar c = true := by
  have hdigits : ∀ m : Nat, ∀ c ∈ Nat.toDigits 10 m, isWordChar c = true := by
    intro m c hc
    have hdigit := Json.isDigit_of_mem hc
    simp [isWordChar, Char.isAlphanum, hdigit]
  cases n with
  | ofNat n => exact ⟨Nat.toDigits_ne_nil, hdigits n⟩
  | negSucc n =>
    refine ⟨List.cons_ne_nil _ _, ?_⟩
    intro c hc
    rcases List.mem_cons.mp hc with rfl | hc
    · rfl
    · exact hdigits _ c hc

theorem writeBool_word (b : Bool) :
    Json.writeBool b ≠ [] ∧ ∀ c ∈ Json.writeBool b, isWordChar c = true := by
  cases b
  · exact ⟨List.cons_ne_nil _ _, List.all_eq_true.mp rfl⟩
  · exact ⟨List.cons_ne_nil _ _, List.all_eq_true.mp rfl⟩

theorem int_inObject (n : Int) : (int n).InObject := writeInt_word n

theorem bool_inObject (b : Bool) : (bool b).InObject := writeBool_word b

section

variable {key w : Text} {fields : List (Text × Part)}

theorem keeps_word : Data.Keeps (.object ((key, .word w) :: fields)) ↔ Data.Keeps (.object fields) :=
  List.forall_mem_cons.trans (and_iff_right trivial)

theorem keeps_quoted {k : Quoting} {t : Text} :
    Data.Keeps (.object ((key, .quoted k t) :: fields)) ↔ k.Keeps t ∧ Data.Keeps (.object fields) :=
  List.forall_mem_cons

end

theorem keeps_nil : Data.Keeps (.object []) := by
  rintro x ⟨⟩

theorem keeps_addConnection (client : Client) (securityNumbers : Text) :
    (addConnection client securityNumbers).data.Keeps ↔
      Straight client.peerId ∧ OneLine client.name ∧ Straight securityNumbers := by
  unfold addConnection int bool
  dsimp only
  rw [keeps_word, keeps_quoted, keeps_quoted]
  iterate 10 rw [keeps_word]
  rw [keeps_quoted, keeps_quotesEscaped, keeps_bothEscaped, keeps_quotesEscaped,
    and_iff_left keeps_nil]

theorem keeps_newMessage (id : Int) (text : Text) :
    (newMessage id text).data.Keeps ↔ OneLine text := by
  unfold newMessage int
  dsimp only
  rw [keeps_word, keeps_quoted, keeps_bothEscaped, and_iff_left keeps_nil]

theorem keeps_updateLinkDashboardState (client : Client) :
    (updateLinkDashboardState client).data.Keeps ↔ OneLine client.linkDashboardAccountName ∧
      OneLine client.linkDashboardExistingAccountName := by
  unfold updateLinkDashboardState int bool
  dsimp only
  rw [keeps_word, keeps_word, keeps_quoted, keeps_quoted, keeps_bothEscaped, keeps_bothEscaped,
    and_iff_left keeps_nil]

theorem keeps_fileTransferLog (action logMsg : Text) :
    (fileTransferLog action logMsg).data.Keeps ↔ Straight action ∧ OneLine logMsg := by
  unfold fileTransferLog
  dsimp only
  rw [keeps_quoted, keeps_quoted, keeps_quotesEscaped, keeps_bothEscaped, and_iff_left keeps_nil]

theorem keeps_getLocalOption (key val : Text) :
    (getLocalOption key val).data.Keeps ↔ OneLine key ∧ OneLine val := by
  unfold getLocalOption
  dsimp only
  rw [keeps_quoted, keeps_quoted, keeps_bothEscaped, keeps_bothEscaped, and_iff_left keeps_nil]

theorem keeps_getConnectStatus (statusNum : Int) (keyConfirmed : Bool) (id : Text) :
    (getConnectStatus statusNum keyConfirmed id).data.Keeps ↔ Tame id := by
  have hkeys : Tame "status_num".toList ∧ Tame "key_confirmed".toList ∧ Tame "id".toList := by
    decide
  obtain ⟨hstatus, hconfirmed, hid⟩ := hkeys
  simp only [getConnectStatus, answerJson, Data.Keeps, keeps_single, Json.strings,
    Json.fieldStrings, List.nil_append, List.append_nil, List.forall_mem_cons, hstatus, hconfirmed,
    hid, true_and]
  exact and_iff_left (List.forall_mem_nil _)

theorem keeps_getRecentSessions (peers : List (Text × PeerInfo)) :
    (getRecentSessions peers).data.Keeps ↔ ∀ p ∈ peers, Tame p.1 ∧ p.2.Tame := by
  simp only [getRecentSessions, answerJson, Data.Keeps, keeps_single, forall_arr,
    List.forall_mem_map, tame_peerInfo]

theorem keeps_getLanPeers (peers : List (DiscoveryPeer × Equiv.Perm (Fin 4))) :
    (getLanPeers peers).data.Keeps ↔ ∀ p ∈ peers, p.1.Tame := by
  simp only [getLanPeers, answerJson, Data.Keeps, keeps_single, forall_arr, List.forall_mem_map,
    tame_discoveryPeer]

theorem keeps_getLangs (langs : List (Text × Text)) :
    (getLangs langs).data.Keeps ↔ ∀ l ∈ langs, Tame l.1 ∧ Tame l.2 := by
  simp only [getLangs, answerJson, Data.Keeps, keeps_single, forall_arr, List.forall_mem_map,
    forall_strings, List.forall_mem_cons, List.not_mem_nil, IsEmpty.forall_iff, implies_true, and_true]

theorem keeps_getSizeJson (x y w h : Int) : (getSizeJson x y w h).data.Keeps := by
  simp only [getSizeJson, answerJson, Data.Keeps, keeps_single, Json.strings, Json.itemStrings,
    List.nil_append]
  rintro t ⟨⟩

theorem keeps_getLoginDeviceInfo (os type name : Text) :
    (getLoginDeviceInfo os type name).data.Keeps ↔ Tame os ∧ Tame type ∧ Tame name := by
  have hkeys : Tame "os".toList ∧ Tame "type".toList ∧ Tame "name".toList := by decide
  obtain ⟨hos, htype, hname⟩ := hkeys
  simp only [getLoginDeviceInfo, answerJson, Data.Keeps, keeps_single, forall_textMap,
    List.forall_mem_cons, List.not_mem_nil, IsEmpty.forall_iff, implies_true, and_true, hos, htype,
    hname, true_and]

namespace Handler

/-- The texts have nothing that the handler leaves alone and that means something in a script. -/
def Safe : Handler → Prop
  | addConnection client securityNumbers =>
    Straight client.peerId ∧ OneLine client.name ∧ Straight securityNumbers
  | newMessage _ text => OneLine text
  | updateLinkDashboardState client =>
    OneLine client.linkDashboardAccountName ∧ OneLine client.linkDashboardExistingAccountName
  | fileTransferLog action logMsg => Straight action ∧ OneLine logMsg
  | getLocalOption key val => OneLine key ∧ OneLine val
  | translate result => OneLine result
  | getConnectStatus _ _ id => Tame id
  | getRecentSessions peers => ∀ p ∈ peers, Tame p.1 ∧ p.2.Tame
  | getOptionsJson options => ∀ x ∈ options, Tame x.1 ∧ Tame x.2
  | getPeerJson id p => Tame id ∧ p.Tame
  | getFavJson fav => ∀ id ∈ fav, Tame id
  | getLanPeers peers => ∀ p ∈ peers, p.1.Tame
  | getSoundInputs inputs => ∀ t ∈ inputs, Tame t
  | getLangs langs => ∀ l ∈ langs, Tame l.1 ∧ Tame l.2
  | getLoginDeviceInfo os type name => Tame os ∧ Tame type ∧ Tame name
  | getAb entry => ∀ t ∈ entry.strings, Unescaped t
  | translateBatch map => ∀ x ∈ map, Unescaped x.1 ∧ Unescaped x.2
  | changeTheme t | getId t | temporaryPassword t | permanentPassword t | getOption t
  | getPeerOption t | getIcon t | getVersion t | getFingerprint t | getAppName t | getUuid t
  | getRemoteId t | getAsyncJobStatus t | getTeamid t => Bare t
  | _ => True

theorem plainMethod (h : Handler) : PlainMethod h.script.method := by
  cases h <;> exact of_decide_eq_true rfl

theorem wellFormed (h : Handler) : h.script.data.WellFormed := by
  cases h with
  | addConnection client securityNumbers =>
    refine ⟨List.cons_ne_nil _ _, ?_⟩
    refine .cons (by decide) (int_inObject _) (.cons (by decide) rfl (.cons (by decide) rfl ?_))
    iterate 10 refine .cons (by decide) (bool_inObject _) ?_
    exact .cons (by decide) rfl .nil
  | removeConnection id close =>
    exact ⟨List.cons_ne_nil _ _,
      .cons (by decide) (int_inObject _) (.cons (by decide) (bool_inObject _) .nil)⟩
  | newMessage id text =>
    exact ⟨List.cons_ne_nil _ _, .cons (by decide) (int_inObject _) (.cons (by decide) rfl .nil)⟩
  | updateLinkDashboardState client =>
    refine ⟨List.cons_ne_nil _ _, ?_⟩
    refine .cons (by decide) (int_inObject _) (.cons (by decide) (bool_inObject _) ?_)
    exact .cons (by decide) rfl (.cons (by decide) rfl .nil)
  | fileTransferLog action logMsg =>
    exact ⟨List.cons_ne_nil _ _, .cons (by decide) rfl (.cons (by decide) rfl .nil)⟩
  | getLocalOption key val =>
    exact ⟨List.cons_ne_nil _ _, .cons (by decide) rfl (.cons (by decide) rfl .nil)⟩
  | acceptInvite id => exact ⟨List.cons_ne_nil _ _, .cons (by decide) (int_inObject _) .nil⟩
  | declineInvite id => exact ⟨List.cons_ne_nil _ _, .cons (by decide) (int_inObject _) .nil⟩
  | showElevation b => exact writeBool_word b
  | isInstalled b => exact writeBool_word b
  | _ => trivial

theorem keeps_iff (h : Handler) : h.script.data.Keeps ↔ h.Safe := by
  cases h with
  | addConnection client securityNumbers => exact keeps_addConnection client securityNumbers
  | removeConnection id close =>
    exact iff_of_true (keeps_word.mpr (keeps_word.mpr keeps_nil)) trivial
  | newMessage id text => exact keeps_newMessage id text
  | updateLinkDashboardState client => exact keeps_updateLinkDashboardState client
  | fileTransferLog action logMsg => exact keeps_fileTransferLog action logMsg
  | acceptInvite id => exact iff_of_true (keeps_word.mpr keeps_nil) trivial
  | declineInvite id => exact iff_of_true (keeps_word.mpr keeps_nil) trivial
  | showElevation b => exact Iff.rfl
  | isInstalled b => exact Iff.rfl
  | getLocalOption key val => exact keeps_getLocalOption key val
  | translate result => exact keeps_bothEscaped result
  | getConnectStatus statusNum keyConfirmed id =>
    exact keeps_getConnectStatus statusNum keyConfirmed id
  | getRecentSessions peers => exact keeps_getRecentSessions peers
  | getOptionsJson options => exact (keeps_single _).trans (forall_textMap _)
  | getPeerJson id p => exact (keeps_single _).trans (tame_peerInfo id p)
  | getFavJson fav => exact (keeps_single _).trans (forall_strings _)
  | getLanPeers peers => exact keeps_getLanPeers peers
  | getSoundInputs inputs => exact (keeps_single _).trans (forall_strings _)
  | getLangs langs => exact keeps_getLangs langs
  | getSizeJson x y w h => exact iff_of_true (keeps_getSizeJson x y w h) trivial
  | getLoginDeviceInfo os type name => exact keeps_getLoginDeviceInfo os type name
  | getAb entry => exact keeps_singleEscaped entry
  | translateBatch map => exact (keeps_singleEscaped _).trans (forall_textMap _)
  | _ => exact keeps_bare _

/-- **A script reads as one call with its texts unchanged exactly when they are safe.** -/
theorem intact_iff_safe (h : Handler) : h.script.Intact ↔ h.Safe :=
  (Script.intact_iff_keeps h.plainMethod h.wellFormed).trans h.keeps_iff

end Handler

/-! A login whose id has a backslash before a quote. The backslash that is put before the quote is
escaped by it, the literal ends there, and the rest of the id is code. -/

def connection : Client :=
  ⟨1, false, false, [], [], [], true, true, true, true, true, true, false, false, [], []⟩

def climber : LoginRequest := ⟨"\\\",x:alert(1)\x7d)//".toList, []⟩

example : ∃ behind, (addConnection (clientOfLogin connection climber) []).text =
    "window.onRustResponse && window.onRustResponse('add_connection', ".toList ++
      ('{' :: "\"id\":1,\"peer_id\":\"\\\\\",x:alert(1)\x7d)//".toList ++ behind) :=
  ⟨_, rfl⟩

theorem not_intact : ¬ ∀ (connection : Client) (lr : LoginRequest) (securityNumbers : Text),
    (Handler.addConnection (clientOfLogin connection lr) securityNumbers).script.Intact := by
  intro hall
  have hkeeps := (Script.intact_iff_keeps (Handler.plainMethod _) (Handler.wellFormed _)).mp
    (hall connection climber [])
  have hstraight := ((keeps_addConnection _ _).mp hkeeps).1
  exact absurd hstraight (by decide)

end Webview

end HopToDesk.Host
