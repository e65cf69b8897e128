import HopToDesk.Client.Launch

/-!
# What a connection window is given

What `new_remote` says of a connection comes through the three readers as it was meant, unless the
password is one of the flags that `core_main` takes away, or `--switch-uuid` in front of the
placeholder of a relay. A port forward with a relay is left with two arguments where three are read.
The password of a link is taken for a token (`launch_iff`).
-/

set_option autoImplicit false

namespace HopToDesk.Client

open Kit Kit.Text

namespace Launch

/-- The id of a peer. -/
structure PlainId (id : Text) : Prop where
  ne_nil : id ≠ []
  noSlash : '/' ∉ id
  noDot : '.' ∉ id
  noFlag : ¬ "--".toList <+: id

/-- The types of connection that `new_remote` is asked for. -/
inductive LaunchType
  | connect
  | fileTransfer
  | portForward
  | terminal
  | viewCamera
deriving DecidableEq, Repr

namespace LaunchType

def text : LaunchType → Text
  | connect => "connect".toList
  | fileTransfer => "file-transfer".toList
  | portForward => "port-forward".toList
  | terminal => "terminal".toList
  | viewCamera => "view-camera".toList

def command (type : LaunchType) : Text := "--".toList ++ type.text

end LaunchType

/-- The session has what was asked for. -/
structure Meets (params : RemoteParams) (id pass : Text) (forceRelay : Bool) : Prop where
  id : params.id = id
  pass : params.pass = pass
  forceRelay : params.forceRelay = forceRelay

/-- `new_remote` opens the session that it is asked for, and a port forward is not out of bounds. -/
def OpensRemote (r : Resolver) (id : Text) (type : LaunchType) (forceRelay : Bool)
    (selfIdOpt passwordOpt : Option Text) : Prop :=
  ∃ params, launch r (newRemoteArgs id type.text forceRelay selfIdOpt passwordOpt) = some params ∧
    Meets params id (passwordOpt.getD []) forceRelay ∧
    (type = .portForward → portForward params ≠ none)

def connectLink (id password : Text) : Text :=
  "hoptodesk://connect/".toList ++ (id ++ '/' :: password)

/-- The link opens the session that it names. -/
def OpensLink (r : Resolver) (id password : Text) : Prop :=
  ∃ params, launch r ["--connect".toList, connectLink id password] = some params ∧
    Meets params id password false

/-! ## What `core_main` keeps -/

namespace CoreArgs

variable {s : CoreArgs} {arg : Text} {rest : List Text}

/-- The flags that are not kept. -/
def flags : List Text :=
  ["--elevate".toList, "--run-as-system".toList, "--quick_support".toList, "--no-server".toList]

theorem args_take (s : CoreArgs) (arg : Text) :
    (s.take arg).args = s.args ++ if arg ∈ flags then [] else [arg] := by
  by_cases h : arg ∈ flags
  · rw [if_pos h, List.append_nil]
    simp only [flags, List.mem_cons, List.not_mem_nil, or_false] at h
    rcases h with rfl | rfl | rfl | rfl <;> rfl
  · rw [if_neg h]
    simp only [flags, List.mem_cons, List.not_mem_nil, or_false, not_or] at h
    obtain ⟨helevate, hsystem, hsupport, hserver⟩ := h
    rw [take, if_neg helevate, if_neg hsystem, if_neg hsupport, if_neg hserver]

/-- What is kept of a list of arguments. -/
def kept (args : List Text) : List Text := (readAll .new args).args

/-- What is kept of the rest does not depend on what was read before. -/
theorem args_readAll : ∀ (args : List Text) (s : CoreArgs),
    (readAll s args).args = s.args ++ kept args
  | [], s => (List.append_nil _).symm
  | [arg], s => by
    rw [kept, readAll, readAll, args_take, args_take new]
    rfl
  | arg :: value :: rest, s => by
    rw [kept, readAll, readAll]
    split
    next => rw [args_readAll rest, args_readAll rest { new with switchUuid := some value }]; rfl
    next =>
      rw [args_readAll (value :: rest), args_readAll (value :: rest) (new.take arg), args_take,
        args_take new, List.append_assoc]
      rfl

theorem kept_cons (h : isSwitchUuid arg = false) (rest : List Text) :
    kept (arg :: rest) = (if arg ∈ flags then [] else [arg]) ++ kept rest := by
  have hread : readAll .new (arg :: rest) = readAll (new.take arg) rest := by
    cases rest with
    | nil => rfl
    | cons value rest => rw [readAll, h, Bool.false_and, if_neg Bool.false_ne_true]
  rw [kept, hread, args_readAll, args_take]
  rfl

theorem kept_switchUuid (h : isSwitchUuid arg = true) (rest : List Text) :
    kept (arg :: [] :: rest) = kept rest := by
  rw [kept, readAll, h]
  exact args_readAll rest _

theorem flags_not_switch : ∀ flag ∈ flags, isSwitchUuid flag = false := by decide

theorem flags_dashed : ∀ flag ∈ flags, "--".toList <+: flag := by decide

/-- An argument that is no flag at all is kept. -/
theorem kept_cons_of_plain (h : ¬ "--".toList <+: arg) (rest : List Text) :
    kept (arg :: rest) = arg :: kept rest := by
  have hne : ∀ flag : Text, "--".toList <+: flag → arg ≠ flag := by
    rintro flag hflag rfl
    exact h hflag
  have hswitch : isSwitchUuid arg = false := by
    rw [isSwitchUuid, Bool.or_eq_false_iff, decide_eq_false_iff_not, decide_eq_false_iff_not]
    exact ⟨hne _ (by decide), hne _ (by decide)⟩
  have hflags : arg ∉ flags := fun hmem => hne arg (flags_dashed arg hmem) rfl
  rw [kept_cons hswitch, if_neg hflags]
  rfl

end CoreArgs

section

open CoreArgs

variable {id : Text} {args rest : List Text} {type : LaunchType}

/-! ## An id behind a command -/

theorem PlainId.ne_flag (hid : PlainId id) {flag : Text} (hflag : "--".toList <+: flag) :
    id ≠ flag := by
  rintro rfl
  exact hid.noFlag hflag

theorem openLink_plain (hid : PlainId id) (command : Text) (rest : List Text) :
    openLink (command :: id :: rest) = some (command :: id :: rest) := by
  have hnormalized : normalized id = id := by
    simp only [normalized, afterFirst_of_not_mem (show '/' ∈ "://".toList by decide) hid.noSlash]
  have hconnect : stripPrefix "hoptodesk://connect/".toList id = none :=
    stripPrefix_of_not_mem (c := '/') (by decide) hid.noSlash
  have hfiles : stripPrefix "hoptodesk://filetransfer/".toList id = none :=
    stripPrefix_of_not_mem (c := '/') (by decide) hid.noSlash
  have hsync : "hoptodesk://sync/".toList.isPrefixOf id = false := by
    rw [← Bool.not_eq_true, List.isPrefixOf_iff_prefix]
    intro hpre
    exact hid.noSlash (hpre.subset (by decide))
  simp only [openLink, hnormalized, hconnect, hfiles, hsync, Bool.false_eq_true, if_false, ite_self]

theorem coreMain_of_kept (hid : PlainId id) (hkept : kept args = type.command :: id :: rest)
    (hrest : "--noinstall".toList ∉ rest) : coreMain args = some (type.command :: id :: rest) := by
  have hcontains : (type.command :: id :: rest).contains "--noinstall".toList = false := by
    rw [← Bool.not_eq_true, List.contains_iff_mem]
    simp only [List.mem_cons, not_or]
    refine ⟨?_, (hid.ne_flag (by decide)).symm, hrest⟩
    cases type <;> decide
  rw [coreMain, show (readAll .new args).args = _ from hkept]
  simp only [hcontains, Bool.false_eq_true, if_false]
  exact openLink_plain hid _ _

/-- The id is found, and nothing else is. -/
def StartArgs.found (id : Text) : StartArgs := ⟨id, true, [], [], []⟩

namespace StartArgs

theorem id_readAll : ∀ (args : List Text) {s : StartArgs}, s.idFound = true →
    (readAll s args).id = s.id
  | [], s, _ => rfl
  | [arg], s, h => by
    rw [readAll, put, h]
    split <;> rfl
  | arg :: value :: rest, s, h => by
    rw [readAll]
    split
    next => exact id_readAll rest h
    split
    next => exact id_readAll rest h
    next =>
      have hput : s.put arg = { s with remaining := s.remaining ++ [arg] } := by
        rw [put, h]
        rfl
      rw [hput]
      exact id_readAll (value :: rest) h

theorem readAll_id (hid : PlainId id) (rest : List Text) :
    readAll .new (id :: rest) = readAll (found id) rest := by
  have hput : new.put id = found id := by
    have hpre : "--".toList.isPrefixOf id = false := by
      rw [← Bool.not_eq_true, List.isPrefixOf_iff_prefix]
      exact hid.noFlag
    rw [put, hpre]
    rfl
  have hpassword : id ≠ "--password".toList := hid.ne_flag (by decide)
  have htokenex : id ≠ "--tokenex".toList := hid.ne_flag (by decide)
  cases rest with
  | nil =>
    have hnil : readAll (found id) [] = found id := rfl
    rw [hnil, readAll, if_neg (not_or.mpr ⟨hpassword, htokenex⟩), hput]
  | cons value rest => rw [readAll, if_neg hpassword, if_neg htokenex, hput]

end StartArgs

open StartArgs in
/-- The id is read as it is; a token may be. -/
theorem start_plain (r : Resolver) (hid : PlainId id) (type : LaunchType) (rest : List Text) :
    ∃ tokenexp, start r (type.command :: id :: rest) =
      some ⟨type.command, id, (readAll (found id) rest).pass, tokenexp,
        (readAll (found id) rest).remaining⟩ := by
  have hempty : ¬ (id = "hoptodesk:///".toList ∨ id = []) := by
    rintro (rfl | rfl)
    · exact hid.noSlash (by decide)
    · exact hid.ne_nil rfl
  have hcommand : connectionCommands.contains type.command = true := by cases type <;> decide
  have hprint : some id ≠ some "--select-for-print".toList := fun h =>
    hid.ne_flag (by decide) (Option.some.inj h)
  have hlink (link : Text) (h : '/' ∈ link) : link.isPrefixOf id = false := by
    rw [← Bool.not_eq_true, List.isPrefixOf_iff_prefix]
    intro hpre
    exact hid.noSlash (hpre.subset h)
  have hfound : (readAll (found id) rest).id = id := id_readAll rest rfl
  simp only [start, hcommand, List.isEmpty_cons, Bool.not_false, Bool.and_self, if_true,
    List.head?_cons, hprint, and_false, if_false, readAll_id hid, hfound, hid.noDot,
    false_and, hempty]
  by_cases hconnect : type.command = "--connect".toList
  · refine ⟨rest.headD [], ?_⟩
    simp only [hconnect, if_true, connectParams, List.headD_cons,
      hlink "hoptodesk://sso-login/".toList (by decide),
      hlink "hoptodesk://file-transfer/".toList (by decide), Bool.or_self,
      Bool.false_eq_true, if_false, List.drop_one, List.tail_cons]
  · refine ⟨(readAll (found id) rest).tokenexp, ?_⟩
    simp only [hconnect, if_false]

open StartArgs in
theorem launch_of_kept (r : Resolver) (hid : PlainId id)
    (hkept : kept args = type.command :: id :: rest) (hrest : "--noinstall".toList ∉ rest) :
    ∃ tokenexp, launch r args =
      some ⟨type.command, id, (readAll (found id) rest).pass, tokenexp,
        (readAll (found id) rest).remaining⟩ := by
  obtain ⟨tokenexp, hstart⟩ := start_plain r hid type rest
  refine ⟨tokenexp, ?_⟩
  rw [launch, coreMain_of_kept hid hkept hrest, Option.bind_some, hstart]

/-! ## What `new_remote` says -/

/-- What stands behind the id for a relay. -/
def relayArgs (forceRelay : Bool) : List Text :=
  if forceRelay then [[], "--relay".toList] else []

/-- What stands behind the id. -/
def optionArgs (forceRelay : Bool) : Option Text → List Text
  | some password => "--password".toList :: password :: relayArgs forceRelay
  | none => relayArgs forceRelay

theorem newRemoteArgs_eq (id : Text) (type : LaunchType) (forceRelay : Bool)
    (selfIdOpt passwordOpt : Option Text) :
    newRemoteArgs id type.text forceRelay selfIdOpt passwordOpt =
      type.command :: id :: optionArgs forceRelay passwordOpt := by
  cases type <;> cases forceRelay <;> cases passwordOpt <;> rfl

theorem kept_relayArgs (forceRelay : Bool) :
    kept (relayArgs forceRelay) = relayArgs forceRelay := by
  cases forceRelay <;> decide

theorem kept_command (type : LaunchType) (hid : PlainId id) (rest : List Text) :
    kept (type.command :: id :: rest) = type.command :: id :: kept rest := by
  have hswitch : isSwitchUuid type.command = false := by cases type <;> decide
  have hflags : type.command ∉ flags := by cases type <;> decide
  rw [kept_cons hswitch, if_neg hflags, kept_cons_of_plain hid.noFlag]
  rfl

theorem kept_password (password : Text) (rest : List Text) :
    kept ("--password".toList :: password :: rest) =
      "--password".toList :: kept (password :: rest) := by
  rw [kept_cons (by decide), if_neg (by decide)]
  rfl

/-- The password comes through `core_main`: it is none of the flags that are taken away, and no
switch to which the placeholder of a relay would be a value. -/
def Survives (forceRelay : Bool) (password : Text) : Prop :=
  password ∉ flags ∧ password ≠ "--noinstall".toList ∧
    (forceRelay = true → isSwitchUuid password = false)

theorem kept_optionArgs {forceRelay : Bool} {passwordOpt : Option Text}
    (h : ∀ password, passwordOpt = some password → Survives forceRelay password) :
    kept (optionArgs forceRelay passwordOpt) = optionArgs forceRelay passwordOpt := by
  cases passwordOpt with
  | none => exact kept_relayArgs forceRelay
  | some password =>
    obtain ⟨hflags, -, hswitch⟩ := h password rfl
    rw [optionArgs, kept_password]
    congr 1
    cases forceRelay with
    | false =>
      rw [show relayArgs false = [] from rfl, kept, readAll, args_take, if_neg hflags]
      rfl
    | true =>
      rw [kept_cons (hswitch rfl), if_neg hflags, kept_relayArgs]
      rfl

theorem noinstall_not_mem {forceRelay : Bool} {passwordOpt : Option Text}
    (h : ∀ password, passwordOpt = some password → Survives forceRelay password) :
    "--noinstall".toList ∉ optionArgs forceRelay passwordOpt := by
  have hrelay : "--noinstall".toList ∉ relayArgs forceRelay := by cases forceRelay <;> decide
  cases passwordOpt with
  | none => exact hrelay
  | some password =>
    rw [optionArgs, List.mem_cons, List.mem_cons, not_or, not_or]
    exact ⟨by decide, (h password rfl).2.1.symm, hrelay⟩

/-- What survives is read as it was said. -/
theorem launch_of_survives (r : Resolver) (hid : PlainId id) (type : LaunchType)
    (forceRelay : Bool) (selfIdOpt passwordOpt : Option Text)
    (h : ∀ password, passwordOpt = some password → Survives forceRelay password) :
    ∃ tokenexp, launch r (newRemoteArgs id type.text forceRelay selfIdOpt passwordOpt) =
      some ⟨type.command, id, passwordOpt.getD [], tokenexp, relayArgs forceRelay⟩ := by
  have hkept : kept (newRemoteArgs id type.text forceRelay selfIdOpt passwordOpt) =
      type.command :: id :: optionArgs forceRelay passwordOpt := by
    rw [newRemoteArgs_eq, kept_command type hid, kept_optionArgs h]
  obtain ⟨tokenexp, hlaunch⟩ := launch_of_kept r hid hkept (noinstall_not_mem h)
  refine ⟨tokenexp, ?_⟩
  rw [hlaunch]
  cases passwordOpt <;> cases forceRelay <;> rfl

/-- The flags leave `--password` without a value, or with the placeholder for one. -/
theorem pass_of_flag (id : Text) (forceRelay : Bool) {password : Text} (h : password ∈ flags) :
    kept (optionArgs forceRelay (some password)) = "--password".toList :: relayArgs forceRelay ∧
      (StartArgs.readAll (.found id) ("--password".toList :: relayArgs forceRelay)).pass = [] := by
  have hswitch : isSwitchUuid password = false := flags_not_switch password h
  constructor
  · rw [optionArgs, kept_password, kept_cons hswitch, if_pos h, kept_relayArgs]
    rfl
  · cases forceRelay <;> rfl

/-- `--switch-uuid` takes the placeholder, and the relay is the value of `--password`. -/
theorem pass_of_switch {password : Text} (h : isSwitchUuid password = true) :
    kept (optionArgs true (some password)) = ["--password".toList, "--relay".toList] := by
  rw [optionArgs, kept_password, relayArgs, if_pos rfl, kept_switchUuid h]
  decide

theorem launch_of_noinstall (r : Resolver) (type : LaunchType) (forceRelay : Bool)
    (selfIdOpt : Option Text) (hid : PlainId id) :
    launch r (newRemoteArgs id type.text forceRelay selfIdOpt (some "--noinstall".toList)) =
      none := by
  have hkept : (kept (type.command :: id :: optionArgs forceRelay
      (some "--noinstall".toList))).contains "--noinstall".toList = true := by
    rw [kept_command type hid, List.contains_cons, List.contains_cons]
    have htail : (kept (optionArgs forceRelay (some "--noinstall".toList))).contains
        "--noinstall".toList = true := by cases forceRelay <;> decide
    rw [htail, Bool.or_true, Bool.or_true]
  rw [newRemoteArgs_eq, launch, coreMain]
  rw [kept] at hkept
  simp only [hkept, if_true]
  rfl

/-- What does not survive is not the password of the session. -/
theorem pass_ne_of_not_survives (r : Resolver) (hid : PlainId id) (type : LaunchType)
    {forceRelay : Bool} (selfIdOpt : Option Text) {password : Text} {params : RemoteParams}
    (h : ¬ Survives forceRelay password)
    (hlaunch : launch r (newRemoteArgs id type.text forceRelay selfIdOpt (some password)) =
      some params) : params.pass ≠ password := by
  have hpass {rest : List Text} (hkept : kept (optionArgs forceRelay (some password)) = rest)
      (hrest : "--noinstall".toList ∉ rest) :
      params.pass = (StartArgs.readAll (.found id) rest).pass := by
    have hargs : kept (newRemoteArgs id type.text forceRelay selfIdOpt (some password)) =
        type.command :: id :: rest := by
      rw [newRemoteArgs_eq, kept_command type hid, hkept]
    obtain ⟨tokenexp, hparams⟩ := launch_of_kept r hid hargs hrest
    rw [hlaunch, Option.some.injEq] at hparams
    rw [hparams]
  by_cases hflags : password ∈ flags
  · obtain ⟨hkept, hnil⟩ := pass_of_flag id forceRelay hflags
    rw [hpass hkept (by cases forceRelay <;> decide), hnil]
    rintro rfl
    exact absurd hflags (by decide)
  by_cases hnoinstall : password = "--noinstall".toList
  · rw [hnoinstall, launch_of_noinstall r type forceRelay selfIdOpt hid] at hlaunch
    cases hlaunch
  have hswitch : forceRelay = true ∧ isSwitchUuid password = true := by
    by_contra hnot
    refine h ⟨hflags, hnoinstall, fun hrelay => ?_⟩
    rw [← Bool.not_eq_true]
    exact fun hswitch => hnot ⟨hrelay, hswitch⟩
  obtain ⟨rfl, hswitch⟩ := hswitch
  have hrelay : params.pass = "--relay".toList := hpass (pass_of_switch hswitch) (by decide)
  rw [hrelay]
  rintro rfl
  exact absurd hswitch (by decide)

/-- The placeholder of a relay is taken for the first of three arguments of a port forward. -/
theorem portForward_relayArgs (type : LaunchType) (id pass tokenexp : Text) (forceRelay : Bool) :
    portForward ⟨type.command, id, pass, tokenexp, relayArgs forceRelay⟩ ≠ none ↔
      forceRelay = false := by
  have hrdp : type.command ≠ "--rdp".toList := by cases type <;> decide
  rw [portForward, if_neg hrdp]
  cases forceRelay with
  | false => exact ⟨fun _ => rfl, fun _ => Option.some_ne_none _⟩
  | true => exact iff_of_false (fun h => h rfl) Bool.true_eq_false.mp

theorem opensRemote_iff (r : Resolver) (hid : PlainId id) (type : LaunchType) (forceRelay : Bool)
    (selfIdOpt passwordOpt : Option Text) :
    OpensRemote r id type forceRelay selfIdOpt passwordOpt ↔
      (∀ password, passwordOpt = some password → Survives forceRelay password) ∧
        (type = .portForward → forceRelay = false) := by
  constructor
  · rintro ⟨params, hlaunch, hmeets, hbounds⟩
    have hsurvives : ∀ password, passwordOpt = some password → Survives forceRelay password := by
      rintro password rfl
      by_contra hnot
      exact pass_ne_of_not_survives r hid type selfIdOpt hnot hlaunch hmeets.pass
    obtain ⟨tokenexp, hparams⟩ := launch_of_survives r hid type forceRelay selfIdOpt passwordOpt
      hsurvives
    rw [hlaunch, Option.some.injEq] at hparams
    subst hparams
    exact ⟨hsurvives, fun hforward => (portForward_relayArgs ..).mp (hbounds hforward)⟩
  · rintro ⟨hsurvives, hforward⟩
    obtain ⟨tokenexp, hparams⟩ := launch_of_survives r hid type forceRelay selfIdOpt passwordOpt
      hsurvives
    refine ⟨_, hparams, ⟨rfl, rfl, ?_⟩, ?_⟩
    · cases forceRelay <;> rfl
    · intro htype
      exact (portForward_relayArgs ..).mpr (hforward htype)

/-! ## What a link says -/

theorem stripPrefix_link (id password : Text) :
    stripPrefix "hoptodesk://connect/".toList (connectLink id password) =
      some (id ++ '/' :: password) :=
  stripPrefix_append _ _

theorem normalized_link (id password : Text) :
    normalized (connectLink id password) = connectLink id password := by
  have hafter : afterFirst "://".toList (connectLink id password) =
      some ("connect/".toList ++ (id ++ '/' :: password)) := rfl
  rw [normalized, hafter]
  rfl

theorem splitOn_link {password : Text} (hid : PlainId id) (hpassword : '/' ∉ password) :
    (id ++ '/' :: password).splitOn '/' = [id, password] := by
  rw [List.splitOn_append_cons_self_of_not_mem hid.noSlash, List.splitOn_eq_singleton hpassword]

theorem coreMain_link {password : Text} (hid : PlainId id) (hpassword : '/' ∉ password) :
    coreMain ["--connect".toList, connectLink id password] =
      some ["--connect".toList, id, password] := by
  have hflag : ¬ "--".toList <+: connectLink id password := by
    rw [← List.isPrefixOf_iff_prefix]
    exact Bool.false_ne_true
  have hkept : kept ["--connect".toList, connectLink id password] =
      ["--connect".toList, connectLink id password] := by
    rw [kept_cons (by decide), if_neg (by decide), kept_cons_of_plain hflag]
    rfl
  have hcontains : ["--connect".toList, connectLink id password].contains "--noinstall".toList =
      false := by
    rw [← Bool.not_eq_true, List.contains_iff_mem]
    simp only [List.mem_cons, List.not_mem_nil, or_false, not_or]
    refine ⟨by decide, fun heq => hflag ?_⟩
    rw [← heq]
    decide
  rw [coreMain, show (readAll .new _).args = _ from hkept]
  simp only [hcontains, Bool.false_eq_true, if_false, openLink, if_true, normalized_link,
    stripPrefix_link, splitOn_link hid hpassword]
  rfl

/-- The password of a link is another argument, which `start` reads for a token. -/
theorem launch_link (r : Resolver) {password : Text} (hid : PlainId id)
    (hpassword : '/' ∉ password) :
    ∃ tokenexp, launch r ["--connect".toList, connectLink id password] =
      some ⟨"--connect".toList, id, [], tokenexp,
        (StartArgs.readAll (.found id) [password]).remaining⟩ := by
  obtain ⟨tokenexp, hstart⟩ := start_plain r hid .connect [password]
  have hpass : (StartArgs.readAll (.found id) [password]).pass = [] := by
    rw [StartArgs.readAll]
    split <;> rfl
  refine ⟨tokenexp, ?_⟩
  rw [launch, coreMain_link hid hpassword, Option.bind_some, ← hpass]
  exact hstart

theorem opensLink_iff (r : Resolver) {password : Text} (hid : PlainId id)
    (hpassword : '/' ∉ password) : OpensLink r id password ↔ password = [] := by
  obtain ⟨tokenexp, hlaunch⟩ := launch_link r hid hpassword
  constructor
  · rintro ⟨params, hparams, hmeets⟩
    rw [hlaunch, Option.some.injEq] at hparams
    subst hparams
    exact hmeets.pass.symm
  · rintro rfl
    exact ⟨_, hlaunch, rfl, rfl, rfl⟩

/-- **What a connection window is given.** What `new_remote` says comes through unless the password
is read for a flag, and a relay is not asked for with port forwards. Of a link, the password does
not. -/
theorem launch_iff (r : Resolver) (hid : PlainId id) :
    (∀ (type : LaunchType) (forceRelay : Bool) (selfIdOpt passwordOpt : Option Text),
      OpensRemote r id type forceRelay selfIdOpt passwordOpt ↔
        (∀ password, passwordOpt = some password → Survives forceRelay password) ∧
          (type = .portForward → forceRelay = false)) ∧
      ∀ password, '/' ∉ password → (OpensLink r id password ↔ password = []) :=
  ⟨opensRemote_iff r hid, fun _ => opensLink_iff r hid⟩

theorem plainId_seven : PlainId "7".toList := ⟨by decide, by decide, by decide, by decide⟩

/-- No name has an address. -/
def offline : Resolver := ⟨fun _ => false, fun _ => none⟩

theorem launch_iff_seven :
    PlainId "7".toList ∧ OpensRemote offline "7".toList .connect true none (some "secret".toList) ∧
      ¬ OpensRemote offline "7".toList .portForward true none none ∧
      ¬ OpensLink offline "7".toList "secret".toList := by
  obtain ⟨hremote, hlink⟩ := launch_iff offline plainId_seven
  refine ⟨plainId_seven, (hremote ..).mpr ⟨?_, ?_⟩, ?_, ?_⟩
  · rintro password ⟨⟩
    exact ⟨by decide, by decide, fun _ => by decide⟩
  · rintro ⟨⟩
  · intro hopens
    exact Bool.true_eq_false.mp (((hremote ..).mp hopens).2 rfl)
  · intro hopens
    exact absurd ((hlink "secret".toList (by decide)).mp hopens) (by decide)

/-- The link names the password, and the session has none. -/
theorem link_loses_password : ¬ ∀ (r : Resolver) (id : Text), PlainId id →
    (∀ (type : LaunchType) (forceRelay : Bool) (selfIdOpt passwordOpt : Option Text),
      OpensRemote r id type forceRelay selfIdOpt passwordOpt) ∧
      ∀ password, '/' ∉ password → OpensLink r id password := by
  intro hall
  obtain ⟨params, hlaunch, hmeets⟩ :=
    (hall offline _ plainId_seven).2 "secret".toList (by decide)
  have hpass : (launch offline ["--connect".toList, connectLink "7".toList "secret".toList]).map
      RemoteParams.pass = some [] := by decide
  rw [hlaunch, Option.map_some, hmeets.pass] at hpass
  cases hpass

end

end Launch

end HopToDesk.Client
