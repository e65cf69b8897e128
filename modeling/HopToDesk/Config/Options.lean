import HopToDesk.Kit.System

/-!
# Options over IPC

The options are kept by the server process; a client process keeps a copy. `set_option_async` reads
the whole map from the server, changes one key of it and sends the whole map back, in two requests.

The settings a process was built or customised with frame the map. The defaults are below what is
stored and the overwritten settings above it, and neither is stored.
-/

set_option autoImplicit false

namespace HopToDesk.Config

open Kit

/-- `HashMap<String, String>`, by what it has under each key. -/
abbrev Options := String → Option String

namespace Options

/-- `extend`: what `other` has replaces what is there. -/
def extend (options other : Options) : Options := fun k => (other k).or (options k)

def insert (options : Options) (key value : String) : Options :=
  Function.update options key (some value)

def remove (options : Options) (key : String) : Options := Function.update options key none

end Options

/-- `DEFAULT_SETTINGS` and `OVERWRITE_SETTINGS` of a process. -/
structure Settings where
  defaults : Options
  overwrite : Options

namespace Settings

variable (settings : Settings)

/-- `is_option_can_save`. -/
def isOptionCanSave (k v : String) : Bool :=
  if (settings.overwrite k).isSome || (settings.defaults k == some v) then false else true

/-- `Config::get_options`, of what is stored. -/
def getOptions (options : Options) : Options :=
  (settings.defaults.extend options).extend settings.overwrite

/-- `purify_options`. -/
def purifyOptions (v : Options) : Options := fun k => (v k).filter (settings.isOptionCanSave k)

/-- `Config::set_options`: what is stored afterwards. -/
def setOptions (v : Options) : Options := settings.purifyOptions v

/-- `get_or`. -/
def getOr (options : Options) (k : String) : Option String :=
  (settings.overwrite k).or ((options k).or (settings.defaults k))

/-- `Config::get_option`. -/
def getOption (options : Options) (k : String) : String := (settings.getOr options k).getD ""

/-- `Config::set_option`: what is stored afterwards. -/
def setOption (options : Options) (k v : String) : Options :=
  if !settings.isOptionCanSave k v then options
  else
    let v2 := if v = "" then none else some v
    if v2 ≠ options k then
      if v2.isNone then options.remove k else options.insert k v
    else options

/-- What is stored under `key` once `value` is written there. An empty value removes the key; one
that cannot be saved is not stored. -/
def savedAs (key value : String) : Option String :=
  if value = "" then none else (some value).filter (settings.isOptionCanSave key)

end Settings

/-! ## Writes of one process -/

inductive OptionWrite
  | setOption (k v : String)
  | setOptions (v : Options)

namespace OptionWrite

/-- What is stored afterwards. -/
def apply (settings : Settings) (options : Options) : OptionWrite → Options
  | .setOption k v => settings.setOption options k v
  | .setOptions v => settings.setOptions v

/-- What is written under a key. All options at once write every key, and a key that is left out as
empty. -/
def value (k : String) : OptionWrite → Option String
  | .setOption k' v => if k = k' then some v else none
  | .setOptions v => some ((v k).getD "")

end OptionWrite

/-- The options that are stored, and what was last written under each key. The code keeps the
options. -/
structure OptionsRun where
  options : Options
  written : String → Option String

namespace OptionsRun

variable (settings : Settings)

def next (s : OptionsRun) (w : OptionWrite) : OptionsRun :=
  ⟨w.apply settings s.options, fun k => (w.value k).or (s.written k)⟩

/-- Any stored options, and any writes. -/
def system : System OptionsRun OptionWrite where
  init s := s.written = fun _ => none
  step s w s' := s' = s.next settings w

/-- What a key that was written is to be read as. -/
def read (k v : String) : String := if v = "" then (settings.defaults k).getD "" else v

/-- What was last written is what is read, and all options at once say the same as one. -/
structure ReadsWrites (s : OptionsRun) : Prop where
  reads : ∀ k v, settings.overwrite k = none → s.written k = some v →
    settings.getOption s.options k = read settings k v
  agrees : ∀ k, (settings.getOptions s.options k).getD "" = settings.getOption s.options k

/-- A default is written where nothing else is stored, and no empty value is written with others
where the default is not empty. -/
def Replaces (s : OptionsRun) : OptionWrite → Prop
  | .setOption k v => settings.overwrite k = none → settings.defaults k = some v →
      s.options k = none ∨ s.options k = some v
  | .setOptions v => ∀ k, settings.overwrite k = none → v k = some "" →
      settings.defaults k = none ∨ settings.defaults k = some ""

end OptionsRun

/-! ## The server -/

/-- What the server does apart from storing and answering. -/
inductive Effect
  | switchPrivacyMode (implKey : String)
  | restartAudio
deriving DecidableEq, Repr

/-- `handle` of `Data::Options(value)`: what is stored afterwards, the options it answers with, and
what else it does. The audio input from before is compared with itself. -/
def handleOptions (settings : Settings) (options : Options) :
    Option Options → Options × Option Options × List Effect
  | none => (options, some (settings.getOptions options), [])
  | some value =>
    let switched := match value "privacy-mode-impl-key" with
      | some v => [.switchPrivacyMode v]
      | none => []
    let preOpts := settings.getOptions options
    let newAudioInput := preOpts "audio-input"
    let restarted := if newAudioInput ≠ preOpts "audio-input" then [.restartAudio] else []
    (settings.setOptions value, none, switched ++ restarted)

/-! ## The clients -/

/-- The change `set_option` and `set_option_async` make to the map they have read. -/
def changeOption (options : Options) (key value : String) : Options :=
  if value = "" then options.remove key else options.insert key value

/-- Where a call of `set_option_async` stands. -/
inductive SetOption
  /-- It has not asked for the options yet. -/
  | asking (process : Nat) (key value : String)
  /-- It has read the options, and has not sent them changed yet. -/
  | setting (process : Nat) (key value : String) (options : Options)

def SetOption.key : SetOption → String
  | .asking _ key _ | .setting _ key _ _ => key

/-- The server's options, the copy of each client process, the calls under way by a number of their
own, and how the others ended: the keys and values that the server was sent, newest first, and
whether a map did not reach it. The code keeps the first two. -/
structure Processes where
  server : Options
  copies : Nat → Options
  calls : Nat → Option SetOption
  written : List (String × String)
  failed : Bool

inductive OptionStep
  | start (call process : Nat) (key value : String)
  /-- `get_options_` is answered. -/
  | getOptions (call : Nat)
  /-- It is not, and the copy is used. -/
  | getOptionsFails (call : Nat)
  /-- `set_options_async` reaches the server. -/
  | setOptions (call : Nat)
  /-- It does not: the copy alone is set where there is no connection, and nothing where the map
  could not be sent. -/
  | setOptionsFails (call : Nat) (connected : Bool)

namespace Processes

section

-- the settings of the server, and of each client process
variable (settings : Settings) (clients : Nat → Settings)

/-- One step. A call that is not there takes none. -/
def next (s : Processes) : OptionStep → Option Processes
  | .start call process key value =>
    match s.calls call with
    | some _ => none
    | none => some { s with calls := Function.update s.calls call (some (.asking process key value)) }
  | .getOptions call =>
    match s.calls call with
    | some (.asking process key value) =>
      match handleOptions settings s.server none with
      | (server, some options, _) =>
        some { s with
          server := server
          copies := Function.update s.copies process ((clients process).setOptions options)
          calls := Function.update s.calls call
            (some (.setting process key value options)) }
      | (_, none, _) => none
    | _ => none
  | .getOptionsFails call =>
    match s.calls call with
    | some (.asking process key value) =>
      let options := (clients process).getOptions (s.copies process)
      some { s with
        calls := Function.update s.calls call
          (some (.setting process key value options)) }
    | _ => none
  | .setOptions call =>
    match s.calls call with
    | some (.setting process key value options) =>
      let changed := changeOption options key value
      some { s with
        server := (handleOptions settings s.server (some changed)).1
        copies := Function.update s.copies process ((clients process).setOptions changed)
        calls := Function.update s.calls call none
        written := (key, value) :: s.written }
    | _ => none
  | .setOptionsFails call connected =>
    match s.calls call with
    | some (.setting process key value options) =>
      let changed := changeOption options key value
      some { s with
        copies := if connected then s.copies else
          Function.update s.copies process ((clients process).setOptions changed)
        calls := Function.update s.calls call none
        failed := true }
    | _ => none

/-- No call under way, and nothing written yet. -/
def start (server : Options) (copies : Nat → Options) : Processes :=
  ⟨server, copies, fun _ => none, [], false⟩

/-- Any stored options, and any order of the calls. -/
def system : System Processes OptionStep :=
  System.stepping (fun s => ∃ server copies, s = start server copies) (next settings clients)

end

/-- The value the last call for a key has written. -/
def lastWritten (s : Processes) (key : String) : Option String :=
  (s.written.find? (·.1 = key)).map (·.2)

/-- The server holds what was last written under every key that was written. -/
def Holds (settings : Settings) (s : Processes) : Prop :=
  ∀ key value, s.lastWritten key = some value → s.server key = settings.savedAs key value

/-- All calls have completed, and every map has reached the server. -/
def Completed (s : Processes) : Prop := (∀ call, s.calls call = none) ∧ s.failed = false

/-- Calls under way at once are for different keys. -/
def DifferentKeys (s : Processes) : OptionStep → Prop
  | .start _ _ key _ => ∀ call c, s.calls call = some c → c.key ≠ key
  | _ => True

/-- A call sets the options where the map it has read is still what the server would answer, under
every other key that was written. -/
def Current (settings : Settings) (s : Processes) : OptionStep → Prop
  | .setOptions call => ∀ process key value options,
      s.calls call = some (.setting process key value options) →
        ∀ k, k ≠ key → (s.lastWritten k).isSome → options k = settings.getOptions s.server k
  | _ => True

end Processes

end HopToDesk.Config

/-!
## What a change of the options restarts

`CheckIfRestart` of `src/ipc.rs` is a snapshot of what the services depend on, taken before the
options change; `check` compares it with what there is afterwards and restarts what has changed.
The server takes the snapshot and drops it: the type has no `Drop`, and `check` is called nowhere.

`Config::get_rendezvous_servers` may ask a server for its answer, which is an argument here, once
for each call.
-/

namespace HopToDesk.Config

/-- What happens to the services. -/
inductive Restart
  | rendezvousMediator
  | audioService
  /-- `set_voice_call_input_device(device, set_if_present)`. -/
  | voiceCallInputDevice (device : Option String) (setIfPresent : Bool)
deriving DecidableEq, Repr

structure CheckIfRestart where
  stopService : String
  rendezvousServers : Option (List String)
  audioInput : String
  voiceCallInput : String
deriving DecidableEq, Repr

namespace CheckIfRestart

variable (settings : Settings)

def new (options : Options) (servers : Option (List String)) : CheckIfRestart where
  stopService := settings.getOption options "stop-service"
  rendezvousServers := servers
  audioInput := settings.getOption options "audio-input"
  voiceCallInput := settings.getOption options "voice-call-input"

def check (self : CheckIfRestart) (options : Options) (servers : Option (List String)) :
    List Restart :=
  (if self.stopService ≠ settings.getOption options "stop-service" ∨
      self.rendezvousServers ≠ servers then [.rendezvousMediator] else []) ++
  (if self.audioInput ≠ settings.getOption options "audio-input" then [.audioService] else []) ++
  (if self.voiceCallInput ≠ settings.getOption options "voice-call-input" then
    [.voiceCallInputDevice (some (settings.getOption options "voice-call-input")) true] else [])

end CheckIfRestart

/-- The service an effect of `handle` restarts. -/
def Effect.restart? : Effect → Option Restart
  | .restartAudio => some .audioService
  | .switchPrivacyMode _ => none

/-- `handle` of `Data::Options(Some(value))` with its snapshot: what is stored afterwards, and what
is restarted. -/
def handleSetOptions (settings : Settings) (servers : Option (List String))
    (options value : Options) : Options × List Restart :=
  let _chk := CheckIfRestart.new settings options servers
  let (stored, _, effects) := handleOptions settings options (some value)
  (stored, effects.filterMap Effect.restart?)

end HopToDesk.Config
