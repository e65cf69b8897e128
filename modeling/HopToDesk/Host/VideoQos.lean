import HopToDesk.Kit.Checked
import HopToDesk.Kit.MapValues
import HopToDesk.Kit.System

/-!
# How many frames a second

`VideoQoS` of `src/server/video_qos.rs`: one controller for all users of the host. It gives each
user a rate of frames by the delay of their network, takes the least of them, and chooses a ratio
for the bitrate.

Sums, differences and quotients of machine integers are those of a debug build: an operation that
overflows gives nothing, and the state is gone. (A release build wraps round.) An `f32` is a
rational number, and `round` is what `f32` arithmetic makes of an exact result; with `id` for it,
ratios and ceilings are exact. An instant is a number of nanoseconds.
-/

set_option autoImplicit false

namespace HopToDesk.Host

open Kit

/-! ## Constants -/

namespace VideoQoS

def FPS : Nat := 30

def minFPS : Nat := 1

def maxFPS : Nat := 120

def initFPS : Nat := 15

def historyDelayLen : Nat := 2

def adjustRatioInterval : Nat := 3

def dynamicScreenThreshold : Nat := 2

def delayThreshold150ms : Nat := 150

/-- `as u32` of an `f32`: towards zero, and the nearest `u32` where there is none. -/
def asU32 (q : ℚ) : Nat := min ⌊q⌋.toNat (2 ^ 32 - 1)

/-- `clamp`. -/
def clamp (lo hi n : Nat) : Nat := max lo (min n hi)

/-- `as_secs` of what has gone by. -/
def elapsedSecs (now instant : Nat) : Nat := (now - instant) / 10 ^ 9

end VideoQoS

open VideoQoS

section

-- what `f32` arithmetic makes of an exact result
variable (round : ℚ → ℚ)

namespace VideoQoS

def brMax : ℚ := round 40

def brMin : ℚ := round (2 / 10)

def brMinHighResolution : ℚ := round (1 / 10)

def maxBrMultiple : ℚ := round 1

def brBest : ℚ := round (15 / 10)

def brBalanced : ℚ := round (67 / 100)

def brSpeed : ℚ := round (5 / 10)

end VideoQoS

/-! ## RttCalculator -/

structure RttCalculator where
  minRtt : Option Nat
  windowMinRtt : Option Nat
  smoothedRtt : Option Nat
  samples : List Nat
deriving DecidableEq, Repr

namespace RttCalculator

def windowSamples : Nat := 60

def minSamples : Nat := 10

def alpha : ℚ := 1 / 2

def new : RttCalculator := ⟨none, none, none, []⟩

variable (self : RttCalculator)

/-- `update`. -/
def update (delay : Nat) : RttCalculator :=
  let minRtt := match self.minRtt with
    | some minRtt => if delay < minRtt then some delay else some minRtt
    | none => some delay
  let samples :=
    (if self.samples.length ≥ windowSamples then self.samples.tail else self.samples) ++ [delay]
  let windowMinRtt := samples.min?
  let smoothedRtt :=
    if samples.length ≥ windowSamples then
      match minRtt, windowMinRtt with
      | some min, some windowMin =>
        some (asU32 (round (round (round (1 - alpha) * round min) +
          round (round alpha * round windowMin))))
      | _, _ => self.smoothedRtt
    else self.smoothedRtt
  ⟨minRtt, windowMinRtt, smoothedRtt, samples⟩

/-- `get_rtt`. -/
def getRtt : Option Nat :=
  match self.smoothedRtt with
  | some rtt => some rtt
  | none => if self.samples.length ≥ minSamples then self.minRtt else none

end RttCalculator

/-! ## UserDelay -/

structure UserDelay where
  responseDelayed : Bool
  delayHistory : List Nat
  fps : Option Nat
  rttCalculator : RttCalculator
  quickIncreaseFpsCount : Nat
  increaseFpsCount : Nat
deriving DecidableEq, Repr

namespace UserDelay

def new : UserDelay := ⟨false, [], none, .new, 0, 0⟩

variable (self : UserDelay)

/-- `add_delay`. -/
def addDelay (delay : Nat) : UserDelay :=
  let history :=
    if self.delayHistory.length > historyDelayLen then self.delayHistory.tail else self.delayHistory
  { self with
    rttCalculator := self.rttCalculator.update round delay
    delayHistory := history ++ [delay] }

/-- `avg_delay`. -/
def avgDelay : Option Nat :=
  let len := self.delayHistory.length
  if len > 0 then do
    let sum ← checkedSum 32 self.delayHistory
    let avgDelay ← checkedDiv sum len
    match self.rttCalculator.getRtt with
    | some rtt => if avgDelay > rtt then checkedSub avgDelay rtt else some avgDelay
    | none => some avgDelay
  else some delayThreshold150ms

end UserDelay

/-! ## Qualities -/

inductive Quality
  | best
  | balanced
  | low
  | custom (ratio : ℚ)
deriving DecidableEq

/-- `ratio`. -/
def Quality.ratio : Quality → ℚ
  | best => brBest round
  | balanced => brBalanced round
  | low => brSpeed round
  | custom ratio => ratio

/-- `convert_quality`: the values of `ImageQuality`, and any other as a percentage. -/
def convertQuality (q : Int) : Quality :=
  if q = 3 then .balanced
  else if q = 2 then .low
  else if q = 4 then .best
  else
    let b := round (round ((q / 2 ^ 8 % 2 ^ 12 * 2 : Int) : ℚ) / 100)
    .custom (max (brMin round) (min b (brMax round)))

structure UserData where
  autoAdjustFps : Option Nat
  customFps : Option Nat
  quality : Option (Int × Quality)
  delay : UserDelay
  record : Bool
deriving DecidableEq

def UserData.new : UserData := ⟨none, none, none, .new, false⟩

structure DisplayData where
  sendCounter : Nat
  supportChangingQuality : Bool
deriving DecidableEq, Repr

def DisplayData.new : DisplayData := ⟨0, false⟩

/-! ## VideoQoS -/

structure VideoQoS where
  fps : Nat
  ratio : ℚ
  users : AList fun _ : Int => UserData
  displays : AList fun _ : String => DisplayData
  bitrateStore : Nat
  adjustRatioInstant : Nat
  abrConfig : Bool
  newUserInstant : Nat

namespace VideoQoS

/-- `default`. -/
def new (now : Nat) : VideoQoS := ⟨FPS, brBalanced round, ∅, ∅, 0, now, true, now⟩

variable (self : VideoQoS)

def userData : List UserData := self.users.entries.map Sigma.snd

def displayData : List DisplayData := self.displays.entries.map Sigma.snd

/-- `get_mut` of a user. -/
def modifyUser (id : Int) (f : UserData → UserData) : VideoQoS :=
  { self with users := mapValues (fun i user => if i = id then f user else user) self.users }

/-- `get_mut` of a display. -/
def modifyDisplay (name : String) (f : DisplayData → DisplayData) : VideoQoS :=
  { self with
    displays := mapValues (fun n display => if n = name then f display else display)
      self.displays }

/-- `in_vbr_state`. -/
def inVbrState : Bool := self.abrConfig && self.displayData.all (·.supportChangingQuality)

/-- `user_fps` of `highest_fps`. -/
def userFps (user : UserData) : Nat :=
  let fps := user.customFps.getD FPS
  match user.autoAdjustFps with
  | some autoAdjustFps => if fps = 0 ∨ autoAdjustFps < fps then autoAdjustFps else fps
  | none => fps

/-- `highest_fps`. -/
def highestFps : Nat :=
  let fps := (((self.userData.map userFps).filter (· ≥ minFPS)).min?).getD FPS
  clamp minFPS maxFPS fps

/-- The later of two qualities, and of two at once the second. -/
def laterQuality (latest : Option (Int × Quality)) (quality : Int × Quality) :
    Option (Int × Quality) :=
  match latest with
  | some best => if quality.1 < best.1 then some best else some quality
  | none => some quality

/-- `latest_quality`. -/
def latestQuality : Quality :=
  match (self.userData.filterMap (·.quality)).foldl laterQuality none with
  | some (_, quality) => quality
  | none => .balanced

/-- `adjust_fps`. -/
def adjustFps (now : Nat) : VideoQoS :=
  let fps := ((self.userData.map fun user => user.delay.fps.getD initFPS).min?).getD initFPS
  let fps := if self.userData.any (·.delay.responseDelayed) then min fps (minFPS + 1) else fps
  let fps := if elapsedSecs now self.newUserInstant < 1 then min fps initFPS else fps
  { self with fps := clamp minFPS self.highestFps fps }

/-- The factor of the ratio for a delay. -/
def ratioFactor (maxDelay : Nat) (dynamicScreen : Bool) : Option ℚ :=
  if maxDelay < 50 then if dynamicScreen then some (round (115 / 100)) else none
  else if maxDelay < 100 then if dynamicScreen then some (round (11 / 10)) else none
  else if maxDelay < delayThreshold150ms then
    if dynamicScreen then some (round (105 / 100)) else none
  else if maxDelay < 200 then some (round (95 / 100))
  else if maxDelay < 300 then some (round (9 / 10))
  else if maxDelay < 500 then some (round (85 / 100))
  else some (round (8 / 10))

/-- The least ratio of a quality. -/
def minRatio (quality : Quality) (ratio1mbps : Option ℚ) : ℚ :=
  let below (least : ℚ) : ℚ := match ratio1mbps with
    | some ratio => if least > ratio then ratio else least
    | none => least
  match quality with
  | .best => max (below (round (brBest round / round (25 / 10)))) (brMin round)
  | .balanced =>
    max (below (min (round (brBalanced round / 2)) (round (4 / 10)))) (brMinHighResolution round)
  | .low | .custom _ => brMinHighResolution round

/-- `adjust_ratio`. -/
def adjustRatio (dynamicScreen : Bool) (now : Nat) : Option VideoQoS :=
  if !self.inVbrState then some self
  else do
    let delays : List Nat ← self.userData.mapM fun user => user.delay.avgDelay
    match delays.max? with
    | none => some self
    | some maxDelay =>
      let bitrate : ℚ := round self.bitrateStore
      let ratio1mbps := if self.bitrateStore > 0 then
        some (max (round (round (self.ratio * 1000) / bitrate)) (brMinHighResolution round))
        else none
      let ratioAdd150kbps := if self.bitrateStore > 0 then
        some (round (round (round ((self.bitrateStore + 150) % 2 ^ 32 : Nat) * self.ratio) /
          bitrate))
        else none
      let v := match ratioFactor round maxDelay dynamicScreen with
        | some factor => round (self.ratio * factor)
        | none => self.ratio
      let v := match ratioAdd150kbps with
        | some most =>
          if v > most ∧ most > self.ratio ∧ self.ratio ≥ brSpeed round then most else v
        | none => v
      let least := minRatio round self.latestQuality ratio1mbps
      let most := round (self.latestQuality.ratio round * maxBrMultiple round)
      some { self with ratio := max least (min v most), adjustRatioInstant := now }

/-! ### What users and displays do -/

/-- `on_connection_open`. -/
def onConnectionOpen (id : Int) (enableAbr : Bool) (now : Nat) : VideoQoS :=
  { self with
    users := self.users.insert id .new
    abrConfig := enableAbr
    newUserInstant := now }

/-- `on_connection_close`. -/
def onConnectionClose (id : Int) (now : Nat) : VideoQoS :=
  let self := { self with users := self.users.erase id }
  if self.users.entries.isEmpty then new round now else self

/-- `user_custom_fps`. -/
def userCustomFps (id : Int) (fps : Nat) : VideoQoS :=
  if fps < minFPS ∨ fps > maxFPS then self
  else self.modifyUser id ({ · with customFps := some fps })

/-- `user_auto_adjust_fps`. -/
def userAutoAdjustFps (id : Int) (fps : Nat) : VideoQoS :=
  if fps < minFPS ∨ fps > maxFPS then self
  else self.modifyUser id ({ · with autoAdjustFps := some fps })

/-- `user_image_quality`. -/
def userImageQuality (id : Int) (imageQuality time : Int) : VideoQoS :=
  if id ∈ self.users then
    let self := self.modifyUser id
      ({ · with quality := some (time, convertQuality round imageQuality) })
    { self with ratio := self.latestQuality.ratio round }
  else self

/-- `user_record`. -/
def userRecord (id : Int) (v : Bool) : VideoQoS := self.modifyUser id ({ · with record := v })

/-- `min_fps` and `normal_fps` of a target ratio. -/
def fpsOfRatio (targetRatio : ℚ) : Nat × Nat :=
  if targetRatio ≥ brBest round then (8, 16)
  else if targetRatio ≥ brBalanced round then (10, 20)
  else (12, 24)

/-- `devide_fps`: the rate divided by how often the delay is over the threshold. -/
def devideFps (fps avgDelay : Nat) : Nat :=
  asU32 ⌈round (round fps / round (round avgDelay / delayThreshold150ms))⌉

/-- The rate for a delay, and `quick_increase_fps_count`. -/
def fpsOfDelay (minFps normalFps fps oldAvgDelay avgDelay quickCount : Nat) : Option (Nat × Nat) :=
  if avgDelay < 50 then do
    let quickCount ← unsigned 64 (quickCount + 1)
    let step := if quickCount ≥ 3 then 5 else if fps < normalFps then 1 else 0
    let fps ← unsigned 32 (fps + step)
    some (max minFps fps, if quickCount ≥ 3 then 0 else quickCount)
  else if avgDelay < 100 then do
    let step := if avgDelay < oldAvgDelay then if fps < normalFps then 1 else 0 else 0
    let fps ← unsigned 32 (fps + step)
    some (max minFps fps, quickCount)
  else if avgDelay < delayThreshold150ms then some (max minFps fps, quickCount)
  else if avgDelay < 200 then some (max minFps (devideFps round fps avgDelay), quickCount)
  else if avgDelay < 300 then some (min minFps (devideFps round fps avgDelay), quickCount)
  else do
    let dividendMs ← unsigned 32 (delayThreshold150ms * minFps)
    let divided ← checkedDiv dividendMs avgDelay
    if avgDelay < 600 then some (divided, quickCount)
    else some (min divided (devideFps round fps avgDelay), quickCount)

/-- What a delay makes of the delays of a user, where `fps` is the rate of all. -/
def assignFps (fps highestFps : Nat) (targetRatio : ℚ) (delay : Nat) (self : UserDelay) :
    Option UserDelay := do
  let oldAvgDelay ← self.avgDelay
  let self := self.addDelay round (max delay 10)
  let avgDelay ← self.avgDelay
  let avgDelay := max avgDelay 10
  let (fps, quickCount) ← fpsOfDelay round (fpsOfRatio round targetRatio).1
    (fpsOfRatio round targetRatio).2 fps oldAvgDelay avgDelay self.quickIncreaseFpsCount
  let count : Nat ← (if avgDelay < delayThreshold150ms then
    unsigned 64 (self.increaseFpsCount + 1) else some 0)
  let fps : Nat ← (if count ≥ 3 then unsigned 32 (fps + 1) else some fps)
  some { self with
    quickIncreaseFpsCount := if avgDelay > 50 then 0 else quickCount
    increaseFpsCount := if count ≥ 3 then 0 else count
    fps := some (clamp minFPS highestFps fps) }

/-- `user_network_delay`. On Linux and FreeBSD the ratio is not adjusted here. -/
def userNetworkDelay (linuxOrFreebsd : Bool) (id : Int) (delay now : Nat) : Option VideoQoS :=
  match self.users.lookup id with
  | none => some (self.adjustFps now)
  | some user => do
    let delays ← assignFps round self.fps self.highestFps (self.latestQuality.ratio round) delay
      user.delay
    let self := (self.modifyUser id ({ · with delay := delays })).adjustFps now
    if user.delay.fps.isNone && !linuxOrFreebsd then self.adjustRatio round false now else some self

/-- `user_delay_response_elapsed`. -/
def userDelayResponseElapsed (id : Int) (elapsed now : Nat) : VideoQoS :=
  if id ∈ self.users then
    let responseDelayed := decide (elapsed > 2000)
    let self := self.modifyUser id fun user =>
      { user with delay := { user.delay with responseDelayed } }
    if responseDelayed then
      (self.modifyUser id fun user =>
        { user with delay := user.delay.addDelay round (elapsed % 2 ^ 32) }).adjustFps now
    else self
  else self

/-- `new_display`. -/
def newDisplay (videoServiceName : String) : VideoQoS :=
  { self with displays := self.displays.insert videoServiceName .new }

/-- `remove_display`. -/
def removeDisplay (videoServiceName : String) : VideoQoS :=
  { self with displays := self.displays.erase videoServiceName }

/-- `set_support_changing_quality`. -/
def setSupportChangingQuality (videoServiceName : String) (support : Bool) : VideoQoS :=
  self.modifyDisplay videoServiceName ({ · with supportChangingQuality := support })

/-- `update_display_data`. -/
def updateDisplayData (videoServiceName : String) (sendCounter now : Nat) : Option VideoQoS :=
  let self := self.modifyDisplay videoServiceName fun display =>
    { display with sendCounter := display.sendCounter + sendCounter }
  let self := self.adjustFps now
  if self.inVbrState then
    if elapsedSecs now self.adjustRatioInstant ≥ adjustRatioInterval then
      let dynamicScreen := self.displayData.any fun display =>
        decide (display.sendCounter ≥ adjustRatioInterval * dynamicScreenThreshold)
      let self := { self with
        displays := mapValues (fun _ display => { display with sendCounter := 0 }) self.displays }
      self.adjustRatio round dynamicScreen now
    else some self
  else some { self with ratio := self.latestQuality.ratio round }

/-- `store_bitrate`. -/
def storeBitrate (bitrate : Nat) : VideoQoS := { self with bitrateStore := bitrate }

/-- `ratio`: a ratio out of bounds is replaced. -/
def checkRatio : VideoQoS :=
  if self.ratio < brMinHighResolution round ∨ self.ratio > brMax round then
    { self with ratio := brBalanced round }
  else self

end VideoQoS

/-! ## A controller in use -/

/-- What is done with the controller. -/
inductive QosOp
  | connectionOpen (id : Int) (enableAbr : Bool)
  | connectionClose (id : Int)
  | customFps (id : Int) (fps : Nat)
  | autoAdjustFps (id : Int) (fps : Nat)
  | imageQuality (id imageQuality time : Int)
  | record (id : Int) (v : Bool)
  | networkDelay (id : Int) (delay : Nat)
  | delayResponseElapsed (id : Int) (elapsed : Nat)
  | newDisplay (videoServiceName : String)
  | removeDisplay (videoServiceName : String)
  | setSupportChangingQuality (videoServiceName : String) (support : Bool)
  | updateDisplayData (videoServiceName : String) (sendCounter : Nat)
  | storeBitrate (bitrate : Nat)
  | checkRatio
deriving DecidableEq, Repr

namespace VideoQoS

/-- One operation, at an instant. -/
def apply (linuxOrFreebsd : Bool) (self : VideoQoS) (now : Nat) : QosOp → Option VideoQoS
  | .connectionOpen id enableAbr => some (self.onConnectionOpen id enableAbr now)
  | .connectionClose id => some (self.onConnectionClose round id now)
  | .customFps id fps => some (self.userCustomFps id fps)
  | .autoAdjustFps id fps => some (self.userAutoAdjustFps id fps)
  | .imageQuality id imageQuality time => some (self.userImageQuality round id imageQuality time)
  | .record id v => some (self.userRecord id v)
  | .networkDelay id delay => self.userNetworkDelay round linuxOrFreebsd id delay now
  | .delayResponseElapsed id elapsed => some (self.userDelayResponseElapsed round id elapsed now)
  | .newDisplay name => some (self.newDisplay name)
  | .removeDisplay name => some (self.removeDisplay name)
  | .setSupportChangingQuality name support => some (self.setSupportChangingQuality name support)
  | .updateDisplayData name sendCounter => self.updateDisplayData round name sendCounter now
  | .storeBitrate bitrate => some (self.storeBitrate bitrate)
  | .checkRatio => some (self.checkRatio round)

/-- The operation calls `adjust_fps`. -/
def adjusts (self : VideoQoS) : QosOp → Bool
  | .networkDelay _ _ | .updateDisplayData _ _ => true
  | .delayResponseElapsed id elapsed => decide (id ∈ self.users) && decide (elapsed > 2000)
  | _ => false

/-- The operation takes the last user, and the controller starts over. -/
def startsOver (self : VideoQoS) : QosOp → Bool
  | .connectionClose id => (self.users.erase id).entries.isEmpty
  | _ => false

end VideoQoS

/-- A controller, and what `highest_fps` was at the last `adjust_fps`. A new controller, and one
that starts over, has the rate that is the highest of no users. -/
structure QosRun where
  qos : VideoQoS
  highest : Nat

namespace QosRun

variable (linuxOrFreebsd : Bool)

def next (s : QosRun) (op : QosOp) (now : Nat) : Option QosRun := do
  let qos ← s.qos.apply round linuxOrFreebsd now op
  let highest :=
    if s.qos.adjusts op then qos.highestFps
    else if s.qos.startsOver op then FPS
    else s.highest
  some ⟨qos, highest⟩

/-- Any operations, at any instants, up to one that overflows. -/
def system : System (Option QosRun) (QosOp × Nat) where
  init s := ∃ now, s = some ⟨.new round now, FPS⟩
  step s e s' := ∃ q, s = some q ∧ s' = q.next round linuxOrFreebsd e.1 e.2

end QosRun

end

end HopToDesk.Host

/-!
## Video services and the controller

A run of a video service enters its display with the controller, says whether its encoder can change
the quality, and takes the display out again when it ends (`Raii` of `src/server/video_service.rs`).
A service has a name of its own, and its runs follow one another.

Besides the controller there is what the code does not keep: which services run, and what each of
them said last. Connections, and all else that is done with the controller, come in between, in any
order. An operation that overflows ends all.
-/

namespace HopToDesk.Host

open Kit VideoQoS

/-- The controller, and the services that run, each with what it said last. -/
structure DisplayRegistry where
  qos : VideoQoS
  running : String → Option Bool

namespace DisplayRegistry

/-- A service that runs enters no display, and one that does not run does nothing else. -/
def allowed (running : String → Option Bool) : QosOp → Bool
  | .newDisplay name => (running name).isNone
  | .removeDisplay name | .setSupportChangingQuality name _ => (running name).isSome
  | _ => true

/-- What runs after an operation. A display that was just entered supports nothing yet. -/
def runningAfter (running : String → Option Bool) : QosOp → String → Option Bool
  | .newDisplay name => Function.update running name (some false)
  | .removeDisplay name => Function.update running name none
  | .setSupportChangingQuality name support => Function.update running name (some support)
  | _ => running

section

variable (round : ℚ → ℚ) (linuxOrFreebsd : Bool)

def next (s : DisplayRegistry) (e : QosOp × Nat) : Option DisplayRegistry :=
  if allowed s.running e.1 then
    (s.qos.apply round linuxOrFreebsd e.2 e.1).map fun qos => ⟨qos, runningAfter s.running e.1⟩
  else none

/-- A new controller and no services. -/
def start (now : Nat) : DisplayRegistry := ⟨.new round now, fun _ => none⟩

/-- Any operations, at any instants. -/
def system : System DisplayRegistry (QosOp × Nat) :=
  .stepping (fun s => ∃ now, s = start round now) (next round linuxOrFreebsd)

end

/-- The displays are those of the services that run, with what each of them said last; and the
bitrate varies only if all of them can change the quality. -/
structure Registered (s : DisplayRegistry) : Prop where
  keys : ∀ name, name ∈ s.qos.displays ↔ (s.running name).isSome = true
  support : ∀ name display, s.qos.displays.lookup name = some display →
    s.running name = some display.supportChangingQuality
  vbr : s.qos.inVbrState = true → ∀ name support, s.running name = some support → support = true

/-- A connection that is the last to close finds no service running. -/
def ClosesQuietly (s : DisplayRegistry) (e : QosOp × Nat) : Prop :=
  s.qos.startsOver e.1 = true → ∀ name, s.running name = none

end DisplayRegistry

end HopToDesk.Host
