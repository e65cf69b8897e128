import HopToDesk.Host.Service
import HopToDesk.Kit.MapValues

/-!
# The server and its services

One server holds the services of the host and every connection subscribes to some of them. A service
is kept under its own name, so the loops over the services read the key for the name.
-/

set_option autoImplicit false

namespace HopToDesk.Host

/-- `VideoSource`. -/
inductive VideoSource
  | monitor
  | camera
deriving DecidableEq, Repr

/-- The names services are kept under: the constants, and `get_service_name` of a video source. -/
inductive ServiceName
  | audio
  | display
  | clipboard
  | fileClipboard
  | cursor
  | pos
  | windowFocus
  | video (source : VideoSource) (idx : Nat)
deriving DecidableEq, Repr

/-- `service_name_prefix`. -/
def VideoSource.serviceNamePrefix : VideoSource → String
  | .monitor => "monitor"
  | .camera => "camera"

/-- The name in the source. -/
def ServiceName.text : ServiceName → String
  | .audio => "audio"
  | .display => "display"
  | .clipboard => "clipboard"
  | .fileClipboard => "file-clipboard"
  | .cursor => "mouse_cursor"
  | .pos => "mouse_pos"
  | .windowFocus => "window_focus"
  | .video source idx => source.serviceNamePrefix ++ toString idx

/-- `is_video_service_name`. -/
def ServiceName.isVideo : ServiceName → Bool
  | .video _ _ => true
  | _ => false

/-- `ConnInner`, without its channels. -/
structure ConnInner where
  id : Int
deriving DecidableEq, Repr

instance : Subscriber ConnInner Unit where
  id := ConnInner.id
  send conn _ := conn
  id_send _ _ := rfl

/-- `Server`. Ids are given out one by one, so a connection has its own. -/
structure Server where
  connections : List Int
  services : AList fun _ : ServiceName => ServiceInner ConnInner

namespace Server

variable (server : Server)

/-- `contains`. -/
def Contains (name : ServiceName) : Prop := name ∈ server.services

instance (name : ServiceName) : Decidable (server.Contains name) :=
  inferInstanceAs (Decidable (name ∈ server.services))

/-- The connection is a subscriber of the service, new or not. -/
def IsSubed (name : ServiceName) (id : Int) : Prop :=
  ∃ s, server.services.lookup name = some s ∧ s.IsSubed id

/-- `services.get(name).map(|s| s.is_subed(id)).unwrap_or(false)`. -/
def isSubed (name : ServiceName) (id : Int) : Bool :=
  match server.services.lookup name with
  | some s => decide (s.IsSubed id)
  | none => false

/-- Does something to each service. -/
def mapServices (f : ServiceName → ServiceInner ConnInner → ServiceInner ConnInner) : Server :=
  { server with services := Kit.mapValues f server.services }

/-- `add_service`. -/
def addService (name : ServiceName) (needSnapshot : Bool) : Server :=
  { server with
    services := server.services.insert name (.new name.text needSnapshot) }

/-- What `subscribe` does to the service it finds. -/
def subscribeTo (conn : ConnInner) (sub : Bool) (s : ServiceInner ConnInner) :
    ServiceInner ConnInner :=
  if decide (s.IsSubed conn.id) = sub then s
  else if sub then s.onSubscribe conn
  else s.onUnsubscribe conn.id

/-- `subscribe`. -/
def subscribe (name : ServiceName) (conn : ConnInner) (sub : Bool) : Server :=
  server.mapServices fun n s => if n = name then subscribeTo conn sub s else s

/-- A video service that is not there is added. -/
def ensureVideoService (source : VideoSource) (idx : Nat) : Server :=
  if server.Contains (.video source idx) then server else server.addService (.video source idx) true

/-- `try_add_primay_video_service`, where the primary display has this index. -/
def tryAddPrimaryVideoService (primaryDisplayIdx : Nat) : Server :=
  server.ensureVideoService .monitor primaryDisplayIdx

def primaryCameraIdx : Nat := 0

/-- `try_add_primary_camera_service`, where there may be a camera. -/
def tryAddPrimaryCameraService (primaryCameraExists : Bool) : Server :=
  if primaryCameraExists then server.ensureVideoService .camera primaryCameraIdx else server

/-- What `add_camera_connection` does to a service. -/
def addCameraConnectionTo (primaryCameraExists : Bool) (conn : ConnInner) (name : ServiceName)
    (s : ServiceInner ConnInner) : ServiceInner ConnInner :=
  if primaryCameraExists = true ∧ name = .video .camera primaryCameraIdx then s.onSubscribe conn
  else s

/-- `add_camera_connection`. -/
def addCameraConnection (primaryCameraExists : Bool) (conn : ConnInner) : Server where
  connections := conn.id :: server.connections.erase conn.id
  services := (server.mapServices (addCameraConnectionTo primaryCameraExists conn)).services

/-- What `add_connection` does to a service. -/
def addConnectionTo (primaryDisplayIdx : Nat) (conn : ConnInner) (noperms : List ServiceName)
    (name : ServiceName) (s : ServiceInner ConnInner) : ServiceInner ConnInner :=
  if name.isVideo = true ∧ name ≠ .video .monitor primaryDisplayIdx then s
  else if name ∉ noperms then s.onSubscribe conn
  else s

/-- `add_connection`. -/
def addConnection (primaryDisplayIdx : Nat) (conn : ConnInner) (noperms : List ServiceName) :
    Server where
  connections := conn.id :: server.connections.erase conn.id
  services := (server.mapServices (addConnectionTo primaryDisplayIdx conn noperms)).services

/-- `remove_connection`. -/
def removeConnection (conn : ConnInner) : Server where
  connections := server.connections.erase conn.id
  services := (server.mapServices fun _ s => s.onUnsubscribe conn.id).services

/-- `capture_displays`. Each service is looked at once. -/
def captureDisplays (conn : ConnInner) (source : VideoSource) (displays : List Nat)
    (incl excl : Bool) : Server :=
  server.mapServices fun name s =>
    if name.isVideo then
      if name ∈ displays.map (ServiceName.video source) then
        if incl then subscribeTo conn true s else s
      else if excl then subscribeTo conn false s
      else s
    else s

/-- `get_subbed_displays_count`. -/
def getSubbedDisplaysCount (id : Int) : Nat :=
  (server.services.keys.filter fun name => name.isVideo && server.isSubed name id).length

/-! ## Who is subscribed -/

variable {server}

theorem isSubed_iff (name : ServiceName) (id : Int) :
    server.isSubed name id = true ↔ server.IsSubed name id := by
  simp only [isSubed, IsSubed]
  cases server.services.lookup name with
  | none => simp only [Bool.false_eq_true, reduceCtorEq, false_and, exists_false]
  | some s => simp only [decide_eq_true_eq, Option.some.injEq, exists_eq_left']

theorem IsSubed.contains {name : ServiceName} {id : Int} (h : server.IsSubed name id) :
    server.Contains name := by
  obtain ⟨s, hs, -⟩ := h
  rw [Contains, ← AList.lookup_isSome, hs]
  rfl

@[simp]
theorem contains_mapServices (f : ServiceName → ServiceInner ConnInner → ServiceInner ConnInner)
    (name : ServiceName) : (server.mapServices f).Contains name ↔ server.Contains name := by
  simp only [Contains, mapServices, Kit.mem_mapValues]

theorem isSubed_mapServices (f : ServiceName → ServiceInner ConnInner → ServiceInner ConnInner)
    (name : ServiceName) (id : Int) :
    (server.mapServices f).IsSubed name id ↔
      ∃ s, server.services.lookup name = some s ∧ (f name s).IsSubed id := by
  simp only [IsSubed, mapServices, Kit.lookup_mapValues, Option.map_eq_some_iff,
    exists_exists_and_eq_and]

theorem contains_iff (name : ServiceName) :
    server.Contains name ↔ ∃ s, server.services.lookup name = some s := by
  rw [Contains, ← AList.lookup_isSome, Option.isSome_iff_exists]

/-- The service is asked once whether it has the subscriber, and ends up as it was told. -/
@[simp]
theorem isSubed_subscribeTo (conn : ConnInner) (sub : Bool) (s : ServiceInner ConnInner) (id : Int) :
    (subscribeTo conn sub s).IsSubed id ↔ if id = conn.id then sub = true else s.IsSubed id := by
  have hid : Subscriber.id conn = conn.id := rfl
  unfold subscribeTo
  by_cases hself : id = conn.id
  · subst hself
    rw [if_pos rfl]
    by_cases hsub : s.IsSubed conn.id <;> cases sub <;>
      simp only [hsub, decide_true, decide_false, Bool.false_eq_true, reduceCtorEq, if_true, if_false,
        ServiceInner.isSubed_onSubscribe, ServiceInner.isSubed_onUnsubscribe, hid, true_or, ne_eq,
        not_true_eq_false, and_false]
  · rw [if_neg hself]
    split
    · rfl
    · split
      · rw [ServiceInner.isSubed_onSubscribe, hid]
        exact or_iff_right hself
      · rw [ServiceInner.isSubed_onUnsubscribe]
        exact and_iff_left hself

/-- `subscribe` settles one service for one connection, where the service is there. -/
@[simp]
theorem isSubed_subscribe (name : ServiceName) (conn : ConnInner) (sub : Bool) (n : ServiceName) :
    (server.subscribe name conn sub).IsSubed n conn.id ↔
      if n = name then server.Contains name ∧ sub = true else server.IsSubed n conn.id := by
  rw [subscribe, isSubed_mapServices]
  by_cases hn : n = name
  · subst hn
    simp only [if_true, isSubed_subscribeTo, contains_iff, exists_and_right]
  · simp only [hn, if_false, IsSubed]

@[simp]
theorem contains_subscribe (name : ServiceName) (conn : ConnInner) (sub : Bool) (n : ServiceName) :
    (server.subscribe name conn sub).Contains n ↔ server.Contains n :=
  contains_mapServices _ _

/-- A service comes without subscribers. -/
@[simp]
theorem isSubed_addService (name : ServiceName) (needSnapshot : Bool) (n : ServiceName) (id : Int) :
    (server.addService name needSnapshot).IsSubed n id ↔ n ≠ name ∧ server.IsSubed n id := by
  by_cases hn : n = name
  · subst hn
    simp only [ne_eq, not_true_eq_false, false_and, iff_false]
    intro hsub
    obtain ⟨s, hs, hsubed⟩ := hsub
    simp only [addService, AList.lookup_insert, Option.some.injEq] at hs
    subst hs
    rcases hsubed with hold | hnew
    · exact absurd hold (Subscribers.not_has_empty id)
    · exact absurd hnew (Subscribers.not_has_empty id)
  · simp only [IsSubed, addService, AList.lookup_insert_ne hn, ne_eq, hn, not_false_eq_true,
      true_and]

@[simp]
theorem contains_addService (name : ServiceName) (needSnapshot : Bool) (n : ServiceName) :
    (server.addService name needSnapshot).Contains n ↔ n = name ∨ server.Contains n := by
  simp only [Contains, addService, AList.mem_insert]

@[simp]
theorem contains_ensureVideoService (source : VideoSource) (idx : Nat) (n : ServiceName) :
    (server.ensureVideoService source idx).Contains n ↔
      n = .video source idx ∨ server.Contains n := by
  unfold ensureVideoService
  split
  next h =>
    constructor
    · exact .inr
    · intro hn
      rcases hn with rfl | hn
      · exact h
      · exact hn
  next h => rw [contains_addService]

@[simp]
theorem isSubed_ensureVideoService (source : VideoSource) (idx : Nat) (n : ServiceName) (id : Int) :
    (server.ensureVideoService source idx).IsSubed n id ↔ server.IsSubed n id := by
  unfold ensureVideoService
  split
  · rfl
  next h =>
    rw [isSubed_addService, and_iff_right_iff_imp]
    intro hsub hn
    subst hn
    exact h hsub.contains

/-- Only the services matter. -/
theorem isSubed_congr {server' : Server} (h : server'.services = server.services)
    (n : ServiceName) (id : Int) : server'.IsSubed n id ↔ server.IsSubed n id := by
  rw [IsSubed, IsSubed, h]

@[simp]
theorem isSubed_removeConnection (conn : ConnInner) (n : ServiceName) :
    ¬ (server.removeConnection conn).IsSubed n conn.id := by
  intro h
  obtain ⟨s, -, hs⟩ := (isSubed_mapServices (fun _ s => s.onUnsubscribe conn.id) n conn.id).mp h
  exact ((ServiceInner.isSubed_onUnsubscribe _ _ _).mp hs).2 rfl

/-- A service that has its subscriber added has it then. -/
theorem isSubed_onSubscribe_self (conn : ConnInner) (n : ServiceName) :
    (∃ s, server.services.lookup n = some s ∧ (s.onSubscribe conn).IsSubed conn.id) ↔
      server.Contains n := by
  have hid : Subscriber.id conn = conn.id := rfl
  simp only [ServiceInner.isSubed_onSubscribe, hid, true_or, and_true, contains_iff]

/-- `add_connection` subscribes to every service but the other video services and those without
permission. -/
theorem isSubed_addConnection (primaryDisplayIdx : Nat) (conn : ConnInner)
    (noperms : List ServiceName) (n : ServiceName) :
    (server.addConnection primaryDisplayIdx conn noperms).IsSubed n conn.id ↔
      server.IsSubed n conn.id ∨ server.Contains n ∧ n ∉ noperms ∧
        (n.isVideo = true → n = .video .monitor primaryDisplayIdx) := by
  have hservices : (server.addConnection primaryDisplayIdx conn noperms).services =
      (server.mapServices (addConnectionTo primaryDisplayIdx conn noperms)).services := rfl
  rw [isSubed_congr hservices, isSubed_mapServices]
  by_cases hvideo : n.isVideo = true ∧ n ≠ .video .monitor primaryDisplayIdx
  · have hnot : ¬ (n.isVideo = true → n = .video .monitor primaryDisplayIdx) :=
      fun h => hvideo.2 (h hvideo.1)
    simp only [addConnectionTo, if_pos hvideo, hnot, and_false, or_false, IsSubed]
  · have hall : n.isVideo = true → n = .video .monitor primaryDisplayIdx := by
      intro h
      by_contra hne
      exact hvideo ⟨h, hne⟩
    by_cases hnoperm : n ∈ noperms
    · simp only [addConnectionTo, if_neg hvideo, hnoperm, not_true_eq_false, if_false, false_and,
        and_false, or_false, IsSubed]
    · simp only [addConnectionTo, if_neg hvideo, hnoperm, not_false_eq_true, if_true, true_and,
        isSubed_onSubscribe_self]
      constructor
      · intro h
        exact .inr ⟨h, hall⟩
      · intro h
        exact h.elim IsSubed.contains And.left

@[simp]
theorem contains_addConnection (primaryDisplayIdx : Nat) (conn : ConnInner)
    (noperms : List ServiceName) (n : ServiceName) :
    (server.addConnection primaryDisplayIdx conn noperms).Contains n ↔ server.Contains n :=
  contains_mapServices _ n

theorem isSubed_addCameraConnection (primaryCameraExists : Bool) (conn : ConnInner)
    (n : ServiceName) :
    (server.addCameraConnection primaryCameraExists conn).IsSubed n conn.id ↔
      server.IsSubed n conn.id ∨ server.Contains n ∧
        primaryCameraExists = true ∧ n = .video .camera primaryCameraIdx := by
  have hservices : (server.addCameraConnection primaryCameraExists conn).services =
      (server.mapServices (addCameraConnectionTo primaryCameraExists conn)).services := rfl
  rw [isSubed_congr hservices, isSubed_mapServices]
  by_cases hn : primaryCameraExists = true ∧ n = .video .camera primaryCameraIdx
  · simp only [addCameraConnectionTo, if_pos hn, isSubed_onSubscribe_self]
    constructor
    · intro h
      exact .inr ⟨h, hn⟩
    · intro h
      exact h.elim IsSubed.contains And.left
  · simp only [addCameraConnectionTo, hn, if_false, and_false, or_false, IsSubed]

/-- `capture_displays` settles the video services it is told to include or to exclude. -/
theorem isSubed_captureDisplays (conn : ConnInner) (source : VideoSource) (displays : List Nat)
    (incl excl : Bool) (n : ServiceName) :
    (server.captureDisplays conn source displays incl excl).IsSubed n conn.id ↔
      if n.isVideo = true ∧ n ∈ displays.map (ServiceName.video source) ∧ incl = true then
        server.Contains n
      else if n.isVideo = true ∧ n ∉ displays.map (ServiceName.video source) ∧ excl = true then
        False
      else server.IsSubed n conn.id := by
  rw [captureDisplays, isSubed_mapServices]
  by_cases hvideo : n.isVideo = true
  · by_cases hmem : n ∈ displays.map (ServiceName.video source)
    · cases incl <;>
        simp only [hvideo, hmem, if_true, if_false, and_true, and_false, Bool.false_eq_true,
          not_true_eq_false, false_and, isSubed_subscribeTo, contains_iff, IsSubed]
    · cases excl <;>
        simp only [hvideo, hmem, if_true, if_false, and_true, and_false, Bool.false_eq_true,
          not_false_eq_true, false_and, isSubed_subscribeTo, exists_false, IsSubed]
  · simp only [hvideo, Bool.false_eq_true, if_false, false_and, IsSubed]

@[simp]
theorem isSubed_foldl_ensureVideoService (source : VideoSource) (displays : List Nat)
    (n : ServiceName) (id : Int) :
    (displays.foldl (fun server display => server.ensureVideoService source display)
      server).IsSubed n id ↔ server.IsSubed n id := by
  induction displays generalizing server with
  | nil => rfl
  | cons display displays ih => rw [List.foldl_cons, ih, isSubed_ensureVideoService]

theorem contains_foldl_ensureVideoService (source : VideoSource) (displays : List Nat)
    (n : ServiceName) :
    (displays.foldl (fun server display => server.ensureVideoService source display)
      server).Contains n ↔ n ∈ displays.map (ServiceName.video source) ∨ server.Contains n := by
  induction displays generalizing server with
  | nil => simp only [List.foldl_nil, List.map_nil, List.not_mem_nil, false_or]
  | cons display displays ih =>
    rw [List.foldl_cons, ih, contains_ensureVideoService, List.map_cons, List.mem_cons]
    tauto

end Server

end HopToDesk.Host
