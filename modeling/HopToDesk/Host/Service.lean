import HopToDesk.Kit.System
import HopToDesk.Kit.MapValues

/-!
# Services

A service of the server has subscribers, and sends them what it captures. One that needs a snapshot
keeps a new subscriber apart until the next snapshot: `snapshot` hands its callback a `ServiceSwap`,
which sends to the new subscribers only, and whose drop moves them to the others.

Each operation here runs under one acquisition of the service's lock. A snapshot takes the lock for
every message it sends and once more for the drop, so the other operations come between these.
-/

set_option autoImplicit false

namespace HopToDesk.Host

open Kit

/-- The `Subscriber` trait. Sending does not change the id a subscriber is kept under. -/
class Subscriber (T : Type) (Msg : outParam Type) where
  id : T → Int
  send : T → Msg → T
  id_send : ∀ s msg, id (send s msg) = id s

/-- `HashMap<i32, T>`, each subscriber under its own id. -/
structure Subscribers (T : Type) {Msg : Type} [Subscriber T Msg] where
  values : List T
  nodup : (values.map Subscriber.id).Nodup

section

variable {T Msg : Type} [Subscriber T Msg]

namespace Subscribers

def empty : Subscribers T := ⟨[], List.nodup_nil⟩

/-- `get(&id).is_some()`. -/
def Has (subs : Subscribers T) (id : Int) : Prop := ∃ s ∈ subs.values, Subscriber.id s = id

instance (subs : Subscribers T) (id : Int) : Decidable (subs.Has id) :=
  inferInstanceAs (Decidable (∃ s ∈ subs.values, Subscriber.id s = id))

/-- `remove`. -/
def remove (subs : Subscribers T) (id : Int) : Subscribers T where
  values := subs.values.filter (Subscriber.id · ≠ id)
  nodup := subs.nodup.sublist ((List.filter_sublist).map _)

/-- `insert(sub.id(), sub)`. -/
def insert (subs : Subscribers T) (sub : T) : Subscribers T where
  values := sub :: (subs.remove (Subscriber.id sub)).values
  nodup := by
    rw [List.map_cons, List.nodup_cons]
    refine ⟨?_, (subs.remove _).nodup⟩
    intro h
    obtain ⟨s, hs, hid⟩ := List.mem_map.mp h
    have hne := (List.mem_filter.mp hs).2
    simp only [hid, ne_eq, not_true_eq_false, decide_false, Bool.false_eq_true] at hne

/-- `send`, for the subscribers `picks` holds of. -/
def send (subs : Subscribers T) (msg : Msg) (picks : Int → Bool) : Subscribers T where
  values := subs.values.map fun s => if picks (Subscriber.id s) then Subscriber.send s msg else s
  nodup := by
    have hids : (subs.values.map fun s =>
        if picks (Subscriber.id s) then Subscriber.send s msg else s).map Subscriber.id =
          subs.values.map Subscriber.id := by
      rw [List.map_map]
      apply List.map_congr_left
      intro s _
      simp only [Function.comp_apply]
      split
      · exact Subscriber.id_send s msg
      · rfl
    rw [hids]
    exact subs.nodup

/-- `insert` of every one of `other`. -/
def insertAll (subs other : Subscribers T) : Subscribers T :=
  other.values.foldl insert subs

/-! ## Where they come from -/

variable {subs other : Subscribers T}

theorem mem_of_remove {id : Int} {s : T} (h : s ∈ (subs.remove id).values) : s ∈ subs.values :=
  (List.mem_filter.mp h).1

theorem mem_of_insert {sub s : T} (h : s ∈ (subs.insert sub).values) :
    s = sub ∨ s ∈ subs.values := by
  rcases List.mem_cons.mp h with heq | hmem
  · exact .inl heq
  · exact .inr (mem_of_remove hmem)

theorem mem_of_insertAll {s : T} (h : s ∈ (subs.insertAll other).values) :
    s ∈ subs.values ∨ s ∈ other.values := by
  unfold insertAll at h
  generalize other.values = l at h ⊢
  induction l generalizing subs with
  | nil => exact .inl h
  | cons sub l ih =>
    rcases ih h with hmem | hmem
    · rcases mem_of_insert hmem with rfl | hmem
      · exact .inr List.mem_cons_self
      · exact .inl hmem
    · exact .inr (List.mem_cons_of_mem _ hmem)

/-- Sent to all, everyone there was there before and has been sent the message. -/
theorem mem_send_all {msg : Msg} {s : T} (h : s ∈ (subs.send msg fun _ => true).values) :
    ∃ s₀ ∈ subs.values, s = Subscriber.send s₀ msg := by
  obtain ⟨s₀, hs₀, rfl⟩ := List.mem_map.mp h
  exact ⟨s₀, hs₀, if_pos rfl⟩

end Subscribers

/-! ## Who is there -/

namespace Subscribers

variable (subs other : Subscribers T)

@[simp]
theorem not_has_empty (id : Int) : ¬ (empty : Subscribers T).Has id := by
  intro h
  obtain ⟨s, hs, -⟩ := h
  cases hs

@[simp]
theorem has_remove (id i : Int) : (subs.remove id).Has i ↔ subs.Has i ∧ i ≠ id := by
  constructor
  · intro h
    obtain ⟨s, hs, rfl⟩ := h
    obtain ⟨hmem, hne⟩ := List.mem_filter.mp hs
    exact ⟨⟨s, hmem, rfl⟩, of_decide_eq_true hne⟩
  · intro h
    obtain ⟨⟨s, hs, rfl⟩, hne⟩ := h
    exact ⟨s, List.mem_filter.mpr ⟨hs, decide_eq_true hne⟩, rfl⟩

@[simp]
theorem has_insert (sub : T) (i : Int) :
    (subs.insert sub).Has i ↔ i = Subscriber.id sub ∨ subs.Has i := by
  have hrest := has_remove subs (Subscriber.id sub) i
  constructor
  · intro h
    obtain ⟨s, hs, rfl⟩ := h
    rcases List.mem_cons.mp hs with heq | hmem
    · exact .inl (by rw [heq])
    · exact .inr (hrest.mp ⟨s, hmem, rfl⟩).1
  · intro h
    by_cases heq : i = Subscriber.id sub
    · exact ⟨sub, List.mem_cons_self, heq.symm⟩
    · obtain ⟨s, hs, hid⟩ := hrest.mpr ⟨h.resolve_left heq, heq⟩
      exact ⟨s, List.mem_cons_of_mem _ hs, hid⟩

@[simp]
theorem has_send (msg : Msg) (picks : Int → Bool) (i : Int) :
    (subs.send msg picks).Has i ↔ subs.Has i := by
  have hid : ∀ s : T, Subscriber.id (if picks (Subscriber.id s) then Subscriber.send s msg else s) =
      Subscriber.id s := by
    intro s
    split
    · exact Subscriber.id_send s msg
    · rfl
  simp only [Has, send, List.mem_map, exists_exists_and_eq_and, hid]

@[simp]
theorem has_insertAll (i : Int) :
    (subs.insertAll other).Has i ↔ other.Has i ∨ subs.Has i := by
  have hfold : ∀ (l : List T) (acc : Subscribers T),
      (l.foldl insert acc).Has i ↔ (∃ s ∈ l, Subscriber.id s = i) ∨ acc.Has i := by
    intro l
    induction l with
    | nil =>
      intro acc
      simp only [List.foldl_nil, List.not_mem_nil, false_and, exists_false, false_or]
    | cons s l ih =>
      intro acc
      rw [List.foldl_cons, ih, has_insert]
      simp only [List.mem_cons, exists_eq_or_imp]
      rw [or_left_comm, or_assoc, eq_comm]
  exact hfold other.values subs

end Subscribers

/-! ## One service -/

/-- The fields of `ServiceInner` that subscriptions use. Nobody is kept on both sides, and nobody is
kept apart where no snapshot is needed. -/
structure ServiceInner (T : Type) {Msg : Type} [Subscriber T Msg] where
  name : String
  subscribes : Subscribers T
  newSubscribes : Subscribers T
  active : Bool
  needSnapshot : Bool
  disjoint : ∀ i, subscribes.Has i → ¬ newSubscribes.Has i
  unused : needSnapshot = false → ∀ i, ¬ newSubscribes.Has i

namespace ServiceInner

/-- `ServiceTmpl::new`. -/
def new (name : String) (needSnapshot : Bool) : ServiceInner T where
  name := name
  subscribes := .empty
  newSubscribes := .empty
  active := true
  needSnapshot := needSnapshot
  disjoint _ _ := Subscribers.not_has_empty _
  unused _ := Subscribers.not_has_empty

variable (inner : ServiceInner T)

/-- `is_subed`. -/
def IsSubed (id : Int) : Prop :=
  inner.subscribes.Has id ∨ inner.newSubscribes.Has id

instance (id : Int) : Decidable (inner.IsSubed id) :=
  inferInstanceAs (Decidable (_ ∨ _))

/-- `on_subscribe`. -/
def onSubscribe (sub : T) : ServiceInner T :=
  if hhas : inner.subscribes.Has (Subscriber.id sub) then inner
  else if hneed : inner.needSnapshot = true then
    { inner with
      newSubscribes := inner.newSubscribes.insert sub
      disjoint := by
        intro i hi hnew
        rcases (Subscribers.has_insert _ _ _).mp hnew with rfl | hnew
        · exact hhas hi
        · exact inner.disjoint i hi hnew
      unused := by
        intro h
        rw [h] at hneed
        cases hneed }
  else
    { inner with
      subscribes := inner.subscribes.insert sub
      disjoint _ _ := inner.unused (Bool.eq_false_iff.mpr hneed) _ }

/-- `on_unsubscribe`. -/
def onUnsubscribe (id : Int) : ServiceInner T :=
  if inner.subscribes.Has id then
    { inner with
      subscribes := inner.subscribes.remove id
      disjoint := fun i hi => inner.disjoint i ((Subscribers.has_remove _ _ _).mp hi).1 }
  else
    { inner with
      newSubscribes := inner.newSubscribes.remove id
      disjoint := fun i hi hnew => inner.disjoint i hi ((Subscribers.has_remove _ _ _).mp hnew).1
      unused := fun h i hnew => inner.unused h i ((Subscribers.has_remove _ _ _).mp hnew).1 }

/-- Sends to the subscribers `picks` holds of, not to new ones. -/
def sendWhere (msg : Msg) (picks : Int → Bool) : ServiceInner T :=
  { inner with
    subscribes := inner.subscribes.send msg picks
    disjoint := fun i hi => inner.disjoint i ((Subscribers.has_send _ _ _ _).mp hi) }

/-- `send_shared`, and `send_video_frame_shared`. -/
def sendShared (msg : Msg) : ServiceInner T := inner.sendWhere msg fun _ => true

/-- `send_to`. -/
def sendTo (msg : Msg) (id : Int) : ServiceInner T := inner.sendWhere msg (· = id)

/-- `send_to_others`, and `send_without`. -/
def sendToOthers (msg : Msg) (id : Int) : ServiceInner T := inner.sendWhere msg (· ≠ id)

/-- `send_new_subscribes`. -/
def sendNewSubscribes (msg : Msg) : ServiceInner T :=
  { inner with
    newSubscribes := inner.newSubscribes.send msg fun _ => true
    disjoint := fun i hi hnew => inner.disjoint i hi ((Subscribers.has_send _ _ _ _).mp hnew)
    unused := fun h i hnew => inner.unused h i ((Subscribers.has_send _ _ _ _).mp hnew) }

/-- `swap_new_subscribes`. -/
def swapNewSubscribes : ServiceInner T :=
  { inner with
    subscribes := inner.subscribes.insertAll inner.newSubscribes
    newSubscribes := .empty
    disjoint := fun _ _ => Subscribers.not_has_empty _
    unused := fun _ => Subscribers.not_has_empty }

@[simp]
theorem isSubed_onSubscribe (sub : T) (i : Int) :
    (inner.onSubscribe sub).IsSubed i ↔ i = Subscriber.id sub ∨ inner.IsSubed i := by
  unfold onSubscribe
  split
  next hhas =>
    constructor
    · intro h
      exact .inr h
    · intro h
      rcases h with rfl | h
      · exact .inl hhas
      · exact h
  next =>
    split
    · simp only [IsSubed, Subscribers.has_insert]
      exact or_left_comm
    · simp only [IsSubed, Subscribers.has_insert]
      exact or_assoc

@[simp]
theorem isSubed_onUnsubscribe (id i : Int) :
    (inner.onUnsubscribe id).IsSubed i ↔ inner.IsSubed i ∧ i ≠ id := by
  unfold onUnsubscribe
  split
  next hhas =>
    simp only [IsSubed, Subscribers.has_remove]
    have hother : inner.newSubscribes.Has i → i ≠ id := by
      intro hnew heq
      exact inner.disjoint id hhas (heq ▸ hnew)
    tauto
  next hhas =>
    simp only [IsSubed, Subscribers.has_remove]
    have hother : inner.subscribes.Has i → i ≠ id := by
      intro hold heq
      exact hhas (heq ▸ hold)
    tauto

/-- A swap leaves everyone subscribed who was. -/
@[simp]
theorem isSubed_swapNewSubscribes (i : Int) :
    inner.swapNewSubscribes.IsSubed i ↔ inner.IsSubed i := by
  simp only [IsSubed, swapNewSubscribes, Subscribers.has_insertAll, Subscribers.not_has_empty,
    or_false]
  exact or_comm

end ServiceInner

end

/-! ## A service in use -/

/-- A service, the swaps alive, by a number of their own, each with what was sent through it, and
what was sent to each id, oldest first. The code keeps the first. -/
structure ServiceRun (T : Type) {Msg : Type} [Subscriber T Msg] where
  inner : ServiceInner T
  swaps : Nat → Option (List Msg)
  received : Int → List Msg

inductive ServiceStep (T Msg : Type)
  | onSubscribe (sub : T)
  | onUnsubscribe (id : Int)
  | send (msg : Msg) (picks : Int → Bool)
  | snapshot (swap : Nat)
  | swapSend (swap : Nat) (msg : Msg)
  | swapDrop (swap : Nat)

namespace ServiceRun

variable {T Msg : Type} [Subscriber T Msg]

def start (name : String) (needSnapshot : Bool) : ServiceRun T :=
  ⟨.new name needSnapshot, fun _ => none, fun _ => []⟩

/-- A snapshot takes a number that no swap alive has; a swap is used while it is alive. -/
def Can (s : ServiceRun T) : ServiceStep T Msg → Prop
  | .snapshot swap => s.swaps swap = none
  | .swapSend swap _ | .swapDrop swap => (s.swaps swap).isSome
  | _ => True

/-- What `msg` adds to what was received, sent to those of `subs` that `picks` holds of. -/
def log (received : Int → List Msg) (subs : Subscribers T) (msg : Msg) (picks : Int → Bool) :
    Int → List Msg :=
  fun i => if subs.Has i ∧ picks i then received i ++ [msg] else received i

/-- One step. `snapshot` makes a swap only where there is a new subscriber. -/
def next (s : ServiceRun T) : ServiceStep T Msg → ServiceRun T
  | .onSubscribe sub => { s with inner := s.inner.onSubscribe sub }
  | .onUnsubscribe id => { s with inner := s.inner.onUnsubscribe id }
  | .send msg picks =>
    { s with
      inner := s.inner.sendWhere msg picks
      received := log s.received s.inner.subscribes msg picks }
  | .snapshot swap =>
    if s.inner.newSubscribes.values.length > 0 then
      { s with swaps := Function.update s.swaps swap (some []) }
    else s
  | .swapSend swap msg =>
    { inner := s.inner.sendNewSubscribes msg
      swaps := Function.update s.swaps swap ((s.swaps swap).map (· ++ [msg]))
      received := log s.received s.inner.newSubscribes msg fun _ => true }
  | .swapDrop swap =>
    { s with
      inner := s.inner.swapNewSubscribes
      swaps := Function.update s.swaps swap none }

/-- Any order of the operations, and any number of snapshots at once. -/
def system (name : String) (needSnapshot : Bool) : System (ServiceRun T) (ServiceStep T Msg) :=
  System.guarded (start name needSnapshot) Can next

/-- Whom the drop of a swap moves has received everything that was sent through it, in order. -/
def Delivers (s : ServiceRun T) (swap : Nat) : Prop :=
  ∀ sent, s.swaps swap = some sent → ∀ i, s.inner.newSubscribes.Has i →
    (s.next (.swapDrop swap)).inner.subscribes.Has i → sent.Sublist (s.received i)

/-- A new subscriber does not arrive while a swap alive has sent something. -/
def InTime (s : ServiceRun T) : ServiceStep T Msg → Prop
  | .onSubscribe sub => ¬ s.inner.IsSubed (Subscriber.id sub) → s.inner.needSnapshot →
      ∀ swap sent, s.swaps swap = some sent → sent = []
  | _ => True

end ServiceRun

end HopToDesk.Host

/-!
## The two maps of a service

`ServiceInner` as `src/server/service.rs` has it: two hash maps that nothing but the code keeps
apart. `on_subscribe` looks into one of them before it inserts, and `on_unsubscribe` removes from
one. The keys are what the code gives to the maps, not what the subscribers say their ids are.

A map is a table here, and what a call sends is a list, in the order of the table. The order of a
hash map is any order.
-/

namespace HopToDesk.Host

open Kit

/-- `From<ConnInner>`, for a kind `C` of connections. A subscriber has the id of its connection. -/
class FromConn (C T : Type) {Msg : outParam Type} [Subscriber T Msg] where
  id : C → Int
  into : C → T
  id_into : ∀ conn, Subscriber.id (into conn) = id conn

/-- Sends to the entries `picks` holds of: the table after that, and the id of each subscriber whose
`send` was called. -/
def sendEntries {T Msg : Type} [Subscriber T Msg] (table : AList fun _ : Int => T) (msg : Msg)
    (picks : Int → T → Bool) : (AList fun _ : Int => T) × List (Int × Msg) :=
  (mapValues (fun key s => if picks key s then Subscriber.send s msg else s) table,
    (table.entries.filter fun e => picks e.1 e.2).map fun e => (Subscriber.id e.2, msg))

/-- The fields of `ServiceInner` that subscriptions use. -/
structure ServiceMaps (T : Type) where
  subscribes : AList fun _ : Int => T
  newSubscribes : AList fun _ : Int => T
  needSnapshot : Bool

namespace ServiceMaps

variable {C T Msg : Type} [Subscriber T Msg] [FromConn C T]

/-- `ServiceTmpl::new`. -/
def new (needSnapshot : Bool) : ServiceMaps T := ⟨∅, ∅, needSnapshot⟩

variable (self : ServiceMaps T)

/-- `is_subed`. -/
def IsSubed (id : Int) : Prop := id ∈ self.subscribes ∨ id ∈ self.newSubscribes

/-- `on_subscribe`. -/
def onSubscribe (sub : C) : ServiceMaps T :=
  if (self.subscribes.lookup (FromConn.id T sub)).isSome then self
  else if self.needSnapshot then
    { self with
      newSubscribes := self.newSubscribes.insert (FromConn.id T sub) (FromConn.into sub) }
  else
    { self with subscribes := self.subscribes.insert (FromConn.id T sub) (FromConn.into sub) }

/-- `on_unsubscribe`. -/
def onUnsubscribe (id : Int) : ServiceMaps T :=
  match self.subscribes.extract id with
  | (none, subscribes) =>
    { self with subscribes, newSubscribes := self.newSubscribes.erase id }
  | (some _, subscribes) => { self with subscribes }

/-- `swap_new_subscribes`. -/
def swapNewSubscribes : ServiceMaps T :=
  { self with
    subscribes := self.newSubscribes.entries.foldl
      (fun subscribes e => subscribes.insert (Subscriber.id e.2) e.2) self.subscribes
    newSubscribes := ∅ }

/-- The sends go through `subscribes`. -/
def sendWhere (msg : Msg) (picks : Int → T → Bool) : ServiceMaps T × List (Int × Msg) :=
  ({ self with subscribes := (sendEntries self.subscribes msg picks).1 },
    (sendEntries self.subscribes msg picks).2)

/-- `send`, and `send_shared`. -/
def sendShared (msg : Msg) : ServiceMaps T × List (Int × Msg) :=
  self.sendWhere msg fun _ _ => true

/-- `send_video_frame`, and `send_video_frame_shared`: with the ids it returns. -/
def sendVideoFrameShared (msg : Msg) : (ServiceMaps T × List (Int × Msg)) × Finset Int :=
  (self.sendShared msg,
    (self.subscribes.entries.map fun e => Subscriber.id (Subscriber.send e.2 msg)).toFinset)

/-- `send_to`: the entry that has the key. -/
def sendTo (msg : Msg) (id : Int) : ServiceMaps T × List (Int × Msg) :=
  self.sendWhere msg fun key _ => key = id

/-- `send_to_others`: by the keys. -/
def sendToOthers (msg : Msg) (id : Int) : ServiceMaps T × List (Int × Msg) :=
  self.sendWhere msg fun sid _ => sid ≠ id

/-- `send_without`: by the ids of the subscribers. -/
def sendWithout (msg : Msg) (sub : Int) : ServiceMaps T × List (Int × Msg) :=
  self.sendWhere msg fun _ s => sub ≠ Subscriber.id s

/-- `send_new_subscribes`. -/
def sendNewSubscribes (msg : Msg) : ServiceMaps T × List (Int × Msg) :=
  ({ self with newSubscribes := (sendEntries self.newSubscribes msg fun _ _ => true).1 },
    (sendEntries self.newSubscribes msg fun _ _ => true).2)

end ServiceMaps

/-! ### In use -/

inductive ServiceCall (C Msg : Type)
  | onSubscribe (sub : C)
  | onUnsubscribe (id : Int)
  | send (msg : Msg)
  | sendVideoFrame (msg : Msg)
  | sendTo (msg : Msg) (id : Int)
  | sendToOthers (msg : Msg) (id : Int)
  | sendWithout (msg : Msg) (sub : Int)
  | snapshot
  | swapSend (msg : Msg)
  | swapDrop

/-- A service, the number of swaps alive, and everything that was sent, oldest first. -/
structure ServiceUse (T Msg : Type) where
  maps : ServiceMaps T
  swaps : Nat
  sent : List (Int × Msg)

namespace ServiceUse

variable {C T Msg : Type} [Subscriber T Msg] [FromConn C T]

/-- A swap is used while it is alive. -/
def Can (s : ServiceUse T Msg) : ServiceCall C Msg → Prop
  | .swapSend _ | .swapDrop => 0 < s.swaps
  | _ => True

def sending (s : ServiceUse T Msg) (r : ServiceMaps T × List (Int × Msg)) : ServiceUse T Msg :=
  { s with maps := r.1, sent := s.sent ++ r.2 }

/-- One call. A snapshot makes a swap where there is a new subscriber. -/
def next (s : ServiceUse T Msg) : ServiceCall C Msg → ServiceUse T Msg
  | .onSubscribe sub => { s with maps := s.maps.onSubscribe sub }
  | .onUnsubscribe id => { s with maps := s.maps.onUnsubscribe id }
  | .send msg => s.sending (s.maps.sendShared msg)
  | .sendVideoFrame msg => s.sending (s.maps.sendVideoFrameShared msg).1
  | .sendTo msg id => s.sending (s.maps.sendTo msg id)
  | .sendToOthers msg id => s.sending (s.maps.sendToOthers msg id)
  | .sendWithout msg sub => s.sending (s.maps.sendWithout msg sub)
  | .snapshot => if 0 < s.maps.newSubscribes.entries.length then { s with swaps := s.swaps + 1 }
    else s
  | .swapSend msg => s.sending (s.maps.sendNewSubscribes msg)
  | .swapDrop => { s with maps := s.maps.swapNewSubscribes, swaps := s.swaps - 1 }

/-- Any order of the calls, and any number of swaps at once. -/
def system (needSnapshot : Bool) : System (ServiceUse T Msg) (ServiceCall C Msg) :=
  System.guarded ⟨.new needSnapshot, 0, []⟩ Can next

/-- What was sent to an id. -/
def sentTo (s : ServiceUse T Msg) (id : Int) : List (Int × Msg) := s.sent.filter (·.1 = id)

end ServiceUse

end HopToDesk.Host
