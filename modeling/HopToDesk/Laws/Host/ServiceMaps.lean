import HopToDesk.Host.Service
import HopToDesk.Host.Cursor

/-!
# No subscriber in two maps

`on_subscribe` and `on_unsubscribe` look into one map where there are two. That is enough since
nobody is in both (`WellFormed`): a subscriber that is taken out of one is in neither, and is sent
nothing until it comes back. Each is kept under its own id, so whatever a call goes by, it sends to
each subscriber that it addresses once.

The service that carries all this in its types is what the maps stand for (`Represents`).
-/

set_option autoImplicit false

namespace HopToDesk.Host

open Kit

/-! ## Tables of subscribers -/

section

variable {T Msg : Type} [Subscriber T Msg]

/-- Each subscriber is kept under its own id. -/
def OwnIds (table : AList fun _ : Int => T) : Prop :=
  ∀ id s, table.lookup id = some s → Subscriber.id s = id

namespace OwnIds

variable {table : AList fun _ : Int => T}

theorem empty : OwnIds (∅ : AList fun _ : Int => T) := by
  intro id s h
  rw [AList.lookup_empty] at h
  cases h

theorem insert (h : OwnIds table) {id : Int} {s : T} (hs : Subscriber.id s = id) :
    OwnIds (table.insert id s) := by
  intro i t ht
  rcases lookup_insert_eq_some ht with ⟨rfl, rfl⟩ | ⟨-, hold⟩
  · exact hs
  · exact h i t hold

theorem erase (h : OwnIds table) (id : Int) : OwnIds (table.erase id) := by
  intro i t ht
  exact h i t (lookup_erase_eq_some ht).2

theorem sendEntries (h : OwnIds table) (msg : Msg) (picks : Int → T → Bool) :
    OwnIds (sendEntries table msg picks).1 := by
  intro i t ht
  rw [Host.sendEntries, lookup_mapValues] at ht
  obtain ⟨s, hs, rfl⟩ := Option.map_eq_some_iff.mp ht
  split
  · rw [Subscriber.id_send, h i s hs]
  · exact h i s hs

theorem of_mem (h : OwnIds table) {e : Sigma fun _ : Int => T} (he : e ∈ table.entries) :
    Subscriber.id e.2 = e.1 :=
  h e.1 e.2 (AList.mem_lookup_iff.mpr he)

/-- The ids that a call sends to are the keys it picks. -/
theorem sent_ids (h : OwnIds table) (msg : Msg) (picks : Int → T → Bool) :
    (Host.sendEntries table msg picks).2 =
      (table.entries.filter fun e => picks e.1 e.2).map fun e => (e.1, msg) := by
  refine List.map_congr_left ?_
  intro e he
  rw [h.of_mem (List.mem_of_mem_filter he)]

/-- Each that is picked is sent the message once. -/
theorem nodup_sent (h : OwnIds table) (msg : Msg) (picks : Int → T → Bool) :
    ((Host.sendEntries table msg picks).2.map Prod.fst).Nodup := by
  rw [h.sent_ids, List.map_map]
  exact table.nodupKeys.sublist List.filter_sublist

theorem mem_sent (h : OwnIds table) {msg : Msg} {picks : Int → T → Bool} {i : Int} {m : Msg} :
    (i, m) ∈ (Host.sendEntries table msg picks).2 ↔
      (∃ s, table.lookup i = some s ∧ picks i s = true) ∧ m = msg := by
  rw [h.sent_ids, List.mem_map]
  constructor
  · intro hsent
    obtain ⟨e, he, heq⟩ := hsent
    cases heq
    obtain ⟨hmem, hpicks⟩ := List.mem_filter.mp he
    exact ⟨⟨e.2, AList.mem_lookup_iff.mpr hmem, hpicks⟩, rfl⟩
  · intro hsent
    obtain ⟨⟨s, hs, hpicks⟩, rfl⟩ := hsent
    exact ⟨⟨i, s⟩, List.mem_filter.mpr ⟨AList.mem_lookup_iff.mp hs, hpicks⟩, rfl⟩

/-- Where the subscribers come under their own ids, it is their keys that are there. -/
theorem foldl_insert {table : AList fun _ : Int => T} (h : OwnIds table)
    {l : List (Sigma fun _ : Int => T)} (hl : ∀ e ∈ l, Subscriber.id e.2 = e.1) :
    OwnIds (l.foldl (fun table e => table.insert (Subscriber.id e.2) e.2) table) ∧
      ∀ id, id ∈ l.foldl (fun table e => table.insert (Subscriber.id e.2) e.2) table ↔
        id ∈ l.map Sigma.fst ∨ id ∈ table := by
  induction l generalizing table with
  | nil => exact ⟨h, fun id => by simp⟩
  | cons e l ih =>
    obtain ⟨hown, hmem⟩ := ih (h.insert rfl) fun e he => hl e (List.mem_cons_of_mem _ he)
    refine ⟨hown, fun id => ?_⟩
    rw [List.foldl_cons, hmem, AList.mem_insert, hl e List.mem_cons_self, List.map_cons,
      List.mem_cons, or_left_comm, or_assoc]

end OwnIds

/-! ## The maps -/

namespace ServiceMaps

/-- Nobody is in both maps, and each is kept under its own id. Nobody is new where no snapshot is
needed. -/
structure WellFormed (maps : ServiceMaps T) : Prop where
  disjoint : ∀ id ∈ maps.subscribes, id ∉ maps.newSubscribes
  own : OwnIds maps.subscribes
  ownNew : OwnIds maps.newSubscribes
  unused : maps.needSnapshot = false → ∀ id, id ∉ maps.newSubscribes

variable {C : Type} [FromConn C T] {self : ServiceMaps T}

namespace WellFormed

theorem new (needSnapshot : Bool) : (new needSnapshot : ServiceMaps T).WellFormed where
  disjoint id _ := AList.notMem_empty id
  own := .empty
  ownNew := .empty
  unused _ id := AList.notMem_empty id

theorem onSubscribe (h : self.WellFormed) (sub : C) : (self.onSubscribe sub).WellFormed := by
  unfold ServiceMaps.onSubscribe
  split
  next => exact h
  next hnone =>
    rw [AList.lookup_isSome] at hnone
    split
    next hneed =>
      refine ⟨?_, h.own, h.ownNew.insert (FromConn.id_into sub), ?_⟩
      · intro id hid hnew
        rcases (AList.mem_insert _).mp hnew with rfl | hnew
        · exact hnone hid
        · exact h.disjoint id hid hnew
      · intro hneed'
        rw [hneed] at hneed'
        cases hneed'
    next hneed =>
      have hunused := h.unused (Bool.eq_false_iff.mpr hneed)
      exact ⟨fun id _ => hunused id, h.own.insert (FromConn.id_into sub), h.ownNew,
        fun _ => hunused⟩

theorem onUnsubscribe (h : self.WellFormed) (id : Int) : (self.onUnsubscribe id).WellFormed := by
  unfold ServiceMaps.onUnsubscribe
  rw [AList.extract_eq_lookup_erase]
  cases hlookup : self.subscribes.lookup id with
  | none =>
    refine ⟨?_, h.own.erase id, h.ownNew.erase id, ?_⟩
    · intro i hi hnew
      exact h.disjoint i (AList.mem_erase.mp hi).2 (AList.mem_erase.mp hnew).2
    · intro hneed i hnew
      exact h.unused hneed i (AList.mem_erase.mp hnew).2
  | some s =>
    refine ⟨?_, h.own.erase id, h.ownNew, h.unused⟩
    intro i hi
    exact h.disjoint i (AList.mem_erase.mp hi).2

theorem sendWhere (h : self.WellFormed) (msg : Msg) (picks : Int → T → Bool) :
    (self.sendWhere msg picks).1.WellFormed where
  disjoint id hid := h.disjoint id ((mem_mapValues _ _ _).mp hid)
  own := h.own.sendEntries msg picks
  ownNew := h.ownNew
  unused := h.unused

theorem sendNewSubscribes (h : self.WellFormed) (msg : Msg) :
    (self.sendNewSubscribes msg).1.WellFormed where
  disjoint id hid hnew := h.disjoint id hid ((mem_mapValues _ _ _).mp hnew)
  own := h.own
  ownNew := h.ownNew.sendEntries msg _
  unused hneed id hnew := h.unused hneed id ((mem_mapValues _ _ _).mp hnew)

theorem swapNewSubscribes (h : self.WellFormed) : self.swapNewSubscribes.WellFormed where
  disjoint id _ := AList.notMem_empty id
  own := (h.own.foldl_insert fun _ he => h.ownNew.of_mem he).1
  ownNew := .empty
  unused _ id := AList.notMem_empty id

end WellFormed

/-! ### Who is subscribed -/

theorem isSubed_onSubscribe (sub : C) {id : Int} (h : (self.onSubscribe sub).IsSubed id) :
    id = FromConn.id T sub ∨ self.IsSubed id := by
  unfold onSubscribe at h
  split at h
  · exact .inr h
  · split at h
    · rcases h with h | h
      · exact .inr (.inl h)
      · exact ((AList.mem_insert _).mp h).imp_right .inr
    · rcases h with h | h
      · exact ((AList.mem_insert _).mp h).imp_right .inl
      · exact .inr (.inr h)

/-- Whoever unsubscribes is in neither map. -/
theorem isSubed_onUnsubscribe (hself : self.WellFormed) (id i : Int) :
    (self.onUnsubscribe id).IsSubed i ↔ self.IsSubed i ∧ i ≠ id := by
  unfold onUnsubscribe
  rw [AList.extract_eq_lookup_erase]
  cases hlookup : self.subscribes.lookup id with
  | none =>
    simp only [IsSubed, AList.mem_erase]
    tauto
  | some s =>
    have hmem : id ∈ self.subscribes := by
      rw [← AList.lookup_isSome, hlookup]
      rfl
    have hnew := hself.disjoint id hmem
    have hother : i ∈ self.newSubscribes → i ≠ id := by
      intro hi heq
      exact hnew (heq ▸ hi)
    simp only [IsSubed, AList.mem_erase]
    tauto

theorem isSubed_swapNewSubscribes (hself : self.WellFormed) (i : Int) :
    self.swapNewSubscribes.IsSubed i ↔ self.IsSubed i := by
  have hmem := (hself.own.foldl_insert fun _ he => hself.ownNew.of_mem he).2 i
  have hswap : self.swapNewSubscribes.IsSubed i ↔
      i ∈ self.newSubscribes.entries.map Sigma.fst ∨ i ∈ self.subscribes :=
    ⟨fun h => hmem.mp (h.resolve_right (AList.notMem_empty i)), fun h => .inl (hmem.mpr h)⟩
  rw [hswap, or_comm]
  exact Iff.rfl

theorem isSubed_sendWhere (msg : Msg) (picks : Int → T → Bool) (i : Int) :
    (self.sendWhere msg picks).1.IsSubed i ↔ self.IsSubed i :=
  or_congr_left (mem_mapValues _ _ _)

theorem isSubed_sendNewSubscribes (msg : Msg) (i : Int) :
    (self.sendNewSubscribes msg).1.IsSubed i ↔ self.IsSubed i :=
  or_congr_right (mem_mapValues _ _ _)

/-- The ids that a video frame was sent to are those of the subscribers. -/
theorem mem_sendVideoFrameShared (hself : self.WellFormed) (msg : Msg) (i : Int) :
    i ∈ (self.sendVideoFrameShared msg).2 ↔ i ∈ self.subscribes := by
  have hids : (self.subscribes.entries.map fun e => Subscriber.id (Subscriber.send e.2 msg)) =
      self.subscribes.entries.map Sigma.fst := by
    refine List.map_congr_left ?_
    intro e he
    rw [Subscriber.id_send, hself.own.of_mem he]
  rw [sendVideoFrameShared, hids, List.mem_toFinset]
  exact Iff.rfl

end ServiceMaps

end

/-! ## A service in use -/

/-- Each that is meant is sent the message once, and nobody else is sent any. -/
structure SentOnce {Msg : Type} (sent : List (Int × Msg)) (meant : Int → Msg → Prop) : Prop where
  nodup : (sent.map Prod.fst).Nodup
  mem_iff : ∀ id msg, (id, msg) ∈ sent ↔ meant id msg

section

variable {C T Msg : Type} [Subscriber T Msg] [FromConn C T]

/-- What a call of `sendEntries` goes by is the key, or the id, which is the same. -/
theorem OwnIds.sentOnce {table : AList fun _ : Int => T} (h : OwnIds table) (msg : Msg)
    (picks : Int → T → Bool) (meant : Int → Msg → Prop)
    (hmeant : ∀ s m, table.lookup (Subscriber.id s) = some s →
      (meant (Subscriber.id s) m ↔ m = msg ∧ picks (Subscriber.id s) s = true))
    (hmem : ∀ id m, meant id m → id ∈ table) :
    SentOnce (Host.sendEntries table msg picks).2 meant where
  nodup := h.nodup_sent msg picks
  mem_iff := by
    intro id m
    rw [h.mem_sent]
    constructor
    · intro hsent
      obtain ⟨⟨s, hs, hpicks⟩, hmsg⟩ := hsent
      obtain rfl := h id s hs
      exact (hmeant s m hs).mpr ⟨hmsg, hpicks⟩
    · intro hid
      obtain ⟨s, hs⟩ := Option.isSome_iff_exists.mp (AList.lookup_isSome.mpr (hmem id m hid))
      obtain rfl := h id s hs
      obtain ⟨hmsg, hpicks⟩ := (hmeant s m hs).mp hid
      exact ⟨⟨s, hs, hpicks⟩, hmsg⟩

namespace ServiceUse

/-- Whom a call is meant to send to, and what. New subscribers are for the snapshot. -/
def Meant (maps : ServiceMaps T) : ServiceCall C Msg → Int → Msg → Prop
  | .send msg, id, m | .sendVideoFrame msg, id, m => m = msg ∧ id ∈ maps.subscribes
  | .sendTo msg id₀, id, m => m = msg ∧ id ∈ maps.subscribes ∧ id = id₀
  | .sendToOthers msg id₀, id, m | .sendWithout msg id₀, id, m =>
    m = msg ∧ id ∈ maps.subscribes ∧ id ≠ id₀
  | .swapSend msg, id, m => m = msg ∧ id ∈ maps.newSubscribes
  | _, _, _ => False

omit [Subscriber T Msg] [FromConn C T] in
theorem isSubed_of_meant {maps : ServiceMaps T} {call : ServiceCall C Msg} {id : Int} {msg : Msg}
    (h : Meant maps call id msg) : maps.IsSubed id := by
  cases call with
  | send | sendVideoFrame => exact .inl h.2
  | sendTo | sendToOthers | sendWithout => exact .inl h.2.1
  | swapSend => exact .inr h.2
  | onSubscribe | onUnsubscribe | snapshot | swapDrop => exact h.elim

variable {s : ServiceUse T Msg}

/-- What a call sends. -/
theorem next_sent (h : s.maps.WellFormed) (call : ServiceCall C Msg) :
    ∃ sent, (s.next call).sent = s.sent ++ sent ∧ SentOnce sent (Meant s.maps call) := by
  have hnone : SentOnce ([] : List (Int × Msg)) fun _ _ => False :=
    ⟨List.nodup_nil, fun _ _ => iff_of_false List.not_mem_nil id⟩
  have hin : ∀ {table : AList fun _ : Int => T} {t : T},
      table.lookup (Subscriber.id t) = some t → Subscriber.id t ∈ table := by
    intro table t ht
    exact AList.lookup_isSome.mp (Option.isSome_iff_exists.mpr ⟨t, ht⟩)
  cases call with
  | onSubscribe | onUnsubscribe | swapDrop => exact ⟨[], (List.append_nil _).symm, hnone⟩
  | snapshot =>
    refine ⟨[], ?_, hnone⟩
    rw [List.append_nil, next]
    split
    · rfl
    · rfl
  | send msg | sendVideoFrame msg =>
    refine ⟨(s.maps.sendShared msg).2, rfl, ?_⟩
    refine h.own.sentOnce msg (fun _ _ => true)
      (Meant s.maps (.send msg : ServiceCall C Msg)) ?_ ?_
    · intro t m ht
      simp only [Meant, hin ht]
    · intro id m hm
      exact hm.2
  | sendTo msg id =>
    refine ⟨(s.maps.sendTo msg id).2, rfl, ?_⟩
    refine h.own.sentOnce msg (fun key _ => key = id)
      (Meant s.maps (.sendTo msg id : ServiceCall C Msg)) ?_ ?_
    · intro t m ht
      simp only [Meant, hin ht, true_and, decide_eq_true_eq]
    · intro id m hm
      exact hm.2.1
  | sendToOthers msg id =>
    refine ⟨(s.maps.sendToOthers msg id).2, rfl, ?_⟩
    refine h.own.sentOnce msg (fun sid _ => sid ≠ id)
      (Meant s.maps (.sendToOthers msg id : ServiceCall C Msg)) ?_ ?_
    · intro t m ht
      simp only [Meant, hin ht, true_and, decide_eq_true_eq]
    · intro id m hm
      exact hm.2.1
  | sendWithout msg id =>
    refine ⟨(s.maps.sendWithout msg id).2, rfl, ?_⟩
    refine h.own.sentOnce msg (fun _ s => id ≠ Subscriber.id s)
      (Meant s.maps (.sendWithout msg id : ServiceCall C Msg)) ?_ ?_
    · intro t m ht
      simp only [Meant, hin ht, true_and, decide_eq_true_eq, ne_comm]
    · intro id m hm
      exact hm.2.1
  | swapSend msg =>
    refine ⟨(s.maps.sendNewSubscribes msg).2, rfl, ?_⟩
    refine h.ownNew.sentOnce msg (fun _ _ => true)
      (Meant s.maps (.swapSend msg : ServiceCall C Msg)) ?_ ?_
    · intro t m ht
      simp only [Meant, hin ht]
    · intro id m hm
      exact hm.2

theorem wellFormed_next (h : s.maps.WellFormed) (call : ServiceCall C Msg) :
    (s.next call).maps.WellFormed := by
  cases call with
  | onSubscribe sub => exact h.onSubscribe sub
  | onUnsubscribe id => exact h.onUnsubscribe id
  | send | sendVideoFrame | sendTo | sendToOthers | sendWithout => exact h.sendWhere _ _
  | snapshot =>
    rw [next]
    split
    · exact h
    · exact h
  | swapSend msg => exact h.sendNewSubscribes msg
  | swapDrop => exact h.swapNewSubscribes

theorem wellFormed_of_run {needSnapshot : Bool} {calls : List (ServiceCall C Msg)}
    (h : (system needSnapshot).Run calls s) : s.maps.WellFormed := by
  refine h.invariant (I := fun s => s.maps.WellFormed) ?_ ?_
  · intro s hs
    cases hs
    exact .new needSnapshot
  · intro s call s' hs hstep
    obtain ⟨-, rfl⟩ := hstep
    exact wellFormed_next hs call

/-! ### After an unsubscription -/

/-- The call subscribes the id. -/
def Subscribes (T : Type) [Subscriber T Msg] [FromConn C T] (id : Int) :
    ServiceCall C Msg → Prop
  | .onSubscribe sub => FromConn.id T sub = id
  | _ => False

/-- Whoever is not subscribed stays so, unless it is a call to subscribe it. -/
theorem not_isSubed_next (hself : s.maps.WellFormed) {call : ServiceCall C Msg} {id : Int}
    (hcall : ¬ Subscribes T id call) (h : ¬ s.maps.IsSubed id) :
    ¬ (s.next call).maps.IsSubed id := by
  cases call with
  | onSubscribe sub =>
    intro hsubed
    rcases s.maps.isSubed_onSubscribe sub hsubed with heq | hsubed
    · exact hcall heq.symm
    · exact h hsubed
  | onUnsubscribe id₀ =>
    intro hsubed
    exact h ((s.maps.isSubed_onUnsubscribe hself id₀ id).mp hsubed).1
  | send | sendVideoFrame | sendTo | sendToOthers | sendWithout =>
    exact mt (s.maps.isSubed_sendWhere _ _ id).mp h
  | snapshot =>
    rw [next]
    split
    · exact h
    · exact h
  | swapSend msg => exact mt (s.maps.isSubed_sendNewSubscribes msg id).mp h
  | swapDrop => exact mt (s.maps.isSubed_swapNewSubscribes hself id).mp h

/-- Whoever is not subscribed is sent nothing. -/
theorem sentTo_next (hself : s.maps.WellFormed) (call : ServiceCall C Msg) {id : Int}
    (h : ¬ s.maps.IsSubed id) : (s.next call).sentTo id = s.sentTo id := by
  obtain ⟨sent, hsent, honce⟩ := next_sent hself call
  have hnone : sent.filter (·.1 = id) = [] := by
    rw [List.filter_eq_nil_iff]
    intro x hx hid
    obtain rfl := of_decide_eq_true hid
    exact h (isSubed_of_meant ((honce.mem_iff x.1 x.2).mp hx))
  rw [sentTo, sentTo, hsent, List.filter_append, hnone, List.append_nil]

theorem quiet_foldl {id : Int} {calls : List (ServiceCall C Msg)} (hself : s.maps.WellFormed)
    (h : ¬ s.maps.IsSubed id) (hcalls : ∀ call ∈ calls, ¬ Subscribes T id call) :
    ¬ (calls.foldl next s).maps.IsSubed id ∧ (calls.foldl next s).sentTo id = s.sentTo id := by
  induction calls generalizing s with
  | nil => exact ⟨h, rfl⟩
  | cons call calls ih =>
    have hcall := hcalls call List.mem_cons_self
    obtain ⟨hsubed, hsent⟩ := ih (wellFormed_next hself call) (not_isSubed_next hself hcall h)
      fun call hmem => hcalls call (List.mem_cons_of_mem _ hmem)
    exact ⟨hsubed, hsent.trans (sentTo_next hself call h)⟩

/-- **One map for each subscriber.** In every run nobody is in both maps, and each is kept under its
own id. So whoever unsubscribes is in neither map and is sent nothing until it subscribes again, and
each call sends its message to each subscriber that it is meant for, once, and to nobody else. -/
theorem subscribed_once {needSnapshot : Bool} {calls : List (ServiceCall C Msg)}
    (h : (system needSnapshot).Run calls s) :
    s.maps.WellFormed ∧
      (∀ (id : Int) (calls' : List (ServiceCall C Msg)) (s' : ServiceUse T Msg),
        (system needSnapshot).Run (calls ++ .onUnsubscribe id :: calls') s' →
        (∀ call ∈ calls', ¬ Subscribes T id call) →
        ¬ s'.maps.IsSubed id ∧ s'.sentTo id = s.sentTo id) ∧
      ∀ call : ServiceCall C Msg, ∃ sent,
        (s.next call).sent = s.sent ++ sent ∧ SentOnce sent (Meant s.maps call) := by
  have hself := wellFormed_of_run h
  refine ⟨hself, ?_, next_sent hself⟩
  intro id calls' s' h' hcalls
  have hs' := h'.guarded_eq
  rw [List.foldl_append, ← h.guarded_eq, List.foldl_cons] at hs'
  have hgone : ¬ (s.next (.onUnsubscribe id : ServiceCall C Msg)).maps.IsSubed id := by
    intro hsubed
    exact ((s.maps.isSubed_onUnsubscribe hself id id).mp hsubed).2 rfl
  rw [hs']
  exact quiet_foldl (wellFormed_next hself _) hgone hcalls

end ServiceUse

/-! ## What the maps stand for -/

/-- The subscribers of a table. -/
def Subscribers.Holds (subs : Subscribers T) (table : AList fun _ : Int => T) : Prop :=
  subs.values = table.entries.map Sigma.snd

namespace Subscribers

variable {subs other : Subscribers T} {table : AList fun _ : Int => T}

theorem Holds.has_iff (h : subs.Holds table) (hown : OwnIds table) (id : Int) :
    subs.Has id ↔ id ∈ table := by
  constructor
  · intro hhas
    obtain ⟨s, hs, rfl⟩ := hhas
    rw [h] at hs
    obtain ⟨e, he, rfl⟩ := List.mem_map.mp hs
    rw [hown.of_mem he]
    exact List.mem_map_of_mem he
  · intro hmem
    obtain ⟨e, he, rfl⟩ := List.mem_map.mp (AList.mem_keys.mp hmem)
    refine ⟨e.2, ?_, hown.of_mem he⟩
    rw [h]
    exact List.mem_map_of_mem he

theorem Holds.remove (h : subs.Holds table) (hown : OwnIds table) (id : Int) :
    (subs.remove id).Holds (table.erase id) := by
  have hfilter : ∀ l : List (Sigma fun _ : Int => T), l.NodupKeys →
      (∀ e ∈ l, Subscriber.id e.2 = e.1) →
      (l.map Sigma.snd).filter (Subscriber.id · ≠ id) = (l.kerase id).map Sigma.snd := by
    intro l hl hids
    induction l with
    | nil => rfl
    | cons e l ih =>
      have hrest := ih (List.nodupKeys_of_nodupKeys_cons hl)
        fun e he => hids e (List.mem_cons_of_mem _ he)
      have he := hids e List.mem_cons_self
      by_cases heq : id = e.1
      · -- The others have other keys.
        have hnot := List.notMem_keys_of_nodupKeys_cons hl
        rw [← heq] at hnot
        rw [List.kerase_cons_eq heq, List.map_cons, List.filter_cons_of_neg, hrest,
          List.kerase_of_notMem_keys hnot]
        simp [he, heq]
      · rw [List.kerase_cons_ne heq, List.map_cons, List.map_cons, List.filter_cons_of_pos, hrest]
        simp [he, Ne.symm heq]
  have hentries := hfilter table.entries table.nodupKeys fun e he => hown.of_mem he
  rw [← h] at hentries
  exact hentries

theorem Holds.insert (h : subs.Holds table) (hown : OwnIds table) (s : T) :
    (subs.insert s).Holds (table.insert (Subscriber.id s) s) :=
  congrArg (s :: ·) (h.remove hown (Subscriber.id s))

theorem Holds.send (h : subs.Holds table) (hown : OwnIds table) {msg : Msg} {byId : Int → Bool}
    {picks : Int → T → Bool} (hpicks : ∀ s, picks (Subscriber.id s) s = byId (Subscriber.id s)) :
    (subs.send msg byId).Holds (sendEntries table msg picks).1 := by
  change subs.values.map _ = ((table.entries.map _).map _)
  rw [h, List.map_map, List.map_map]
  refine List.map_congr_left ?_
  intro e he
  have hkey := hown.of_mem he
  have hpick := hpicks e.2
  rw [hkey] at hpick
  simp only [Function.comp_apply, hkey, hpick]

theorem Holds.insertAll {newTable : AList fun _ : Int => T} (h : subs.Holds table)
    (hown : OwnIds table) (hnew : other.Holds newTable) :
    (subs.insertAll other).Holds (newTable.entries.foldl
      (fun table e => table.insert (Subscriber.id e.2) e.2) table) := by
  rw [Subscribers.insertAll, hnew]
  generalize newTable.entries = l
  induction l generalizing subs table with
  | nil => exact h
  | cons e l ih => exact ih (h.insert hown e.2) (hown.insert rfl)

end Subscribers

/-- The maps hold what the service holds. -/
structure ServiceMaps.Represents (maps : ServiceMaps T) (inner : ServiceInner T) : Prop where
  subscribes : inner.subscribes.Holds maps.subscribes
  newSubscribes : inner.newSubscribes.Holds maps.newSubscribes
  needSnapshot : inner.needSnapshot = maps.needSnapshot

/-- The calls, on the service that is never in a wrong state. -/
def ServiceInner.next (inner : ServiceInner T) : ServiceCall C Msg → ServiceInner T
  | .onSubscribe sub => inner.onSubscribe (FromConn.into sub)
  | .onUnsubscribe id => inner.onUnsubscribe id
  | .send msg | .sendVideoFrame msg => inner.sendShared msg
  | .sendTo msg id => inner.sendTo msg id
  | .sendToOthers msg id | .sendWithout msg id => inner.sendToOthers msg id
  | .snapshot => inner
  | .swapSend msg => inner.sendNewSubscribes msg
  | .swapDrop => inner.swapNewSubscribes

namespace ServiceMaps.Represents

variable {maps : ServiceMaps T} {inner : ServiceInner T}

theorem onSubscribe (h : maps.Represents inner) (hself : maps.WellFormed) (sub : C) :
    (maps.onSubscribe sub).Represents (inner.onSubscribe (FromConn.into sub)) := by
  have hid : Subscriber.id (FromConn.into sub : T) = FromConn.id T sub := FromConn.id_into sub
  have hhas := h.subscribes.has_iff hself.own (FromConn.id T sub)
  unfold ServiceMaps.onSubscribe ServiceInner.onSubscribe
  simp only [hid, hhas, AList.lookup_isSome]
  split
  next => exact h
  next =>
    by_cases hneed : maps.needSnapshot = true
    · rw [if_pos hneed, dif_pos (h.needSnapshot.trans hneed)]
      refine ⟨h.subscribes, ?_, h.needSnapshot⟩
      dsimp only
      rw [← hid]
      exact h.newSubscribes.insert hself.ownNew _
    · rw [if_neg hneed, dif_neg (h.needSnapshot.trans_ne hneed)]
      refine ⟨?_, h.newSubscribes, h.needSnapshot⟩
      dsimp only
      rw [← hid]
      exact h.subscribes.insert hself.own _

theorem onUnsubscribe (h : maps.Represents inner) (hself : maps.WellFormed) (id : Int) :
    (maps.onUnsubscribe id).Represents (inner.onUnsubscribe id) := by
  have hhas := h.subscribes.has_iff hself.own id
  unfold ServiceMaps.onUnsubscribe ServiceInner.onUnsubscribe
  rw [AList.extract_eq_lookup_erase]
  cases hlookup : maps.subscribes.lookup id with
  | none =>
    have hnot := AList.lookup_eq_none.mp hlookup
    rw [if_neg (mt hhas.mp hnot)]
    refine ⟨?_, h.newSubscribes.remove hself.ownNew id, h.needSnapshot⟩
    have hsame : maps.subscribes.erase id = maps.subscribes :=
      AList.ext (List.kerase_of_notMem_keys hnot)
    rw [hsame]
    exact h.subscribes
  | some s =>
    have hmem : id ∈ maps.subscribes := by
      rw [← AList.lookup_isSome, hlookup]
      rfl
    rw [if_pos (hhas.mpr hmem)]
    exact ⟨h.subscribes.remove hself.own id, h.newSubscribes, h.needSnapshot⟩

theorem sendWhere (h : maps.Represents inner) (hself : maps.WellFormed) {msg : Msg}
    {byId : Int → Bool} {picks : Int → T → Bool}
    (hpicks : ∀ s, picks (Subscriber.id s) s = byId (Subscriber.id s)) :
    (maps.sendWhere msg picks).1.Represents (inner.sendWhere msg byId) :=
  ⟨h.subscribes.send hself.own hpicks, h.newSubscribes, h.needSnapshot⟩

/-- A call does to the maps what it does to the service. -/
theorem next {s : ServiceUse T Msg} (h : s.maps.Represents inner) (hself : s.maps.WellFormed)
    (call : ServiceCall C Msg) : (s.next call).maps.Represents (inner.next call) := by
  cases call with
  | onSubscribe sub => exact h.onSubscribe hself sub
  | onUnsubscribe id => exact h.onUnsubscribe hself id
  | send msg | sendVideoFrame msg => exact h.sendWhere hself fun _ => rfl
  | sendTo msg id => exact h.sendWhere hself fun _ => rfl
  | sendToOthers msg id => exact h.sendWhere hself fun _ => rfl
  | sendWithout msg id =>
    refine h.sendWhere hself ?_
    intro s
    simp only [ne_comm]
  | snapshot =>
    rw [ServiceUse.next]
    split
    · exact h
    · exact h
  | swapSend msg =>
    exact ⟨h.subscribes, h.newSubscribes.send hself.ownNew fun _ => rfl, h.needSnapshot⟩
  | swapDrop =>
    exact ⟨h.subscribes.insertAll hself.own h.newSubscribes, rfl, h.needSnapshot⟩

end ServiceMaps.Represents

/-- The maps of a run stand for the service after the same calls. -/
theorem ServiceUse.represents_of_run (name : String) {needSnapshot : Bool}
    {calls : List (ServiceCall C Msg)} {s : ServiceUse T Msg}
    (h : (system needSnapshot).Run calls s) :
    s.maps.Represents (calls.foldl ServiceInner.next (.new name needSnapshot)) := by
  induction h with
  | start h =>
    cases h
    exact ⟨rfl, rfl, rfl⟩
  | snoc h hs ih =>
    obtain ⟨-, rfl⟩ := hs
    rw [List.foldl_append]
    exact ih.next (wellFormed_of_run h) _

end

/-! ## A cursor service -/

instance : FromConn Int MouseCursorSub where
  id := id
  into := MouseCursorSub.ofConn
  id_into _ := rfl

/-- A connection comes, gets its snapshot, and leaves. -/
theorem ServiceUse.subscribed_once_cursor :
    ∃ s : ServiceUse MouseCursorSub CursorMessage,
      (system true).Run ([.onSubscribe 1, .snapshot, .swapSend .empty, .swapDrop] :
        List (ServiceCall Int CursorMessage)) s ∧
      s.sentTo 1 = [(1, .empty)] ∧ s.maps.WellFormed ∧
      (∀ call : ServiceCall Int CursorMessage, ∃ sent,
        (s.next call).sent = s.sent ++ sent ∧ SentOnce sent (Meant s.maps call)) ∧
      ∀ s' : ServiceUse MouseCursorSub CursorMessage,
        (system true).Run ([.onSubscribe 1, .snapshot, .swapSend .empty, .swapDrop,
          .onUnsubscribe 1, .send .empty] : List (ServiceCall Int CursorMessage)) s' →
        ¬ s'.maps.IsSubed 1 ∧ s'.sentTo 1 = [(1, .empty)] := by
  have hnew : (system true).Run ([] : List (ServiceCall Int CursorMessage))
      (⟨.new true, 0, []⟩ : ServiceUse MouseCursorSub CursorMessage) := System.guarded_start
  have hsub := hnew.guarded_snoc (.onSubscribe 1) trivial
  have hopen := hsub.guarded_snoc .snapshot trivial
  have hsend := hopen.guarded_snoc (.swapSend .empty) Nat.one_pos
  have hdrop := hsend.guarded_snoc .swapDrop Nat.one_pos
  obtain ⟨hself, hgone, honce⟩ := subscribed_once hdrop
  refine ⟨_, hdrop, by decide, hself, honce, ?_⟩
  intro s' h'
  refine hgone 1 [.send .empty] s' h' ?_
  intro call hcall
  rw [List.mem_singleton.mp hcall]
  exact id

end HopToDesk.Host

/-!
## What a snapshot delivers

A swap sends to whoever is new at that moment, and its drop moves whoever is new at that later
moment. A subscriber that was new before the first message is new for every one of them, or leaves;
one that arrives between two messages is moved by the drop all the same, without the earlier ones.
-/

namespace HopToDesk.Host

open Kit

variable {T Msg : Type} [Subscriber T Msg]

namespace ServiceInner

/-- Who is new after `on_subscribe` was new before, or comes in as a new subscriber. -/
theorem has_new_onSubscribe {inner : ServiceInner T} {sub : T} {i : Int}
    (h : (inner.onSubscribe sub).newSubscribes.Has i) :
    inner.newSubscribes.Has i ∨
      i = Subscriber.id sub ∧ ¬ inner.IsSubed i ∧ inner.needSnapshot = true := by
  unfold onSubscribe at h
  split at h
  next => exact .inl h
  next hhas =>
    split at h
    next hneed =>
      rcases (Subscribers.has_insert _ _ _).mp h with rfl | h
      · by_cases hnew : inner.newSubscribes.Has (Subscriber.id sub)
        · exact .inl hnew
        · exact .inr ⟨rfl, fun hsubed => hsubed.elim hhas hnew, hneed⟩
      · exact .inl h
    next => exact .inl h

theorem has_new_onUnsubscribe {inner : ServiceInner T} {id i : Int}
    (h : (inner.onUnsubscribe id).newSubscribes.Has i) : inner.newSubscribes.Has i := by
  unfold onUnsubscribe at h
  split at h
  · exact h
  · exact ((Subscribers.has_remove _ _ _).mp h).1

end ServiceInner

namespace ServiceRun

/-- Everyone new has received what every swap alive has sent so far. -/
def UpToDate (s : ServiceRun T) : Prop :=
  ∀ swap sent, s.swaps swap = some sent → ∀ i, s.inner.newSubscribes.Has i →
    sent.Sublist (s.received i)

variable {s : ServiceRun T}

theorem UpToDate.start (name : String) (needSnapshot : Bool) :
    (start name needSnapshot : ServiceRun T).UpToDate := by
  intro swap sent hswap
  cases hswap

theorem sublist_log (received : Int → List Msg) (subs : Subscribers T) (msg : Msg)
    (picks : Int → Bool) (i : Int) : (received i).Sublist (log received subs msg picks i) := by
  simp only [log]
  split
  · exact List.sublist_append_left _ _
  · exact List.Sublist.refl _

theorem UpToDate.onSubscribe {sub : T} (h : s.UpToDate) (htime : s.InTime (.onSubscribe sub)) :
    (s.next (.onSubscribe sub)).UpToDate := by
  intro swap sent hswap i hi
  rcases ServiceInner.has_new_onSubscribe hi with hold | ⟨rfl, hsubed, hneed⟩
  · exact h swap sent hswap i hold
  · rw [htime hsubed hneed swap sent hswap]
    exact List.nil_sublist _

theorem UpToDate.snapshot {k : Nat} (h : s.UpToDate) : (s.next (.snapshot k)).UpToDate := by
  simp only [ServiceRun.next]
  split
  · intro swap sent hswap i hi
    by_cases hk : swap = k
    · subst hk
      have hempty : some [] = some sent := by simpa only [Function.update_self] using hswap
      cases hempty
      exact List.nil_sublist _
    · have hold : s.swaps swap = some sent := by
        simpa only [Function.update_of_ne hk] using hswap
      exact h swap sent hold i hi
  · exact h

/-- What a swap sends now, everyone new now receives. -/
theorem UpToDate.swapSend {k : Nat} {msg : Msg} (h : s.UpToDate) :
    (s.next (.swapSend k msg)).UpToDate := by
  intro swap sent hswap i hi
  have hnew : s.inner.newSubscribes.Has i := (Subscribers.has_send _ _ _ _).mp hi
  have hreceived : (s.next (.swapSend k msg)).received i = s.received i ++ [msg] := by
    simp only [ServiceRun.next, log, hnew, and_self, if_true]
  rw [hreceived]
  by_cases hk : swap = k
  · subst hk
    have hmap : (s.swaps swap).map (· ++ [msg]) = some sent := by
      simpa only [ServiceRun.next, Function.update_self] using hswap
    obtain ⟨before, hbefore, rfl⟩ := Option.map_eq_some_iff.mp hmap
    exact (h swap before hbefore i hnew).append (List.Sublist.refl _)
  · have hold : s.swaps swap = some sent := by
      simpa only [ServiceRun.next, Function.update_of_ne hk] using hswap
    exact (h swap sent hold i hnew).trans (List.sublist_append_left _ _)

/-- One step in time keeps every new subscriber up to date. -/
theorem UpToDate.next {step : ServiceStep T Msg} (h : s.UpToDate) (htime : s.InTime step) :
    (s.next step).UpToDate := by
  cases step with
  | onSubscribe sub => exact h.onSubscribe htime
  | onUnsubscribe id =>
    intro swap sent hswap i hi
    exact h swap sent hswap i (ServiceInner.has_new_onUnsubscribe hi)
  | send msg picks =>
    intro swap sent hswap i hi
    exact (h swap sent hswap i hi).trans (sublist_log ..)
  | snapshot k => exact h.snapshot
  | swapSend k msg => exact h.swapSend
  | swapDrop k =>
    intro swap sent _ i hi
    exact absurd hi (Subscribers.not_has_empty i)

/-- **A snapshot delivers to whoever was there when it began to send.** In every run in which no new
subscriber arrives between the first message of a swap and its drop, the drop of any swap moves
only subscribers that received every message sent through it. -/
theorem delivers_of_inTime (name : String) (needSnapshot : Bool)
    {steps : List (ServiceStep T Msg)} {s : ServiceRun T}
    (h : ((system name needSnapshot).restrict InTime).Run steps s) (swap : Nat) :
    s.Delivers swap := by
  have hup : s.UpToDate := by
    refine h.invariant (I := UpToDate) ?_ ?_
    · intro s hs
      cases hs
      exact UpToDate.start name needSnapshot
    · intro s step s' hs hstep
      obtain ⟨htime, -, rfl⟩ := hstep
      exact hs.next htime
  intro sent hswap i hi _
  exact hup swap sent hswap i hi

/-! ### Between two messages -/

/-- A subscriber that records what it is sent. -/
structure Recorder where
  conn : Int
  inbox : List String

instance : Subscriber Recorder String where
  id := Recorder.conn
  send s msg := { s with inbox := s.inbox ++ [msg] }
  id_send _ _ := rfl

/-- A subscriber is there, a swap sends, and its drop moves the subscriber. -/
theorem delivers_of_inTime_cursor :
    ∃ s : ServiceRun Recorder, ((system "cursor" true).restrict InTime).Run
        [.onSubscribe ⟨1, []⟩, .snapshot 0, .swapSend 0 "cursor data"] s ∧
      s.received 1 = ["cursor data"] ∧ s.Delivers 0 := by
  have hstart : ((system "cursor" true).restrict InTime).Run [] (start "cursor" true : ServiceRun Recorder) :=
    .start rfl
  have hsub := hstart.restrict_snoc (.onSubscribe ⟨1, []⟩)
    (fun _ _ _ _ h => by cases h) trivial
  have hopen := hsub.restrict_snoc (.snapshot 0) trivial rfl
  have hsend := hopen.restrict_snoc (.swapSend 0 "cursor data") trivial rfl
  exact ⟨_, hsend, rfl, delivers_of_inTime "cursor" true hsend 0⟩

/-- A second subscriber arrives after the message and is moved by the drop without it. -/
theorem not_delivers :
    ¬ ∀ s : ServiceRun Recorder, (system "cursor" true).Reachable s → ∀ swap, s.Delivers swap := by
  intro h
  have hstart : (system "cursor" true).Run [] (start "cursor" true : ServiceRun Recorder) := .start rfl
  have hsub := hstart.guarded_snoc (.onSubscribe ⟨1, []⟩) trivial
  have hopen := hsub.guarded_snoc (.snapshot 0) rfl
  have hsend := hopen.guarded_snoc (.swapSend 0 "cursor data") rfl
  have hlate := hsend.guarded_snoc (.onSubscribe ⟨2, []⟩) trivial
  have hdelivers := h _ ⟨_, hlate⟩ 0 ["cursor data"] rfl 2 (by decide) (by decide)
  cases hdelivers

end ServiceRun

end HopToDesk.Host
