import HopToDesk.Host.Whiteboard

/-!
# Where a click is shown

What a connection has sent follows what was received for it (`Follows`): the movements in their
order, and each click at the last movement before it. The connection keeps this (`Follows.update`),
as long as a click does not find that the timer has sent the last movement, which the timer does not
remember. The timer keeps it too (`Follows.tick`), as long as no movement of the connection is still
in the channel when it sends a later one.
-/

set_option autoImplicit false

namespace HopToDesk.Host.Whiteboard

open Kit

/-! ## What is received and what is sent -/

/-- The movement that came last. -/
def lastMovement (cursors : List Cursor) : Option Cursor :=
  (cursors.filter Cursor.isMovement).getLast?

/-- The clicks, each with the last movement before it. -/
def clicksAfter : Option Cursor → List Cursor → List (Option Cursor × Cursor)
  | _, [] => []
  | last, c :: cs =>
    if c.isMovement then clicksAfter (some c) cs else (last, c) :: clicksAfter last cs

def movementOf : CustomEvent → Option Cursor
  | .cursor c => if c.isMovement then some c else none
  | _ => none

def clickOf : CustomEvent → Option Cursor
  | .cursor c => if c.isMovement then none else some c
  | _ => none

def movements (events : List CustomEvent) : List Cursor := events.filterMap movementOf

def clicks (events : List CustomEvent) : List Cursor := events.filterMap clickOf

/-- The events of one connection. -/
def ofKey (k : Text) (events : List (Text × CustomEvent)) : List CustomEvent :=
  events.filterMap fun e => if e.1 = k then some e.2 else none

/-- What was received for a connection. -/
def receivedBy (k : Text) (history : List Seen) : List Cursor :=
  history.filterMap fun
    | .received key cursor => if key = k then some cursor else none
    | .flushed _ => none

/-- The timer has sent the last movement of the connection. -/
def flushedLast (k : Text) (history : List Seen) : Bool :=
  history.foldl (fun flushed e =>
    match e with
    | .received key cursor => if key = k ∧ cursor.isMovement then false else flushed
    | .flushed key => key = k || flushed) false

/-- The click as it was received, at the position of the last movement. -/
structure Carries (sent : Cursor) (click : Option Cursor × Cursor) : Prop where
  position : ∀ m, click.1 = some m → sent.x = m.x ∧ sent.y = m.y
  argb : sent.argb = click.2.argb
  btns : sent.btns = click.2.btns
  text : sent.text = click.2.text

section lists

variable {c : Cursor} {cs : List Cursor} {last : Option Cursor} {events : List CustomEvent}

theorem clicksAfter_snoc : clicksAfter last (cs ++ [c]) =
    clicksAfter last cs ++
      if c.isMovement then [] else [((lastMovement cs).or last, c)] := by
  induction cs generalizing last with
  | nil => cases hc : c.isMovement <;> simp [clicksAfter, lastMovement, hc]
  | cons d cs ih =>
    rw [List.cons_append, clicksAfter, clicksAfter]
    split
    next hd =>
      rw [ih]
      congr 2
      simp [lastMovement, hd, List.getLast?_cons]
    next hd =>
      rw [ih, List.cons_append]
      simp [lastMovement, hd]

theorem lastMovement_snoc : lastMovement (cs ++ [c]) =
    if c.isMovement then some c else lastMovement cs := by
  unfold lastMovement
  rw [List.filter_append]
  cases hc : c.isMovement <;> simp [hc]

@[simp] theorem movements_append {es : List CustomEvent} :
    movements (events ++ es) = movements events ++ movements es := List.filterMap_append

@[simp] theorem clicks_append {es : List CustomEvent} :
    clicks (events ++ es) = clicks events ++ clicks es := List.filterMap_append

end lists

/-! ## One connection -/

/-- What is held back is a movement, the last that was received. -/
def Held (cs : List Cursor) (evt : Option CustomEvent) : Prop :=
  ∀ e, evt = some e → ∃ m, e = .cursor m ∧ m.isMovement = true ∧ lastMovement cs = some m

/-- The position is that of the last movement. -/
def AtLast (cs : List Cursor) (conn : Conn) : Prop :=
  ∀ m, lastMovement cs = some m → conn.lastCursorPos = (m.x, m.y)

/-- What has been sent of a connection for the cursor events it received. -/
structure Follows (cs : List Cursor) (events : List CustomEvent) (conn : Conn) (flushed : Bool) :
    Prop where
  held : Held cs conn.lastCursorEvt.evt
  order : (movements (events ++ conn.lastCursorEvt.evt.toList)).Sublist
    (cs.filter Cursor.isMovement)
  carries : List.Forall₂ Carries (clicks events) (clicksAfter none cs)
  position : flushed = false → conn.lastCursorEvt.evt = none → AtLast cs conn

section one

variable {cs : List Cursor} {events : List CustomEvent} {conn : Conn} {flushed : Bool} {c : Cursor}
  {now : Nat}

theorem Follows.new : Follows [] [] (.new now) false where
  held := by
    rintro e ⟨⟩
  order := List.Sublist.refl _
  carries := .nil
  position := by
    rintro - - m ⟨⟩

/-- A movement is sent, or held back in place of the one that was. -/
theorem Follows.movement (h : Follows cs events conn flushed) (hc : c.isMovement = true) :
    Follows (cs ++ [c]) (events ++ (conn.update now (.cursor c)).2)
      (conn.update now (.cursor c)).1 false := by
  have hlast : lastMovement (cs ++ [c]) = some c := by rw [lastMovement_snoc, if_pos hc]
  have horder : (movements (events ++ [.cursor c])).Sublist
      ((cs ++ [c]).filter Cursor.isMovement) := by
    rw [List.filter_append, movements_append]
    have hevents : (movements events).Sublist (cs.filter Cursor.isMovement) := by
      refine List.Sublist.trans ?_ h.order
      rw [movements_append]
      exact List.sublist_append_left _ _
    refine hevents.append ?_
    simp [movements, movementOf, hc]
  have hclicks : clicks [.cursor c] = [] := by simp [clicks, clickOf, hc]
  have hcarries : List.Forall₂ Carries (clicks events) (clicksAfter none (cs ++ [c])) := by
    rw [clicksAfter_snoc, if_pos hc, List.append_nil]
    exact h.carries
  unfold Conn.update
  dsimp only
  rw [if_pos hc]
  split
  next =>
    have hpos : ({ conn with lastCursorEvt := ⟨none, now, 0⟩ } : Conn).txSendEvent (.cursor c) =
        ⟨(c.x, c.y), ⟨none, now, 0⟩⟩ := if_pos hc
    rw [hpos]
    refine ⟨?_, ?_, ?_, ?_⟩
    · rintro e ⟨⟩
    · rw [Option.toList_none, List.append_nil]
      exact horder
    · rw [clicks_append, hclicks, List.append_nil]
      exact hcarries
    · rintro - - m hm
      cases hlast.symm.trans hm
      rfl
  next =>
    refine ⟨?_, ?_, ?_, ?_⟩
    · rintro e ⟨⟩
      exact ⟨c, rfl, hc, hlast⟩
    · rw [List.append_nil]
      exact horder
    · rw [List.append_nil]
      exact hcarries
    · rintro - ⟨⟩

/-- Taking the held movement brings the position up to date. -/
theorem takeHeld_spec (h : Follows cs events conn flushed) (hflushed : flushed = false) :
    conn.takeHeld.2 = conn.lastCursorEvt.evt.toList ∧ conn.takeHeld.1.lastCursorEvt.evt = none ∧
      AtLast cs conn.takeHeld.1 := by
  unfold Conn.takeHeld
  cases hevt : conn.lastCursorEvt.evt with
  | none => exact ⟨rfl, hevt, h.position hflushed hevt⟩
  | some evt =>
    obtain ⟨m, rfl, hmove, hlast⟩ := h.held evt hevt
    dsimp only [Conn.txSendEvent]
    rw [if_pos hmove]
    refine ⟨rfl, rfl, ?_⟩
    rintro m' hm'
    cases hlast.symm.trans hm'
    rfl

/-- The count and the time of the last event are of no account. -/
theorem Follows.congr (h : Follows cs events conn flushed) {conn' : Conn}
    (hpos : conn'.lastCursorPos = conn.lastCursorPos)
    (hevt : conn'.lastCursorEvt.evt = conn.lastCursorEvt.evt) :
    Follows cs events conn' flushed where
  held := hevt ▸ h.held
  order := hevt ▸ h.order
  carries := h.carries
  position := by
    intro hflushed hnone m hm
    rw [hpos]
    exact h.position hflushed (hevt ▸ hnone) m hm

/-- Nothing of what is held back is a click. -/
theorem Held.clicks_eq {evt : Option CustomEvent} (h : Held cs evt) : clicks evt.toList = [] := by
  cases evt with
  | none => rfl
  | some e =>
    obtain ⟨m, rfl, hmove, -⟩ := h e rfl
    simp [clicks, clickOf, hmove]

/-- A click is sent at the position of the last movement, unless the timer has sent that. -/
theorem Follows.click (h : Follows cs events conn flushed) (hc : c.isMovement = false)
    (hflushed : flushed = false) :
    Follows (cs ++ [c]) (events ++ (conn.update now (.cursor c)).2)
      (conn.update now (.cursor c)).1 false := by
  have hlast : lastMovement (cs ++ [c]) = lastMovement cs := by
    rw [lastMovement_snoc, hc]
    rfl
  have htouched : Follows cs events
      { conn with lastCursorEvt := ⟨conn.lastCursorEvt.evt, now, conn.lastCursorEvt.c + 1⟩ }
      flushed := h.congr rfl rfl
  obtain ⟨hsent, hnone, hat⟩ := takeHeld_spec htouched hflushed
  unfold Conn.update
  dsimp only
  rw [hc]
  generalize Conn.takeHeld _ = taken at hsent hnone hat ⊢
  obtain ⟨conn', held⟩ := taken
  dsimp only at hsent hnone hat ⊢
  subst hsent
  let click : Cursor := { c with x := conn'.lastCursorPos.1, y := conn'.lastCursorPos.2 }
  have hstill : click.isMovement = false := hc
  have hsame : conn'.txSendEvent (.cursor click) = conn' := if_neg (Bool.eq_false_iff.mp hstill)
  have hmovements : movements [.cursor click] = [] := by simp [movements, movementOf, hstill]
  have hclicks : clicks [.cursor click] = [click] := by simp [clicks, clickOf, hstill]
  rw [if_neg Bool.false_ne_true, hsame]
  refine ⟨?_, ?_, ?_, ?_⟩
  · rw [hnone]
    rintro e ⟨⟩
  · rw [hnone, Option.toList_none, List.append_nil, ← List.append_assoc, movements_append,
      hmovements, List.append_nil, List.filter_append, List.filter_singleton, hc]
    exact h.order.trans (List.sublist_append_left _ _)
  · rw [clicks_append, clicks_append, h.held.clicks_eq, hclicks, List.nil_append,
      clicksAfter_snoc, hc]
    refine List.rel_append h.carries (.cons ⟨?_, rfl, rfl, rfl⟩ .nil)
    intro m hm
    have hpos := hat m (by simpa using hm)
    exact Prod.mk.inj hpos
  · intro _ _ m hm
    rw [hlast] at hm
    exact hat m hm

/-- The timer sends what is held back, or it does nothing. -/
theorem tick_cases (conn : Conn) (now : Nat) : conn.tick now = (conn, []) ∨
    ∃ evt, conn.lastCursorEvt.evt = some evt ∧ conn.tick now =
      ({ conn with lastCursorEvt := { conn.lastCursorEvt with evt := none, c := 0 } }, [evt]) := by
  unfold Conn.tick
  split
  next =>
    cases hevt : conn.lastCursorEvt.evt with
    | none => exact .inl rfl
    | some evt => exact .inr ⟨evt, rfl, rfl⟩
  next => exact .inl rfl

/-- In the channel there is no movement that what the timer sends overtakes. -/
theorem Follows.tick {es qs : List CustomEvent} (h : Follows cs (es ++ qs) conn flushed)
    (hqueue : (conn.tick now).2 ≠ [] → movements qs = []) :
    Follows cs (es ++ (conn.tick now).2 ++ qs) (conn.tick now).1
      (flushed || !(conn.tick now).2.isEmpty) := by
  rcases tick_cases conn now with htick | ⟨evt, hevt, htick⟩
  · rw [htick, List.append_nil, List.isEmpty_nil, Bool.not_true, Bool.or_false]
    exact h
  · rw [htick] at hqueue ⊢
    have hnone : movements qs = [] := hqueue (List.cons_ne_nil _ _)
    have horder := h.order
    have hclicks := h.held.clicks_eq
    have hcarries := h.carries
    rw [hevt, Option.toList_some] at horder hclicks
    simp only [movements_append, clicks_append, hnone, List.append_nil] at horder hcarries
    refine ⟨?_, ?_, ?_, ?_⟩
    · rintro e ⟨⟩
    · simp only [movements_append, hnone, List.append_nil, Option.toList_none]
      exact horder
    · simp only [clicks_append, hclicks, List.append_nil]
      exact hcarries
    · dsimp only [List.isEmpty_cons]
      rw [Bool.not_false, Bool.or_true]
      rintro ⟨⟩

end one

/-! ## All connections -/

/-- The connection, or one that nothing has happened to. -/
def Board.conn (s : Board) (k : Text) : Conn := (s.conns.lookup k).getD (.new 0)

/-- What has been sent of each connection, or is on its way, follows what was received. -/
def Board.Shown (s : Board) : Prop :=
  ∀ k, Follows (receivedBy k s.history) (ofKey k s.sent ++ ofKey k s.queue) (s.conn k)
    (flushedLast k s.history)

/-- A click does not find the last movement sent by the timer, and the timer sends no movement while
an earlier one of the connection is in the channel. -/
def Steady (s : Board) : BoardStep → Prop
  | .update k cursor => cursor.isMovement = false → flushedLast k s.history = false
  | .tick _ => ∀ k ∈ s.conns.keys, ((s.conn k).tick s.clock).2 ≠ [] →
      movements (ofKey k s.queue) = []
  | _ => True

instance (s : Board) (a : BoardStep) : Decidable (Steady s a) := by
  cases a <;> unfold Steady <;> infer_instance

section board

variable {s s' : Board} {k k' : Text} {c : Cursor}

theorem ofKey_append {l l' : List (Text × CustomEvent)} :
    ofKey k (l ++ l') = ofKey k l ++ ofKey k l' := List.filterMap_append

theorem ofKey_self (events : List CustomEvent) : ofKey k (events.map fun e => (k, e)) = events := by
  unfold ofKey
  rw [List.filterMap_map]
  simp

theorem ofKey_other (h : k ≠ k') (events : List CustomEvent) :
    ofKey k' (events.map fun e => (k, e)) = [] := by
  unfold ofKey
  rw [List.filterMap_map]
  simp [h]

theorem conn_eq {conn : Conn} (h : s.conns.lookup k = some conn) : s.conn k = conn := by
  unfold Board.conn
  rw [h]
  rfl

theorem flushedLast_append {history : List Seen} {e : Seen} :
    flushedLast k (history ++ [e]) =
      match e with
      | .received key cursor =>
        if key = k ∧ cursor.isMovement then false else flushedLast k history
      | .flushed key => key = k || flushedLast k history := by
  unfold flushedLast
  rw [List.foldl_append]
  rfl

/-- A connection takes the place of one, and the others stay. -/
theorem conn_insert {conn : Conn} {clock : Nat} {queue sent : List (Text × CustomEvent)}
    {history : List Seen} :
    (⟨clock, s.conns.insert k conn, queue, sent, history⟩ : Board).conn k' =
      if k' = k then conn else s.conn k' := by
  unfold Board.conn
  split
  next hk =>
    subst hk
    rw [AList.lookup_insert]
    rfl
  next hk => rw [AList.lookup_insert_ne hk]

theorem Board.Shown.register (h : s.Shown) (k : Text) : (s.register k).Shown := by
  unfold Board.register
  split
  next => exact h
  next hfresh =>
    intro k'
    have hnone : s.conn k = .new 0 := by
      unfold Board.conn
      rw [AList.lookup_eq_none.mpr hfresh]
      rfl
    refine (h k').congr ?_ ?_ <;> rw [conn_insert] <;> split
    next hk => rw [hk, hnone]; rfl
    next => rfl
    next hk => rw [hk, hnone]; rfl
    next => rfl

/-- A cursor event of another connection. -/
theorem receivedBy_append (history : List Seen) : receivedBy k' (history ++ [.received k c]) =
    receivedBy k' history ++ if k = k' then [c] else [] := by
  unfold receivedBy
  rw [List.filterMap_append]
  split
  next hk => simp [hk]
  next hk => simp [hk]

theorem Board.Shown.update (h : s.Shown)
    (hsteady : c.isMovement = false → flushedLast k s.history = false) :
    (s.updateWhiteboard k c).Shown := by
  unfold Board.updateWhiteboard
  cases hlookup : s.conns.lookup k with
  | none => exact h
  | some conn =>
    intro k'
    dsimp only
    rw [conn_insert, ofKey_append, ← List.append_assoc, receivedBy_append, flushedLast_append]
    have hfollows := h k'
    by_cases hk : k' = k
    · subst hk
      rw [conn_eq hlookup] at hfollows
      rw [if_pos rfl, if_pos rfl, ofKey_self]
      cases hc : c.isMovement with
      | true => simpa [hc] using hfollows.movement hc
      | false =>
        have hflushed := hsteady hc
        rw [hflushed] at hfollows ⊢
        simpa [hc] using hfollows.click hc rfl
    · have hne : k ≠ k' := fun heq => hk heq.symm
      rw [if_neg hk, if_neg hne, ofKey_other hne, List.append_nil, List.append_nil]
      simpa [hne] using hfollows

theorem Board.Shown.receive (h : s.Shown) (hs : s.receive = some s') : s'.Shown := by
  unfold Board.receive at hs
  split at hs
  next => cases hs
  next data queue hqueue =>
    cases hs
    intro k
    have hfollows := h k
    rw [hqueue, ← List.singleton_append, ofKey_append, ← List.append_assoc] at hfollows
    dsimp only
    rw [ofKey_append]
    exact hfollows

/-- The timer at one connection: that connection is brought up to date, and nothing else changes. -/
theorem Board.Shown.tickConn (h : s.Shown)
    (hqueue : ((s.conn k).tick s.clock).2 ≠ [] → movements (ofKey k s.queue) = []) :
    (s.tickConn k).Shown := by
  unfold Board.tickConn
  cases hlookup : s.conns.lookup k with
  | none => exact h
  | some conn =>
    rw [conn_eq hlookup] at hqueue
    intro k'
    dsimp only
    rw [conn_insert, ofKey_append]
    have hfollows := h k'
    by_cases hk : k' = k
    · subst hk
      rw [conn_eq hlookup] at hfollows
      rw [if_pos rfl, ofKey_self]
      have htick := hfollows.tick hqueue
      rcases tick_cases conn s.clock with hsame | ⟨evt, -, hsent⟩
      · rw [hsame] at htick ⊢
        simpa using htick
      · rw [hsent] at htick ⊢
        simpa [flushedLast_append, receivedBy] using htick
    · have hne : k ≠ k' := fun heq => hk heq.symm
      rw [if_neg hk, ofKey_other hne, List.append_nil]
      rcases tick_cases conn s.clock with hsame | ⟨evt, -, hsent⟩
      · rw [hsame]
        simpa using hfollows
      · rw [hsent]
        simpa [flushedLast_append, receivedBy, hne] using hfollows

/-- What the timer is about to send overtakes nothing. -/
def Board.InStep (s : Board) : Prop :=
  ∀ k, ((s.conn k).tick s.clock).2 ≠ [] → movements (ofKey k s.queue) = []

theorem Board.InStep.of_steady {order : List Text} (h : Steady s (.tick order)) : s.InStep := by
  intro k hsends
  by_cases hk : k ∈ s.conns
  · exact h k (AList.mem_keys.mp hk) hsends
  · have hnew : s.conn k = .new 0 := by
      unfold Board.conn
      rw [AList.lookup_eq_none.mpr hk]
      rfl
    rw [hnew] at hsends
    rcases tick_cases (.new 0) s.clock with htick | ⟨evt, hevt, -⟩
    · rw [htick] at hsends
      exact absurd rfl hsends
    · cases hevt

theorem Board.InStep.tickConn (h : s.InStep) (k : Text) : (s.tickConn k).InStep := by
  unfold Board.tickConn
  cases hlookup : s.conns.lookup k with
  | none => exact h
  | some conn =>
    intro k'
    dsimp only
    rw [conn_insert]
    have hk' := h k'
    split
    next hk =>
      rw [hk, conn_eq hlookup] at hk'
      rw [hk]
      rcases tick_cases conn s.clock with hsame | ⟨evt, -, hsent⟩
      · rw [hsame]
        exact hk'
      · rw [hsent]
        intro hsends
        rcases tick_cases _ s.clock with htick | ⟨evt, hevt, -⟩
        · rw [htick] at hsends
          exact absurd rfl hsends
        · cases hevt
    next => exact hk'

theorem Board.Shown.tick (h : s.Shown) (hstep : s.InStep) (order : List Text) :
    (order.foldl Board.tickConn s).Shown := by
  induction order generalizing s with
  | nil => exact h
  | cons k order ih => exact ih (h.tickConn (hstep k)) (hstep.tickConn k)

/-- **One step.** -/
theorem Board.Shown.next (h : s.Shown) {a : BoardStep} (hsteady : Steady s a)
    (hs : s.next a = some s') : s'.Shown := by
  cases a with
  | wait d =>
    cases hs
    exact h
  | register k =>
    cases hs
    exact h.register k
  | update k c =>
    cases hs
    exact h.update hsteady
  | receive => exact h.receive hs
  | tick order =>
    unfold Board.next at hs
    dsimp only at hs
    split at hs
    next =>
      cases hs
      exact h.tick (.of_steady hsteady) order
    next => cases hs

theorem shown_of_reachable (h : (board.restrict Steady).Reachable s) : s.Shown := by
  refine h.invariant (I := Board.Shown) ?_ ?_
  · rintro s rfl k
    exact Follows.new
  · rintro s a s' hshown ⟨hsteady, hs⟩
    exact hshown.next hsteady hs

end board

/-- The movements of a connection arrive in their order, and the clicks are, one after the other,
the clicks received for it, each at the position of the last movement before it. -/
def Board.Faithful (s : Board) (k : Text) : Prop :=
  (movements (ofKey k s.sent)).Sublist ((receivedBy k s.history).filter Cursor.isMovement) ∧
    ∃ received, received <+: clicksAfter none (receivedBy k s.history) ∧
      List.Forall₂ Carries (clicks (ofKey k s.sent)) received

theorem Board.Shown.faithful {s : Board} (h : s.Shown) (k : Text) : s.Faithful k := by
  have hfollows := h k
  have horder := hfollows.order
  have hcarries := hfollows.carries
  rw [movements_append, movements_append, List.append_assoc] at horder
  rw [clicks_append] at hcarries
  refine ⟨(List.sublist_append_left _ _).trans horder, _,
    List.take_prefix (clicks (ofKey k s.sent)).length _, ?_⟩
  have htake := List.forall₂_take (clicks (ofKey k s.sent)).length hcarries
  rwa [List.take_left] at htake

/-- Clicks are shown where the last movement was, and movements arrive in their order, as long as no
click comes after the timer has sent the last movement, and no timer tick sends a movement while an
earlier one is in the channel. -/
theorem click_at_last_movement {s : Board} (h : (board.restrict Steady).Reachable s) (k : Text) :
    s.Faithful k :=
  (shown_of_reachable h).faithful k

/-- The cursor of a viewer at (10, 20), moved or clicked. -/
def cursorAt (btns : Int32) : Cursor := ⟨0x41200000, 0x41A00000, 0xFF0000, btns, ['v']⟩

/-- A movement that the timer sends, another one and a click. -/
def movedAgain : List BoardStep :=
  [.register ['7'], .update ['7'] (cursorAt 0), .wait 400000000, .tick [['7']],
    .update ['7'] (cursorAt 0), .update ['7'] (cursorAt 1), .receive, .receive]

theorem click_at_last_movement_moved : ∃ s : Board, clicks (ofKey ['7'] s.sent) = [cursorAt 1] ∧
    s.Faithful ['7'] := by
  have hrun : (board.restrict Steady).Run movedAgain _ := .of_follow rfl rfl
  exact ⟨_, rfl, click_at_last_movement ⟨_, hrun⟩ ['7']⟩

/-- A viewer moves to (10, 20) and clicks there half a second later. -/
def restedClick : List BoardStep :=
  [.register ['7'], .update ['7'] (cursorAt 0), .wait 400000000, .tick [['7']],
    .update ['7'] (cursorAt 1), .receive]

/-- The click is shown at the origin. -/
theorem rested_click_at_origin : ¬ ∀ s : Board, board.Reachable s → ∀ k, s.Faithful k := by
  intro hall
  obtain ⟨s, hrun, hclicks, hreceived⟩ : ∃ s, board.Run restedClick s ∧
      clicks (ofKey ['7'] s.sent) = [{ cursorAt 1 with x := 0, y := 0 }] ∧
      clicksAfter none (receivedBy ['7'] s.history) = [(some (cursorAt 0), cursorAt 1)] :=
    ⟨_, .of_foldlM (fun hs => hs) (.start rfl) rfl, rfl, rfl⟩
  obtain ⟨-, received, hprefix, hcarries⟩ := hall s ⟨_, hrun⟩ ['7']
  rw [hreceived] at hprefix
  rw [hclicks] at hcarries
  cases hcarries with
  | cons hfirst hrest =>
    obtain ⟨rfl, -⟩ := List.cons_prefix_cons.mp hprefix
    exact absurd (hfirst.position _ rfl).1 (by decide)

end HopToDesk.Host.Whiteboard
