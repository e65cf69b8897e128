import HopToDesk.Client.TerminalEmulator

/-!
# Rows that are told again

A display of a terminal has the rows it was last told. An update of a feed leaves out the rows whose
cells are the same as on the screen that was told last, so what such a row shows has to be what a
full repaint would put there.

What carries it is that the display shows the last screen without its cursor in every row but the
one the cursor is in (`Watched.Fresh`), and that row is always told again. A view draws no cursor,
and so it leaves the display in that state like a feed does.
-/

set_option autoImplicit false

namespace HopToDesk.Client

open Kit Vt100 Terminal

/-! ## A display -/

/-- What the rows of the page show. -/
abbrev Display := Nat → Option Text

def Display.tell (d : Display) (x : Nat × Text) : Display := Function.update d x.1 (some x.2)

/-- The rows of an update are replaced, and on a full repaint no others are left. -/
def Terminal.FrameUpdate.show (u : FrameUpdate) (d : Display) : Display :=
  u.dirtyRows.foldl Display.tell (if u.fullRepaint then fun _ => none else d)

/-- What a full repaint of a screen produces. -/
def repaint (screen : Screen) : Display := fun r =>
  if r < screen.rows then some (renderRow screen r screen.cols (cursorForRow screen r)) else none

/-- Rows that are told one after the other, each with a text of its own. -/
theorem foldl_rows (f : Nat → Text) (rows : List Nat) (d : Display) (r : Nat) :
    (rows.map fun r => (r, f r)).foldl Display.tell d r =
      if r ∈ rows then some (f r) else d r := by
  induction rows generalizing d with
  | nil => rfl
  | cons x rows ih =>
    rw [List.map_cons, List.foldl_cons, ih]
    by_cases hr : r ∈ rows
    · rw [if_pos hr, if_pos (List.mem_cons_of_mem _ hr)]
    · rw [if_neg hr]
      by_cases hx : r = x
      · subst hx
        rw [if_pos List.mem_cons_self, Display.tell, Function.update_self]
      · rw [if_neg (List.not_mem_cons_of_ne_of_not_mem hx hr), Display.tell,
          Function.update_of_ne hx]

/-! ## The same cells -/

section

variable {a b : Screen} {row : Nat} {cursorCol : Option Nat}

theorem renderCells_congr {cs : List Nat} (h : ∀ c ∈ cs, a.cell row c = b.cell row c)
    (x : RowText) : renderCells a row cursorCol cs x = renderCells b row cursorCol cs x := by
  induction cs generalizing x with
  | nil => rfl
  | cons c cs ih =>
    obtain ⟨hc, hcs⟩ := List.forall_mem_cons.mp h
    unfold renderCells
    rw [hc]
    cases b.cell row c with
    | none => rfl
    | some cell =>
      dsimp only
      split
      · exact ih hcs x
      · exact ih hcs _

/-- **A row is rendered from its cells and the cursor alone.** -/
theorem renderRow_congr {cols : Nat} (h : rowEqual a b row cols = true) :
    renderRow a row cols cursorCol = renderRow b row cols cursorCol := by
  have hcells : ∀ c ∈ List.range cols, a.cell row c = b.cell row c := fun c hc =>
    of_decide_eq_true (List.all_eq_true.mp h c hc)
  unfold renderRow
  rw [renderCells_congr hcells]

end

theorem cursorForRow_of_ne {screen : Screen} {r : Nat} (h : r ≠ screen.cursorRow) :
    cursorForRow screen r = none := by
  unfold cursorForRow
  rw [if_neg]
  simp [h]

/-! ## The calls -/

variable {P : Type} [Vt100 P]

/-- An emulator with the display that is told its updates. -/
structure Watched (P : Type) where
  emulator : TerminalEmulator P
  display : Display

inductive Call
  | feed (bytes : List UInt8)
  | resize (rows cols : Nat)
  | setView (offset : Nat)

namespace Watched

def call (w : Watched P) : Call → Watched P
  | .feed bytes =>
    let (update, emulator) := w.emulator.feed bytes
    ⟨emulator, update.show w.display⟩
  | .resize rows cols => { w with emulator := w.emulator.resize rows cols }
  | .setView offset =>
    let (update, emulator) := w.emulator.setView offset
    ⟨emulator, update.show w.display⟩

/-- The display shows the screen that was told last, but for the row of the cursor. -/
structure Fresh (p : Screen) (d : Display) : Prop where
  row : ∀ r < p.rows, r ≠ p.cursorRow → d r = some (renderRow p r p.cols none)
  rest : ∀ r, p.rows ≤ r → d r = none

theorem fresh_repaint (screen : Screen) : Fresh screen (repaint screen) where
  row r hr hne := by
    unfold repaint
    rw [if_pos hr, cursorForRow_of_ne hne]
  rest r hr := if_neg (Nat.not_lt.mpr hr)

/-- What an update shows that tells some rows of a screen. -/
theorem show_frameUpdate (screen : Screen) (p : Nat → Bool) (f : Nat → Text) (visible full : Bool)
    (d : Display) (r : Nat) :
    (frameUpdate screen (((List.range screen.rows).filter p).map fun r => (r, f r)) visible
      full).show d r =
      if r < screen.rows ∧ p r = true then some (f r) else if full then none else d r := by
  unfold FrameUpdate.show frameUpdate
  rw [foldl_rows]
  simp only [List.mem_filter, List.mem_range]
  split
  · rfl
  · cases full <;> rfl

/-- **The rows that are left out need not be told.** -/
theorem show_feed {prev : Option Screen} {d : Display} (h : ∀ p, prev = some p → Fresh p d)
    (screen : Screen) (visible : Bool) :
    (frameUpdate screen (((List.range screen.rows).filter fun r => dirty prev screen r).map fun r =>
      (r, renderRow screen r screen.cols (cursorForRow screen r))) visible
      (needFull prev screen)).show d = repaint screen := by
  funext r
  rw [show_frameUpdate screen _ (fun r => renderRow screen r screen.cols (cursorForRow screen r))]
  unfold repaint
  by_cases hr : r < screen.rows
  · rw [if_pos hr]
    by_cases hdirty : dirty prev screen r = true
    · rw [if_pos ⟨hr, hdirty⟩]
    · rw [if_neg fun hboth => hdirty hboth.2]
      cases prev with
      | none => exact absurd rfl hdirty
      | some p =>
        -- a row that is not told has the cells of the last screen, and no cursor then or now
        simp only [dirty, ne_eq, Bool.or_eq_true, decide_eq_true_eq, not_or, not_not,
          Bool.not_eq_true', Bool.not_eq_false, Bool.not_eq_true, Option.isSome_eq_false_iff,
          Option.isNone_iff_eq_none] at hdirty
        obtain ⟨⟨⟨⟨hrows, hcols⟩, hcursor⟩, hprev⟩, hequal⟩ := hdirty
        have hfull : needFull (some p) screen = false := by simp [needFull, hrows, hcols]
        have hrow := (h p rfl).row r (hrows ▸ hr) (Ne.symm hprev)
        rw [hfull, if_neg Bool.false_ne_true, hrow, hcursor, hcols, renderRow_congr hequal]
  · rw [if_neg fun hboth => hr hboth.1, if_neg hr]
    cases prev with
    | none => rfl
    | some p =>
      cases hfull : needFull (some p) screen with
      | true => rfl
      | false =>
        have hrows : p.rows = screen.rows := by
          simp only [needFull, ne_eq, Bool.or_eq_false_iff, decide_eq_false_iff_not,
            not_not] at hfull
          exact hfull.1
        exact (h p rfl).rest r (hrows ▸ Nat.not_lt.mp hr)

/-- A view shows the screen without a cursor. -/
theorem fresh_setView (screen : Screen) (d : Display) :
    Fresh screen ((frameUpdate screen ((List.range screen.rows).map fun r =>
      (r, renderRow screen r screen.cols none)) false true).show d) := by
  have hshow (r : Nat) := show_frameUpdate screen (fun _ => true)
    (fun r => renderRow screen r screen.cols none) false true d r
  rw [List.filter_true] at hshow
  constructor
  · intro r hr _
    rw [hshow, if_pos ⟨hr, rfl⟩]
  · intro r hr
    rw [hshow, if_neg fun hboth => Nat.not_lt.mpr hr hboth.1]
    rfl

/-- The display is fresh for the screen the emulator goes by. -/
def Told (w : Watched P) : Prop := ∀ p, w.emulator.prev = some p → Fresh p w.display

theorem display_feed {w : Watched P} (h : w.Told) (bytes : List UInt8) :
    (w.call (.feed bytes)).display =
      repaint (Vt100.screen (w.call (.feed bytes)).emulator.parser) :=
  show_feed h _ _

theorem told_new (rows cols : Nat) (display : Display) :
    Told (⟨.new rows cols, display⟩ : Watched P) := fun _ hp => nomatch hp

theorem Told.call {w : Watched P} (h : w.Told) (c : Call) : (w.call c).Told := by
  cases c with
  | feed bytes =>
    rintro p hp
    obtain rfl := Option.some.inj hp
    rw [display_feed h bytes]
    exact fresh_repaint _
  | resize rows cols =>
    intro p hp
    cases hp
  | setView offset =>
    intro p hp
    obtain rfl := Option.some.inj hp
    exact fresh_setView _ _

theorem Told.calls {w : Watched P} (h : w.Told) (cs : List Call) :
    (cs.foldl Watched.call w).Told := by
  induction cs generalizing w with
  | nil => exact h
  | cons c cs ih => exact ih (h.call c)

/-- **After every feed the display shows what a full repaint would produce**, whatever was fed, at
whatever sizes and views, and whatever the display showed at first. -/
theorem display_after_feed (rows cols : Nat) (display : Display) (cs : List Call)
    (bytes : List UInt8) :
    let w := (cs.foldl call (⟨.new rows cols, display⟩ : Watched P)).call (.feed bytes)
    w.display = repaint (Vt100.screen w.emulator.parser) :=
  display_feed ((told_new rows cols display).calls cs) bytes

end Watched

/-! ## The terminals of a session -/

/-- The terminals of a session, each with the page that shows it. -/
structure Pages (P : Type) where
  terminals : Terminals P
  page : Int → Display

inductive TerminalCall
  | feed (id : Int) (bytes : List UInt8)
  | resize (id : Int) (rows cols : Nat)
  | drop (id : Int)

namespace Pages

def call (s : Pages P) : TerminalCall → Pages P
  | .feed id bytes =>
    let (update, _, terminals) := s.terminals.feedTerminal id bytes
    ⟨terminals, Function.update s.page id (update.show (s.page id))⟩
  | .resize id rows cols =>
    let (update, _, terminals) := s.terminals.resizeTerminal id rows cols
    ⟨terminals, Function.update s.page id (update.show (s.page id))⟩
  | .drop id => { s with terminals := s.terminals.dropTerminal id }

def Told (s : Pages P) : Prop :=
  ∀ id emu, s.terminals id = some emu → Watched.Told ⟨emu, s.page id⟩

/-- The emulator of an id, which is a new one where there is none. -/
theorem Told.getD {s : Pages P} (h : s.Told) (id : Int) (rows cols : Nat) :
    Watched.Told ⟨(s.terminals id).getD (.new rows cols), s.page id⟩ := by
  cases hid : s.terminals id with
  | none => exact Watched.told_new rows cols _
  | some emu => exact h id emu hid

omit [Vt100 P] in
theorem Told.update {s : Pages P} (h : s.Told) (id : Int) {w : Watched P} (hw : w.Told) :
    Told ⟨Function.update s.terminals id (some w.emulator),
      Function.update s.page id w.display⟩ := by
  intro x emu hx
  dsimp only at hx ⊢
  by_cases hid : x = id
  · subst hid
    rw [Function.update_self] at hx ⊢
    obtain rfl := Option.some.inj hx
    exact hw
  · rw [Function.update_of_ne hid] at hx ⊢
    exact h x emu hx

theorem Told.call {s : Pages P} (h : s.Told) (c : TerminalCall) : (s.call c).Told := by
  cases c with
  | feed id bytes => exact h.update id ((h.getD id 24 80).call (.feed bytes))
  | resize id rows cols =>
    exact h.update id (((h.getD id rows cols).call (.resize rows cols)).call (.setView 0))
  | drop id =>
    intro x emu hx
    by_cases hid : x = id
    · subst hid
      simp [Pages.call, Terminals.dropTerminal] at hx
    · refine h x emu ?_
      simpa [Pages.call, Terminals.dropTerminal, Function.update_of_ne hid] using hx

/-- The same for the terminals of a session, through the calls its handler makes. -/
theorem page_after_feed (page : Int → Display) (cs : List TerminalCall) (id : Int)
    (bytes : List UInt8) :
    let s := (cs.foldl Pages.call (⟨fun _ => none, page⟩ : Pages P)).call (.feed id bytes)
    ∃ emu, s.terminals id = some emu ∧ s.page id = repaint (Vt100.screen emu.parser) := by
  have htold : (cs.foldl Pages.call (⟨fun _ => none, page⟩ : Pages P)).Told := by
    refine List.foldlRecOn cs Pages.call ?_ fun s hs c _ => hs.call c
    intro x emu hx
    cases hx
  refine ⟨_, Function.update_self .., ?_⟩
  exact (Function.update_self ..).trans (Watched.display_feed (htold.getD id 24 80) bytes)

end Pages

end HopToDesk.Client
