import Mathlib.Tactic

/-!
# Incremental decoders

A decoder that is handed a growing buffer is asked, over and over, for its next item. Each request
has one of three answers (`Pull`): an item with the buffer that is left, the news that more input
is needed, or a failure. `drain` repeats the request until one of the last two comes back, which
is the loop every reader of such a decoder runs.

The cut law. `Suspends` says that a request which stops for want of input loses nothing: asking
again from where it stopped, with more input, is asking from the start with all of it. A decoder
may have states in which that fails (one that passes on whatever is there, say), so the law is
asked of a set of states the requests stay in. From it `feed_eq_drain` follows: however a byte
string is cut into chunks, feeding the chunks one after the other and draining after each gives
the items and the end that draining the whole string gives.

Nothing here knows what the items are. A decoder that is suspended in the middle of an item keeps
what it has read in its own state or leaves it in the buffer; both are `Suspends`.
-/

set_option autoImplicit false

namespace Kit.Incremental

/-- What one request for an item answers. -/
inductive Pull (σ β ο ε : Type)
  | item (out : ο) (state : σ) (buf : List β)
  | more (state : σ) (buf : List β)
  | fail (err : ε)
deriving Repr, DecidableEq

/-- How a run of requests ends: waiting for input, or failed for good. -/
inductive Final (σ β ε : Type)
  | waiting (state : σ) (buf : List β)
  | failed (err : ε)
deriving Repr, DecidableEq

/-- A decoder: its request, and a size that every item makes smaller, so that draining a buffer
terminates by construction. -/
structure Decoder (σ β ο ε : Type) where
  pull : σ → List β → Pull σ β ο ε
  size : σ → List β → Nat
  item_lt : ∀ {s buf out s' buf'}, pull s buf = .item out s' buf' → size s' buf' < size s buf

variable {σ β ο ε : Type}

namespace Decoder

/-- Request items until none is left: the items in order, and how it ended. -/
def drain (d : Decoder σ β ο ε) (s : σ) (buf : List β) : List ο × Final σ β ε :=
  match _h : d.pull s buf with
  | .item out s' buf' => let r := d.drain s' buf'; (out :: r.1, r.2)
  | .more s' buf' => ([], .waiting s' buf')
  | .fail e => ([], .failed e)
termination_by d.size s buf
decreasing_by exact d.item_lt _h

/-- Feed chunks: append each to what is left and drain. A failure ends the run, and later chunks
are not read. -/
def feed (d : Decoder σ β ο ε) (s : σ) (buf : List β) : List (List β) → List ο × Final σ β ε
  | [] => ([], .waiting s buf)
  | c :: cs =>
    match d.drain s (buf ++ c) with
    | (outs, .waiting s' buf') => let r := d.feed s' buf' cs; (outs ++ r.1, r.2)
    | (outs, .failed e) => (outs, .failed e)

variable {d : Decoder σ β ο ε} {s s' : σ} {buf buf' : List β}

theorem drain_item {out : ο} (h : d.pull s buf = .item out s' buf') :
    d.drain s buf = (out :: (d.drain s' buf').1, (d.drain s' buf').2) := by
  rw [drain]
  split <;> rename_i heq <;> rw [h] at heq <;> cases heq
  rfl

theorem drain_more (h : d.pull s buf = .more s' buf') :
    d.drain s buf = ([], .waiting s' buf') := by
  rw [drain]
  split <;> rename_i heq <;> rw [h] at heq <;> cases heq
  rfl

theorem drain_fail {e : ε} (h : d.pull s buf = .fail e) : d.drain s buf = ([], .failed e) := by
  rw [drain]
  split <;> rename_i heq <;> rw [h] at heq <;> cases heq
  rfl

/-- The cut law, on the states that satisfy `I`: more input after the buffer leaves an item and a
failure as they are, and a request that stopped for want of input answers, asked again, what it
would have answered with all the input at once. -/
structure Suspends (d : Decoder σ β ο ε) (I : σ → Prop) : Prop where
  item_keeps : ∀ {s buf out s' buf'}, I s → d.pull s buf = .item out s' buf' → I s'
  more_keeps : ∀ {s buf s' buf'}, I s → d.pull s buf = .more s' buf' → I s'
  item_append : ∀ {s buf out s' buf'} (x : List β), I s → d.pull s buf = .item out s' buf' →
    d.pull s (buf ++ x) = .item out s' (buf' ++ x)
  fail_append : ∀ {s buf e} (x : List β), I s → d.pull s buf = .fail e →
    d.pull s (buf ++ x) = .fail e
  more_append : ∀ {s buf s' buf'} (x : List β), I s → d.pull s buf = .more s' buf' →
    d.pull s' (buf' ++ x) = d.pull s (buf ++ x)

/-- Draining depends on the state and buffer only through the request. -/
theorem drain_congr (h : d.pull s buf = d.pull s' buf') : d.drain s buf = d.drain s' buf' := by
  cases hp : d.pull s' buf' with
  | item out t rest => rw [drain_item (h.trans hp), drain_item hp]
  | more t rest => rw [drain_more (h.trans hp), drain_more hp]
  | fail e => rw [drain_fail (h.trans hp), drain_fail hp]

variable {I : σ → Prop}

/-- A drained state is one of the states the law speaks of. -/
theorem drain_keeps (hd : d.Suspends I) (s : σ) (buf : List β) (hI : I s) {outs : List ο} {t : σ}
    {rest : List β} (h : d.drain s buf = (outs, .waiting t rest)) : I t := by
  induction hn : d.size s buf using Nat.strongRecOn generalizing s buf outs with
  | ind n ih =>
    subst hn
    cases hp : d.pull s buf with
    | item out s' buf' =>
      rw [drain_item hp] at h
      obtain ⟨-, hfin⟩ := Prod.mk.inj h
      exact ih _ (d.item_lt hp) s' buf' (hd.item_keeps hI hp) (Prod.ext rfl hfin) rfl
    | more s' buf' =>
      rw [drain_more hp] at h
      cases h
      exact hd.more_keeps hI hp
    | fail e =>
      rw [drain_fail hp] at h
      cases h

/-- What a request keeps of the state and says of its item, draining says of every item. -/
theorem drain_forall {J : σ → Prop} {P : ο → Prop}
    (hitem : ∀ {s buf out s' buf'}, J s → d.pull s buf = .item out s' buf' → P out ∧ J s')
    (s : σ) (buf : List β) (hJ : J s) : ∀ out ∈ (d.drain s buf).1, P out := by
  induction hn : d.size s buf using Nat.strongRecOn generalizing s buf with
  | ind n ih =>
    subst hn
    cases hp : d.pull s buf with
    | item out s' buf' =>
      obtain ⟨hout, hs'⟩ := hitem hJ hp
      rw [drain_item hp]
      intro o ho
      rcases List.mem_cons.mp ho with rfl | ho
      · exact hout
      · exact ih _ (d.item_lt hp) s' buf' hs' rfl o ho
    | more s' buf' =>
      rw [drain_more hp]
      intro o ho
      exact absurd ho (by simp)
    | fail e =>
      rw [drain_fail hp]
      intro o ho
      exact absurd ho (by simp)

/-- Draining a buffer and, where it waits, going on with more input is draining both at once. -/
theorem drain_append (hd : d.Suspends I) (x : List β) (s : σ) (buf : List β) (hI : I s) :
    d.drain s (buf ++ x) =
      match d.drain s buf with
      | (outs, .waiting s' buf') =>
        (outs ++ (d.drain s' (buf' ++ x)).1, (d.drain s' (buf' ++ x)).2)
      | (outs, .failed e) => (outs, .failed e) := by
  induction hn : d.size s buf using Nat.strongRecOn generalizing s buf with
  | ind n ih =>
    subst hn
    cases hp : d.pull s buf with
    | item out s' buf' =>
      have ih' := ih _ (d.item_lt hp) s' buf' (hd.item_keeps hI hp) rfl
      rw [drain_item (hd.item_append x hI hp), drain_item hp, ih']
      cases hr : d.drain s' buf' with
      | mk outs fin => cases fin <;> rfl
    | more s' buf' =>
      rw [drain_more hp]
      exact drain_congr (hd.more_append x hI hp).symm
    | fail e => rw [drain_fail (hd.fail_append x hI hp), drain_fail hp]

/-- A drained buffer has nothing more to give. -/
theorem drain_waiting (hd : d.Suspends I) (s : σ) (buf : List β) (hI : I s) {outs : List ο}
    {t : σ} {rest : List β} (h : d.drain s buf = (outs, .waiting t rest)) :
    d.drain t rest = ([], .waiting t rest) := by
  have happ := drain_append hd [] s buf hI
  simp only [List.append_nil, h] at happ
  obtain ⟨houts, hfin⟩ := Prod.mk.inj happ
  exact Prod.ext (List.append_right_eq_self.mp houts.symm) hfin.symm

/-- **Cuts do not matter.** From a drained state, feeding chunks gives the items and the end that
draining their concatenation gives. -/
theorem feed_eq_drain (hd : d.Suspends I) (chunks : List (List β)) (s : σ) (buf : List β)
    (hI : I s) (hs : d.drain s buf = ([], .waiting s buf)) :
    d.feed s buf chunks = d.drain s (buf ++ chunks.flatten) := by
  induction chunks generalizing s buf with
  | nil => rw [feed, List.flatten_nil, List.append_nil, hs]
  | cons c cs ih =>
    rw [List.flatten_cons, ← List.append_assoc, drain_append hd cs.flatten s (buf ++ c) hI, feed]
    cases hc : d.drain s (buf ++ c) with
    | mk outs fin =>
      cases fin with
      | waiting t rest =>
        simp only [ih t rest (drain_keeps hd _ _ hI hc) (drain_waiting hd _ _ hI hc)]
      | failed e => rfl

end Decoder

end Kit.Incremental
