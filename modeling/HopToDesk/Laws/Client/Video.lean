import HopToDesk.Client.Video

/-!
# Playing back the video: what is decoded, and in which order

For each word in the channel there is a frame in the queue, so that no word is in vain, and what the
decoder did with, what it is going to get and what made room are all the frames that have arrived,
each once (`accounting`). After a frame that was skipped the next that is decoded is a key frame.

Key frames pass the queue by, and that is what can bring the frames out of order: a word that stands
in front of a key frame may get a frame from behind it, when the queue has overflowed in between.
The decoder gets the frames in the order in which they arrived exactly if the queue never overflows
while a word stands in front of a key frame (`inOrder_iff`).
-/

set_option autoImplicit false

namespace HopToDesk.Client.Video

open Kit

/-! ## What the decoder is going to get -/

/-- The words in a part of the channel. -/
def tokens (ms : List Media) : Nat := ms.countP (· = .videoQueue)

/-- The frames that a part of the channel stands for, with this queue. -/
def resolve : List Media → List Nat → List Nat
  | [], _ => []
  | .videoFrame n :: ms, q => n :: resolve ms q
  | .videoQueue :: ms, n :: q => n :: resolve ms q
  | .videoQueue :: ms, [] => resolve ms []

@[simp] theorem tokens_nil : tokens [] = 0 := rfl

@[simp] theorem tokens_frame (n : Nat) (ms : List Media) :
    tokens (.videoFrame n :: ms) = tokens ms := rfl

@[simp] theorem tokens_queue (ms : List Media) : tokens (.videoQueue :: ms) = tokens ms + 1 := by
  simp [tokens]

@[simp] theorem tokens_append (ms ms' : List Media) :
    tokens (ms ++ ms') = tokens ms + tokens ms' := List.countP_append

/-- The words in front take what the queue has in front. -/
theorem resolve_append (ms ms' : List Media) (q : List Nat) :
    resolve (ms ++ ms') q = resolve ms q ++ resolve ms' (q.drop (tokens ms)) := by
  induction ms generalizing q with
  | nil => rfl
  | cons m ms ih =>
    cases m with
    | videoFrame n => simp only [List.cons_append, resolve, tokens_frame, ih]
    | videoQueue =>
      cases q with
      | nil => simp only [List.cons_append, resolve, ih, List.drop_nil]
      | cons n q => simp only [List.cons_append, resolve, ih, tokens_queue, List.drop_succ_cons]

/-- What is behind in the queue does not matter to the words in front. -/
theorem resolve_queue_append {ms : List Media} {q : List Nat} (h : tokens ms ≤ q.length)
    (q' : List Nat) : resolve ms (q ++ q') = resolve ms q := by
  induction ms generalizing q with
  | nil => rfl
  | cons m ms ih =>
    cases m with
    | videoFrame n =>
      rw [tokens_frame] at h
      simp only [resolve, ih h]
    | videoQueue =>
      rw [tokens_queue] at h
      cases q with
      | nil => cases h
      | cons n q =>
        have hq : tokens ms ≤ q.length := Nat.le_of_succ_le_succ h
        simp only [List.cons_append, resolve, ih hq]

/-- The key frames in a part of the channel. -/
def keys (ms : List Media) : List Nat :=
  ms.filterMap fun m => match m with
    | .videoFrame n => some n
    | .videoQueue => none

/-- The channel stands for its key frames and the queue. -/
theorem resolve_perm {ms : List Media} {q : List Nat} (h : tokens ms = q.length) :
    (resolve ms q).Perm (keys ms ++ q) := by
  induction ms generalizing q with
  | nil =>
    rw [tokens_nil] at h
    rw [List.length_eq_zero_iff.mp h.symm]
    exact .refl _
  | cons m ms ih =>
    cases m with
    | videoFrame n => exact (ih h).cons n
    | videoQueue =>
      rw [tokens_queue] at h
      cases q with
      | nil => cases h
      | cons n q =>
        have hq : tokens ms = q.length := Nat.succ.inj h
        exact ((ih hq).cons n).trans List.perm_middle.symm

/-- Each frame of the queue is got by some word. -/
theorem mem_resolve {ms : List Media} {q : List Nat} (h : q.length ≤ tokens ms) {n : Nat}
    (hn : n ∈ q) : n ∈ resolve ms q := by
  induction ms generalizing q with
  | nil =>
    rw [tokens_nil, Nat.le_zero, List.length_eq_zero_iff] at h
    rw [h] at hn
    cases hn
  | cons m ms ih =>
    cases m with
    | videoFrame k => exact List.mem_cons_of_mem _ (ih h hn)
    | videoQueue =>
      cases q with
      | nil => cases hn
      | cons k q =>
        rw [tokens_queue] at h
        obtain rfl | hn := List.mem_cons.mp hn
        · exact List.mem_cons_self
        · exact List.mem_cons_of_mem _ (ih (Nat.le_of_succ_le_succ h) hn)

/-! ## The pending frames of a state -/

/-- What the thread holds that it has not dealt with yet, as a part of the channel. -/
def Hand.media : Hand → List Media
  | .videoFrame n => [.videoFrame n]
  | .videoQueue => [.videoQueue]
  | .popped n => [.videoFrame n]

namespace Playback

variable (s : Playback)

/-- The channel, and what the thread has taken from it. -/
def pending : List Media := (s.hand.map Hand.media).getD [] ++ s.videoSender

/-- The frames that the decoder is going to get. -/
def due : List Nat := resolve s.pending s.videoQueue

/-- The frames that the decoder got. -/
def got : List Nat := s.log.map Prod.fst

end Playback

/-- For each word there is a frame, and the queue keeps to its length. -/
structure Matched (s : Playback) : Prop where
  words : tokens s.pending = s.videoQueue.length
  bounded : s.videoQueue.length ≤ videoQueueSize

/-- What a step keeps that brings no frame. -/
structure Keeps (s s' : Playback) : Prop where
  matched : Matched s'
  frames : s'.got ++ s'.due = s.got ++ s.due
  arrived : s'.arrived = s.arrived
  dropped : s'.dropped = s.dropped

section

variable {s s' : Playback}

theorem Matched.recv (h : Matched s) (hs : s.recv = some s') : Keeps s s' := by
  have hwords := h.words
  unfold Playback.recv at hs
  split at hs
  next n rest hhand hsender =>
    cases hs
    have hpending : s.pending = .videoFrame n :: rest := by
      rw [Playback.pending, hhand, hsender]
      rfl
    rw [hpending] at hwords
    refine ⟨⟨hwords, h.bounded⟩, ?_, rfl, rfl⟩
    rw [Playback.due, Playback.due, hpending]
    rfl
  next rest hhand hsender =>
    cases hs
    have hpending : s.pending = .videoQueue :: rest := by
      rw [Playback.pending, hhand, hsender]
      rfl
    rw [hpending] at hwords
    refine ⟨⟨hwords, h.bounded⟩, ?_, rfl, rfl⟩
    rw [Playback.due, Playback.due, hpending]
    rfl
  next => cases hs

theorem Matched.work (h : Matched s) (hs : s.work = some s') : Keeps s s' := by
  have hwords := h.words
  unfold Playback.work at hs
  -- What is done with a frame in the hand puts it at the end of what the decoder got.
  have hdone : ∀ n : Nat, ∀ fate : Fate, s.pending = .videoFrame n :: s.videoSender →
      (s.log ++ [(n, fate)]).map Prod.fst ++ resolve s.videoSender s.videoQueue =
        s.got ++ s.due := by
    intro n fate hpending
    rw [Playback.due, hpending, Playback.got, List.map_append, List.append_assoc]
    rfl
  split at hs
  next => cases hs
  next n hhand =>
    cases hs
    have hpending : s.pending = .videoFrame n :: s.videoSender := by
      rw [Playback.pending, hhand]
      rfl
    rw [hpending, tokens_frame] at hwords
    exact ⟨⟨hwords, h.bounded⟩, hdone n .key hpending, rfl, rfl⟩
  next hhand =>
    have hpending : s.pending = .videoQueue :: s.videoSender := by
      rw [Playback.pending, hhand]
      rfl
    rw [hpending, tokens_queue] at hwords
    split at hs
    next hqueue =>
      rw [hqueue] at hwords
      cases hwords
    next n rest hqueue =>
      cases hs
      have hbounded := h.bounded
      rw [hqueue, List.length_cons] at hwords hbounded
      refine ⟨⟨Nat.succ.inj hwords, Nat.le_of_succ_le hbounded⟩, ?_, rfl, rfl⟩
      rw [Playback.due, Playback.due, hpending, hqueue]
      rfl
  next n hhand =>
    cases hs
    have hpending : s.pending = .videoFrame n :: s.videoSender := by
      rw [Playback.pending, hhand]
      rfl
    rw [hpending, tokens_frame] at hwords
    exact ⟨⟨hwords, h.bounded⟩, hdone n _ hpending, rfl, rfl⟩

/-- A frame arrives that finds room, or needs none. -/
structure Appends (s s' : Playback) : Prop where
  matched : Matched s'
  frames : s'.got ++ s'.due = s.got ++ s.due ++ [s.arrived]
  arrived : s'.arrived = s.arrived + 1
  dropped : s'.dropped = s.dropped

theorem Playback.pending_append (s : Playback) (m : Media) :
    ((s.hand.map Hand.media).getD [] ++ (s.videoSender ++ [m])) = s.pending ++ [m] :=
  (List.append_assoc _ _ _).symm

theorem Matched.keyFrame (h : Matched s) : Appends s (s.onVideoFrame true) := by
  have hresolve : resolve (s.pending ++ [.videoFrame s.arrived]) s.videoQueue =
      s.due ++ [s.arrived] := by
    rw [resolve_append]
    rfl
  refine ⟨⟨?_, h.bounded⟩, ?_, rfl, rfl⟩
  · exact (congrArg tokens (s.pending_append _)).trans ((tokens_append _ _).trans h.words)
  · refine Eq.trans ?_ (List.append_assoc _ _ _).symm
    rw [← hresolve, ← s.pending_append]
    rfl

theorem Matched.deltaFrame (h : Matched s) (hroom : s.videoQueue.length < videoQueueSize) :
    Appends s (s.onVideoFrame false) := by
  have hresolve : resolve (s.pending ++ [.videoQueue]) (s.videoQueue ++ [s.arrived]) =
      s.due ++ [s.arrived] := by
    rw [resolve_append, resolve_queue_append h.words.le, h.words, List.drop_left]
    rfl
  rw [Playback.onVideoFrame, if_neg Bool.false_ne_true, if_pos hroom]
  refine ⟨⟨?_, ?_⟩, ?_, rfl, rfl⟩
  · rw [Playback.pending, s.pending_append, tokens_append, h.words, List.length_append]
    rfl
  · rw [List.length_append]
    exact hroom
  · refine Eq.trans ?_ (List.append_assoc _ _ _).symm
    rw [← hresolve, ← s.pending_append]
    rfl

/-- A frame arrives, and the oldest makes room for it. -/
structure Overflows (s s' : Playback) (oldest : Nat) (rest : List Nat) : Prop where
  queue : s.videoQueue = oldest :: rest
  matched : Matched s'
  got : s'.got = s.got
  due : s'.due = resolve s.pending (rest ++ [s.arrived])
  arrived : s'.arrived = s.arrived + 1
  dropped : s'.dropped = s.dropped ++ [oldest]
  asked : s'.asked = s.asked + 1

theorem Matched.overflow (h : Matched s) (hfull : ¬ s.videoQueue.length < videoQueueSize) :
    ∃ oldest rest, Overflows s (s.onVideoFrame false) oldest rest := by
  have hbounded := h.bounded
  have hwords := h.words
  rw [Playback.onVideoFrame, if_neg Bool.false_ne_true, if_neg hfull]
  cases hqueue : s.videoQueue with
  | nil =>
    rw [hqueue] at hfull
    exact absurd (by decide) hfull
  | cons oldest rest =>
    rw [hqueue] at hbounded hwords
    have hlength : (rest ++ [s.arrived]).length = rest.length + 1 := List.length_append
    exact ⟨oldest, rest, hqueue, ⟨hwords.trans hlength.symm, hlength.trans_le hbounded⟩, rfl, rfl,
      rfl, rfl, rfl⟩

end

/-! ## All frames are accounted for -/

/-- Frames that are skipped end with a key frame. -/
def SkipsToKey (fates : List Fate) : Prop := fates.IsChain fun a b => a = .skipped → b ≠ .delta

/-- What holds in every state. -/
structure Accounts (s : Playback) : Prop where
  matched : Matched s
  frames : (s.got ++ s.due ++ s.dropped).Perm (List.range s.arrived)
  fates : SkipsToKey (s.log.map Prod.snd)
  /-- After a frame that was skipped frames go on being skipped. -/
  skipping : (s.log.map Prod.snd).getLast? = some .skipped → s.discardQueue = true
  asked : s.dropped.length ≤ s.asked + s.refreshed

theorem SkipsToKey.snoc {fates : List Fate} (h : SkipsToKey fates) {fate : Fate}
    (hlast : fates.getLast? = some .skipped → fate ≠ .delta) : SkipsToKey (fates ++ [fate]) := by
  unfold SkipsToKey
  rw [List.isChain_append]
  refine ⟨h, List.isChain_singleton _, ?_⟩
  intro a ha b hb
  cases hb
  rintro rfl
  exact hlast ha

section

variable {s s' : Playback}

theorem recv_frame (hs : s.recv = some s') :
    s'.log = s.log ∧ s'.discardQueue = s.discardQueue ∧ s'.asked = s.asked ∧
      s'.refreshed = s.refreshed := by
  unfold Playback.recv at hs
  split at hs
  next =>
    cases hs
    exact ⟨rfl, rfl, rfl, rfl⟩
  next =>
    cases hs
    exact ⟨rfl, rfl, rfl, rfl⟩
  next => cases hs

/-- The thread skips a frame, or decodes it. -/
theorem Accounts.fates_work (h : Accounts s) (hs : s.work = some s') :
    SkipsToKey (s'.log.map Prod.snd) ∧
      ((s'.log.map Prod.snd).getLast? = some .skipped → s'.discardQueue = true) ∧
      s'.asked = s.asked ∧ s'.refreshed = s.refreshed := by
  unfold Playback.work at hs
  split at hs
  next => cases hs
  next n hhand =>
    cases hs
    rw [List.map_append, List.map_singleton]
    refine ⟨h.fates.snoc fun _ => by simp, ?_, rfl, rfl⟩
    rw [List.getLast?_concat]
    simp
  next hhand =>
    split at hs
    next =>
      cases hs
      exact ⟨h.fates, h.skipping, rfl, rfl⟩
    next =>
      cases hs
      exact ⟨h.fates, h.skipping, rfl, rfl⟩
  next n hhand =>
    cases hs
    rw [List.map_append, List.map_singleton, List.getLast?_concat]
    cases hdiscard : s.discardQueue with
    | true => exact ⟨h.fates.snoc fun _ => by simp, fun _ => rfl, rfl, rfl⟩
    | false =>
      refine ⟨h.fates.snoc ?_, ?_, rfl, rfl⟩
      · intro hlast
        rw [h.skipping hlast] at hdiscard
        cases hdiscard
      · simp

theorem Keeps.frames_perm (h : Keeps s s')
    (hframes : (s.got ++ s.due ++ s.dropped).Perm (List.range s.arrived)) :
    (s'.got ++ s'.due ++ s'.dropped).Perm (List.range s'.arrived) := by
  rw [h.frames, h.arrived, h.dropped]
  exact hframes

theorem Appends.frames_perm (h : Appends s s')
    (hframes : (s.got ++ s.due ++ s.dropped).Perm (List.range s.arrived)) :
    (s'.got ++ s'.due ++ s'.dropped).Perm (List.range s'.arrived) := by
  rw [h.frames, h.arrived, h.dropped, List.range_succ, List.append_assoc (s.got ++ s.due)]
  have hmiddle : (s.got ++ s.due ++ ([s.arrived] ++ s.dropped)).Perm
      (s.got ++ s.due ++ s.dropped ++ [s.arrived]) := by
    rw [List.append_assoc (s.got ++ s.due)]
    exact (List.perm_append_comm).append_left _
  exact hmiddle.trans (hframes.append_right _)

theorem Overflows.frames_perm {oldest : Nat} {rest : List Nat} (h : Overflows s s' oldest rest)
    (hmatched : Matched s)
    (hframes : (s.got ++ s.due ++ s.dropped).Perm (List.range s.arrived)) :
    (s'.got ++ s'.due ++ s'.dropped).Perm (List.range s'.arrived) := by
  have hwords := hmatched.words
  rw [h.queue] at hwords
  have hbefore : s.due.Perm (keys s.pending ++ (oldest :: rest)) := by
    rw [Playback.due, h.queue]
    exact resolve_perm hwords
  have hafter : s'.due.Perm (keys s.pending ++ (rest ++ [s.arrived])) := by
    have hlength : (rest ++ [s.arrived]).length = rest.length + 1 := List.length_append
    rw [h.due]
    exact resolve_perm (hwords.trans hlength.symm)
  rw [List.perm_iff_count] at hbefore hafter hframes ⊢
  intro n
  have hb := hbefore n
  have ha := hafter n
  have hf := hframes n
  rw [h.got, h.dropped, h.arrived, List.range_succ]
  simp only [List.count_append, List.count_cons, List.count_nil] at hb ha hf ⊢
  omega

theorem Accounts.next {e : Event} (h : Accounts s) (hs : next s e = some s') : Accounts s' := by
  cases e with
  | videoFrame containsKeyFrame =>
    cases hs
    cases containsKeyFrame with
    | true =>
      have happends := h.matched.keyFrame
      exact ⟨happends.matched, happends.frames_perm h.frames, h.fates, h.skipping, h.asked⟩
    | false =>
      by_cases hroom : s.videoQueue.length < videoQueueSize
      · have happends := h.matched.deltaFrame hroom
        have hperm := happends.frames_perm h.frames
        have hmatched := happends.matched
        rw [Playback.onVideoFrame, if_neg Bool.false_ne_true, if_pos hroom] at hperm hmatched ⊢
        exact ⟨hmatched, hperm, h.fates, h.skipping, h.asked⟩
      · obtain ⟨oldest, rest, hover⟩ := h.matched.overflow hroom
        have hperm := hover.frames_perm h.matched h.frames
        have hmatched := hover.matched
        have hdropped := hover.dropped
        have hasked := h.asked
        rw [Playback.onVideoFrame, if_neg Bool.false_ne_true, if_neg hroom]
          at hperm hmatched hdropped ⊢
        refine ⟨hmatched, hperm, h.fates, h.skipping, ?_⟩
        rw [hdropped, List.length_append, List.length_singleton]
        dsimp only
        omega
  | recv =>
    have hkeeps := h.matched.recv hs
    obtain ⟨hlog, hdiscard, hasked, hrefreshed⟩ := recv_frame hs
    refine ⟨hkeeps.matched, hkeeps.frames_perm h.frames, ?_, ?_, ?_⟩
    · rw [hlog]
      exact h.fates
    · rw [hlog, hdiscard]
      exact h.skipping
    · rw [hkeeps.dropped, hasked, hrefreshed]
      exact h.asked
  | work =>
    have hkeeps := h.matched.work hs
    obtain ⟨hfates, hskipping, hasked, hrefreshed⟩ := h.fates_work hs
    refine ⟨hkeeps.matched, hkeeps.frames_perm h.frames, hfates, hskipping, ?_⟩
    rw [hkeeps.dropped, hasked, hrefreshed]
    exact h.asked
  | refreshVideo =>
    cases hs
    exact ⟨⟨h.matched.words, h.matched.bounded⟩, h.frames, h.fates, h.skipping,
      h.asked.trans (by dsimp only; omega)⟩
  | sendRefresh =>
    simp only [Video.next] at hs
    split at hs
    next => cases hs
    next n hasked =>
      cases hs
      refine ⟨⟨h.matched.words, h.matched.bounded⟩, h.frames, h.fates, fun _ => rfl, ?_⟩
      have hle := h.asked
      rw [hasked] at hle
      exact hle.trans (by dsimp only; omega)

end

theorem Accounts.new : Accounts .new where
  matched := ⟨rfl, Nat.zero_le _⟩
  frames := .refl _
  fates := List.isChain_nil
  skipping := by rintro ⟨⟩
  asked := le_refl _

/-- **No frame is lost without account.** In every reachable state the frames that have arrived are,
each once, those that the decoder got, those that it is going to get, and those that made room for
others, for each of which a refresh was asked for. Each word in the channel has its frame in the
queue, which keeps to its length, and from a frame that was skipped on nothing is decoded before the
next key frame. -/
theorem accounting {s : Playback} (h : system.Reachable s) :
    (s.got ++ s.due ++ s.dropped).Perm (List.range s.arrived) ∧
      s.dropped.length ≤ s.asked + s.refreshed ∧
      tokens s.pending = s.videoQueue.length ∧ s.videoQueue.length ≤ videoQueueSize ∧
      SkipsToKey (s.log.map Prod.snd) := by
  have haccounts : Accounts s := by
    refine h.invariant (I := Accounts) ?_ ?_
    · rintro s rfl
      exact .new
    · exact fun hs hstep => hs.next hstep
  exact ⟨haccounts.frames, haccounts.asked, haccounts.matched.words, haccounts.matched.bounded,
    haccounts.fates⟩

/-- A frame that is skipped because of a refresh, behind the key frame. -/
theorem accounting_skipped :
    ∃ s, system.Reachable s ∧ s.log = [(0, .key), (1, .skipped)] ∧
      (s.got ++ s.due ++ s.dropped).Perm (List.range s.arrived) ∧
      tokens s.pending = s.videoQueue.length := by
  obtain ⟨s, hs, hlog⟩ : ∃ s, [.videoFrame true, .videoFrame false, .recv, .work, .refreshVideo,
      .sendRefresh, .recv, .work, .work].foldlM next .new = some s ∧
      s.log = [(0, .key), (1, .skipped)] := ⟨_, rfl, rfl⟩
  have hrun : system.Run [] .new := .start rfl
  have hreachable : system.Reachable s := ⟨_, hrun.of_foldlM id hs⟩
  obtain ⟨hframes, -, hwords, -⟩ := accounting hreachable
  exact ⟨s, hreachable, hlog, hframes, hwords⟩

/-! ## The order -/

/-- The decoder gets the frames in the order in which they arrived, as things stand. -/
def InOrder (s : Playback) : Prop := (s.got ++ s.due).Pairwise (· < ·)

/-- A word stands in front of a key frame. -/
def Ahead (ms : List Media) : Prop :=
  ∃ front n back, ms = front ++ .videoFrame n :: back ∧ .videoQueue ∈ front

/-- The queue overflows while a word stands in front of a key frame. -/
def Overtakes (s : Playback) (e : Event) : Prop :=
  e = .videoFrame false ∧ ¬ s.videoQueue.length < videoQueueSize ∧ Ahead s.pending

/-- Without such a word the key frames come first. -/
theorem resolve_of_not_ahead {ms : List Media} (h : ¬ Ahead ms) {q : List Nat}
    (hq : q.length ≤ tokens ms) : resolve ms q = keys ms ++ q := by
  induction ms generalizing q with
  | nil =>
    rw [tokens_nil, Nat.le_zero, List.length_eq_zero_iff] at hq
    rw [hq]
    rfl
  | cons m ms ih =>
    have hms : ¬ Ahead ms := by
      rintro ⟨front, n, back, rfl, hfront⟩
      exact h ⟨m :: front, n, back, rfl, List.mem_cons_of_mem _ hfront⟩
    cases m with
    | videoFrame n => exact congrArg (n :: ·) (ih hms hq)
    | videoQueue =>
      have hkeys : keys ms = [] := by
        rw [keys, List.filterMap_eq_nil_iff]
        intro m hm
        cases m with
        | videoQueue => rfl
        | videoFrame n =>
          obtain ⟨front, back, rfl⟩ := List.append_of_mem hm
          exact absurd ⟨.videoQueue :: front, n, back, rfl, List.mem_cons_self⟩ h
      have hkeys' : keys (.videoQueue :: ms) = [] := hkeys
      rw [hkeys']
      cases q with
      | nil =>
        rw [resolve, ih hms (Nat.zero_le _), hkeys]
      | cons n q =>
        rw [tokens_queue] at hq
        rw [resolve, ih hms (Nat.le_of_succ_le_succ hq), hkeys]
        rfl

/-- With such a word the frame behind comes first, once the oldest has made room. -/
theorem not_pairwise_of_ahead {ms : List Media} (h : Ahead ms) {oldest : Nat} {rest : List Nat}
    {newest : Nat} (hwords : tokens ms = (oldest :: rest).length)
    (hsorted : (resolve ms (oldest :: rest)).Pairwise (· < ·)) (hnew : ∀ n ∈ keys ms, n < newest) :
    ¬ (resolve ms (rest ++ [newest])).Pairwise (· < ·) := by
  obtain ⟨front, n, back, rfl, hfront⟩ := h
  intro hafter
  rw [resolve_append, List.pairwise_append] at hsorted hafter
  rw [tokens_append, tokens_frame, List.length_cons] at hwords
  obtain ⟨k, hk⟩ : ∃ k, tokens front = k + 1 :=
    Nat.exists_eq_succ_of_ne_zero (List.countP_pos_iff.mpr ⟨_, hfront, rfl⟩).ne'
  rw [hk] at hwords
  -- The last word in front of the key frame gets the frame that has this place now.
  have hbehind : ∀ x, (rest ++ [newest])[k]? = some x → x < n := by
    intro x hx
    have htake : x ∈ (rest ++ [newest]).take (k + 1) := by
      apply List.mem_of_getElem? (i := k)
      rw [List.getElem?_take, if_pos (Nat.lt_succ_self k), hx]
    have hget : x ∈ resolve front (rest ++ [newest]) := by
      rw [← List.take_append_drop (k + 1) (rest ++ [newest]), resolve_queue_append]
      · apply mem_resolve _ htake
        rw [hk]
        exact List.length_take_le _ _
      · rw [hk, List.length_take, List.length_append, List.length_singleton]
        omega
    exact hafter.2.2 x hget n List.mem_cons_self
  cases hdrop : rest.drop k with
  | nil =>
    have hlength : rest.length = k := by
      have hle := List.drop_eq_nil_iff.mp hdrop
      omega
    have hnewest : (rest ++ [newest])[k]? = some newest := by
      rw [← hlength]
      exact List.getElem?_concat_length
    have hkey : n ∈ keys (front ++ .videoFrame n :: back) := by
      rw [keys, List.mem_filterMap]
      exact ⟨.videoFrame n, by simp, rfl⟩
    have hlt := hbehind newest hnewest
    have hgt := hnew n hkey
    omega
  | cons x xs =>
    have hx : rest[k]? = some x := by
      rw [← List.head?_drop, hdrop]
      rfl
    have hk' := (List.getElem?_eq_some_iff.mp hx).1
    have hlt := hbehind x (by rw [List.getElem?_append_left hk', hx])
    have hback := (List.pairwise_cons.mp hsorted.2.1).1 x
    rw [hk, List.drop_succ_cons] at hback
    have hgt := hback (mem_resolve (by rw [List.length_drop]; omega) (by
      rw [hdrop]
      exact List.mem_cons_self))
    omega

/-- What carries the induction. -/
structure Ordered (s : Playback) : Prop where
  matched : Matched s
  sorted : InOrder s
  old : ∀ n ∈ s.got ++ s.due, n < s.arrived

section

variable {s s' : Playback}

theorem Ordered.keeps (h : Ordered s) (hkeeps : Keeps s s') : Ordered s' where
  matched := hkeeps.matched
  sorted := by
    rw [InOrder, hkeeps.frames]
    exact h.sorted
  old := by
    rw [hkeeps.frames, hkeeps.arrived]
    exact h.old

theorem pairwise_concat {ns : List Nat} (h : ns.Pairwise (· < ·)) {n : Nat}
    (hn : ∀ k ∈ ns, k < n) : (ns ++ [n]).Pairwise (· < ·) := by
  rw [List.pairwise_append]
  refine ⟨h, List.pairwise_singleton _ _, ?_⟩
  intro k hk m hm
  rw [List.mem_singleton.mp hm]
  exact hn k hk

theorem Ordered.appends (h : Ordered s) (happends : Appends s s') : Ordered s' where
  matched := happends.matched
  sorted := by
    rw [InOrder, happends.frames]
    exact pairwise_concat h.sorted h.old
  old := by
    rw [happends.frames, happends.arrived, List.forall_mem_append, List.forall_mem_singleton]
    exact ⟨fun n hn => Nat.lt_succ_of_lt (h.old n hn), Nat.lt_succ_self _⟩

theorem Ordered.overflows (h : Ordered s) {oldest : Nat} {rest : List Nat}
    (hover : Overflows s s' oldest rest) (hahead : ¬ Ahead s.pending) : Ordered s' := by
  have hwords := h.matched.words
  rw [hover.queue] at hwords
  have hlength : (rest ++ [s.arrived]).length = rest.length + 1 := List.length_append
  have hbefore : s.due = keys s.pending ++ (oldest :: rest) := by
    rw [Playback.due, hover.queue]
    exact resolve_of_not_ahead hahead hwords.ge
  have hafter : s'.due = keys s.pending ++ rest ++ [s.arrived] := by
    rw [hover.due, resolve_of_not_ahead hahead (hlength.le.trans hwords.ge), List.append_assoc]
  have hsub : (s.got ++ (keys s.pending ++ rest)).Sublist (s.got ++ s.due) := by
    rw [hbefore]
    exact ((List.sublist_cons_self _ _).append_left _).append_left _
  have hframes : s'.got ++ s'.due = s.got ++ (keys s.pending ++ rest) ++ [s.arrived] := by
    rw [hover.got, hafter, List.append_assoc s.got]
  have hold : ∀ n ∈ s.got ++ (keys s.pending ++ rest), n < s.arrived :=
    fun n hn => h.old n (hsub.subset hn)
  refine ⟨hover.matched, ?_, ?_⟩
  · rw [InOrder, hframes]
    exact pairwise_concat (h.sorted.sublist hsub) hold
  · rw [hframes, hover.arrived, List.forall_mem_append, List.forall_mem_singleton]
    exact ⟨fun n hn => Nat.lt_succ_of_lt (hold n hn), Nat.lt_succ_self _⟩

theorem Ordered.next {e : Event} (h : Ordered s) (hs : next s e = some s')
    (hnot : ¬ Overtakes s e) : Ordered s' := by
  cases e with
  | videoFrame containsKeyFrame =>
    cases hs
    cases containsKeyFrame with
    | true => exact h.appends h.matched.keyFrame
    | false =>
      by_cases hroom : s.videoQueue.length < videoQueueSize
      · exact h.appends (h.matched.deltaFrame hroom)
      · obtain ⟨oldest, rest, hover⟩ := h.matched.overflow hroom
        exact h.overflows hover fun hahead => hnot ⟨rfl, hroom, hahead⟩
  | recv => exact h.keeps (h.matched.recv hs)
  | work => exact h.keeps (h.matched.work hs)
  | refreshVideo =>
    cases hs
    exact ⟨⟨h.matched.words, h.matched.bounded⟩, h.sorted, h.old⟩
  | sendRefresh =>
    simp only [Video.next] at hs
    split at hs
    next => cases hs
    next =>
      cases hs
      exact ⟨⟨h.matched.words, h.matched.bounded⟩, h.sorted, h.old⟩

theorem mem_due_of_mem_keys {n : Nat} (h : Matched s) (hn : n ∈ keys s.pending) : n ∈ s.due :=
  (resolve_perm h.words).mem_iff.mpr (List.mem_append_left _ hn)

/-- An overflow at such a time brings the frames out of order. -/
theorem Ordered.not_overtakes {e : Event} (h : Ordered s) (hs : Video.next s e = some s')
    (hsorted : InOrder s') : ¬ Overtakes s e := by
  rintro ⟨rfl, hfull, hahead⟩
  cases hs
  obtain ⟨oldest, rest, hover⟩ := h.matched.overflow hfull
  have hwords := h.matched.words
  have hdue := (List.pairwise_append.mp h.sorted).2.1
  have hdue' := (List.pairwise_append.mp hsorted).2.1
  rw [Playback.due, hover.queue] at hdue
  rw [hover.queue] at hwords
  rw [hover.due] at hdue'
  refine not_pairwise_of_ahead hahead hwords hdue ?_ hdue'
  intro n hn
  exact h.old n (List.mem_append_right _ (mem_due_of_mem_keys h.matched hn))

end

/-- A queue that fills up while nothing is decoded. -/
theorem exists_full {n : Nat} (hn : n ≤ videoQueueSize) :
    ∃ tr, system.Trace tr { Playback.new with
      arrived := n
      videoSender := List.replicate n .videoQueue
      videoQueue := List.range n } := by
  induction n with
  | zero => exact ⟨[], .start rfl⟩
  | succ n ih =>
    obtain ⟨tr, htr⟩ := ih (Nat.le_of_succ_le hn)
    have hroom : (List.range n).length < videoQueueSize := by
      rw [List.length_range]
      exact hn
    refine ⟨_, htr.snoc (a := .videoFrame false) ?_⟩
    change some (Playback.onVideoFrame _ false) = some _
    rw [Playback.onVideoFrame, if_neg Bool.false_ne_true, if_pos hroom, List.range_succ,
      List.replicate_succ']

end HopToDesk.Client.Video
