import HopToDesk.Host.LinkDashboard
import Mathlib.Data.List.Pairwise
import Mathlib.Tactic.Cases

/-!
# Linking: what the user agrees to

The questions stand in one line, from the connection to the answers, with the oldest in front
(`Lined`). So an answer meets the request it is about as long as that is not given up before. Where
it is, the answer meets whatever the connection keeps by then, and a yes links the host with a code
that its user was not asked about (`matched_iff`, `not_consented`).
-/

set_option autoImplicit false

namespace HopToDesk.Host.LinkDashboard

open Kit

variable {s s' : Parties}

/-! ## What the connection does -/

namespace Connection

variable {self : Connection}

/-- A request is refused, or it is kept while there is no other. -/
theorem handleLinkDashboardRequest_cases (validate : Text → Option Invite) (now : Nat)
    (inviteCode : Text) :
    (∃ reason, self.handleLinkDashboardRequest validate now inviteCode =
      (self, none, some ⟨false, reason⟩)) ∨
    self.pendingLinkInviteCode = none ∧ ∃ accountName existingAccountName,
      self.handleLinkDashboardRequest validate now inviteCode =
        ({ self with pendingLinkInviteCode := some inviteCode.trim,
                     pendingLinkRequestAt := some now },
          some (.linkDashboardIncoming accountName existingAccountName), none) := by
  unfold handleLinkDashboardRequest
  dsimp only
  split
  next => exact .inl ⟨_, rfl⟩
  next =>
    split
    next => exact .inl ⟨_, rfl⟩
    next hnone =>
      split
      next => exact .inl ⟨_, rfl⟩
      next =>
        split
        next => exact .inl ⟨_, rfl⟩
        next => exact .inr ⟨Option.not_isSome_iff_eq_none.mp hnone, _, _, rfl⟩

/-- After an answer nothing is kept, and what was kept is linked if the answer is yes. -/
theorem handleLinkDashboardResponse_spec (enrolment : Enrolment) (accepted : Bool) :
    ∃ options response, self.handleLinkDashboardResponse enrolment accepted =
      (⟨none, none, options⟩, if accepted then self.pendingLinkInviteCode else none, response) := by
  unfold handleLinkDashboardResponse
  dsimp only
  cases accepted with
  | false => exact ⟨_, _, rfl⟩
  | true =>
    cases self.pendingLinkInviteCode with
    | none => exact ⟨_, _, rfl⟩
    | some code =>
      cases enrolment.linked with
      | false => exact ⟨_, _, rfl⟩
      | true => exact ⟨_, _, rfl⟩

/-- What is kept is given up now. -/
def GivesUp (self : Connection) (now : Nat) : Prop :=
  ∃ started, self.pendingLinkRequestAt = some started ∧ Expired now started

theorem maybeTimeout_of_givesUp {now : Nat} (h : self.GivesUp now) :
    self.maybeTimeoutPendingLinkDashboard now =
      ({ self with pendingLinkInviteCode := none, pendingLinkRequestAt := none },
        some .linkDashboardTimeout, some ⟨false, "timeout"⟩) := by
  obtain ⟨started, hstarted, hexpired⟩ := h
  unfold maybeTimeoutPendingLinkDashboard
  rw [hstarted]
  exact if_pos hexpired

theorem maybeTimeout_of_not_givesUp {now : Nat} (h : ¬ self.GivesUp now) :
    self.maybeTimeoutPendingLinkDashboard now = (self, none, none) := by
  unfold maybeTimeoutPendingLinkDashboard
  split
  next started hstarted => exact if_neg fun hexpired => h ⟨started, hstarted, hexpired⟩
  next => rfl

end Connection

/-! ## What one event does -/

/-- What an event leaves of the parties. -/
inductive Does (s : Parties) : Event → Parties → Prop
  | refuses {validate : Text → Option Invite} {now : Nat} {inviteCode : Text}
      (response : LinkDashboardResponse) :
      Does s (.request validate now inviteCode)
        { s with received := s.received + 1, toPeer := s.toPeer ++ [response] }
  | keeps {validate : Text → Option Invite} {now : Nat} {inviteCode : Text}
      (accountName existingAccountName : Text)
      (hnone : s.connection.pendingLinkInviteCode = none) :
      Does s (.request validate now inviteCode)
        { s with
          connection := { s.connection with pendingLinkInviteCode := some inviteCode.trim,
                                            pendingLinkRequestAt := some now }
          toCm := s.toCm ++ [(⟨s.kept + 1, inviteCode.trim⟩,
            .linkDashboardIncoming accountName existingAccountName)]
          received := s.received + 1
          kept := s.kept + 1 }
  | givesUp {now : Nat} (hgives : s.connection.GivesUp now) :
      Does s (.tick now)
        { s with
          connection := { s.connection with pendingLinkInviteCode := none,
                                            pendingLinkRequestAt := none }
          toCm := s.toCm ++ [(s.last, .linkDashboardTimeout)]
          toPeer := s.toPeer ++ [⟨false, "timeout"⟩] }
  | waits {now : Nat} (hgives : ¬ s.connection.GivesUp now) : Does s (.tick now) s
  | cmTakes {r : Request} {data : ToCm} {toCm : List (Request × ToCm)}
      (hcm : s.toCm = (r, data) :: toCm) :
      Does s .cmTakes
        { s with toCm, cm := .handle data, toPage := s.toPage ++ [(r, .handle data)] }
  | pageTakes {r : Request} {client : CmClient} {toPage : List (Request × CmClient)}
      (hpage : s.toPage = (r, client) :: toPage) :
      Does s .pageTakes { s with toPage, page := .update client, shown := r }
  | pageDrops {x : Request × CmClient} {toPage : List (Request × CmClient)}
      (hpage : s.toPage = x :: toPage) : Does s .pageDrops { s with toPage }
  | answers {accepted : Bool} (hasks : s.page.incomingLinkDashboard = true) :
      Does s (.answer accepted)
        { s with
          page := { s.page with incomingLinkDashboard := false }
          answers := s.answers ++ [(s.shown, accepted)]
          cm := s.cm.answered }
  | connectionTakes {enrolment : Enrolment} {r : Request} {accepted : Bool}
      {answers : List (Request × Bool)} (options : Options) (response : LinkDashboardResponse)
      (hanswers : s.answers = (r, accepted) :: answers) :
      Does s (.connectionTakes enrolment)
        { s with
          connection := ⟨none, none, options⟩
          answers
          toPeer := s.toPeer ++ [response]
          met := s.met ++ [⟨s.waiting, r, accepted⟩]
          linked := s.linked ++
            ((if accepted then s.connection.pendingLinkInviteCode else none).map (·, r)).toList }

theorem does_of_next {e : Event} (hs : next s e = some s') : Does s e s' := by
  cases e with
  | request validate now inviteCode =>
    rcases s.connection.handleLinkDashboardRequest_cases validate now inviteCode with
      ⟨reason, hcase⟩ | ⟨hnone, accountName, existingAccountName, hcase⟩
    · simp only [next, hcase, Option.map_none, Option.toList_none, List.append_nil] at hs
      cases hs
      exact .refuses _
    · simp only [next, hcase, Option.map_some, Option.toList_none, List.append_nil] at hs
      cases hs
      exact .keeps accountName existingAccountName hnone
  | tick now =>
    by_cases hgives : s.connection.GivesUp now
    · simp only [next, Connection.maybeTimeout_of_givesUp hgives] at hs
      cases hs
      exact .givesUp hgives
    · simp only [next, Connection.maybeTimeout_of_not_givesUp hgives, Option.map_none,
        Option.toList_none, List.append_nil] at hs
      cases hs
      exact .waits hgives
  | cmTakes =>
    simp only [next] at hs
    split at hs
    next => cases hs
    next hcm =>
      cases hs
      exact .cmTakes hcm
  | pageTakes =>
    simp only [next] at hs
    split at hs
    next => cases hs
    next hpage =>
      cases hs
      exact .pageTakes hpage
  | pageDrops =>
    simp only [next] at hs
    split at hs
    next => cases hs
    next hpage =>
      cases hs
      exact .pageDrops hpage
  | answer accepted =>
    simp only [next] at hs
    split at hs
    next hasks =>
      cases hs
      exact .answers hasks
    next => cases hs
  | connectionTakes enrolment =>
    simp only [next] at hs
    split at hs
    next => cases hs
    next r accepted answers hanswers =>
      obtain ⟨options, response, hcase⟩ :=
        s.connection.handleLinkDashboardResponse_spec enrolment accepted
      simp only [hcase] at hs
      cases hs
      exact .connectionTakes options response hanswers

/-! ## The line of questions -/

namespace Parties

/-- What the page is going to be told. -/
def coming (s : Parties) : List (Request × CmClient) :=
  s.toPage ++ s.toCm.map fun x => (x.1, CmClient.handle x.2)

end Parties

/-- The requests that the page is asked to ask about. -/
def asking (coming : List (Request × CmClient)) : List Nat :=
  (coming.filter (·.2.incomingLinkDashboard)).map (·.1.number)

theorem asking_cons (r : Request) (client : CmClient) (l : List (Request × CmClient)) :
    asking ((r, client) :: l) =
      (if client.incomingLinkDashboard then [r.number] else []) ++ asking l := by
  unfold asking
  cases hclient : client.incomingLinkDashboard with
  | true => simp [hclient]
  | false => simp [hclient]

theorem asking_sublist {l l' : List (Request × CmClient)} (h : l.Sublist l') :
    (asking l).Sublist (asking l') := (h.filter _).map _

namespace Parties

/-- What the page asks. -/
def asked (s : Parties) : List Nat := if s.page.incomingLinkDashboard then [s.shown.number] else []

/-- All questions, the oldest in front. -/
def line (s : Parties) : List Nat :=
  s.answers.map (·.1.number) ++ (s.asked ++ asking s.coming)

/-- An answer has met the request it is about. -/
def Matched (s : Parties) : Prop := ∀ m ∈ s.met, m.waiting = some m.answered

/-- The host was linked only with codes that its user had said yes to. -/
def Consented (s : Parties) : Prop :=
  ∀ x ∈ s.linked, x.2.inviteCode = x.1 ∧ ⟨some x.2, x.2, true⟩ ∈ s.met

/-- The answers have met what they are about, and those under way will if nothing is given up. -/
def OnTime (s : Parties) : Prop := s.Matched ∧ ∀ a ∈ s.answers, s.waiting = some a.1

end Parties

/-- A step at which an answer comes too late: what it is about is given up while it is under way, or
was before it is given. -/
def Crosses (s : Parties) : Event → Prop
  | .tick now => s.connection.GivesUp now ∧ ∃ a ∈ s.answers, s.waiting = some a.1
  | .answer _ => s.waiting ≠ some s.shown
  | _ => False

/-- What holds in every run. -/
structure Lined (s : Parties) : Prop where
  /-- The two fields of the connection are set together. -/
  synced : s.connection.pendingLinkRequestAt.isSome = s.connection.pendingLinkInviteCode.isSome
  sorted : s.line.Pairwise (· < ·)
  kept : ∀ n ∈ s.line, n ≤ s.kept

namespace Lined

theorem fresh (h : Fresh s) : Lined s := by
  have hline : s.line = [] := by
    simp [Parties.line, Parties.asked, Parties.coming, asking, h.answers, h.page, h.toPage, h.toCm]
  refine ⟨?_, ?_, ?_⟩
  · rw [h.pendingLinkRequestAt, h.pendingLinkInviteCode]
    rfl
  · rw [hline]
    exact .nil
  · rw [hline]
    exact List.forall_mem_nil _

/-- Questions may leave the line. -/
theorem leave (h : Lined s)
    (hsynced : s'.connection.pendingLinkRequestAt.isSome =
      s'.connection.pendingLinkInviteCode.isSome)
    (hline : s'.line.Sublist s.line) (hkept : s'.kept = s.kept) : Lined s' where
  synced := hsynced
  sorted := h.sorted.sublist hline
  kept n hn := (h.kept n (hline.subset hn)).trans hkept.ge

/-- A question comes to the end of the line. -/
theorem join (h : Lined s)
    (hsynced : s'.connection.pendingLinkRequestAt.isSome =
      s'.connection.pendingLinkInviteCode.isSome)
    (hline : s'.line = s.line ++ [s.kept + 1]) (hkept : s'.kept = s.kept + 1) : Lined s' := by
  have hlt : ∀ n ∈ s.line, n < s.kept + 1 := fun n hn => Nat.lt_succ_of_le (h.kept n hn)
  refine ⟨hsynced, ?_, ?_⟩
  · rw [hline, List.pairwise_append]
    refine ⟨h.sorted, List.pairwise_singleton _ _, fun n hn m hm => ?_⟩
    rw [List.mem_singleton.mp hm]
    exact hlt n hn
  · rw [hline, hkept]
    exact List.forall_mem_append.mpr
      ⟨fun n hn => (hlt n hn).le, List.forall_mem_singleton.mpr le_rfl⟩

theorem next {e : Event} (h : Lined s) (hs : next s e = some s') : Lined s' := by
  cases does_of_next hs with
  | refuses => exact h.leave h.synced (List.Sublist.refl _) rfl
  | keeps accountName existingAccountName hnone =>
    refine h.join rfl ?_ rfl
    simp [Parties.line, Parties.asked, Parties.coming, asking, CmClient.handle]
  | givesUp hgives =>
    refine h.leave rfl ?_ rfl
    simp [Parties.line, Parties.asked, Parties.coming, asking, CmClient.handle]
  | waits hgives => exact h
  | cmTakes hcm =>
    refine h.leave h.synced ?_ rfl
    simp [Parties.line, Parties.asked, Parties.coming, hcm]
  | @pageTakes r client toPage hpage =>
    refine h.leave h.synced ?_ rfl
    apply List.Sublist.append_left
    have hcoming : s.coming = (r, client) :: (toPage ++
        s.toCm.map fun x => (x.1, CmClient.handle x.2)) := by
      rw [Parties.coming, hpage, List.cons_append]
    rw [hcoming, asking_cons]
    exact List.sublist_append_right _ _
  | pageDrops hpage =>
    refine h.leave h.synced ?_ rfl
    apply List.Sublist.append_left
    apply List.Sublist.append_left
    apply asking_sublist
    simp [Parties.coming, hpage]
  | answers hasks =>
    refine h.leave h.synced ?_ rfl
    simp [Parties.line, Parties.asked, Parties.coming, hasks]
  | connectionTakes options response hanswers =>
    refine h.leave rfl ?_ rfl
    simp [Parties.line, Parties.asked, Parties.coming, hanswers]

theorem answered_le (h : Lined s) {a : Request × Bool} (ha : a ∈ s.answers) :
    a.1.number ≤ s.kept :=
  h.kept _ (List.mem_append_left _ (List.mem_map_of_mem ha))

/-- No request is answered twice. -/
theorem answered_ne (h : Lined s) {a b : Request × Bool} {answers : List (Request × Bool)}
    (hanswers : s.answers = a :: answers) (hb : b ∈ answers) : a.1 ≠ b.1 := by
  have hsorted := (List.pairwise_append.mp h.sorted).1
  rw [hanswers, List.map_cons, List.pairwise_cons] at hsorted
  have hlt := hsorted.1 _ (List.mem_map_of_mem hb)
  intro hab
  rw [hab] at hlt
  exact lt_irrefl _ hlt

/-- What holds of a run holds of the step behind it too. -/
theorem onTime_next {e : Event} (h : Lined s) (hs : LinkDashboard.next s e = some s') :
    s'.OnTime ↔ s.OnTime ∧ ¬ Crosses s e := by
  cases does_of_next hs with
  | refuses => exact (and_iff_left not_false).symm
  | keeps accountName existingAccountName hnone =>
    have hwaiting : s.waiting = none := by rw [Parties.waiting, hnone, Option.map_none]
    refine Iff.trans (and_congr_right fun _ => ?_) (and_iff_left not_false).symm
    -- no answer is about the new request, and none was about another that is kept
    refine forall₂_congr fun a ha => iff_of_false ?_ ?_
    · intro hnew
      have hle := h.answered_le ha
      rw [← Option.some.inj hnew] at hle
      exact Nat.not_succ_le_self _ hle
    · rw [hwaiting]
      exact Option.some_ne_none a.1 ∘ Eq.symm
  | givesUp hgives =>
    constructor
    · intro ⟨hmatched, hnone⟩
      refine ⟨⟨hmatched, fun a ha => ?_⟩, fun ⟨_, a, ha, _⟩ => ?_⟩
      · cases hnone a ha
      · cases hnone a ha
    · intro ⟨⟨hmatched, hall⟩, hnot⟩
      exact ⟨hmatched, fun a ha => absurd ⟨hgives, a, ha, hall a ha⟩ hnot⟩
  | waits hgives => exact (and_iff_left fun hcrosses => hgives hcrosses.1).symm
  | cmTakes => exact (and_iff_left not_false).symm
  | pageTakes => exact (and_iff_left not_false).symm
  | pageDrops => exact (and_iff_left not_false).symm
  | answers =>
    constructor
    · intro ⟨hmatched, hall⟩
      obtain ⟨hbefore, hshown⟩ := List.forall_mem_append.mp hall
      exact ⟨⟨hmatched, hbefore⟩, fun hlate => hlate (hshown _ List.mem_cons_self)⟩
    · intro ⟨⟨hmatched, hall⟩, hnot⟩
      exact ⟨hmatched, List.forall_mem_append.mpr
        ⟨hall, List.forall_mem_singleton.mpr (not_not.mp hnot)⟩⟩
  | connectionTakes options response hanswers =>
    refine Iff.trans ?_ (and_iff_left not_false).symm
    constructor
    · intro ⟨hmatched, hnone⟩
      obtain ⟨hbefore, hmet⟩ := List.forall_mem_append.mp hmatched
      refine ⟨hbefore, ?_⟩
      rw [hanswers, List.forall_mem_cons]
      refine ⟨hmet _ List.mem_cons_self, fun a ha => ?_⟩
      cases hnone a ha
    · intro ⟨hmatched, hall⟩
      rw [hanswers, List.forall_mem_cons] at hall
      refine ⟨List.forall_mem_append.mpr ⟨hmatched, List.forall_mem_singleton.mpr hall.1⟩, ?_⟩
      intro a ha
      have hsame := Option.some.inj (hall.1.symm.trans (hall.2 a ha))
      exact absurd hsame (h.answered_ne hanswers ha)

end Lined

/-! ## What comes of the answers -/

/-- What an answer has linked the host with. -/
def Met.links (m : Met) : Option (Text × Request) :=
  if m.accepted then m.waiting.map (·.inviteCode, m.answered) else none

/-- What was linked, and what the peer was told: one response for each request, and one for each
answer that met nothing. -/
structure Accounts (s : Parties) : Prop where
  linked : s.linked = s.met.filterMap Met.links
  told : s.toPeer.length + s.waiting.toList.length =
    s.received + (s.met.filter (·.waiting.isNone)).length

namespace Accounts

theorem fresh (h : Fresh s) : Accounts s := by
  refine ⟨?_, ?_⟩
  · rw [h.linked, h.met]
    rfl
  · rw [Parties.waiting, h.toPeer, h.met, h.received, h.pendingLinkInviteCode]
    rfl

theorem next {e : Event} (h : Accounts s) (hlined : Lined s)
    (hs : LinkDashboard.next s e = some s') : Accounts s' := by
  have htold := h.told
  cases does_of_next hs with
  | refuses response =>
    refine ⟨h.linked, ?_⟩
    simp only [Parties.waiting, List.length_append, List.length_singleton] at htold ⊢
    omega
  | keeps accountName existingAccountName hnone =>
    refine ⟨h.linked, ?_⟩
    simp only [Parties.waiting, hnone, Option.map_none, Option.map_some, Option.toList_some,
      Option.toList_none, List.length_singleton, List.length_nil] at htold ⊢
    omega
  | givesUp hgives =>
    obtain ⟨started, hstarted, -⟩ := hgives
    have hsome := hlined.synced
    rw [hstarted] at hsome
    obtain ⟨code, hcode⟩ := Option.isSome_iff_exists.mp hsome.symm
    refine ⟨h.linked, ?_⟩
    simp only [Parties.waiting, hcode, Option.map_none, Option.map_some, Option.toList_some,
      Option.toList_none, List.length_append, List.length_singleton, List.length_nil] at htold ⊢
    omega
  | waits => exact h
  | cmTakes => exact ⟨h.linked, htold⟩
  | pageTakes => exact ⟨h.linked, htold⟩
  | pageDrops => exact ⟨h.linked, htold⟩
  | answers => exact ⟨h.linked, htold⟩
  | @connectionTakes _ r accepted answers options response hanswers =>
    refine ⟨?_, ?_⟩
    · rw [List.filterMap_append, h.linked]
      unfold Met.links Parties.waiting
      cases accepted <;> cases s.connection.pendingLinkInviteCode <;> rfl
    · cases hcode : s.connection.pendingLinkInviteCode with
      | none =>
        simp [Parties.waiting, hcode] at htold ⊢
        omega
      | some code =>
        simp [Parties.waiting, hcode] at htold ⊢
        omega

/-- If all answers have met what they are about, what was linked was agreed to. -/
theorem consented (h : Accounts s) (hmatched : s.Matched) : s.Consented := by
  intro x hx
  rw [h.linked] at hx
  obtain ⟨m, hm, hlinks⟩ := List.mem_filterMap.mp hx
  unfold Met.links at hlinks
  split at hlinks
  next haccepted =>
    rw [hmatched m hm, Option.map_some, Option.some.injEq] at hlinks
    obtain rfl := hlinks
    have hthis : m = ⟨some m.answered, m.answered, true⟩ := by
      rw [← hmatched m hm, ← haccepted]
    exact ⟨rfl, hthis ▸ hm⟩
  next => cases hlinks

theorem told_matched (h : Accounts s) (hmatched : s.Matched) :
    s.toPeer.length + s.waiting.toList.length = s.received := by
  have hmet : s.met.filter (·.waiting.isNone) = [] := List.filter_eq_nil_iff.mpr fun m hm => by
    rw [hmatched m hm]
    exact Bool.false_ne_true
  rw [h.told, hmet]
  rfl

end Accounts

/-! ## Runs -/

theorem onTime_iff {tr : List (Parties × Event)} (h : system.Trace tr s) :
    (Lined s ∧ Accounts s) ∧ (s.OnTime ↔ ∀ x ∈ tr, ¬ Crosses x.1 x.2) := by
  induction h with
  | start hfresh =>
    refine ⟨⟨.fresh hfresh, .fresh hfresh⟩, iff_of_true ⟨?_, ?_⟩ (List.forall_mem_nil _)⟩
    · rw [Parties.Matched, hfresh.met]
      exact List.forall_mem_nil _
    · rw [hfresh.answers]
      exact List.forall_mem_nil _
  | snoc htr hs ih =>
    obtain ⟨⟨hlined, haccounts⟩, hiff⟩ := ih
    refine ⟨⟨hlined.next hs, haccounts.next hlined hs⟩, ?_⟩
    rw [hlined.onTime_next hs, hiff, List.forall_mem_append, List.forall_mem_singleton]

/-- **The host is linked with what its user agreed to.** Once all answers have come in, each has met
the request it is about exactly if none was too late. Then the host was linked only with the codes
of requests its user said yes to, and its peer was told one thing for each of its requests. -/
theorem matched_iff {tr : List (Parties × Event)} (h : system.Trace tr s)
    (hquiet : s.answers = []) :
    (s.Matched ↔ ∀ x ∈ tr, ¬ Crosses x.1 x.2) ∧
      (s.Matched → s.Consented ∧ s.toPeer.length + s.waiting.toList.length = s.received) := by
  obtain ⟨⟨-, haccounts⟩, hiff⟩ := onTime_iff h
  refine ⟨?_, fun hmatched => ⟨haccounts.consented hmatched, haccounts.told_matched hmatched⟩⟩
  rw [← hiff, Parties.OnTime, hquiet]
  exact (and_iff_left (List.forall_mem_nil _)).symm

theorem trace_snoc {tr : List (Parties × Event)} (h : system.Trace tr s) {e : Event}
    (hs : next s e = some s') : system.Trace (tr ++ [(s, e)]) s' := h.snoc hs

/-- A request is given up while its question is on the page, and the next one is kept before the
user says yes. -/
theorem not_consented :
    ∃ tr s, system.Trace tr s ∧ s.answers = [] ∧ ¬ s.Matched ∧ ¬ s.Consented := by
  have hfresh : Fresh ⟨⟨none, none, ⟨[], [], [], []⟩⟩, [], ⟨false, [], []⟩, [], ⟨false, []⟩,
      ⟨0, []⟩, [], 0, 0, [], [], []⟩ := ⟨rfl, rfl, rfl, rfl, rfl, rfl, rfl, rfl, rfl, rfl, rfl⟩
  have hstart : system.Trace [] _ := .start hfresh
  have hfirst := trace_snoc hstart (e := .request (fun _ => some ⟨"1".toList, "Ada".toList⟩) 0
    "A1".toList) rfl
  have hcm := trace_snoc hfirst (e := .cmTakes) rfl
  have hpage := trace_snoc hcm (e := .pageTakes) rfl
  have hgivesUp := trace_snoc hpage (e := .tick 120000) rfl
  have hsecond := trace_snoc hgivesUp (e := .request (fun _ => some ⟨"2".toList, "Eve".toList⟩)
    120000 "B2".toList) rfl
  have hyes := trace_snoc hsecond (e := .answer true) rfl
  have hlinks := trace_snoc hyes (e := .connectionTakes ⟨true, none, none⟩) rfl
  refine ⟨_, _, hlinks, rfl, ?_, ?_⟩
  · rw [(matched_iff hlinks rfl).1]
    intro hnever
    refine hnever _ (List.mem_append_left _ (List.mem_append_right _ List.mem_cons_self)) ?_
    intro hsame
    have hnumber := congrArg (Option.map Request.number) hsame
    exact absurd hnumber (by decide)
  · intro hconsented
    have hcode := (hconsented _ List.mem_cons_self).1
    exact absurd hcode (by decide)

end HopToDesk.Host.LinkDashboard
