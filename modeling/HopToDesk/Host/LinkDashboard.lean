import HopToDesk.Kit.System
import HopToDesk.Kit.Text

/-!
# Linking the host to a dashboard

The controlling side may ask the host to link itself to an account on the dashboard, with an invite
code. The connection of the host (`src/server/connection.rs`) keeps the code, and has the connection
manager (`src/ui_cm_interface.rs`) ask its user. The page of the connection manager (`src/ui.rs`)
shows who asks, and sends back a yes or a no. Neither the question nor the answer says which request
it is about: a yes links the host with the code that the connection keeps when it comes in. A
request that nobody has answered is given up after two minutes.

What one party sends another arrives in the order it was sent, some time later.
-/

set_option autoImplicit false

namespace HopToDesk.Host.LinkDashboard

open Kit

/-- The options that linking reads and writes. -/
structure Options where
  inviteCode : Text
  lastEnrolledInviteCode : Text
  dashboardUserId : Text
  dashboardAccountName : Text
deriving DecidableEq, Repr

/-- What `validate_invite` makes of a code that is valid. -/
structure Invite where
  dashboardUserId : Text
  accountName : Text
deriving DecidableEq, Repr

/-- How `link_device` ends, and which of the options it has set until then. -/
structure Enrolment where
  linked : Bool
  dashboardUserId : Option Text
  dashboardAccountName : Option Text
deriving DecidableEq, Repr

/-- `LinkDashboardResponse`. -/
structure LinkDashboardResponse where
  accepted : Bool
  reason : String
deriving DecidableEq, Repr

/-- What the connection tells the connection manager. -/
inductive ToCm
  | linkDashboardIncoming (accountName existingAccountName : Text)
  | linkDashboardTimeout
deriving DecidableEq, Repr

/-- The connection. `pendingLinkRequestAt` is in milliseconds. -/
structure Connection where
  pendingLinkInviteCode : Option Text
  pendingLinkRequestAt : Option Nat
  options : Options
deriving DecidableEq, Repr

namespace Connection

variable (self : Connection)

/-- `handle_link_dashboard_request`, at this time. A code that is not valid is `none` to
`validate`. -/
def handleLinkDashboardRequest (validate : Text → Option Invite) (now : Nat) (inviteCode : Text) :
    Connection × Option ToCm × Option LinkDashboardResponse :=
  let trimmed := inviteCode.trim
  if trimmed = [] then (self, none, some ⟨false, "invalid_invite"⟩)
  else if self.pendingLinkInviteCode.isSome then (self, none, some ⟨false, "busy"⟩)
  else
    match validate trimmed with
    | none => (self, none, some ⟨false, "invalid_invite"⟩)
    | some invite =>
      let existingUserId := self.options.dashboardUserId
      if existingUserId ≠ [] ∧ existingUserId = invite.dashboardUserId then
        (self, none, some ⟨false, "already_linked"⟩)
      else
        let existingAccountName :=
          if existingUserId ≠ [] then self.options.dashboardAccountName else []
        ({ self with pendingLinkInviteCode := some trimmed, pendingLinkRequestAt := some now },
          some (.linkDashboardIncoming invite.accountName existingAccountName), none)

/-- `link_device`, as far as it changes the options. -/
def linkDevice (enrolment : Enrolment) (options : Options) : Options :=
  { options with
    dashboardUserId := enrolment.dashboardUserId.getD options.dashboardUserId
    dashboardAccountName := enrolment.dashboardAccountName.getD options.dashboardAccountName }

/-- `handle_link_dashboard_response`, with the code it has given to `link_device`. -/
def handleLinkDashboardResponse (enrolment : Enrolment) (accepted : Bool) :
    Connection × Option Text × LinkDashboardResponse :=
  let inviteCode := self.pendingLinkInviteCode
  let self := { self with pendingLinkInviteCode := none, pendingLinkRequestAt := none }
  if !accepted then (self, none, ⟨false, "declined"⟩)
  else
    match inviteCode with
    | none => (self, none, ⟨false, "declined"⟩)
    | some code =>
      let options := linkDevice enrolment { self.options with inviteCode := code }
      if !enrolment.linked then ({ self with options }, some code, ⟨false, "link_failed"⟩)
      else
        ({ self with options := { options with inviteCode := [], lastEnrolledInviteCode := code } },
          some code, ⟨true, ""⟩)

/-- A request that came in at this time is given up now. -/
def Expired (now started : Nat) : Prop := 120000 ≤ now - started

instance (now started : Nat) : Decidable (Expired now started) := Nat.decLe _ _

/-- `maybe_timeout_pending_link_dashboard`. -/
def maybeTimeoutPendingLinkDashboard (now : Nat) :
    Connection × Option ToCm × Option LinkDashboardResponse :=
  match self.pendingLinkRequestAt with
  | some started =>
    if Expired now started then
      ({ self with pendingLinkInviteCode := none, pendingLinkRequestAt := none },
        some .linkDashboardTimeout, some ⟨false, "timeout"⟩)
    else (self, none, none)
  | none => (self, none, none)

end Connection

/-- The `Client` of the connection manager. -/
structure CmClient where
  incomingLinkDashboard : Bool
  linkDashboardAccountName : Text
  linkDashboardExistingAccountName : Text
deriving DecidableEq, Repr

namespace CmClient

/-- `link_dashboard_incoming` and `link_dashboard_clear`, after each of which the page is told what
there is now. -/
def handle : ToCm → CmClient
  | .linkDashboardIncoming accountName existingAccountName =>
    ⟨true, accountName, existingAccountName⟩
  | .linkDashboardTimeout => ⟨false, [], []⟩

/-- The user has answered: `handle_link_dashboard_response`. -/
def answered (self : CmClient) : CmClient :=
  { self with incomingLinkDashboard := false, linkDashboardAccountName := [] }

end CmClient

/-- What the page has of the connection. It asks its user as long as `incomingLinkDashboard`. -/
structure Page where
  incomingLinkDashboard : Bool
  linkDashboardAccountName : Text
deriving DecidableEq, Repr

/-- `update_link_dashboard`. -/
def Page.update (client : CmClient) : Page :=
  ⟨client.incomingLinkDashboard, client.linkDashboardAccountName⟩

/-! ## The parties -/

/-- A request that the connection has kept: how many it had kept then, with this one, and its
code. -/
structure Request where
  number : Nat
  inviteCode : Text
deriving DecidableEq, Repr

/-- An answer that has come in, with the request that the connection kept then. -/
structure Met where
  waiting : Option Request
  answered : Request
  accepted : Bool
deriving DecidableEq, Repr

/-- All parties, and what is under way between them, oldest first. What is said of a request, up to
the answer, goes with the request. No party reads that. -/
structure Parties where
  connection : Connection
  toCm : List (Request × ToCm)
  cm : CmClient
  toPage : List (Request × CmClient)
  page : Page
  /-- What the page asks, or has asked last, is this request. -/
  shown : Request
  answers : List (Request × Bool)
  /-- How many requests have come in, and how many of these have been kept. -/
  received : Nat
  kept : Nat
  toPeer : List LinkDashboardResponse
  met : List Met
  /-- What was given to `link_device`, with the request the user had said yes to. -/
  linked : List (Text × Request)

namespace Parties

/-- The request the connection keeps. -/
def waiting (s : Parties) : Option Request :=
  s.connection.pendingLinkInviteCode.map (⟨s.kept, ·⟩)

/-- The last one that it has kept, which is the one it gives up. -/
def last (s : Parties) : Request := ⟨s.kept, s.connection.pendingLinkInviteCode.getD []⟩

end Parties

inductive Event
  /-- A request comes in. -/
  | request (validate : Text → Option Invite) (now : Nat) (inviteCode : Text)
  /-- The timer of the connection. -/
  | tick (now : Nat)
  | cmTakes
  | pageTakes
  /-- The page cannot read what it is told, as it is where a name has a line break. -/
  | pageDrops
  /-- The user answers what the page asks. -/
  | answer (accepted : Bool)
  | connectionTakes (enrolment : Enrolment)

/-- One event. -/
def next (s : Parties) : Event → Option Parties
  | .request validate now inviteCode =>
    let (connection, data, response) :=
      s.connection.handleLinkDashboardRequest validate now inviteCode
    some { s with
      connection
      toCm := s.toCm ++ (data.map (⟨s.kept + 1, inviteCode.trim⟩, ·)).toList
      received := s.received + 1
      kept := s.kept + data.toList.length
      toPeer := s.toPeer ++ response.toList }
  | .tick now =>
    let (connection, data, response) := s.connection.maybeTimeoutPendingLinkDashboard now
    some { s with
      connection
      toCm := s.toCm ++ (data.map (s.last, ·)).toList
      toPeer := s.toPeer ++ response.toList }
  | .cmTakes =>
    match s.toCm with
    | [] => none
    | (r, data) :: toCm =>
      let cm := CmClient.handle data
      some { s with toCm, cm, toPage := s.toPage ++ [(r, cm)] }
  | .pageTakes =>
    match s.toPage with
    | [] => none
    | (r, client) :: toPage => some { s with toPage, page := .update client, shown := r }
  | .pageDrops =>
    match s.toPage with
    | [] => none
    | _ :: toPage => some { s with toPage }
  | .answer accepted =>
    if s.page.incomingLinkDashboard then
      some { s with
        page := { s.page with incomingLinkDashboard := false }
        answers := s.answers ++ [(s.shown, accepted)]
        cm := s.cm.answered }
    else none
  | .connectionTakes enrolment =>
    match s.answers with
    | [] => none
    | (r, accepted) :: answers =>
      let (connection, code, response) :=
        s.connection.handleLinkDashboardResponse enrolment accepted
      some { s with
        connection
        answers
        toPeer := s.toPeer ++ [response]
        met := s.met ++ [⟨s.waiting, r, accepted⟩]
        linked := s.linked ++ (code.map (·, r)).toList }

/-- A connection on which nothing has been asked. -/
structure Fresh (s : Parties) : Prop where
  pendingLinkInviteCode : s.connection.pendingLinkInviteCode = none
  pendingLinkRequestAt : s.connection.pendingLinkRequestAt = none
  toCm : s.toCm = []
  toPage : s.toPage = []
  page : s.page.incomingLinkDashboard = false
  answers : s.answers = []
  received : s.received = 0
  kept : s.kept = 0
  toPeer : s.toPeer = []
  met : s.met = []
  linked : s.linked = []

/-- The runs of a connection. -/
def system : System Parties Event := .stepping Fresh next

end HopToDesk.Host.LinkDashboard
