import HopToDesk.Host.Signalling

/-!
# Signalling, when several devices want to connect

The devices that want to connect to the host reach it through one stream of messages. The loop takes
each text for the first struct it fits, and while it waits for one device's `RelayReady` it takes
whatever comes for that. So every device is served when no string needs an escape and nothing comes
between a `RelayConnection` and a `RelayReady`. Otherwise some device is not served as it should be
(`served_iff_inTurn`).
-/

set_option autoImplicit false

namespace HopToDesk.Host

open Kit Json

/-- What the devices send. -/
inductive Signal
  | connectRequest (endpoint senderId : Text)
  | relayConnection (endpoint : Text) (addr : SocketAddr)
  | relayReady (endpoint : Text)
  | closeSessions (m : CloseSessions)

namespace Signal

def toJson : Signal → Text
  | connectRequest endpoint senderId => (ConnectRequest.new endpoint senderId).toJson
  | relayConnection endpoint addr => (RelayConnection.new endpoint addr).toJson
  | relayReady endpoint => (RelayReady.new endpoint).toJson
  | closeSessions m => m.toJson

def isRelayReady : Signal → Bool
  | relayReady _ => true
  | _ => false

def isRelayConnection : Signal → Bool
  | relayConnection _ _ => true
  | _ => false

/-- The strings of a request need no escape. -/
def PlainRequest : Signal → Prop
  | connectRequest endpoint senderId => Plain endpoint ∧ Plain senderId
  | relayConnection endpoint _ => Plain endpoint
  | _ => True

/-- A `RelayReady` whose endpoint needs no escape. -/
def PlainReady : Signal → Prop
  | relayReady endpoint => Plain endpoint
  | _ => False

/-! ## What the structs are read as -/

def protocol : Signal → Text
  | closeSessions m => m.protocol
  | _ => oneToOne

def endpoint : Signal → Text
  | connectRequest endpoint _ => endpoint
  | relayConnection endpoint _ => endpoint
  | relayReady endpoint => endpoint
  | closeSessions m => m.endpoint

def fields : Signal → List (Text × Text)
  | connectRequest endpoint senderId =>
    [(protocolKey, oneToOne), (endpointKey, endpoint), (senderIdKey, senderId)]
  | relayConnection endpoint addr =>
    [(protocolKey, oneToOne), (endpointKey, endpoint), (addrKey, addr.text)]
  | relayReady endpoint => [(protocolKey, oneToOne), (endpointKey, endpoint)]
  | closeSessions m => [(protocolKey, m.protocol), (endpointKey, m.endpoint), (dataKey, m.data),
      (senderIdKey, m.senderId)]

theorem toJson_eq (m : Signal) : m.toJson = writeObject m.fields := by
  cases m with
  | connectRequest => rfl
  | relayConnection => rfl
  | relayReady => rfl
  | closeSessions => rfl

theorem plain_keys : Plain protocolKey ∧ Plain endpointKey ∧ Plain senderIdKey ∧ Plain addrKey ∧
    Plain dataKey := by decide

theorem plain_oneToOne : Plain oneToOne := by decide

theorem plain_fields (m : Signal) : ∀ x ∈ m.fields, Plain x.1 := by
  obtain ⟨hprotocol, hendpoint, hsenderId, haddr, hdata⟩ := plain_keys
  cases m <;> simp [fields, hprotocol, hendpoint, hsenderId, haddr, hdata]

/-- The fields that are read from the text of a message. -/
def read (m : Signal) : List (Text × Text) := m.fields.map fun x => (escape x.1, escape x.2)

theorem readObject_toJson (m : Signal) : readObject m.toJson = some m.read := by
  rw [toJson_eq, readObject_write]
  rfl

theorem borrowed_read (m : Signal) (key : Text) :
    borrowed key m.read = (single key m.fields).filter fun value => Plain value :=
  borrowed_escape m.plain_fields key

theorem borrowed_protocol (m : Signal) :
    borrowed protocolKey m.read = if Plain m.protocol then some m.protocol else none := by
  rw [borrowed_read, show single protocolKey m.fields = some m.protocol by cases m <;> rfl]
  simp [Option.filter]

theorem borrowed_endpoint (m : Signal) :
    borrowed endpointKey m.read = if Plain m.endpoint then some m.endpoint else none := by
  rw [borrowed_read, show single endpointKey m.fields = some m.endpoint by cases m <;> rfl]
  simp [Option.filter]

theorem borrowed_none {m : Signal} {key : Text} (h : single key m.fields = none) :
    borrowed key m.read = none := by
  rw [borrowed_read, h]
  rfl

/-- Any message is taken for a `RelayReady`, when its protocol and its endpoint can be borrowed. -/
theorem isSome_relayReady (m : Signal) :
    (RelayReady.fromStr m.toJson).isSome = decide (Plain m.protocol ∧ Plain m.endpoint) := by
  unfold RelayReady.fromStr
  rw [readObject_toJson]
  simp only [Option.bind_eq_bind, Option.bind_some, borrowed_protocol, borrowed_endpoint]
  by_cases hprotocol : Plain m.protocol
  · by_cases hendpoint : Plain m.endpoint <;> simp [hprotocol, hendpoint]
  · simp [hprotocol]

theorem closeSessions_none {m : Signal} (h : single dataKey m.fields = none) :
    CloseSessions.fromStr m.toJson = none := by
  unfold CloseSessions.fromStr
  rw [readObject_toJson]
  simp only [Option.bind_eq_bind, Option.bind_some, borrowed_none h, Option.bind_none,
    Option.bind_fun_none]

theorem connectRequest_none {m : Signal} (h : single senderIdKey m.fields = none) :
    ConnectRequest.fromStr m.toJson = none := by
  unfold ConnectRequest.fromStr
  rw [readObject_toJson]
  simp only [Option.bind_eq_bind, Option.bind_some, borrowed_none h, Option.bind_none,
    Option.bind_fun_none]

theorem relayConnection_none {m : Signal} (h : single addrKey m.fields = none) :
    RelayConnection.fromStr m.toJson = none := by
  unfold RelayConnection.fromStr
  rw [readObject_toJson]
  simp only [Option.bind_eq_bind, Option.bind_some, borrowed_none h, Option.bind_none,
    Option.bind_fun_none]

theorem toJson_ne_healthcheckError (m : Signal) : m.toJson ≠ healthcheckError := by
  intro h
  have hhead : m.toJson.head? = some '{' := by
    rw [toJson_eq, writeObject, write, List.head?_cons]
  rw [h] at hhead
  revert hhead
  decide

theorem reaction_connectRequest (endpoint senderId : Text) :
    reaction (connectRequest endpoint senderId).toJson =
      if Plain endpoint ∧ Plain senderId then .act (.listening senderId) else .nothing := by
  have hdata : CloseSessions.fromStr (connectRequest endpoint senderId).toJson = none :=
    closeSessions_none rfl
  have haddr : RelayConnection.fromStr (connectRequest endpoint senderId).toJson = none :=
    relayConnection_none rfl
  have hsender : borrowed senderIdKey (connectRequest endpoint senderId).read =
      if Plain senderId then some senderId else none := by
    rw [borrowed_read, show single senderIdKey (connectRequest endpoint senderId).fields =
      some senderId from rfl]
    simp [Option.filter]
  have hrequest : ConnectRequest.fromStr (connectRequest endpoint senderId).toJson =
      if Plain endpoint ∧ Plain senderId then some (.new endpoint senderId) else none := by
    unfold ConnectRequest.fromStr
    rw [readObject_toJson]
    simp only [Option.bind_eq_bind, Option.bind_some, borrowed_protocol, borrowed_endpoint, hsender,
      protocol, Signal.endpoint]
    by_cases hendpoint : Plain endpoint
    · by_cases hsenderId : Plain senderId
      · simp [hendpoint, hsenderId, plain_oneToOne, ConnectRequest.new]
      · simp [hsenderId]
    · simp [hendpoint]
  unfold reaction
  rw [hdata, hrequest, haddr, if_neg (toJson_ne_healthcheckError _)]
  by_cases hplain : Plain endpoint ∧ Plain senderId
  · simp only [if_pos hplain]
    rfl
  · simp only [if_neg hplain]

theorem plain_addr (addr : SocketAddr) : Plain addr.text := by
  intro c hc hescaped
  have haddr := List.all_eq_true.mp addr.ofAddr c hc
  rw [isAddrChar, Bool.or_eq_true] at haddr
  rcases haddr with hhex | hmark
  · exact not_escaped_of_isHexDigit hhex hescaped
  · have hall : ∀ x ∈ ['.', ':', '[', ']', '%'], ¬ Escaped x := by
      rw [← List.forall_iff_forall_mem]
      decide
    exact hall c (of_decide_eq_true hmark) hescaped

theorem reaction_relayConnection (endpoint : Text) (addr : SocketAddr) :
    reaction (relayConnection endpoint addr).toJson =
      if Plain endpoint then .relay addr else .nothing := by
  have hdata : CloseSessions.fromStr (relayConnection endpoint addr).toJson = none :=
    closeSessions_none rfl
  have hsender : ConnectRequest.fromStr (relayConnection endpoint addr).toJson = none :=
    connectRequest_none rfl
  have haddr : borrowed addrKey (relayConnection endpoint addr).read = some addr.text := by
    rw [borrowed_read, show single addrKey (relayConnection endpoint addr).fields =
      some addr.text from rfl]
    simp [Option.filter, plain_addr]
  have hrelay : RelayConnection.fromStr (relayConnection endpoint addr).toJson =
      if Plain endpoint then some (.new endpoint addr) else none := by
    unfold RelayConnection.fromStr
    rw [readObject_toJson]
    simp only [Option.bind_eq_bind, Option.bind_some, borrowed_protocol, borrowed_endpoint, haddr,
      protocol, Signal.endpoint]
    by_cases hendpoint : Plain endpoint
    · simp [hendpoint, plain_oneToOne, SocketAddr.fromText, addr.ofAddr, RelayConnection.new]
    · simp [hendpoint]
  unfold reaction
  rw [hdata, hsender, hrelay, if_neg (toJson_ne_healthcheckError _)]
  by_cases hplain : Plain endpoint
  · simp only [if_pos hplain]
    rfl
  · simp only [if_neg hplain]

/-- No message but a `RelayConnection` makes the loop wait, and none ends it. -/
theorem reaction_other {m : Signal} (h : single addrKey m.fields = none) :
    reaction m.toJson = .nothing ∨ ∃ action, reaction m.toJson = .act action := by
  unfold reaction
  rw [relayConnection_none h, if_neg m.toJson_ne_healthcheckError]
  split
  next close _ =>
    unfold CloseSessions.reaction
    split
    next command id _ =>
      split
      · exact .inr ⟨_, rfl⟩
      split
      · exact .inr ⟨_, rfl⟩
      · exact .inl rfl
    next => exact .inl rfl
  next =>
    split
    · exact .inr ⟨_, rfl⟩
    · exact .inl rfl

end Signal

/-- A relay is served for no text as such. -/
theorem reaction_act_ne_relayed {t : Text} {action : SignalAction}
    (h : reaction t = .act action) (addr : SocketAddr) : action ≠ .relayed addr := by
  unfold reaction CloseSessions.reaction at h
  split at h
  · split at h
    · split at h
      · cases h
        rintro ⟨⟩
      · split at h
        · cases h
          rintro ⟨⟩
        · cases h
    · cases h
  · split at h
    · cases h
      rintro ⟨⟩
    · split at h
      · cases h
      · split at h
        · cases h
        · cases h

/-! ## The loop and its messages -/

/-- A message with the device that sends it. -/
structure SentSignal where
  sender : Nat
  signal : Signal
  time : Nat
  busy : Nat

def SentSignal.message (m : SentSignal) : SignalMessage := ⟨m.signal.toJson, m.time, m.busy⟩

namespace SignalLoop

variable {s : SignalLoop} {m : SentSignal}

def run (s : SignalLoop) (ms : List SentSignal) : List SignalOutput :=
  s.outputs (ms.map SentSignal.message)

def after (s : SignalLoop) (ms : List SentSignal) : SignalLoop :=
  ms.foldl (fun s m => (s.receive m.message).1) s

theorem receive_awaited {w : Waiting} (h : s.awaited m.message = some w) :
    s.receive m.message = (s.done m.message,
      if Plain m.signal.protocol ∧ Plain m.signal.endpoint then
        some ⟨w.cause, s.count, .relayed w.addr⟩
      else none) := by
  have hready := m.signal.isSome_relayReady
  unfold receive
  rw [h]
  dsimp only [SentSignal.message]
  by_cases hplain : Plain m.signal.protocol ∧ Plain m.signal.endpoint
  · rw [decide_eq_true hplain, Option.isSome_iff_exists] at hready
    obtain ⟨r, hr⟩ := hready
    rw [hr, if_pos hplain]
    rfl
  · rw [decide_eq_false hplain, Option.isSome_eq_false_iff, Option.isNone_iff_eq_none] at hready
    rw [hready, if_neg hplain]
    rfl

theorem receive_relayConnection {endpoint : Text} {addr : SocketAddr}
    (hm : m.signal = .relayConnection endpoint addr) (h : s.awaited m.message = none) :
    s.receive m.message = if Plain endpoint then
        ({ s.done m.message with
          waiting := some ⟨s.count, addr, (s.done m.message).now + 10000⟩ }, none)
      else (s.done m.message, none) := by
  have hreaction : reaction m.message.text = if Plain endpoint then .relay addr else .nothing := by
    rw [SentSignal.message, hm]
    exact Signal.reaction_relayConnection endpoint addr
  unfold receive
  rw [h, hreaction]
  by_cases hplain : Plain endpoint
  · simp only [if_pos hplain]
  · simp only [if_neg hplain]

theorem receive_connectRequest {endpoint senderId : Text}
    (hm : m.signal = .connectRequest endpoint senderId) (h : s.awaited m.message = none) :
    s.receive m.message = (s.done m.message,
      if Plain endpoint ∧ Plain senderId then some ⟨s.count, s.count, .listening senderId⟩
      else none) := by
  have hreaction : reaction m.message.text =
      if Plain endpoint ∧ Plain senderId then .act (.listening senderId) else .nothing := by
    rw [SentSignal.message, hm]
    exact Signal.reaction_connectRequest endpoint senderId
  unfold receive
  rw [h, hreaction]
  by_cases hplain : Plain endpoint ∧ Plain senderId
  · simp only [if_pos hplain]
  · simp only [if_neg hplain]

/-- What the loop does with a message: it starts a relay it waits for, or waits for one, or acts on
the message, or does nothing. -/
theorem receive_cases (s : SignalLoop) (m : SentSignal) :
    (∃ w, s.awaited m.message = some w ∧ s.receive m.message = (s.done m.message,
      if Plain m.signal.protocol ∧ Plain m.signal.endpoint then
        some ⟨w.cause, s.count, .relayed w.addr⟩
      else none)) ∨
    (∃ endpoint addr, m.signal = .relayConnection endpoint addr ∧ Plain endpoint ∧
      s.receive m.message = ({ s.done m.message with
        waiting := some ⟨s.count, addr, (s.done m.message).now + 10000⟩ }, none)) ∨
    s.receive m.message = (s.done m.message, none) ∨
    ∃ action, (∀ addr, action ≠ .relayed addr) ∧
      s.receive m.message = (s.done m.message, some ⟨s.count, s.count, action⟩) := by
  cases hwait : s.awaited m.message with
  | some w => exact .inl ⟨w, rfl, receive_awaited hwait⟩
  | none =>
    have hother (h : single addrKey m.signal.fields = none) :
        s.receive m.message = (s.done m.message, none) ∨
        ∃ action, (∀ addr, action ≠ .relayed addr) ∧
          s.receive m.message = (s.done m.message, some ⟨s.count, s.count, action⟩) := by
      unfold receive
      rw [hwait]
      rcases Signal.reaction_other h with hreaction | ⟨action, hreaction⟩
      · refine .inl ?_
        rw [SentSignal.message, hreaction]
      · refine .inr ⟨action, reaction_act_ne_relayed hreaction, ?_⟩
        rw [SentSignal.message, hreaction]
    cases hm : m.signal with
    | relayConnection endpoint addr =>
      have hreceive := receive_relayConnection hm hwait
      by_cases hplain : Plain endpoint
      · rw [if_pos hplain] at hreceive
        exact .inr (.inl ⟨endpoint, addr, rfl, hplain, hreceive⟩)
      · rw [if_neg hplain] at hreceive
        exact .inr (.inr (.inl hreceive))
    | connectRequest => exact .inr (.inr (hother (by rw [hm]; rfl)))
    | relayReady => exact .inr (.inr (hother (by rw [hm]; rfl)))
    | closeSessions => exact .inr (.inr (hother (by rw [hm]; rfl)))

/-- The loop when it has taken these messages: what it waits for was asked for by the last one. -/
structure At (pre : List SentSignal) (s : SignalLoop) : Prop where
  running : s.running = true
  count : s.count = pre.length
  waiting : ∀ w, s.waiting = some w → ∃ before m endpoint, pre = before ++ [m] ∧
    m.signal = .relayConnection endpoint w.addr ∧ Plain endpoint ∧ w.cause = before.length ∧
    m.time + 10000 ≤ w.deadline

namespace At

variable {pre : List SentSignal}

theorem start : At [] start where
  running := rfl
  count := rfl
  waiting := by rintro w ⟨⟩

theorem done (h : At pre s) : At (pre ++ [m]) (s.done m.message) where
  running := h.running
  count := by
    rw [List.length_append, ← h.count]
    rfl
  waiting := by rintro w ⟨⟩

theorem receive (h : At pre s) (m : SentSignal) : At (pre ++ [m]) (s.receive m.message).1 := by
  obtain ⟨w, -, hreceive⟩ | ⟨endpoint, addr, hm, hplain, hreceive⟩ | hreceive | ⟨_, -, hreceive⟩ :=
    s.receive_cases m
  · rw [hreceive]
    exact h.done
  · rw [hreceive]
    refine ⟨h.running, h.done.count, ?_⟩
    rintro w ⟨⟩
    refine ⟨pre, m, endpoint, rfl, hm, hplain, h.count, ?_⟩
    have hnow : m.time ≤ (s.done m.message).now :=
      (le_max_right s.now m.time).trans (Nat.le_add_right _ _)
    exact Nat.add_le_add_right hnow _
  · rw [hreceive]
    exact h.done
  · rw [hreceive]
    exact h.done

theorem after (h : At pre s) (ms : List SentSignal) : At (pre ++ ms) (s.after ms) := by
  induction ms generalizing pre s with
  | nil =>
    rw [List.append_nil]
    exact h
  | cons m ms ih =>
    rw [List.append_cons]
    exact ih (h.receive m)

end At

/-- What is done during a message is done for it, or for the one before, which asks for the relay
that is served. -/
theorem output_receive {o : SignalOutput} (ho : o ∈ (s.receive m.message).2) :
    o.during = s.count ∧ (o.cause = s.count ∧ (∀ addr, o.action ≠ .relayed addr) ∨
      ∃ w, s.waiting = some w ∧ m.time ≤ w.deadline ∧ o.cause = w.cause ∧
        o.action = .relayed w.addr ∧ Plain m.signal.protocol ∧ Plain m.signal.endpoint) := by
  obtain ⟨w, hw, hreceive⟩ | ⟨_, _, -, -, hreceive⟩ | hreceive | ⟨_, hne, hreceive⟩ :=
    s.receive_cases m
  · rw [hreceive] at ho
    dsimp only at ho
    split_ifs at ho with hplain
    · cases ho
      rw [awaited, Option.filter_eq_some_iff] at hw
      exact ⟨rfl, .inr ⟨w, hw.1, of_decide_eq_true hw.2, rfl, rfl, hplain⟩⟩
    · cases ho
  · rw [hreceive] at ho
    cases ho
  · rw [hreceive] at ho
    cases ho
  · rw [hreceive] at ho
    cases ho
    exact ⟨rfl, .inl ⟨rfl, hne⟩⟩

section

variable {pre : List SentSignal} (h : At pre s)
include h

theorem run_cons (m : SentSignal) (ms : List SentSignal) :
    s.run (m :: ms) = (s.receive m.message).2.toList ++ (s.receive m.message).1.run ms := by
  rw [run, List.map_cons, outputs, if_pos h.running]
  rfl

theorem run_append (xs ys : List SentSignal) :
    s.run (xs ++ ys) = s.run xs ++ (s.after xs).run ys := by
  induction xs generalizing pre s with
  | nil => rfl
  | cons x xs ih =>
    rw [List.cons_append, run_cons h, run_cons h, ih (h.receive x), List.append_assoc]
    rfl

theorem mem_run {ms : List SentSignal} {o : SignalOutput} (ho : o ∈ s.run ms) :
    pre.length ≤ o.during ∧ o.during < pre.length + ms.length ∧ o.cause ≤ o.during ∧
      o.during ≤ o.cause + 1 := by
  induction ms generalizing pre s with
  | nil => cases ho
  | cons m ms ih =>
    rw [run_cons h, List.mem_append, Option.mem_toList] at ho
    rcases ho with ho | ho
    · obtain ⟨hduring, hcause⟩ := output_receive ho
      have hcount := h.count
      rw [List.length_cons]
      rcases hcause with ⟨hcause, -⟩ | ⟨w, hw, -, hcause, -⟩
      · omega
      · obtain ⟨before, m', -, hpre, -, -, hw', -⟩ := h.waiting w hw
        have hlength : pre.length = before.length + 1 := by rw [hpre, List.length_append]; rfl
        omega
    · have := ih (h.receive m) ho
      rw [List.length_append, List.length_singleton] at this
      rw [List.length_cons]
      omega

end

/-- What is done on behalf of the message of this number. -/
def actionsFor (ms : List SentSignal) (i : Nat) : List SignalAction :=
  ((start.run ms).filter (·.cause = i)).map (·.action)

/-- It is done during that message, and during the next one. -/
theorem actionsFor_eq (pre : List SentSignal) (m : SentSignal) (post : List SentSignal) :
    let s := start.after pre
    actionsFor (pre ++ m :: post) pre.length =
      (((s.receive m.message).2.toList ++ (s.receive m.message).1.run (post.take 1)).filter
        (·.cause = pre.length)).map (·.action) := by
  intro s
  have hs : At pre s := At.start.after pre
  have hnext := hs.receive m
  have hrest := hnext.after (post.take 1)
  have hbefore : (start.run pre).filter (·.cause = pre.length) = [] := by
    refine List.filter_eq_nil_iff.mpr fun o ho => ?_
    have := mem_run At.start ho
    simp only [List.length_nil, decide_eq_true_eq] at this ⊢
    omega
  have hbehind : (((s.receive m.message).1.after (post.take 1)).run (post.drop 1)).filter
      (·.cause = pre.length) = [] := by
    refine List.filter_eq_nil_iff.mpr fun o ho => ?_
    have hmem := mem_run hrest ho
    cases post with
    | nil => cases ho
    | cons r rest =>
      simp only [List.length_append, List.length_singleton, List.take_succ_cons, List.take_zero,
        decide_eq_true_eq] at hmem ⊢
      omega
  have hsplit : (s.receive m.message).1.run post = (s.receive m.message).1.run (post.take 1) ++
      ((s.receive m.message).1.after (post.take 1)).run (post.drop 1) := by
    rw [← run_append hnext, List.take_append_drop]
  rw [actionsFor, run_append At.start, run_cons hs, hsplit, List.filter_append, List.filter_append,
    List.filter_append, hbefore, hbehind, List.nil_append, List.append_nil, ← List.filter_append]

/-- Nothing is done for a message later on, when the loop does not wait after it. -/
theorem actionsFor_of_done {pre post : List SentSignal}
    (hdone : ((start.after pre).receive m.message).1.waiting = none) :
    actionsFor (pre ++ m :: post) pre.length =
      (((start.after pre).receive m.message).2.toList.filter (·.cause = pre.length)).map
        (·.action) := by
  have hnext := (At.start.after pre).receive m
  have hlater : (((start.after pre).receive m.message).1.run (post.take 1)).filter
      (·.cause = pre.length) = [] := by
    refine List.filter_eq_nil_iff.mpr fun o ho => ?_
    cases post with
    | nil => cases ho
    | cons r rest =>
      rw [List.take_succ_cons, List.take_zero, run_cons hnext, List.mem_append,
        Option.mem_toList] at ho
      rcases ho with ho | ho
      · obtain ⟨-, ⟨hcause, -⟩ | ⟨w, hw, -⟩⟩ := output_receive ho
        · rw [hcause, hnext.count, List.length_append]
          simp
        · rw [hdone] at hw
          cases hw
      · cases ho
  rw [actionsFor_eq, List.filter_append, hlater, List.append_nil]

theorem actionsFor_connectRequest {pre post : List SentSignal} {endpoint senderId : Text}
    (hm : m.signal = .connectRequest endpoint senderId) :
    actionsFor (pre ++ m :: post) pre.length = [.listening senderId] ↔
      (start.after pre).awaited m.message = none ∧ Plain endpoint ∧ Plain senderId := by
  have hs : At pre (start.after pre) := At.start.after pre
  cases hwait : (start.after pre).awaited m.message with
  | some w =>
    have hreceive := receive_awaited hwait
    rw [actionsFor_of_done (by rw [hreceive]; rfl), hreceive]
    dsimp only
    split_ifs
    · simp only [Option.toList_some, List.filter_cons, List.filter_nil]
      split_ifs
      · simp
      · simp
    · simp
  | none =>
    have hreceive := receive_connectRequest hm hwait
    have hcount : (start.after pre).count = pre.length := hs.count
    rw [actionsFor_of_done (by rw [hreceive]; rfl), hreceive]
    dsimp only
    split_ifs with hplain
    · simp [hplain, hcount]
    · simp [hplain]

/-- The next message starts the relay that is waited for, when it comes in time and can be taken for
a `RelayReady`. -/
theorem map_action_receive {pre : List SentSignal} {w : Waiting} (h : At (pre ++ [m]) s)
    (hw : s.waiting = some w) (hcause : w.cause = pre.length) (r : SentSignal) :
    ((s.receive r.message).2.toList.filter (·.cause = pre.length)).map (·.action) =
      if r.time ≤ w.deadline ∧ Plain r.signal.protocol ∧ Plain r.signal.endpoint then
        [.relayed w.addr]
      else [] := by
  by_cases htime : r.time ≤ w.deadline
  · have hwait : s.awaited r.message = some w := by
      rw [awaited, hw]
      exact if_pos (decide_eq_true htime)
    rw [receive_awaited hwait]
    simp only [htime, true_and]
    split_ifs
    · simp [hcause]
    · rfl
  · rw [if_neg (fun h => htime h.1), List.map_eq_nil_iff, List.filter_eq_nil_iff]
    intro o ho
    rw [Option.mem_toList] at ho
    obtain ⟨-, ⟨hcount, -⟩ | ⟨w', hw', htime', -⟩⟩ := output_receive ho
    · rw [hcount, h.count, List.length_append]
      simp
    · rw [hw] at hw'
      cases hw'
      exact absurd htime' htime

theorem actionsFor_relayConnection {pre post : List SentSignal} {endpoint : Text}
    {addr : SocketAddr} (hm : m.signal = .relayConnection endpoint addr) :
    actionsFor (pre ++ m :: post) pre.length = [.relayed addr] ↔
      (start.after pre).awaited m.message = none ∧ Plain endpoint ∧
        ∃ r ∈ post.head?, r.time ≤ ((start.after pre).done m.message).now + 10000 ∧
          Plain r.signal.protocol ∧ Plain r.signal.endpoint := by
  have hs : At pre (start.after pre) := At.start.after pre
  have hcount : (start.after pre).count = pre.length := hs.count
  cases hwait : (start.after pre).awaited m.message with
  | some w =>
    have hreceive := receive_awaited hwait
    rw [actionsFor_of_done (by rw [hreceive]; rfl), hreceive]
    rw [awaited, Option.filter_eq_some_iff] at hwait
    obtain ⟨before, m', -, hpre, -, -, hcause, -⟩ := hs.waiting w hwait.1
    have hne : w.cause ≠ pre.length := by
      have hlength : pre.length = before.length + 1 := by
        rw [hpre, List.length_append]
        rfl
      omega
    dsimp only
    split_ifs
    · simp [hne]
    · simp
  | none =>
    have hreceive := receive_relayConnection hm hwait
    by_cases hplain : Plain endpoint
    · rw [if_pos hplain] at hreceive
      have hnext := hs.receive m
      rw [actionsFor_eq, hreceive]
      rw [hreceive] at hnext
      cases post with
      | nil => simp [run, outputs]
      | cons r rest =>
        have hactions := map_action_receive hnext rfl hcount r
        have hnil (t : SignalLoop) : t.run [] = [] := rfl
        rw [List.take_succ_cons, List.take_zero, run_cons hnext, hnil, List.append_nil,
          Option.toList_none, List.nil_append, hactions]
        simp only [List.head?_cons, Option.mem_some_iff, exists_eq_left', hplain, true_and]
        split_ifs with hready
        · simpa using hready
        · simpa using hready
    · rw [if_neg hplain] at hreceive
      rw [actionsFor_of_done (by rw [hreceive]; rfl), hreceive]
      simp [hplain]

/-- Where an output comes from. -/
theorem exists_of_mem_run {ms : List SentSignal} {o : SignalOutput} (ho : o ∈ start.run ms) :
    ∃ pre m post, ms = pre ++ m :: post ∧ o ∈ ((start.after pre).receive m.message).2 := by
  induction ms using List.reverseRecOn with
  | nil => cases ho
  | append_singleton ms m ih =>
    have hs : At ms (start.after ms) := At.start.after ms
    rw [run_append At.start, List.mem_append, run_cons hs, List.mem_append, Option.mem_toList] at ho
    rcases ho with ho | ho | ho
    · obtain ⟨pre, m', post, hms, ho'⟩ := ih ho
      exact ⟨pre, m', post ++ [m], by simp [hms], ho'⟩
    · exact ⟨ms, m, [], rfl, ho⟩
    · cases ho

/-! ## Serving the devices -/

/-- The messages come in the order of their times, and a device that sends a `RelayConnection` sends
its `RelayReady` within ten seconds. -/
structure Timely (ms : List SentSignal) : Prop where
  inOrder : ms.Pairwise (·.time ≤ ·.time)
  ready : ∀ {i} {m : SentSignal}, ms[i]? = some m → m.signal.isRelayConnection = true →
    ∃ (j : Nat) (r : SentSignal), i < j ∧ ms[j]? = some r ∧ r.sender = m.sender ∧
      r.signal.isRelayReady = true ∧ r.time ≤ m.time + 10000

/-- Every `ConnectRequest` is answered with one `Listening` for its sender, a `RelayConnection` that
its sender follows up with `RelayReady` leads to one relayed connection, and none is started before
a `RelayReady` is there. -/
structure Served (ms : List SentSignal) : Prop where
  answered : ∀ {i} {m : SentSignal} {endpoint senderId}, ms[i]? = some m →
    m.signal = .connectRequest endpoint senderId → actionsFor ms i = [.listening senderId]
  relayed : ∀ {i} {m : SentSignal} {endpoint addr}, ms[i]? = some m →
    m.signal = .relayConnection endpoint addr →
    (∃ (j : Nat) (r : SentSignal), i < j ∧ ms[j]? = some r ∧ r.sender = m.sender ∧
      r.signal.isRelayReady = true) → actionsFor ms i = [.relayed addr]
  notBefore : ∀ {o addr}, o ∈ start.run ms → o.action = .relayed addr →
    ∃ (j : Nat) (r : SentSignal), o.cause < j ∧ j ≤ o.during ∧ ms[j]? = some r ∧
      r.signal.isRelayReady = true

/-- The strings of the requests need no escape, and right behind each `RelayConnection` comes a
`RelayReady` that needs none. -/
structure InTurn (ms : List SentSignal) : Prop where
  plain : ∀ m ∈ ms, m.signal.PlainRequest
  ready : ∀ {i} {m : SentSignal}, ms[i]? = some m → m.signal.isRelayConnection = true →
    ∃ r : SentSignal, ms[i + 1]? = some r ∧ r.signal.PlainReady

theorem exists_split {ms : List SentSignal} {i : Nat} (h : ms[i]? = some m) :
    ∃ pre post, ms = pre ++ m :: post ∧ pre.length = i := by
  obtain ⟨hi, rfl⟩ := List.getElem?_eq_some_iff.mp h
  exact ⟨ms.take i, ms.drop (i + 1), by simp, by simp [hi.le]⟩

/-- While the devices take turns, the loop waits for nothing but a `RelayReady`. -/
theorem awaited_eq_none {pre post : List SentSignal} (h : InTurn (pre ++ m :: post))
    (hm : ¬ m.signal.PlainReady) : (start.after pre).awaited m.message = none := by
  have hs : At pre (start.after pre) := At.start.after pre
  rw [Option.eq_none_iff_forall_ne_some]
  intro w hw
  rw [awaited, Option.filter_eq_some_iff] at hw
  obtain ⟨before, m', endpoint, hpre, hm', -⟩ := hs.waiting w hw.1
  obtain ⟨r, hr, hready⟩ := h.ready (i := before.length) (m := m') (by simp [hpre])
    (by rw [hm']; rfl)
  have hrm : r = m := by simpa [hpre] using hr.symm
  exact hm (hrm ▸ hready)

theorem Timely.time_le {ms : List SentSignal} (h : Timely ms) {i j : Nat} {a b : SentSignal}
    (ha : ms[i]? = some a) (hb : ms[j]? = some b) (hij : i ≤ j) : a.time ≤ b.time := by
  obtain ⟨hi, rfl⟩ := List.getElem?_eq_some_iff.mp ha
  obtain ⟨hj, rfl⟩ := List.getElem?_eq_some_iff.mp hb
  rcases hij.eq_or_lt with rfl | hlt
  · exact le_rfl
  · exact List.pairwise_iff_getElem.mp h.inOrder i j hi hj hlt

theorem getElem?_next (pre : List SentSignal) (m : SentSignal) (post : List SentSignal) :
    (pre ++ m :: post)[pre.length + 1]? = post.head? := by
  rw [List.getElem?_append_right (Nat.le_add_right _ _), Nat.add_sub_cancel_left,
    List.getElem?_cons_succ, List.head?_eq_getElem?]

theorem served_of_inTurn {ms : List SentSignal} (htimely : Timely ms) (h : InTurn ms) :
    Served ms where
  answered := by
    intro i m endpoint senderId hi hm
    obtain ⟨pre, post, rfl, rfl⟩ := exists_split hi
    have hplain := h.plain m (by simp)
    rw [hm] at hplain
    exact (actionsFor_connectRequest hm).mpr
      ⟨awaited_eq_none h (by rw [hm]; exact id), hplain.1, hplain.2⟩
  relayed := by
    intro i m endpoint addr hi hm _
    have hconnection : m.signal.isRelayConnection = true := by rw [hm]; rfl
    obtain ⟨r, hr, hready⟩ := h.ready hi hconnection
    obtain ⟨j, rj, hj, hrj, -, -, htime⟩ := htimely.ready hi hconnection
    obtain ⟨pre, post, rfl, rfl⟩ := exists_split hi
    have hplain := h.plain m (by simp)
    rw [hm] at hplain
    have hnow : m.time ≤ ((start.after pre).done m.message).now :=
      (le_max_right (start.after pre).now m.time).trans (Nat.le_add_right _ _)
    have hrtime := (htimely.time_le hr hrj hj).trans htime
    rw [getElem?_next] at hr
    refine (actionsFor_relayConnection hm).mpr
      ⟨awaited_eq_none h (by rw [hm]; exact id), hplain, r, hr,
        hrtime.trans (Nat.add_le_add_right hnow _), ?_⟩
    cases hsignal : r.signal with
    | relayReady =>
      rw [hsignal] at hready
      exact ⟨Signal.plain_oneToOne, hready⟩
    | _ =>
      rw [hsignal] at hready
      exact hready.elim
  notBefore := by
    intro o addr ho haction
    obtain ⟨pre, m, post, rfl, ho'⟩ := exists_of_mem_run ho
    have hs : At pre (start.after pre) := At.start.after pre
    obtain ⟨hduring, ⟨-, hne⟩ | ⟨w, hw, -, hcause, -⟩⟩ := output_receive ho'
    · exact absurd haction (hne addr)
    · obtain ⟨before, m', endpoint, hpre, hm', -, hwcause, -⟩ := hs.waiting w hw
      obtain ⟨r, hr, hready⟩ := h.ready (i := before.length) (m := m') (by simp [hpre])
        (by rw [hm']; rfl)
      have hlength : pre.length = before.length + 1 := by
        rw [hpre, List.length_append]
        rfl
      refine ⟨before.length + 1, r, ?_, ?_, hr, ?_⟩
      · rw [hcause, hwcause]
        exact Nat.lt_succ_self _
      · rw [hduring, hs.count, hlength]
      · cases hsignal : r.signal with
        | relayReady => rfl
        | _ =>
          rw [hsignal] at hready
          exact hready.elim

theorem inTurn_of_served {ms : List SentSignal} (htimely : Timely ms) (h : Served ms) :
    InTurn ms := by
  have hconnection {i : Nat} {m : SentSignal} (hi : ms[i]? = some m) {endpoint : Text}
      {addr : SocketAddr} (hm : m.signal = .relayConnection endpoint addr) :
      Plain endpoint ∧ ∃ r : SentSignal, ms[i + 1]? = some r ∧ r.signal.PlainReady := by
    obtain ⟨j, rj, hj, hrj, hsender, hready, -⟩ := htimely.ready hi (by rw [hm]; rfl)
    have hactions := h.relayed hi hm ⟨j, rj, hj, hrj, hsender, hready⟩
    have hmem : SignalAction.relayed addr ∈ actionsFor ms i := by
      rw [hactions]
      exact List.mem_singleton_self _
    obtain ⟨o, ho, haction⟩ := List.mem_map.mp hmem
    obtain ⟨ho, hcause⟩ := List.mem_filter.mp ho
    have hduring := (mem_run At.start ho).2.2.2
    obtain ⟨k, r, hk, hk', hr, hrready⟩ := h.notBefore ho haction
    have hki : k = i + 1 := by
      have := of_decide_eq_true hcause
      omega
    subst hki
    obtain ⟨pre, post, rfl, rfl⟩ := exists_split hi
    obtain ⟨-, hplain, r', hr', -, -, hendpoint⟩ := (actionsFor_relayConnection hm).mp hactions
    rw [Option.mem_def, ← getElem?_next pre m, hr] at hr'
    cases hr'
    refine ⟨hplain, r, hr, ?_⟩
    cases hsignal : r.signal with
    | relayReady =>
      rw [hsignal] at hendpoint
      exact hendpoint
    | _ =>
      rw [hsignal] at hrready
      cases hrready
  constructor
  · intro m hmem
    obtain ⟨i, hi⟩ := List.mem_iff_getElem?.mp hmem
    cases hm : m.signal with
    | connectRequest endpoint senderId =>
      have hactions := h.answered hi hm
      obtain ⟨pre, post, rfl, rfl⟩ := exists_split hi
      exact ((actionsFor_connectRequest hm).mp hactions).2
    | relayConnection => exact (hconnection hi hm).1
    | relayReady => trivial
    | closeSessions => trivial
  · intro i m hi hm
    cases hsignal : m.signal with
    | relayConnection => exact (hconnection hi hsignal).2
    | _ =>
      rw [hsignal] at hm
      cases hm

/-- A device asks the host to listen, and one reaches it over a relay. -/
def oneByOne : List SentSignal :=
  [⟨0, .connectRequest ['h'] ['a'], 0, 5⟩,
    ⟨1, .relayConnection ['h'] ⟨['1', ':', '9'], rfl⟩, 10, 80⟩, ⟨1, .relayReady ['h'], 40, 0⟩]

/-- A device asks the host to listen while the host waits for the relay of another one. -/
def overtaking : List SentSignal :=
  [⟨1, .relayConnection ['h'] ⟨['1', ':', '9'], rfl⟩, 0, 5⟩,
    ⟨0, .connectRequest ['h'] ['a'], 10, 5⟩, ⟨1, .relayReady ['h'], 20, 0⟩]

end SignalLoop

end HopToDesk.Host
