import HopToDesk.Kit.System
import HopToDesk.Wire.AddrMangle

/-!
# Establishing a connection

`Client::start` of `src/client.rs` with `_connect_both`: a direct connection is tried, and a second
later one over a TURN server of `src/turn_client.rs` beside it, until one of the two is there. Both
futures belong to one task. What the network answers are events; each takes the task from one
`await` to the next.

The connection to the signal server, `sender`, is behind a mutex. `establish_over_relay` holds it
from its first message to its last, and `_connect_both` asks for it to close the connection when the
direct one has won. The handshake that follows is left out, as are timeouts of the direct attempts,
which count as their errors.
-/

set_option autoImplicit false

namespace HopToDesk.Client.Connect

open Kit HopToDesk.Wire

/-! ## Addresses -/

inductive IpAddr
  | v4 (ip : Ipv4Addr)
  | v6 (ip : Ipv6Addr)
deriving DecidableEq

/-- `SocketAddr::ip`. -/
def ip : SocketAddr → IpAddr
  | .v4 ip _ => .v4 ip
  | .v6 ip _ _ _ => .v6 ip

/-- `SocketAddr::port`. -/
def port : SocketAddr → UInt16
  | .v4 _ port => port
  | .v6 _ port _ _ => port

/-- `Peer`, as far as the addresses and the key go. -/
structure Peer where
  localIp : IpAddr
  peerAddr : SocketAddr
  peerPublicAddr : SocketAddr
  peerLanIpv4 : Option SocketAddr
  idPk : List UInt8

namespace Peer

variable (p : Peer)

/-- `is_local`. -/
def isLocal : Bool :=
  match p.peerLanIpv4 with
  | some lanAddr =>
    match p.localIp, ip lanAddr with
    | .v4 my, .v4 peer => my.octets.take 3 = peer.octets.take 3
    | _, _ => false
  | none => false

/-- The end of a list of addresses to try. -/
def tryAlso (addrs : List SocketAddr) (addr : SocketAddr) : List SocketAddr :=
  if port addr ≠ 0 ∧ addr ∉ addrs then addrs ++ [addr] else addrs

/-- `addrs_to_try`, where `publicIp` is what `get_public_ip` says of this side. -/
def addrsToTry (publicIp : Option SocketAddr) : List SocketAddr :=
  let addrs := p.peerLanIpv4.toList.filter (port · ≠ 0)
  let addrs := tryAlso addrs p.peerAddr
  let sameNetwork := publicIp.any fun my => ip my = ip p.peerPublicAddr
  if p.isLocal || !sameNetwork then tryAlso addrs p.peerPublicAddr else addrs

end Peer

/-! ## TURN servers -/

/-- A server of the API's answer, its fields as `as_str` gives them. -/
structure ServerEntry where
  protocol : Option String
  host : Option String
  port : Option String
  username : Option String
  password : Option String

structure TurnConfig where
  addr : String
  username : String
  password : String
  /-- There is a `tls_config`. -/
  tls : Bool
deriving DecidableEq, Repr

/-- The address of a server. An IPv6 host is put in brackets. -/
def serverAddr (host port : String) : String :=
  if ':' ∈ host.toList then "[" ++ host ++ "]:" ++ port else host ++ ":" ++ port

/-- The loop of `get_server_configs`, with the addresses it has seen. -/
def readServers : List ServerEntry → List String → Option (List TurnConfig)
  | [], _ => some []
  | server :: rest, seen => do
    let host ← server.host
    let port ← server.port
    let addr := serverAddr host port
    if addr ∈ seen then readServers rest seen
    else
      let protocol ← server.protocol
      if protocol = "turn" ∨ protocol = "turn-tls" then
        let username ← server.username
        let password ← server.password
        let turnServers ← readServers rest (addr :: seen)
        some (⟨addr, username, password, protocol = "turn-tls"⟩ :: turnServers)
      else readServers rest (addr :: seen)

/-- `get_server_configs`, where the API may give no answer, and an answer may have no list. -/
def getServerConfigs (answer : Option (Option (List ServerEntry))) : Option (List TurnConfig) :=
  match answer with
  | none => none
  | some none => some [⟨"127.0.0.1:3478", "", "", false⟩]
  | some (some turnservers) => readServers turnservers []

/-- `get_turn_servers`: what is cached for less than a minute, else the first of three answers that
holds a server. -/
def getTurnServers (cached : Option (List TurnConfig)) (old : Bool)
    (answers : List (Option (Option (List ServerEntry)))) : Option (List TurnConfig) :=
  match cached, old with
  | some servers, false => some servers
  | _, _ => ((answers.take 3).filterMap getServerConfigs).find? (! ·.isEmpty)

/-! ## The two attempts -/

/-- `connect_directly`. -/
inductive Direct
  /-- Finds out which addresses to try. -/
  | resolving
  | trying (pending : List SocketAddr)
  | connected (addr : SocketAddr)
  | failed (err : String)
deriving DecidableEq

/-- A pass of `connect_over_turn_servers` over one list of servers. -/
structure Pass where
  servers : List TurnConfig
  excluded : List String
  attempt : Nat
  lastErr : Option String
deriving DecidableEq, Repr

namespace Pass

def new (servers : List TurnConfig) : Pass := ⟨servers, [], 0, none⟩

variable (p : Pass)

/-- `max_attempts`. -/
def maxAttempts : Nat := min p.servers.length 5

def candidates : List TurnConfig := p.servers.filter (·.addr ∉ p.excluded)

/-- The next attempt, without the server that failed. -/
def exclude (server err : String) : Pass :=
  { p with excluded := p.excluded ++ [server], attempt := p.attempt + 1, lastErr := some err }

/-- The error when the list is used up. -/
def exhausted : String :=
  let n := max p.excluded.length 1
  let lastErr := p.lastErr.getD "no allocation succeeded"
  s!"Failed to connect via relay server: all {n} candidates exhausted (last error: {lastErr})"

end Pass

/-- Where `establish_over_relay` is. It holds `sender` all the time. -/
inductive Stage
  /-- Sends `RelayConnection`. -/
  | connection
  /-- `wait_new_connection`. -/
  | waiting
  /-- Sends `RelayReady`. -/
  | ready
  /-- Closes `sender`. -/
  | closing
deriving DecidableEq, Repr

/-- `connect_over_turn_servers`. `refreshed` is `forced_refresh_done`. -/
inductive Turn
  | idle
  /-- `get_turn_servers`. -/
  | fetching (refreshed : Bool)
  /-- The candidates that have not said whether they allocate. -/
  | allocating (refreshed : Bool) (pass : Pass) (pending : List TurnConfig)
  | establishing (refreshed : Bool) (pass : Pass) (server : String) (stage : Stage)
  /-- `force_refresh_on_connect_failure`. -/
  | refreshing (pass : Pass)
  | connected (server : String)
  | failed (err : String)
deriving DecidableEq

/-- What goes to the signal server. -/
inductive Signal
  | relayConnection (server : String)
  | relayReady (server : String)
  | close
deriving DecidableEq, Repr

/-- The connection that is returned: its stream, the relayed connection under it, and `direct`. -/
inductive Route
  | direct (addr : SocketAddr)
  | relay (server : String)
deriving DecidableEq

structure Outcome where
  stream : Route
  relay : Option String
  direct : Bool
deriving DecidableEq

/-- Where `_start` is. -/
inductive Phase
  /-- `connect_directly` alone. -/
  | directOnly
  /-- `connect_over_turn` alone. -/
  | relayOnly
  /-- The direct attempt, before `turn_delay` is over. -/
  | early
  | both
  /-- The direct attempt has won; `sender` is asked for, to close it. -/
  | handover (addr : SocketAddr)
  | returned (result : Except String Outcome)

structure Race where
  peer : Peer
  phase : Phase
  direct : Direct
  turn : Turn
  /-- `TURN_SERVERS_CACHE`. -/
  cache : Option (List TurnConfig)
  signals : List Signal

inductive Event
  /-- `get_public_ip` has answered, where it is asked. -/
  | resolved (publicIp : Option SocketAddr)
  | connected (addr : SocketAddr)
  | refused (addr : SocketAddr) (err : String)
  /-- `turn_delay` is over. -/
  | delay
  /-- The cached servers are too old, or not; the API answers. -/
  | fetched (old : Bool) (answers : List (Option (Option (List ServerEntry))))
  | allocated (server : String)
  | unallocated (server : String)
  /-- A stage of `establish_over_relay` is done, or has failed. -/
  | advanced
  | broken (err : String)
  /-- `phase2_timeout`. -/
  | timeout (err : String)
  | refreshed (changed : Bool)
  /-- `sender` is closed for the direct connection. -/
  | closed

namespace Turn

/-- `establish_over_relay` holds `sender`. -/
def holds : Turn → Bool
  | .establishing _ _ _ _ => true
  | _ => false

/-- What follows the attempts of a pass. -/
def afterPass (refreshed : Bool) (pass : Pass) : Turn :=
  if refreshed then .failed pass.exhausted else .refreshing pass

/-- The next attempt of a pass, if there is one. -/
def nextAttempt (refreshed : Bool) (pass : Pass) : Turn :=
  if pass.attempt < pass.maxAttempts ∧ pass.candidates ≠ [] then
    .allocating refreshed pass pass.candidates
  else afterPass refreshed pass

/-- A pass over a list of servers. -/
def beginPass (refreshed : Bool) : Option (List TurnConfig) → Turn
  | none => .failed "empty turn servers!"
  | some [] => .failed "empty turn servers!"
  | some servers => nextAttempt refreshed (.new servers)

/-- A stage that is done: what follows, and what that sends. -/
def advance (refreshed : Bool) (pass : Pass) (server : String) : Stage → Turn × List Signal
  | .connection => (.establishing refreshed pass server .waiting, [])
  | .waiting => (.establishing refreshed pass server .ready, [.relayReady server])
  | .ready => (.establishing refreshed pass server .closing, [.close])
  | .closing => (.connected server, [])

/-- The candidate has no allocation. -/
def drop (refreshed : Bool) (pass : Pass) (pending : List TurnConfig) (server : String) : Turn :=
  match pending.filter (·.addr ≠ server) with
  | [] => afterPass refreshed { pass with
      lastErr := some s!"all {pass.candidates.length} candidate(s) failed to allocate" }
  | pending => .allocating refreshed pass pending

end Turn

namespace Race

variable (s : Race)

/-- The relay attempt is at this, and has sent that. -/
def setTurn (turn : Turn) (signals : List Signal) : Race :=
  { s with turn := turn, signals := s.signals ++ signals }

/-- `_connect_both` and `_start`, once an attempt has come to its end. -/
def settle : Race :=
  match s.phase, s.direct, s.turn with
  | .directOnly, .connected addr, _ =>
    { s with phase := .returned (.ok ⟨.direct addr, none, true⟩) }
  | .directOnly, .failed err, _ => { s with phase := .returned (.error err) }
  | .relayOnly, _, .connected server =>
    { s with phase := .returned (.ok ⟨.relay server, some server, false⟩) }
  | .relayOnly, _, .failed err => { s with phase := .returned (.error err) }
  | .early, .connected addr, _ => { s with phase := .handover addr }
  | .early, .failed _, _ => { s with phase := .both, turn := .fetching false }
  | .both, .connected addr, _ => { s with phase := .handover addr }
  | .both, _, .connected server =>
    { s with phase := .returned (.ok ⟨.relay server, some server, false⟩) }
  | .both, .failed _, .failed err =>
    { s with phase := .returned (.error
        s!"Both connections failed. Direct: direct connection failed, Relay: {err}") }
  | _, _, _ => s

/-- The direct attempt goes on. -/
def nextDirect : Event → Option Direct
  | .resolved publicIp =>
    if s.direct = .resolving then
      match s.peer.addrsToTry publicIp with
      | [] => some (.failed "No valid peer addresses available for direct connection")
      | addrs => some (.trying addrs)
    else none
  | .connected addr =>
    match s.direct with
    | .trying pending => if addr ∈ pending then some (.connected addr) else none
    | _ => none
  | .refused addr err =>
    match s.direct with
    | .trying pending =>
      if addr ∈ pending then
        match pending.erase addr with
        | [] => some (.failed err)
        | pending => some (.trying pending)
      else none
    | _ => none
  | _ => none

/-- The relay attempt goes on. -/
def nextTurn : Event → Option Race
  | .fetched old answers =>
    match s.turn with
    | .fetching refreshed =>
      let servers := getTurnServers s.cache old answers
      some { s with turn := .beginPass refreshed servers, cache := servers.or s.cache }
    | _ => none
  | .allocated server =>
    match s.turn with
    | .allocating refreshed pass pending =>
      if ∃ config ∈ pending, config.addr = server then
        some (s.setTurn (.establishing refreshed pass server .connection) [.relayConnection server])
      else none
    | _ => none
  | .unallocated server =>
    match s.turn with
    | .allocating refreshed pass pending =>
      if ∃ config ∈ pending, config.addr = server then
        some (s.setTurn (.drop refreshed pass pending server) [])
      else none
    | _ => none
  | .advanced =>
    match s.turn with
    | .establishing refreshed pass server stage =>
      let (turn, signals) := Turn.advance refreshed pass server stage
      some (s.setTurn turn signals)
    | _ => none
  | .broken err =>
    match s.turn with
    | .establishing refreshed pass server stage =>
      -- What the close comes to is not looked at.
      if stage = .closing then none
      else some (s.setTurn (.nextAttempt refreshed (pass.exclude server err)) [])
    | _ => none
  | .timeout err =>
    match s.turn with
    | .establishing refreshed pass server _ =>
      some (s.setTurn (.nextAttempt refreshed (pass.exclude server err)) [])
    | _ => none
  | .refreshed changed =>
    match s.turn with
    | .refreshing pass =>
      if changed then some { s with turn := .fetching true, cache := none }
      else some (s.setTurn (.failed pass.exhausted) [])
    | _ => none
  | _ => none

/-- The direct attempt is polled. -/
def pollsDirect : Bool :=
  match s.phase with
  | .directOnly | .early | .both => true
  | _ => false

/-- The relay attempt is polled. -/
def pollsTurn : Bool :=
  match s.phase with
  | .relayOnly | .both => true
  | _ => false

/-- One event. -/
def next (e : Event) : Option Race :=
  match s.phase, e with
  | .early, .delay => some { s with phase := .both, turn := .fetching false }
  | .handover addr, .closed =>
    -- `sender.lock().await` waits for whoever holds it.
    if s.turn.holds then none
    else some { s with
      phase := .returned (.ok ⟨.direct addr, none, true⟩)
      signals := s.signals ++ [.close] }
  | _, e =>
    match (if s.pollsDirect then s.nextDirect e else none) with
    | some direct => some { s with direct := direct }.settle
    | none => if s.pollsTurn then (s.nextTurn e).map settle else none

end Race

/-! ## The start -/

/-- What `_start` finds. -/
structure Start where
  /-- `is_incoming_only`. -/
  incomingOnly : Bool
  /-- The id of the peer is an IP address. -/
  isIp : Bool
  /-- `Peer::from_peer_id`. -/
  fromPeerId : Except String Peer
  /-- `get_peer_info`. -/
  getPeerInfo : Except String Peer
  /-- `force-always-relay` among the options of the peer's config. -/
  forceAlwaysRelay : String
  cache : Option (List TurnConfig)

namespace Start

variable (o : Start)

/-- A race that begins in this phase. -/
def race (peer : Peer) (phase : Phase) : Race :=
  { peer := peer
    phase := phase
    direct := .resolving
    turn := match phase with
      | .relayOnly => .fetching false
      | _ => .idle
    cache := o.cache
    signals := [] }

/-- `_start` and `_connect_both`, up to the first attempt. -/
def begin : Except String Race :=
  if o.incomingOnly then .error "Incoming only mode"
  else if o.isIp then o.fromPeerId.map (o.race · .directOnly)
  else
    match o.getPeerInfo with
    | .ok peer =>
      if peer.idPk.isEmpty then .error "Unable to connect to the remote partner."
      else if o.forceAlwaysRelay = "Y" then .ok (o.race peer .relayOnly)
      else .ok (o.race peer .early)
    | .error _ => o.fromPeerId.map (o.race · .directOnly)

/-- The runs of a start. -/
def system : System Race Event := .stepping (fun s => o.begin = .ok s) Race.next

/-- `start`: what is said of an error. -/
def explain (err : String) : String :=
  if err.startsWith "Failed" then err ++ ": Please try later" else err

end Start

end HopToDesk.Client.Connect
