import Mathlib.Data.List.Basic
import ShinzoGenerator.Lib.GuardedSystem

/-! The peer-to-peer network handler. Every section under `peersMu` is one move: a
connection attempt gives the lock up for each dial and each delay, reconnection ticks
spawn attempts of their own, and a stop waits for all goroutines before it returns. -/

set_option autoImplicit false

namespace ShinzoGenerator.Defradb

inductive ConnectionState where
  | disconnected
  | connecting
  | connected
  | reconnecting
  | failed
deriving DecidableEq

structure PeerState where
  address : String
  state : ConnectionState := .disconnected
  retryCount : Nat := 0
  lastError : Option String := none
deriving DecidableEq

structure NetworkConfig where
  bootstrapPeers : List String
  maxRetries : Nat := 0
  enableAutoReconnect : Bool

def NetworkConfig.retries (config : NetworkConfig) : Nat :=
  if config.maxRetries = 0 then 5 else config.maxRetries

/-- A connection attempt without the lock: in a dial, or in the delay behind it. -/
structure Connection where
  address : String
  attempt : Nat
  delaying : Bool
deriving DecidableEq

/-- A goroutine of `attemptReconnect`. -/
inductive ReconnectAttempt where
  | pending (address : String)
  | connecting (connection : Connection)
deriving DecidableEq

/-- Where a reconnection loop is. It reads the stop channel when it enters its select. -/
inductive Loop where
  | entering
  | selecting (stop : Option Nat)
  | checking
  | collecting
  | spawning (addresses : List String)
deriving DecidableEq

/-- A call of `StartNetwork` that has given the lock up: the peers that its iteration has
to visit, those it has visited, and the connection it makes. -/
structure StartCall where
  initial : List String
  visited : List String
  connection : Connection
deriving DecidableEq

structure NetworkHandler where
  peers : List PeerState
  networkActive : Bool := false
  reconnectStop : Option Nat := none
  /-- The number of stop channels made, and those that were closed. -/
  channels : Nat := 0
  closed : List Nat := []
  loops : List Loop := []
  attempts : List ReconnectAttempt := []
  starts : List StartCall := []
  /-- The number of stops that wait for the goroutines. -/
  stopping : Nat := 0
  /-- A stop has returned and neither a start nor a new peer has come since. -/
  stopped : Bool := false

/-- How the time without the lock ends. -/
inductive Outcome where
  | dialed
  | dialFails (error : String)
  | dialCancelled (error : String)
  | delayOver
  | delayCancelled
deriving DecidableEq

def Outcome.afterDelay : Outcome → Bool
  | .delayOver | .delayCancelled => true
  | _ => false

/-- Only the caller's context can be cancelled; reconnections use a detached one. -/
def Outcome.cancelled : Outcome → Bool
  | .dialCancelled _ | .delayCancelled => true
  | _ => false

namespace NetworkHandler

def newNetworkHandler (config : NetworkConfig) : NetworkHandler where
  peers := config.bootstrapPeers.dedup.map fun address => { address }

def update (address : String) (change : PeerState → PeerState) (handler : NetworkHandler) :
    NetworkHandler :=
  { handler with
    peers := handler.peers.map fun peer => if peer.address = address then change peer else peer }

def tracked (handler : NetworkHandler) : List String := handler.peers.map PeerState.address

/-! ### Connecting -/

/-- The first section of `connectWithRetryLocked`, up to the dial. -/
def beginConnect (address : String) (handler : NetworkHandler) : NetworkHandler :=
  handler.update address fun peer => { peer with state := .connecting, retryCount := 1 }

/-- A later section: the connection that goes on, if any. -/
def continueConnect (config : NetworkConfig) (connection : Connection) (outcome : Outcome)
    (handler : NetworkHandler) : NetworkHandler × Option Connection :=
  match outcome with
  | .dialed =>
      (handler.update connection.address fun peer =>
        { peer with state := .connected, lastError := none }, none)
  | .dialFails error =>
      (handler.update connection.address fun peer => { peer with lastError := some error },
        some { connection with delaying := true })
  | .dialCancelled error =>
      (handler.update connection.address fun peer =>
        { peer with state := .disconnected, lastError := some error }, none)
  | .delayOver =>
      if connection.attempt + 1 < config.retries then
        (handler.update connection.address fun peer =>
          { peer with retryCount := connection.attempt + 2 },
          some { connection with attempt := connection.attempt + 1, delaying := false })
      else
        (handler.update connection.address fun peer => { peer with state := .failed }, none)
  | .delayCancelled =>
      (handler.update connection.address fun peer => { peer with state := .disconnected }, none)

/-! ### Starting and stopping -/

def startReconnectionLoop (config : NetworkConfig) (handler : NetworkHandler) : NetworkHandler :=
  if config.enableAutoReconnect then
    { handler with
      reconnectStop := some handler.channels
      channels := handler.channels + 1
      loops := .entering :: handler.loops }
  else handler

/-- `StartNetwork` goes on with the next peer of its iteration, or is done. -/
def proceed (config : NetworkConfig) (initial visited : List String) (next : Option String)
    (handler : NetworkHandler) : NetworkHandler :=
  match next with
  | some address =>
      let connecting := handler.beginConnect address
      { connecting with
        starts := ⟨initial, address :: visited, ⟨address, 0, false⟩⟩ :: connecting.starts }
  | none => { handler with networkActive := true }.startReconnectionLoop config

def startNetwork (config : NetworkConfig) (next : Option String) (handler : NetworkHandler) :
    NetworkHandler :=
  let begun := { handler with stopped := false }
  if handler.networkActive then begun else begun.proceed config handler.tracked [] next

/-- The section of a start behind a dial or a delay. -/
def continueStart (config : NetworkConfig) (call : StartCall) (outcome : Outcome)
    (next : Option String) (handler : NetworkHandler) : NetworkHandler :=
  let (connected, going) := handler.continueConnect config call.connection outcome
  let left := { connected with starts := connected.starts.erase call }
  match going with
  | some connection => { left with starts := { call with connection } :: left.starts }
  | none => left.proceed config call.initial call.visited next

/-- The locked section of `StopNetwork`. -/
def stopNetwork (handler : NetworkHandler) : NetworkHandler :=
  if handler.networkActive then
    { handler with
      closed := handler.reconnectStop.toList ++ handler.closed
      reconnectStop := none
      networkActive := false
      peers := handler.peers.map fun peer => { peer with state := .disconnected }
      stopping := handler.stopping + 1 }
  else handler

def addPeer (address : String) (handler : NetworkHandler) : NetworkHandler :=
  let begun := { handler with stopped := false }
  if address ∈ handler.tracked then begun
  else
    let added := { begun with peers := handler.peers ++ [{ address }] }
    if handler.networkActive then { added with attempts := .pending address :: added.attempts }
    else added

/-! ### Reconnecting -/

/-- What stands behind the last `/p2p/`. -/
def extractPeerID (multiaddr : String) : String :=
  let marker := "/p2p/".toList
  match multiaddr.toList.tails.reverse.find? (marker.isPrefixOf ·) with
  | some found => String.ofList (found.drop marker.length)
  | none => ""

/-- Peers that the database does not list any more are taken for disconnected. -/
def checkPeerHealth (active : Option (List String)) (handler : NetworkHandler) : NetworkHandler :=
  match active with
  | none => handler
  | some addresses =>
      let known := addresses ++ (addresses.map extractPeerID).filter (· ≠ "")
      let stillConnected := fun peer : PeerState =>
        peer.address ∈ known ∨ extractPeerID peer.address ≠ "" ∧ extractPeerID peer.address ∈ known
      { handler with
        peers := handler.peers.map fun peer =>
          if peer.state = .connected ∧ ¬ stillConnected peer then
            { peer with
              state := .disconnected
              lastError := some "peer disconnected: no longer in active peer list" }
          else peer }

def disconnectedPeers (handler : NetworkHandler) : List String :=
  (handler.peers.filter fun peer => peer.state = .disconnected ∨ peer.state = .failed).map
    PeerState.address

def moveLoop (loop next : Loop) (handler : NetworkHandler) : NetworkHandler :=
  { handler with loops := next :: handler.loops.erase loop }

/-- The first section of `attemptReconnect`. -/
def attemptReconnect (address : String) (handler : NetworkHandler) : NetworkHandler :=
  let left := { handler with attempts := handler.attempts.erase (.pending address) }
  match handler.peers.find? (·.address = address) with
  | none => left
  | some peer =>
      if peer.state = .connected ∨ peer.state = .connecting ∨ peer.state = .reconnecting then left
      else
        let connecting := left.beginConnect address
        { connecting with attempts := .connecting ⟨address, 0, false⟩ :: connecting.attempts }

def continueAttempt (config : NetworkConfig) (connection : Connection) (outcome : Outcome)
    (handler : NetworkHandler) : NetworkHandler :=
  let (connected, going) := handler.continueConnect config connection outcome
  { connected with
    attempts := going.toList.map .connecting ++ connected.attempts.erase (.connecting connection) }

end NetworkHandler

/-! ### Moves -/

inductive NetworkMove where
  | startNetwork (next : Option String)
  | continueStart (call : StartCall) (outcome : Outcome) (next : Option String)
  | stopNetwork
  | stopReturns
  | addPeer (address : String)
  | enterSelect
  | loopStops (channel : Nat)
  | tick (stop : Option Nat)
  | checkPeerHealth (active : Option (List String))
  | collect
  | spawn (addresses : List String)
  | attemptReconnect (address : String)
  | continueAttempt (connection : Connection) (outcome : Outcome)
deriving DecidableEq

/-- The iteration of a start visits what was there at its beginning, in any order, and may
visit what was added since. -/
def nextPeer (handler : NetworkHandler) (initial visited : List String) :
    Option String → Prop
  | some address => address ∈ handler.tracked ∧ address ∉ visited
  | none => ∀ address ∈ initial, address ∈ visited

instance (handler : NetworkHandler) (initial visited : List String) :
    (next : Option String) → Decidable (nextPeer handler initial visited next)
  | some address => inferInstanceAs (Decidable (address ∈ handler.tracked ∧ address ∉ visited))
  | none => List.decidableBAll (· ∈ visited) initial

def networkEnabled (handler : NetworkHandler) : NetworkMove → Prop
  | .startNetwork next => nextPeer handler handler.tracked [] next
  | .continueStart call outcome next => call ∈ handler.starts ∧
      outcome.afterDelay = call.connection.delaying ∧
      nextPeer handler call.initial call.visited next
  | .stopNetwork | .addPeer _ => True
  | .stopReturns => 0 < handler.stopping ∧ handler.loops = [] ∧ handler.attempts = []
  | .enterSelect => Loop.entering ∈ handler.loops
  | .loopStops channel => Loop.selecting (some channel) ∈ handler.loops ∧ channel ∈ handler.closed
  | .tick stop => Loop.selecting stop ∈ handler.loops
  | .checkPeerHealth _ => Loop.checking ∈ handler.loops
  | .collect => Loop.collecting ∈ handler.loops
  | .spawn addresses => Loop.spawning addresses ∈ handler.loops
  | .attemptReconnect address => ReconnectAttempt.pending address ∈ handler.attempts
  | .continueAttempt connection outcome => ReconnectAttempt.connecting connection ∈ handler.attempts ∧
      outcome.afterDelay = connection.delaying ∧ outcome.cancelled = false

def networkEffect (config : NetworkConfig) (handler : NetworkHandler) : NetworkMove → NetworkHandler
  | .startNetwork next => handler.startNetwork config next
  | .continueStart call outcome next => handler.continueStart config call outcome next
  | .stopNetwork => handler.stopNetwork
  | .stopReturns => { handler with stopping := handler.stopping - 1, stopped := true }
  | .addPeer address => handler.addPeer address
  | .enterSelect => handler.moveLoop .entering (.selecting handler.reconnectStop)
  | .loopStops channel =>
      { handler with loops := handler.loops.erase (.selecting (some channel)) }
  | .tick stop => handler.moveLoop (.selecting stop) .checking
  | .checkPeerHealth active => (handler.checkPeerHealth active).moveLoop .checking .collecting
  | .collect => handler.moveLoop .collecting (.spawning handler.disconnectedPeers)
  | .spawn addresses =>
      let spawned := handler.moveLoop (.spawning addresses) .entering
      { spawned with attempts := addresses.map .pending ++ spawned.attempts }
  | .attemptReconnect address => handler.attemptReconnect address
  | .continueAttempt connection outcome => handler.continueAttempt config connection outcome

def network (config : NetworkConfig) : GuardedSystem NetworkHandler NetworkMove where
  enabled := networkEnabled
  effect := networkEffect config

instance (config : NetworkConfig) (handler : NetworkHandler) :
    (move : NetworkMove) → Decidable ((network config).enabled handler move)
  | .startNetwork next => inferInstanceAs (Decidable (nextPeer handler handler.tracked [] next))
  | .continueStart call outcome next => inferInstanceAs (Decidable (call ∈ handler.starts ∧
      outcome.afterDelay = call.connection.delaying ∧
      nextPeer handler call.initial call.visited next))
  | .stopNetwork | .addPeer _ => .isTrue trivial
  | .stopReturns => inferInstanceAs (Decidable (0 < handler.stopping ∧ handler.loops = [] ∧
      handler.attempts = []))
  | .enterSelect => inferInstanceAs (Decidable (Loop.entering ∈ handler.loops))
  | .loopStops channel => inferInstanceAs (Decidable
      (Loop.selecting (some channel) ∈ handler.loops ∧ channel ∈ handler.closed))
  | .tick stop => inferInstanceAs (Decidable (Loop.selecting stop ∈ handler.loops))
  | .checkPeerHealth _ => inferInstanceAs (Decidable (Loop.checking ∈ handler.loops))
  | .collect => inferInstanceAs (Decidable (Loop.collecting ∈ handler.loops))
  | .spawn addresses => inferInstanceAs (Decidable (Loop.spawning addresses ∈ handler.loops))
  | .attemptReconnect address =>
      inferInstanceAs (Decidable (ReconnectAttempt.pending address ∈ handler.attempts))
  | .continueAttempt connection outcome => inferInstanceAs (Decidable
      (ReconnectAttempt.connecting connection ∈ handler.attempts ∧
        outcome.afterDelay = connection.delaying ∧ outcome.cancelled = false))

end ShinzoGenerator.Defradb
