import ShinzoGenerator.Defradb.NetworkHandler

/-! What a stopped network leaves behind. A stop resets its peers and then waits; a
connection attempt that is in flight at that moment may still succeed. -/

set_option autoImplicit false

namespace ShinzoGenerator.Defradb

open NetworkHandler

/-- Inside a tick: the loop goes on to spawn connection attempts. -/
def Loop.inTick : Loop → Bool
  | .entering | .selecting _ => false
  | _ => true

/-- No connection attempt is in flight or about to be spawned. -/
structure AtRest (handler : NetworkHandler) : Prop where
  starts : handler.starts = []
  attempts : handler.attempts = []
  loops : ∀ loop ∈ handler.loops, loop.inTick = false

instance (handler : NetworkHandler) : Decidable (AtRest handler) :=
  decidable_of_iff (handler.starts = [] ∧ handler.attempts = [] ∧
      ∀ loop ∈ handler.loops, loop.inTick = false)
    ⟨fun rest => ⟨rest.1, rest.2.1, rest.2.2⟩, fun rest => ⟨rest.starts, rest.attempts, rest.loops⟩⟩

/-- No tracked peer is connected. -/
def NoneConnected (handler : NetworkHandler) : Prop :=
  ∀ peer ∈ handler.peers, peer.state ≠ .connected

/-- A stop takes effect only when no connection attempt is in flight, and while it waits
no reconnection tick is taken and no start begins. -/
def Calm (handler : NetworkHandler) : NetworkMove → Prop
  | .stopNetwork => handler.networkActive = true → AtRest handler
  | .tick _ | .startNetwork _ => handler.stopping = 0
  | _ => True

instance (handler : NetworkHandler) : (move : NetworkMove) → Decidable (Calm handler move)
  | .stopNetwork => inferInstanceAs (Decidable (handler.networkActive = true → AtRest handler))
  | .tick _ | .startNetwork _ => inferInstanceAs (Decidable (handler.stopping = 0))
  | .continueStart _ _ _ | .stopReturns | .addPeer _ | .enterSelect | .loopStops _
  | .checkPeerHealth _ | .collect | .spawn _ | .attemptReconnect _ | .continueAttempt _ _ =>
      .isTrue trivial

/-- What holds while a stop waits and after it has returned. -/
structure Down (handler : NetworkHandler) : Prop where
  inactive : handler.networkActive = false
  rest : AtRest handler
  none : NoneConnected handler

structure StopsCleanly (handler : NetworkHandler) : Prop where
  waiting : 0 < handler.stopping → Down handler
  returned : handler.stopped = true → Down handler ∧ handler.loops = []

theorem noneConnected_stopNetwork {handler : NetworkHandler}
    (active : handler.networkActive = true) : NoneConnected handler.stopNetwork := by
  intro peer member
  rw [stopNetwork, if_pos active] at member
  obtain ⟨_, _, rfl⟩ := List.mem_map.mp member
  simp

theorem stopsCleanly_stopNetwork {handler : NetworkHandler} (clean : StopsCleanly handler)
    (calm : handler.networkActive = true → AtRest handler) :
    StopsCleanly handler.stopNetwork := by
  by_cases active : handler.networkActive = true
  · have none := noneConnected_stopNetwork active
    have still := calm active
    have fresh : handler.stopped = false := by
      by_contra stopped
      rw [Bool.not_eq_false] at stopped
      rw [(clean.returned stopped).1.inactive] at active
      cases active
    rw [stopNetwork, if_pos active] at none ⊢
    refine ⟨fun _ => ⟨rfl, ⟨still.starts, still.attempts, still.loops⟩, none⟩, fun stopped => ?_⟩
    rw [show handler.stopped = true from stopped] at fresh
    cases fresh
  · rw [stopNetwork, if_neg active]
    exact clean

/-- A new peer is not connected, and nobody connects it while the network is down. -/
theorem Down.addPeer {handler : NetworkHandler} (down : Down handler) (address : String) :
    Down (handler.addPeer address) := by
  have rest : AtRest handler := down.rest
  rw [NetworkHandler.addPeer]
  split
  · exact ⟨down.inactive, ⟨rest.starts, rest.attempts, rest.loops⟩, down.none⟩
  · rw [if_neg (by rw [down.inactive]; exact Bool.false_ne_true)]
    refine ⟨down.inactive, ⟨rest.starts, rest.attempts, rest.loops⟩, ?_⟩
    intro peer member
    rcases List.mem_append.mp member with old | new
    · exact down.none peer old
    · rw [List.mem_singleton.mp new]
      simp

/-- A loop that moves between its entry and its select leaves the network down. -/
theorem Down.moveLoop {handler : NetworkHandler} (down : Down handler) {loop next : Loop}
    (outside : next.inTick = false) : Down (handler.moveLoop loop next) := by
  refine ⟨down.inactive, ⟨down.rest.starts, down.rest.attempts, ?_⟩, down.none⟩
  intro other member
  rcases List.mem_cons.mp member with rfl | kept
  · exact outside
  · exact down.rest.loops other (List.mem_of_mem_erase kept)

/-! ### Moves that connect -/

/-- A move of a tick, of a connection attempt or of a start that has begun. -/
def NetworkMove.connects : NetworkMove → Bool
  | .continueStart _ _ _ | .checkPeerHealth _ | .collect | .spawn _ | .attemptReconnect _
  | .continueAttempt _ _ => true
  | _ => false

/-- While the network is down there is nothing that could connect. -/
theorem Down.idle {handler : NetworkHandler} (down : Down handler) {move : NetworkMove}
    (enabled : networkEnabled handler move) : move.connects = false := by
  obtain ⟨starts, attempts, loops⟩ := down.rest
  cases move with
  | continueStart call outcome next =>
      have member := enabled.1
      rw [starts] at member
      cases member
  | checkPeerHealth active => cases loops _ enabled
  | collect => cases loops _ enabled
  | spawn addresses => cases loops _ enabled
  | attemptReconnect address =>
      have member : ReconnectAttempt.pending address ∈ handler.attempts := enabled
      rw [attempts] at member
      cases member
  | continueAttempt connection outcome =>
      have member := enabled.1
      rw [attempts] at member
      cases member
  | _ => rfl

/-- Neither a stop begins nor one returns, and no caller comes. -/
def SameControl (before after : NetworkHandler) : Prop :=
  after.stopping = before.stopping ∧ after.stopped = before.stopped

theorem sameControl_continueConnect (config : NetworkConfig) (connection : Connection)
    (outcome : Outcome) (handler : NetworkHandler) :
    SameControl handler (handler.continueConnect config connection outcome).1 := by
  cases outcome with
  | delayOver =>
      rw [continueConnect]
      split <;> exact ⟨rfl, rfl⟩
  | _ => exact ⟨rfl, rfl⟩

theorem sameControl_proceed (config : NetworkConfig) (initial visited : List String)
    (next : Option String) (handler : NetworkHandler) :
    SameControl handler (handler.proceed config initial visited next) := by
  cases next with
  | some address => exact ⟨rfl, rfl⟩
  | none =>
      rw [proceed, startReconnectionLoop]
      split <;> exact ⟨rfl, rfl⟩

theorem sameControl_continueStart (config : NetworkConfig) (call : StartCall)
    (outcome : Outcome) (next : Option String) (handler : NetworkHandler) :
    SameControl handler (handler.continueStart config call outcome next) := by
  have connected := sameControl_continueConnect config call.connection outcome handler
  rw [continueStart]
  cases going : (handler.continueConnect config call.connection outcome).2 with
  | some connection =>
      simp only [going]
      exact ⟨connected.1, connected.2⟩
  | none =>
      simp only [going]
      exact ⟨(sameControl_proceed ..).1.trans connected.1,
        (sameControl_proceed ..).2.trans connected.2⟩

theorem sameControl_attemptReconnect (address : String) (handler : NetworkHandler) :
    SameControl handler (handler.attemptReconnect address) := by
  rw [attemptReconnect]
  split
  · exact ⟨rfl, rfl⟩
  · split <;> exact ⟨rfl, rfl⟩

theorem sameControl_connects (config : NetworkConfig) (handler : NetworkHandler)
    {move : NetworkMove} (connects : move.connects = true) :
    SameControl handler (networkEffect config handler move) := by
  cases move with
  | continueStart call outcome next => exact sameControl_continueStart ..
  | checkPeerHealth active => cases active <;> exact ⟨rfl, rfl⟩
  | collect => exact ⟨rfl, rfl⟩
  | spawn addresses => exact ⟨rfl, rfl⟩
  | attemptReconnect address => exact sameControl_attemptReconnect ..
  | continueAttempt connection outcome => exact sameControl_continueConnect ..
  | _ => cases connects

/-! ### Runs -/

theorem stopsCleanly_of_running {handler : NetworkHandler} (running : handler.stopping = 0)
    (fresh : handler.stopped = false) : StopsCleanly handler := by
  refine ⟨fun waiting => ?_, fun stopped => ?_⟩
  · rw [running] at waiting
    cases waiting
  · rw [fresh] at stopped
    cases stopped

theorem stopsCleanly_connects (config : NetworkConfig) {handler : NetworkHandler}
    (clean : StopsCleanly handler) {move : NetworkMove} (enabled : networkEnabled handler move)
    (connects : move.connects = true) : StopsCleanly (networkEffect config handler move) := by
  have up : ¬ Down handler := by
    intro down
    rw [down.idle enabled] at connects
    cases connects
  obtain ⟨stopping, stopped⟩ := sameControl_connects config handler connects
  refine ⟨fun waiting => ?_, fun returned => ?_⟩
  · rw [stopping] at waiting
    exact absurd (clean.waiting waiting) up
  · rw [stopped] at returned
    exact absurd (clean.returned returned).1 up

theorem stopsCleanly_startNetwork (config : NetworkConfig) {handler : NetworkHandler}
    (next : Option String) (settled : handler.stopping = 0) :
    StopsCleanly (handler.startNetwork config next) := by
  rw [startNetwork]
  split
  · exact stopsCleanly_of_running settled rfl
  · have kept := sameControl_proceed config handler.tracked [] next { handler with stopped := false }
    exact stopsCleanly_of_running (kept.1.trans settled) kept.2

theorem stopsCleanly_addPeer {handler : NetworkHandler} (clean : StopsCleanly handler)
    (address : String) : StopsCleanly (handler.addPeer address) := by
  have control : (handler.addPeer address).stopping = handler.stopping ∧
      (handler.addPeer address).stopped = false := by
    rw [addPeer]
    split
    · exact ⟨rfl, rfl⟩
    · split <;> exact ⟨rfl, rfl⟩
  refine ⟨fun waiting => ?_, fun stopped => ?_⟩
  · rw [control.1] at waiting
    exact (clean.waiting waiting).addPeer address
  · rw [control.2] at stopped
    cases stopped

/-- A loop stays outside its tick, and after a stop has returned there is none. -/
theorem stopsCleanly_moveLoop {handler : NetworkHandler} (clean : StopsCleanly handler)
    {loop next : Loop} (member : loop ∈ handler.loops)
    (outside : 0 < handler.stopping → next.inTick = false) :
    StopsCleanly (handler.moveLoop loop next) := by
  refine ⟨fun waiting => (clean.waiting waiting).moveLoop (outside waiting), fun stopped => ?_⟩
  rw [(clean.returned stopped).2] at member
  cases member

theorem stopsCleanly_step (config : NetworkConfig) {handler : NetworkHandler}
    {move : NetworkMove} (clean : StopsCleanly handler)
    (enabled : networkEnabled handler move) (calm : Calm handler move) :
    StopsCleanly (networkEffect config handler move) := by
  cases move with
  | startNetwork next => exact stopsCleanly_startNetwork config next calm
  | stopNetwork => exact stopsCleanly_stopNetwork clean calm
  | stopReturns =>
      have down := clean.waiting enabled.1
      have left : Down (networkEffect config handler .stopReturns) :=
        ⟨down.inactive, ⟨down.rest.starts, down.rest.attempts, down.rest.loops⟩, down.none⟩
      exact ⟨fun _ => left, fun _ => ⟨left, enabled.2.1⟩⟩
  | addPeer address => exact stopsCleanly_addPeer clean address
  | enterSelect => exact stopsCleanly_moveLoop clean enabled fun _ => rfl
  | loopStops channel =>
      have fewer : ∀ down : Down handler, Down (networkEffect config handler (.loopStops channel)) :=
        fun down => ⟨down.inactive, ⟨down.rest.starts, down.rest.attempts,
          fun loop member => down.rest.loops loop (List.mem_of_mem_erase member)⟩, down.none⟩
      refine ⟨fun waiting => fewer (clean.waiting waiting), fun stopped => ?_⟩
      have gone := (clean.returned stopped).2
      have member := enabled.1
      rw [gone] at member
      cases member
  | tick stop =>
      have settled : handler.stopping = 0 := calm
      refine stopsCleanly_moveLoop clean enabled fun waiting => ?_
      rw [settled] at waiting
      cases waiting
  | _ => exact stopsCleanly_connects config clean enabled rfl

/-- In a calm run no peer is connected from the return of a stop to the next call. -/
theorem calm_stop_disconnects {config : NetworkConfig} {handler : NetworkHandler}
    (path : ((network config).restrict Calm).Path (newNetworkHandler config) handler)
    (stopped : handler.stopped = true) : NoneConnected handler := by
  have clean : StopsCleanly handler := path.invariant (stopsCleanly_of_running rfl rfl)
    fun _ _ clean enabled => stopsCleanly_step config clean enabled.1 enabled.2
  exact (clean.returned stopped).1.none

/-! A connection that succeeds while the stop waits, and one before it. -/

def manualConfig : NetworkConfig where
  bootstrapPeers := []
  enableAutoReconnect := false

def firstDial (address : String) : Connection := ⟨address, 0, false⟩

theorem late_dial_connected :
    ∃ handler, (network manualConfig).Path (newNetworkHandler manualConfig) handler ∧
      handler.stopped = true ∧ ¬ NoneConnected handler := by
  have executed : ((network manualConfig).run?
      [.startNetwork none, .addPeer "peer", .attemptReconnect "peer", .stopNetwork,
        .continueAttempt (firstDial "peer") .dialed, .stopReturns]
      (newNetworkHandler manualConfig)).any
      (fun handler => handler.stopped && handler.peers.any (·.state = .connected)) = true := by
    decide
  obtain ⟨handler, reached, facts⟩ := GuardedSystem.exists_path_of_run? executed
  rw [Bool.and_eq_true, List.any_eq_true] at facts
  obtain ⟨stopped, peer, member, connected⟩ := facts
  exact ⟨handler, reached, stopped, fun none => none peer member (of_decide_eq_true connected)⟩

theorem settled_peer_disconnected :
    ∃ handler, ((network manualConfig).restrict Calm).Path (newNetworkHandler manualConfig) handler ∧
      handler.stopped = true ∧ handler.tracked = ["peer"] ∧ NoneConnected handler := by
  have executed : (((network manualConfig).restrict Calm).run?
      [.startNetwork none, .addPeer "peer", .attemptReconnect "peer",
        .continueAttempt (firstDial "peer") .dialed, .stopNetwork, .stopReturns]
      (newNetworkHandler manualConfig)).any
      (fun handler => handler.stopped && handler.tracked = ["peer"]) = true := by
    decide
  obtain ⟨handler, reached, facts⟩ := GuardedSystem.exists_path_of_run? executed
  rw [Bool.and_eq_true, decide_eq_true_eq] at facts
  exact ⟨handler, reached, facts.1, facts.2, calm_stop_disconnects reached facts.1⟩

end ShinzoGenerator.Defradb
