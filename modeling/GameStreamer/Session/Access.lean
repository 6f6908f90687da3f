import GameStreamer.Session.Revocation
import GameStreamer.Session.ServiceTurn
import GameStreamer.Session.StoredPeers

/-!
# Who reaches the control service

A client is looked up twice: the TLS handshake asks whether the pin of its
certificate is paired, and the accept task asks again for the scope.  The
service then asks for that scope before it hands input to an injector.
Between these steps other clients pair, and the owner arms windows and
revokes peers.  This module joins the models of these parts and proves, for
every order of their steps, that whoever is served had presented the
certificate of a peer which the owner let in, and that input is injected for
nobody with less than the interact scope.
-/

namespace GameStreamer

open Transport

namespace Service

/-! ## The scope of a connection -/

theorem mayInteract_sendMsg (agent : AgentState) (connection : Connection)
    (message : A2C) (sent : Bool) (failed : Flow) :
    (sendMsg agent connection message sent failed).connection.mayInteract =
      connection.mayInteract := by
  rw [sendMsg]
  split <;> rfl

theorem mayInteract_notify (agent : AgentState) (connection : Connection)
    (injected : List (Notification × Bool)) :
    (notify agent connection injected).connection.mayInteract =
      connection.mayInteract := by
  induction injected generalizing agent connection with
  | nil => rfl
  | cons head rest ih =>
      have hsend := mayInteract_sendMsg agent connection
        (.notification head.1) head.2 (.escape .sendFailed)
      simp only [notify, sendOrEscape]
      split
      · exact (ih _ _).trans hsend
      · exact hsend

theorem mayInteract_onHello (agent : AgentState) (connection : Connection)
    (hello : Hello) (env : MessageEnv) :
    (onHello agent connection hello env).connection.mayInteract =
      connection.mayInteract := by
  rw [onHello]
  split
  · dsimp only
    split <;> exact mayInteract_sendMsg _ _ _ _ _
  · exact mayInteract_sendMsg _ _ _ _ _

theorem mayInteract_onStartSession (agent : AgentState)
    (connection : Connection) (request : SessionRequest) (env : MessageEnv) :
    (onStartSession agent connection request env).connection.mayInteract =
      connection.mayInteract := by
  rw [onStartSession]
  split
  · exact mayInteract_sendMsg _ _ _ _ _
  · split <;> exact mayInteract_sendMsg _ _ _ _ _

theorem mayInteract_onMessage (agent : AgentState) (connection : Connection)
    (message : C2A) (env : MessageEnv) :
    (onMessage agent connection message env).connection.mayInteract =
      connection.mayInteract := by
  cases hhelloed : connection.helloed with
  | false =>
      cases message <;> simp only [onMessage, hhelloed]
      case hello hello => exact mayInteract_onHello _ _ _ _
      all_goals exact mayInteract_sendMsg _ _ _ _ _
  | true =>
      cases message <;>
        simp only [onMessage, hhelloed, Bool.not_true, Bool.false_eq_true,
          if_false]
      case hello hello => exact mayInteract_onHello _ _ _ _
      case listSources => exact mayInteract_sendMsg _ _ _ _ _
      case ping clientTsUs => exact mayInteract_sendMsg _ _ _ _ _
      case startSession request => exact mayInteract_onStartSession _ _ _ _
      case stopSession => unfold onStopSession; dsimp only; split <;> rfl
      case packetFeedback feedback => rw [onPacketFeedback]; split <;> rfl
      case setBitrate bitrateBps => rw [onSetBitrate]; split <;> rfl
      case setAbr enabled =>
          unfold onSetAbr
          dsimp only
          split
          · split <;> rfl
          · rfl
      case inputBatch size =>
          rw [onInputBatch]
          split
          · exact mayInteract_notify _ _ _
          · rfl
      all_goals rfl

theorem mayInteract_announce (agent : AgentState) (connection : Connection)
    (point : Option UInt32) (sent : Bool) :
    (announce agent connection point sent).connection.mayInteract =
      connection.mayInteract := by
  unfold announce
  split
  · exact mayInteract_sendMsg _ _ _ _ _
  · rfl

theorem mayInteract_sendStats (agent : AgentState) (connection : Connection)
    (env : TickEnv) :
    (sendStats agent connection env).connection.mayInteract =
      connection.mayInteract := by
  rw [sendStats]
  split
  · split
    · exact mayInteract_sendMsg _ _ _ _ _
    · rfl
  · rfl

theorem mayInteract_steer {connection driven : Connection}
    (hsteer : steer connection = some driven) :
    driven.mayInteract = connection.mayInteract := by
  rw [steer] at hsteer
  split at hsteer
  · obtain ⟨target, -, rfl⟩ := Option.map_eq_some_iff.mp hsteer
    rfl
  · obtain rfl := Option.some.inj hsteer
    rfl

theorem mayInteract_onTick (agent : AgentState) (connection : Connection)
    (env : TickEnv) :
    (onTick agent connection env).connection.mayInteract =
      connection.mayInteract := by
  have hticked : (trackPath
      { connection with tickCount := connection.tickCount + 1 }
      env).mayInteract = connection.mayInteract := by
    rw [trackPath]
    split <;> rfl
  rw [onTick]
  dsimp only
  split
  case h_1 => exact hticked
  case h_2 driven hdriven =>
      have hdriven : driven.mayInteract = connection.mayInteract := by
        split at hdriven
        · exact (mayInteract_steer hdriven).trans hticked
        · rw [← Option.some.inj hdriven]
          exact hticked
      have hannounce := fun point =>
        (mayInteract_announce agent driven point env.pointSent).trans hdriven
      split
      · exact (mayInteract_sendStats _ _ env).trans (hannounce _)
      · exact hannounce _

/-- No turn changes what the connection may do. -/
theorem mayInteract_serve (agent : AgentState) (connection : Connection)
    (event : Event) :
    (serve agent connection event).2.mayInteract =
      connection.mayInteract := by
  have hturn : (turn agent connection event).connection.mayInteract =
      connection.mayInteract := by
    cases event with
    | message message env => exact mayInteract_onMessage _ _ _ _
    | tick env => exact mayInteract_onTick _ _ _
    | recoveryReady point sent => exact mayInteract_announce _ _ _ _
    | stamped record => rfl
    | received failed closed => rfl
  rw [serve]
  split
  · rfl
  · rw [finish]
    split
    · exact hturn
    · split <;> exact hturn
    · exact hturn

end Service

namespace Access

/-! ## The agent -/

/-- The accept tasks, the revokes and the pairing connections of one agent,
over one peer store, with what clients presented, what they were granted, and
what reached an injector. -/
structure World where
  /-- The pairing state, the peers and the pairing connections. -/
  pairing : Pairing.World
  /-- The accept tasks and the registry of live connections. -/
  tasks : Revocation.World
  /-- What the control services share. -/
  agent : AgentState
  /-- The connections that `serve_connection` was entered with. -/
  service : ℕ → Option Connection
  address : ℕ → String
  /-- The pin of the certificate that passed the handshake. -/
  presented : ℕ → Option String
  /-- The pin and the scope that a connection is served under. -/
  granted : ℕ → Option (String × Scope)
  /-- The connections with an input batch that reached an injector. -/
  injected : List ℕ

inductive Event where
  /-- A client offers a certificate with this pin, or none. -/
  | handshake (c : ℕ) (certificate : Option String)
  | lookUp (c : ℕ)
  | register (c : ℕ)
  | serve (c : ℕ) (event : Service.Event)
  | pair (c : ℕ) (turn : Pairing.Turn)
  | returned (c : ℕ)
  | unregister (c : ℕ)
  | tick (elapsed : ℕ)
  | arm (drawn : Fin 5 → UInt8) (scope : Scope)
  | poll
  | remove (request : ℕ) (pin : String) (written : Except String Unit)
  | closePeer (request : ℕ)

/-- The agent has started with the peers that it found on disk. -/
def start (devOpen : Bool) (peers : PeerStore) (fingerprint : String)
    (hostCap : Option ℕ) (configMode : VideoMode) (address : ℕ → String) :
    World where
  pairing := Pairing.start peers fingerprint
  tasks := Revocation.start devOpen peers
  agent := ⟨hostCap, configMode, 1, []⟩
  service := fun _ => none
  address := address
  presented := fun _ => none
  granted := fun _ => none
  injected := []

/-- The server's side of the TLS handshake: no client certificate is asked
for in the dev-open mode; else one is optional, and `verify_client_cert` wants
its pin in the store. -/
def handshake (devOpen : Bool) (peers : PeerStore)
    (certificate : Option String) : Except String (Option String) :=
  if devOpen then .ok none
  else
    match certificate with
    | none => .ok none
    | some pin =>
        if (peers.get pin).isSome then .ok (some pin)
        else .error "client is not a paired peer"

section Step

variable (P : Primitives)

/-- A step of an accept task or of a revoke, which see the store of now. -/
def World.task (world : World) (event : Revocation.Event) : Revocation.World :=
  Revocation.step { world.tasks with peers := world.pairing.agent.peers } event

/-- `serve_connection` is entered. -/
def World.enter (world : World) (c : ℕ) (tasks : Revocation.World)
    (scope : Scope) : World :=
  { world with
    tasks := tasks
    service := Function.update world.service c
      (some (.accepted (world.address c) (decide (.interact ≤ scope)))) }

/-- The injector gets the batch of this event. -/
def injects (connection : Connection) : Service.Event → Bool
  | .message message _ =>
      connection.exit.isNone && Service.injects connection message
  | _ => false

/-- What the task of connection `c` awaits has returned. -/
def World.finished (world : World) (c : ℕ) : Bool :=
  match world.tasks.phase c with
  | .serving _ _ | .openServing =>
      (world.service c).any fun connection => connection.exit.isSome
  | .pairing =>
      match world.pairing.connections c with
      | .returned _ => true
      | _ => false
  | _ => false

/-- One step of a task, of a pairing connection or of the owner.  The accept
tasks and the pairing connections see the store as it is then. -/
def step (world : World) : Event → World
  | .handshake c certificate =>
      match handshake world.tasks.devOpen world.pairing.agent.peers
          certificate, world.tasks.phase c with
      | .ok pin, .absent =>
          { world with
            tasks := world.task (.accept c pin)
            presented := Function.update world.presented c pin }
      | _, _ => world
  | .lookUp c =>
      match world.tasks.phase c with
      | .connected _ =>
          if world.tasks.devOpen then
            world.enter c (world.task (.lookUp c)) .interact
          else { world with tasks := world.task (.lookUp c) }
      | _ => world
  | .register c =>
      match world.tasks.phase c with
      | .admitted pin scope =>
          { world.enter c (world.task (.register c)) scope with
            granted := Function.update world.granted c (some (pin, scope)) }
      | _ => world
  | .serve c event =>
      match world.tasks.phase c, world.service c with
      | .serving _ _, some connection | .openServing, some connection =>
          let served := Service.serve world.agent connection event
          { world with
            agent := served.1
            service := Function.update world.service c (some served.2)
            injected := if injects connection event then c :: world.injected
              else world.injected }
      | _, _ => world
  | .pair c turn =>
      match world.tasks.phase c with
      | .pairing =>
          { world with pairing := Pairing.step P world.pairing (.turn c turn) }
      | _ => world
  | .returned c =>
      if world.finished c then
        { world with tasks := world.task (.returned c) }
      else world
  | .unregister c => { world with tasks := world.task (.unregister c) }
  | .tick elapsed =>
      { world with pairing := Pairing.step P world.pairing (.tick elapsed) }
  | .arm drawn scope =>
      { world with pairing := Pairing.step P world.pairing (.arm drawn scope) }
  | .poll => { world with pairing := Pairing.step P world.pairing .poll }
  | .remove request pin written =>
      match world.tasks.removal request with
      | some _ => world
      | none =>
          { world with
            tasks := world.task (.remove request pin written)
            pairing := Pairing.step P world.pairing (.revoke pin written) }
  | .closePeer request => { world with tasks := world.task (.closePeer request) }

end Step

/-! ## What a task can do -/

/-- How one step moves the task of connection `c`. -/
inductive Move (tasks : Revocation.World) (c : ℕ) (event : Revocation.Event) :
    Revocation.Phase → Revocation.Phase → Prop where
  | stay (phase : Revocation.Phase) : Move tasks c event phase phase
  | accept (pin : Option String) (hevent : event = .accept c pin) :
      Move tasks c event .absent (.connected pin)
  | lookUp (pin : Option String) (new : Revocation.Phase)
      (hnew : new = Revocation.route tasks pin) :
      Move tasks c event (.connected pin) new
  | register (pin : String) (scope : Scope) (hevent : event = .register c) :
      Move tasks c event (.admitted pin scope) (.serving pin scope)
  | returned (pin : String) (scope : Scope) :
      Move tasks c event (.serving pin scope) (.served pin)
  | unregister (pin : String) : Move tasks c event (.served pin) .ended
  | openReturned : Move tasks c event .openServing .ended
  | paired : Move tasks c event .pairing .ended

theorem move_step (tasks : Revocation.World) (event : Revocation.Event)
    (c : ℕ) :
    Move tasks c event (tasks.phase c)
      ((Revocation.step tasks event).phase c) := by
  -- a step of another connection's task
  have hother : ∀ {c' : ℕ} {phase : Revocation.Phase}, c ≠ c' →
      Move tasks c event (tasks.phase c) ((tasks.move c' phase).phase c) := by
    intro c' phase hc
    rw [Revocation.phase_move_of_ne hc]
    exact .stay _
  have hown : ∀ {c' : ℕ} {old phase : Revocation.Phase},
      tasks.phase c' = old → (c = c' → Move tasks c event old phase) →
      Move tasks c event (tasks.phase c) ((tasks.move c' phase).phase c) := by
    intro c' old phase hold hmove
    by_cases hc : c = c'
    · subst hc
      rw [Revocation.phase_move_self, hold]
      exact hmove rfl
    · exact hother hc
  change Move tasks c event (tasks.phase c)
    ((Revocation.effect tasks event).phase c)
  cases event with
  | accept c' pin =>
      simp only [Revocation.effect]
      split
      case h_1 hphase => exact hown hphase fun hc => .accept pin (by rw [hc])
      case h_2 => exact .stay _
  | lookUp c' =>
      simp only [Revocation.effect]
      split
      case h_1 pin hphase =>
        exact hown hphase fun _ => .lookUp pin _ rfl
      case h_2 => exact .stay _
  | register c' =>
      simp only [Revocation.effect]
      split
      case h_1 pin scope hphase =>
        exact hown hphase fun hc => .register pin scope (by rw [hc])
      case h_2 => exact .stay _
  | returned c' =>
      simp only [Revocation.effect]
      split
      case h_1 pin scope hphase => exact hown hphase fun _ => .returned pin scope
      case h_2 hphase => exact hown hphase fun _ => .openReturned
      case h_3 hphase => exact hown hphase fun _ => .paired
      case h_4 => exact .stay _
  | unregister c' =>
      simp only [Revocation.effect]
      split
      case h_1 pin hphase => exact hown hphase fun _ => .unregister pin
      case h_2 => exact .stay _
  | remove request pin written =>
      simp only [Revocation.effect]
      split
      case h_1 => exact .stay _
      case h_2 => split <;> exact .stay _
  | closePeer request =>
      simp only [Revocation.effect]
      split <;> exact .stay _
  | add name pin scope nowUnix written => exact .stay _

/-- A task that has registered stays so. -/
theorem Move.registered {tasks : Revocation.World} {c : ℕ}
    {event : Revocation.Event} {old new : Revocation.Phase}
    (h : Move tasks c event old new) (hold : old.registered = true) :
    new.registered = true := by
  cases h with
  | stay phase => exact hold
  | returned pin scope => rfl
  | unregister pin => rfl
  | openReturned => rfl
  | paired => rfl
  | accept pin hevent => cases hold
  | lookUp pin new hnew => cases hold
  | register pin scope hevent => rfl

theorem devOpen_step (tasks : Revocation.World) (event : Revocation.Event) :
    (Revocation.step tasks event).devOpen = tasks.devOpen := by
  change (Revocation.effect tasks event).devOpen = tasks.devOpen
  cases event <;> simp only [Revocation.effect] <;> (try split) <;>
    (try split) <;> rfl

/-- Only a handshake connects. -/
theorem Move.of_connected {tasks : Revocation.World} {c : ℕ}
    {event : Revocation.Event} {old : Revocation.Phase} {pin : Option String}
    (h : Move tasks c event old (.connected pin)) :
    old = .connected pin ∨ event = .accept c pin := by
  cases h with
  | stay phase => exact Or.inl rfl
  | accept pin hevent => exact Or.inr hevent
  | lookUp found new hnew =>
      simp only [Revocation.route] at hnew
      split at hnew
      · cases hnew
      · split at hnew <;> cases hnew

/-- Whom the accept task admits is in the store. -/
theorem Move.of_admitted {tasks : Revocation.World} {c : ℕ}
    {event : Revocation.Event} {old : Revocation.Phase} {pin : String}
    {scope : Scope} (h : Move tasks c event old (.admitted pin scope)) :
    old = .admitted pin scope ∨
      (old = .connected (some pin) ∧
        ∃ peer ∈ tasks.peers.peers, peer.pin = pin ∧ peer.scope = scope) := by
  cases h with
  | stay phase => exact Or.inl rfl
  | lookUp found new hnew =>
      simp only [Revocation.route] at hnew
      split at hnew
      · cases hnew
      · split at hnew
        case h_1 known granted hscope =>
          obtain ⟨rfl, rfl⟩ := Revocation.Phase.admitted.inj hnew
          obtain ⟨peer, hpeer, hscope⟩ := Option.map_eq_some_iff.mp hscope
          have hget : tasks.peers.peers.find? (fun peer => peer.pin = pin) =
              some peer := hpeer
          have hpin := List.find?_some hget
          exact Or.inr ⟨rfl, peer, List.mem_of_find?_eq_some hget,
            of_decide_eq_true hpin, hscope⟩
        case h_2 => cases hnew

/-! ## The guards -/

/-- Whoever got past a guard had what the guard asks for. -/
structure Guarded (P : Primitives) (initial : List Peer) (world : World) :
    Prop where
  pinned : world.tasks.devOpen = false
  traced : Pairing.Traced P initial world.pairing
  connected : ∀ c pin, world.tasks.phase c = .connected (some pin) →
    world.presented c = some pin
  admitted : ∀ c pin scope, world.tasks.phase c = .admitted pin scope →
    world.presented c = some pin ∧
      Pairing.Entitled P initial world.pairing pin scope
  served : ∀ c connection, world.service c = some connection →
    ∃ pin scope, world.presented c = some pin ∧
      world.granted c = some (pin, scope) ∧
      Pairing.Entitled P initial world.pairing pin scope ∧
      connection.mayInteract = decide (.interact ≤ scope)
  registered : ∀ c connection, world.service c = some connection →
    (world.tasks.phase c).registered = true
  injected : ∀ c ∈ world.injected, ∃ connection,
    world.service c = some connection ∧ connection.mayInteract = true

section Guards

variable {P : Primitives} {initial : List Peer} {world : World}

/-- The owner and the pairing connections take no entitlement away. -/
theorem Guarded.pairing (h : Guarded P initial world)
    (event : Pairing.Event) :
    Guarded P initial
      { world with pairing := Pairing.step P world.pairing event } where
  pinned := h.pinned
  traced := h.traced.step event
  connected := h.connected
  admitted c pin scope hphase :=
    (h.admitted c pin scope hphase).imp_right fun hentitled =>
      hentitled.step event
  served c connection hservice := by
    obtain ⟨pin, scope, hpresented, hgranted, hentitled, hscope⟩ :=
      h.served c connection hservice
    exact ⟨pin, scope, hpresented, hgranted, hentitled.step event, hscope⟩
  registered := h.registered
  injected := h.injected

/-- What a step makes of the task of connection `c`. -/
theorem move_task (world : World) (event : Revocation.Event) (c : ℕ) :
    Move { world.tasks with peers := world.pairing.agent.peers } c event
      (world.tasks.phase c) ((world.task event).phase c) :=
  move_step { world.tasks with peers := world.pairing.agent.peers } event c

theorem devOpen_task (world : World) (event : Revocation.Event) :
    (world.task event).devOpen = world.tasks.devOpen :=
  devOpen_step { world.tasks with peers := world.pairing.agent.peers } event

/-- The steps of the tasks between the handshake and the service. -/
theorem Guarded.task (h : Guarded P initial world)
    {event : Revocation.Event} (haccept : ∀ c pin, event ≠ .accept c pin) :
    Guarded P initial { world with tasks := world.task event } where
  pinned := (devOpen_task world event).trans h.pinned
  traced := h.traced
  connected := by
    intro c pin hphase
    have hmove := move_task world event c
    dsimp only at hphase
    rw [hphase] at hmove
    rcases hmove.of_connected with hold | haccepted
    · exact h.connected c pin hold
    · exact absurd haccepted (haccept c (some pin))
  admitted := by
    intro c pin scope hphase
    have hmove := move_task world event c
    dsimp only at hphase
    rw [hphase] at hmove
    rcases hmove.of_admitted with hold | ⟨hold, peer, hpeer, rfl, rfl⟩
    · exact h.admitted c pin scope hold
    · exact ⟨h.connected c peer.pin hold, h.traced.stored peer hpeer⟩
  served := h.served
  registered c connection hservice :=
    (move_task world event c).registered (h.registered c connection hservice)
  injected := h.injected

/-- A handshake presents its own certificate only. -/
theorem Guarded.handshake (h : Guarded P initial world) {c : ℕ}
    {pin : Option String}
    (hphase : world.tasks.phase c = .absent) :
    Guarded P initial
      { world with
        tasks := world.task (.accept c pin)
        presented := Function.update world.presented c pin } where
  pinned := (devOpen_task world _).trans h.pinned
  traced := h.traced
  connected := by
    intro c' pin' hconnected
    have hmove := move_task world (.accept c pin) c'
    dsimp only at hconnected ⊢
    rw [hconnected] at hmove
    rcases hmove.of_connected with hold | haccepted
    · by_cases hc : c' = c
      · rw [hc, hphase] at hold
        cases hold
      · rw [Function.update_of_ne hc]
        exact h.connected c' pin' hold
    · obtain ⟨rfl, rfl⟩ := Revocation.Event.accept.inj haccepted
      exact Function.update_self _ _ _
  admitted := by
    intro c' pin' scope hadmitted
    have hmove := move_task world (.accept c pin) c'
    dsimp only at hadmitted ⊢
    rw [hadmitted] at hmove
    have hold := hmove.of_admitted
    have hc : c' ≠ c := by
      rintro rfl
      rw [hphase] at hold
      rcases hold with hold | ⟨hold, -⟩ <;> cases hold
    rw [Function.update_of_ne hc]
    rcases hold with hold | ⟨hold, peer, hpeer, rfl, rfl⟩
    · exact h.admitted c' pin' scope hold
    · exact ⟨h.connected c' peer.pin hold, h.traced.stored peer hpeer⟩
  served := by
    intro c' connection hservice
    have hc : c' ≠ c := by
      rintro rfl
      have hregistered := h.registered c' connection hservice
      rw [hphase] at hregistered
      cases hregistered
    dsimp only
    rw [Function.update_of_ne hc]
    exact h.served c' connection hservice
  registered c' connection hservice :=
    (move_task world _ c').registered (h.registered c' connection hservice)
  injected := h.injected

/-- The service is entered with the scope of the admitted peer. -/
theorem Guarded.register (h : Guarded P initial world) {c : ℕ} {pin : String}
    {scope : Scope} (hphase : world.tasks.phase c = .admitted pin scope) :
    Guarded P initial
      { world.enter c (world.task (.register c)) scope with
        granted := Function.update world.granted c (some (pin, scope)) } := by
  have htasks : Guarded P initial
      { world with tasks := world.task (.register c) } :=
    h.task fun _ _ => by simp
  obtain ⟨hpresented, hentitled⟩ := h.admitted c pin scope hphase
  -- the service was not entered before
  have hfresh : ∀ c' connection, world.service c' = some connection →
      c' ≠ c := by
    rintro c' connection hservice rfl
    have hregistered := h.registered c' connection hservice
    rw [hphase] at hregistered
    cases hregistered
  have hserving : (world.task (.register c)).phase c =
      .serving pin scope := by
    simp only [World.task, Revocation.step, Revocation.effect, hphase]
    exact Revocation.phase_move_self _ _
  constructor
  case pinned => exact htasks.pinned
  case traced => exact htasks.traced
  case connected => exact htasks.connected
  case admitted => exact htasks.admitted
  case served =>
    intro c' connection hservice
    dsimp only [World.enter] at hservice ⊢
    by_cases hc : c' = c
    · subst hc
      rw [Function.update_self] at hservice ⊢
      obtain rfl := Option.some.inj hservice
      exact ⟨pin, scope, hpresented, rfl, hentitled, rfl⟩
    · rw [Function.update_of_ne hc] at hservice ⊢
      exact h.served c' connection hservice
  case registered =>
    intro c' connection hservice
    dsimp only [World.enter] at hservice ⊢
    by_cases hc : c' = c
    · rw [hc, hserving]
      rfl
    · rw [Function.update_of_ne hc] at hservice
      exact htasks.registered c' connection hservice
  case injected =>
    intro c' hinjected
    obtain ⟨connection, hservice, hinteract⟩ := h.injected c' hinjected
    refine ⟨connection, ?_, hinteract⟩
    dsimp only [World.enter]
    rw [Function.update_of_ne (hfresh c' connection hservice)]
    exact hservice

theorem mayInteract_of_injects {connection : Connection}
    {event : Service.Event} (h : injects connection event = true) :
    connection.mayInteract = true := by
  cases event with
  | message message env =>
      cases message <;> simp_all [injects, Service.injects]
  | _ => cases h

/-- A turn of the service injects only with the interact scope. -/
theorem Guarded.serve (h : Guarded P initial world) {c : ℕ}
    {connection : Connection} (hservice : world.service c = some connection)
    (event : Service.Event) :
    Guarded P initial
      { world with
        agent := (Service.serve world.agent connection event).1
        service := Function.update world.service c
          (some (Service.serve world.agent connection event).2)
        injected := if injects connection event then c :: world.injected
          else world.injected } := by
  have hkept := Service.mayInteract_serve world.agent connection event
  constructor
  case pinned => exact h.pinned
  case traced => exact h.traced
  case connected => exact h.connected
  case admitted => exact h.admitted
  case served =>
    intro c' connection' hservice'
    dsimp only at hservice'
    by_cases hc : c' = c
    · subst hc
      rw [Function.update_self] at hservice'
      obtain rfl := Option.some.inj hservice'
      rw [hkept]
      exact h.served c' connection hservice
    · rw [Function.update_of_ne hc] at hservice'
      exact h.served c' connection' hservice'
  case registered =>
    intro c' connection' hservice'
    dsimp only at hservice'
    by_cases hc : c' = c
    · rw [hc]
      exact h.registered c connection hservice
    · rw [Function.update_of_ne hc] at hservice'
      exact h.registered c' connection' hservice'
  case injected =>
    have hold : ∀ c' ∈ world.injected, ∃ connection',
        Function.update world.service c
          (some (Service.serve world.agent connection event).2) c' =
          some connection' ∧ connection'.mayInteract = true := by
      intro c' hinjected
      obtain ⟨connection', hservice', hinteract⟩ := h.injected c' hinjected
      by_cases hc : c' = c
      · subst hc
        obtain rfl := Option.some.inj (hservice'.symm.trans hservice)
        exact ⟨_, Function.update_self _ _ _, hkept.trans hinteract⟩
      · exact ⟨connection', (Function.update_of_ne hc _ _).trans hservice',
          hinteract⟩
    intro c' hinjected
    dsimp only at hinjected ⊢
    split at hinjected
    case isTrue hinjects =>
      rcases List.mem_cons.mp hinjected with rfl | hearlier
      · exact ⟨_, Function.update_self _ _ _,
          hkept.trans (mayInteract_of_injects hinjects)⟩
      · exact hold c' hearlier
    case isFalse => exact hold c' hinjected

theorem Guarded.step (h : Guarded P initial world) (event : Event) :
    Guarded P initial (step P world event) := by
  cases event with
  | handshake c certificate =>
      simp only [Access.step]
      split
      case h_1 pin hpin hphase => exact h.handshake hphase
      case h_2 => exact h
  | lookUp c =>
      simp only [Access.step, h.pinned, Bool.false_eq_true, if_false]
      split
      case h_1 => exact h.task fun _ _ => by simp
      case h_2 => exact h
  | register c =>
      simp only [Access.step]
      split
      case h_1 pin scope hphase => exact h.register hphase
      case h_2 => exact h
  | serve c event =>
      simp only [Access.step]
      split
      case h_1 connection hphase hservice => exact h.serve hservice event
      case h_2 connection hphase hservice => exact h.serve hservice event
      case h_3 => exact h
  | pair c turn =>
      simp only [Access.step]
      split
      case h_1 => exact h.pairing (.turn c turn)
      case h_2 => exact h
  | returned c =>
      simp only [Access.step]
      split
      case isTrue => exact h.task fun _ _ => by simp
      case isFalse => exact h
  | unregister c => exact h.task fun _ _ => by simp
  | tick elapsed => exact h.pairing (.tick elapsed)
  | arm drawn scope => exact h.pairing (.arm drawn scope)
  | poll => exact h.pairing .poll
  | remove request pin written =>
      simp only [Access.step]
      split
      case h_1 => exact h
      case h_2 =>
        have htasks : Guarded P initial
            { world with tasks := world.task (.remove request pin written) } :=
          h.task fun _ _ => by simp
        exact htasks.pairing (.revoke pin written)
  | closePeer request => exact h.task fun _ _ => by simp

end Guards

end Access

end GameStreamer
