import GameStreamer.Transport.Pairing
import GameStreamer.Transport.PeerStore

/-!
# The pairing window and the connections that use it

The agent has at most one armed pairing window, shared by the admin socket
and by every pairing connection.  A connection reads the window at its hello
and comes back to it at its confirm; between its turns it is suspended on the
network and anything else may run.
-/

namespace GameStreamer.Pairing

open Transport

/-- How long an armed window stays open, in milliseconds. -/
def window : ℕ := 120000

/-- Wrong-code guesses tolerated on one window. -/
def maxAttempts : ℕ := 5

/-- The result of a completed pairing, held until it is polled for. -/
structure PairOutcome where
  name : String
  pin : String
  scope : Scope
  deriving DecidableEq, Repr

inductive PairingPoll
  | idle
  | waiting
  | completed (outcome : PairOutcome)
  | expired
  deriving DecidableEq, Repr

/-- An armed window.  Once a pairing has completed on it, the outcome waits
here to be polled. -/
structure Pending where
  code : String
  scope : Scope
  expires : ℕ
  outcome : Option PairOutcome
  attempts : ℕ
  deriving DecidableEq, Repr

/-- The agent's single active pairing window. -/
abbrev PairingState := Option Pending

namespace PairingState

/-- Arm a fresh window, replacing any existing one. -/
def «begin» (now : ℕ) (drawn : Fin 5 → UInt8) (scope : Scope) : PairingState :=
  some
    { code := generateCode drawn, scope, expires := now + window
      outcome := none, attempts := 0 }

/-- Record a wrong-code attempt; the flag says whether it burned the
window. -/
def recordFailure : PairingState → PairingState × Bool
  | none => (none, false)
  | some p =>
      if p.attempts + 1 ≥ maxAttempts then (none, true)
      else (some { p with attempts := p.attempts + 1 }, false)

/-- The armed code and authorized scope, if a window is open and
unclaimed. -/
def armed (state : PairingState) (now : ℕ) : Option (String × Scope) :=
  match state with
  | none => none
  | some p =>
      if p.outcome.isSome ∨ now > p.expires then none
      else some (p.code, p.scope)

/-- Record a completed pairing on the open window. -/
def complete (state : PairingState) (outcome : PairOutcome) : PairingState :=
  state.map fun p => { p with outcome := some outcome }

/-- Observe the window's state, consuming it once it resolves: a completed or
expired window is gone after it was seen once. -/
def poll (state : PairingState) (now : ℕ) : PairingState × PairingPoll :=
  match state with
  | none => (none, .idle)
  | some p =>
      match p.outcome with
      | some outcome => (none, .completed outcome)
      | none =>
          if now > p.expires then (none, .expired) else (some p, .waiting)

theorem armed_eq_some {state : PairingState} {now : ℕ}
    {read : String × Scope} (h : state.armed now = some read) :
    ∃ p, state = some p ∧ p.outcome = none ∧ now ≤ p.expires ∧
      read = (p.code, p.scope) := by
  cases state with
  | none => cases h
  | some p =>
      rw [armed] at h
      split_ifs at h with hgone
      injection h with hread
      have hout : p.outcome = none := by
        cases hp : p.outcome with
        | none => rfl
        | some _ => exact absurd (Or.inl (by rw [hp]; rfl)) hgone
      exact ⟨p, rfl, hout, Nat.le_of_not_lt fun hlt => hgone (Or.inr hlt),
        hread.symm⟩

end PairingState

/-! ## One connection -/

/-- What all connections of the agent share: the clock, the single window, the
peer store, and the agent's own pin. -/
structure Agent where
  now : ℕ
  pairing : PairingState
  peers : PeerStore
  /-- The agent's own pin. -/
  fingerprint : String

/-- Where `pair_inner` is suspended. -/
inductive Phase
  /-- Waiting for the hello. -/
  | accepted
  /-- Waiting for the confirm. -/
  | responded (agent : AgentPairing) (authorized : Scope)
  /-- The peer is stored and the accept is being sent. -/
  | granted (confirm : PairConfirm) (scope : Scope)
  | returned (result : Except String (Option String))
  deriving DecidableEq, Repr

/-- What wakes a connection; `sent` is the outcome of the send that ends the
turn. -/
inductive Turn
  | hello (hello : PairHello) (seed : ℕ) (sent : Except String Unit)
  | confirm (confirm : PairConfirm) (nowUnix : ℕ)
      (written sent : Except String Unit)
  /-- The accept went out, or could not be sent. -/
  | accept (sent : Except String Unit)
  /-- A receive failed. -/
  | failed (error : String)
  deriving Repr

/-- What a turn puts on the wire. -/
inductive Reply
  | response (response : PairResponse)
  | result (result : PairResult)
  deriving DecidableEq, Repr

section PairInner

variable (P : Primitives)

/-- From the hello to the next suspension. -/
def recvHello (agent : Agent) (hello : PairHello) (seed : ℕ)
    (sent : Except String Unit) : Phase × Option Reply :=
  match agent.pairing.armed agent.now with
  | none =>
      -- Rejected in the message the client is waiting for.
      (.returned (sent.map fun _ => none), some (.response
        (.rejected "no pairing in progress (expired or not armed)")))
  | some (code, authorized) =>
      match AgentPairing.respond P code hello seed with
      | .error e => (.returned (.error e), none)
      | .ok (pairing, response) =>
          (match sent with
            | .error e => .returned (.error e)
            | .ok () => .responded pairing authorized,
            some (.response response))

/-- From the confirm to the next suspension.  `verify` reads nothing shared,
so it is taken together with the access to the window or to the peer store
that follows it. -/
def recvConfirm (agent : Agent) (pairing : AgentPairing)
    (authorized : Scope) (confirm : PairConfirm) (nowUnix : ℕ)
    (written sent : Except String Unit) : Agent × Phase × Option Reply :=
  if pairing.verify P confirm = true then
    -- Never grant more than the owner authorized when arming the window.
    let scope := min confirm.requestedScope authorized
    let (peers, outcome) :=
      agent.peers.add confirm.name confirm.pin scope nowUnix written
    match outcome with
    | .error e => ({ agent with peers }, .returned (.error e), none)
    | .ok () => ({ agent with peers }, .granted confirm scope,
        some (.result (pairing.accept P agent.fingerprint scope)))
  else
    ({ agent with pairing := agent.pairing.recordFailure.1 },
      .returned (sent.map fun _ => none),
      some (.result (.rejected "authentication failed (wrong code?)")))

/-- One turn of `pair_inner`, from one await to the next.  A hello that finds
no window and a confirm that is wrong are rejected in the message that the
client waits for. -/
def pairInner (agent : Agent) (phase : Phase) (turn : Turn) :
    Agent × Phase × Option Reply :=
  match phase, turn with
  | .accepted, .hello hello seed sent =>
      (agent, recvHello P agent hello seed sent)
  | .responded pairing authorized, .confirm confirm nowUnix written sent =>
      recvConfirm P agent pairing authorized confirm nowUnix written sent
  | .granted confirm scope, .accept (.ok ()) =>
      ({ agent with pairing :=
          agent.pairing.complete ⟨confirm.name, confirm.pin, scope⟩ },
        .returned (.ok (some confirm.name)), none)
  | .granted _ _, .accept (.error e) => (agent, .returned (.error e), none)
  | .accepted, .failed e => (agent, .returned (.error e), none)
  | .responded _ _, .failed e => (agent, .returned (.error e), none)
  | _, _ => (agent, phase, none)

end PairInner

end GameStreamer.Pairing
