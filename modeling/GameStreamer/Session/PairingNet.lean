import Mathlib.Data.Set.Basic
import GameStreamer.Client.Pair
import GameStreamer.Session.PairingGuesses

/-!
# Clients and agents on an attacker's network

Clients and agents pair over a network that an attacker controls: every turn
of an honest party may be given any message whatever, so reading, dropping,
replaying, reordering and injecting are all the same to it.  The primitives
are ideal.  An attacker without a code never holds a key that an honest party
derived from it, and a tag that verifies under a key the attacker does not
hold was made by an honest party.  Then whatever one side accepts is what the
matching session of the other side has sent.
-/

namespace GameStreamer.PairingAgreement

open Transport EventRun Client

/-- The codes and the keys that the attacker has. -/
structure Attacker where
  codes : Set String
  keys : Set (List UInt8)

/-- One client's exchange, as seen by the client. -/
structure ClientView where
  hello : List UInt8
  response : List UInt8
  key : List UInt8
  confirm : PairConfirm
  deriving DecidableEq, Repr

/-- One client's exchange, as seen by the agent. -/
structure AgentView where
  code : String
  hello : List UInt8
  response : List UInt8
  key : List UInt8
  deriving DecidableEq, Repr

/-- The confirm that agent session `session` verified before it called
`accept` with `pin` and `scope`. -/
structure Acceptance where
  session : ℕ
  confirm : PairConfirm
  pin : String
  scope : Scope
  deriving DecidableEq, Repr

/-- All sessions, and what the honest parties did so far.  The network is the
attacker's: every message that is received is arbitrary. -/
structure Net (P : Primitives) where
  clients : ℕ → PairPhase P
  agents : ℕ → Pairing.Phase
  clientViews : ℕ → Option ClientView
  agentViews : ℕ → Option AgentView
  /-- The confirms that agent sessions verified. -/
  verified : List (ℕ × PairConfirm)
  accepted : List Acceptance
  /-- What clients returned to their users. -/
  finished : List (ℕ × String × Scope)
  /-- The key and the text of every tag that an honest party has made. -/
  tagged : List (List UInt8 × List UInt8)

/-- A turn of one session.  The state that an agent session shares with the
rest of its agent is arbitrary at each of its turns. -/
inductive Event
  | client (c : ℕ) (turn : PairTurn)
  | agent (a : ℕ) (shared : Pairing.Agent) (turn : Pairing.Turn)

section Step

variable {P : Primitives}

def start (P : Primitives) : Net P where
  clients := fun _ => .connecting
  agents := fun _ => .accepted
  clientViews := fun _ => none
  agentViews := fun _ => none
  verified := []
  accepted := []
  finished := []
  tagged := []

/-- The client's view once its confirm is made. -/
def clientView (phase : PairPhase P) (turn : PairTurn)
    (confirmed : ClientConfirmed) (confirm : PairConfirm) : ClientView where
  hello :=
    match phase with
    | .started _ hello => hello.spake
    | _ => []
  response :=
    match turn with
    | .response (.spake msg) _ => msg
    | _ => []
  key := confirmed.key
  confirm := confirm

/-- The agent's view once its response is made. -/
def agentView (P : Primitives) (shared : Pairing.Agent) (turn : Pairing.Turn) :
    Option AgentView :=
  match turn with
  | .hello hello seed _ =>
      match shared.pairing.armed shared.now with
      | none => none
      | some (code, _) =>
          match AgentPairing.respond P code hello seed with
          | .ok (pairing, .spake msg) =>
              some ⟨code, hello.spake, msg, pairing.key⟩
          | _ => none
  | _ => none

def clientStep (args : ℕ → PairArgs) (net : Net P) (c : ℕ)
    (turn : PairTurn) : Net P :=
  let phase := net.clients c
  { net with
    clients := Function.update net.clients c (pair (args c) phase turn)
    clientViews :=
      match derives phase turn with
      | none => net.clientViews
      | some (confirmed, confirm) => Function.update net.clientViews c
          (some (clientView phase turn confirmed confirm))
    tagged :=
      match derives phase turn with
      | none => net.tagged
      | some (confirmed, confirm) => net.tagged ++ [(confirmed.key,
          tag macClient confirm.pin confirm.name confirm.requestedScope)]
    finished :=
      match finishes phase turn with
      | none => net.finished
      | some (pin, scope) => net.finished ++ [(c, pin, scope)] }

/-- Whether the peer of this turn is stored and answered with `accept`. -/
def accepts (P : Primitives) (phase : Pairing.Phase) (turn : Pairing.Turn) :
    Option (AgentPairing × PairConfirm × Scope) :=
  match phase, turn with
  | .responded pairing authorized, .confirm confirm _ (.ok ()) _ =>
      if pairing.verify P confirm = true then
        some (pairing, confirm, min confirm.requestedScope authorized)
      else none
  | _, _ => none

def agentStep (net : Net P) (a : ℕ) (shared : Pairing.Agent)
    (turn : Pairing.Turn) : Net P :=
  let phase := net.agents a
  let phase' := (Pairing.pairInner P shared phase turn).2.1
  { net with
    agents := Function.update net.agents a phase'
    agentViews :=
      match phase, phase' with
      | .accepted, .responded _ _ =>
          Function.update net.agentViews a (agentView P shared turn)
      | _, _ => net.agentViews
    verified :=
      match Pairing.proven P phase turn with
      | none => net.verified
      | some (confirm, _) => net.verified ++ [(a, confirm)]
    accepted :=
      match accepts P phase turn with
      | none => net.accepted
      | some (_, confirm, scope) =>
          net.accepted ++ [⟨a, confirm, shared.fingerprint, scope⟩]
    tagged :=
      match accepts P phase turn with
      | none => net.tagged
      | some (pairing, _, scope) => net.tagged ++ [(pairing.key,
          tag macAgent shared.fingerprint "" scope)] }

/-- One turn of a client or of an agent session.  Client `c` acts for the user
who gave it `args c`. -/
def step (args : ℕ → PairArgs) (net : Net P) : Event → Net P
  | .client c turn => clientStep args net c turn
  | .agent a shared turn => agentStep net a shared turn

end Step

/-! ## The attacker's limits and what they give -/

section Statements

variable {P : Primitives} (args : ℕ → PairArgs) (attacker : Attacker)

/-- The message with which client `c` opened its exchange. -/
def helloOf (net : Net P) (c : ℕ) : Option (List UInt8) :=
  match net.clients c with
  | .started _ hello => some hello.spake
  | _ => (net.clientViews c).map ClientView.hello

/-- What the ideal primitives leave possible.  Exchanges are opened with fresh
messages; a key derived from a code that the attacker lacks is none of the
attacker's; and a tag verifies under a key only when the attacker holds that
key or an honest party has made a tag of the same text under it. -/
def Feasible (net : Net P) : Event → Prop
  | .client c (.connected seed _) =>
      net.clients c = .connecting → ∀ c' ≠ c,
        helloOf net c' ≠
          some (P.startA (asBytes (args c).code) idClient idAgent seed).2
  | .client c (.response response sent) =>
      ∀ confirmed confirm,
        derives (net.clients c) (.response response sent) =
          some (confirmed, confirm) →
        (args c).code ∉ attacker.codes → confirmed.key ∉ attacker.keys
  | .client c (.result result) =>
      ∀ confirmed pin scope, net.clients c = .confirmed confirmed →
        confirmed.finish P result = .ok (pin, scope) →
        confirmed.key ∈ attacker.keys ∨
          (confirmed.key, tag macAgent pin "" scope) ∈ net.tagged
  | .agent a shared (.hello hello seed sent) =>
      net.agents a = .accepted →
        ∀ view ∈ agentView P shared (.hello hello seed sent),
          view.code ∉ attacker.codes → view.key ∉ attacker.keys
  | .agent a _ (.confirm confirm _ _ _) =>
      ∀ pairing authorized, net.agents a = .responded pairing authorized →
        pairing.verify P confirm = true →
        pairing.key ∈ attacker.keys ∨
          (pairing.key, tag macClient confirm.pin confirm.name
            confirm.requestedScope) ∈ net.tagged
  | _ => True

/-- Both sides used one code, received each other's messages and hold one
key. -/
structure Matching (args : PairArgs) (u : ClientView) (v : AgentView) :
    Prop where
  code : args.code = v.code
  hello : u.hello = v.hello
  response : u.response = v.response
  key : u.key = v.key

/-- The verified confirm is the one that a client with the session's code has
made, from its own values, in the matching session. -/
def ClientAuthentic (net : Net P) (entry : ℕ × PairConfirm) : Prop :=
  ∃ v, net.agentViews entry.1 = some v ∧
    (v.code ∉ attacker.codes →
      ∃ c u, net.clientViews c = some u ∧ Matching (args c) u v ∧
        u.confirm = entry.2 ∧ entry.2.pin = (args c).pin ∧
        entry.2.name = (args c).name ∧
        entry.2.requestedScope = (args c).requestedScope)

/-- The agent of the matching session has verified this client's confirm and
then called `accept` with what the client returns. -/
def AgentAuthentic (net : Net P) (entry : ℕ × String × Scope) : Prop :=
  (args entry.1).code ∉ attacker.codes →
    ∃ u a v, net.clientViews entry.1 = some u ∧ net.agentViews a = some v ∧
      Matching (args entry.1) u v ∧ (a, u.confirm) ∈ net.verified ∧
      ⟨a, u.confirm, entry.2.1, entry.2.2⟩ ∈ net.accepted

/-- The two sides agree: whatever an agent verified comes from the matching
client, and whatever a client returned was accepted in the matching session. -/
structure Agreement (net : Net P) : Prop where
  verified : ∀ entry ∈ net.verified, ClientAuthentic args attacker net entry
  finished : ∀ entry ∈ net.finished, AgentAuthentic args attacker net entry

end Statements

end GameStreamer.PairingAgreement
