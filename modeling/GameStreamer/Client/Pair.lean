import GameStreamer.Transport.Pairing

/-!
# The client's side of a pairing connection

`pair` sends the hello, answers the agent's response with a confirm and checks
the result.  It is suspended on the network between its three turns, and what
wakes it may come from an attacker.  The effects of a turn are stated once, for
the results on agreement to rest on.
-/

namespace GameStreamer.Client

open Transport

/-- What the user asked for. -/
structure PairArgs where
  code : String
  /-- The fingerprint of the client's identity. -/
  pin : String
  name : String
  requestedScope : Scope
  deriving DecidableEq, Repr

/-- Where `pair` is suspended. -/
inductive PairPhase (P : Primitives)
  | connecting
  /-- The hello went out. -/
  | started (client : ClientPairing P) (hello : PairHello)
  /-- The confirm went out. -/
  | confirmed (confirmed : ClientConfirmed)
  | returned (result : Except String (String × Scope))

/-- What wakes a client; `sent` is the outcome of the send that ends the
turn. -/
inductive PairTurn
  | connected (seed : ℕ) (sent : Except String Unit)
  | response (response : PairResponse) (sent : Except String Unit)
  | result (result : PairResult)
  /-- A receive failed. -/
  | failed (error : String)
  deriving Repr

variable {P : Primitives}

/-- One turn of `pair`: the hello goes out, the agent's response is answered by
a confirm, and the result ends it.  A failed receive or send ends it too. -/
def pair (args : PairArgs) (phase : PairPhase P) (turn : PairTurn) :
    PairPhase P :=
  match phase, turn with
  | .connecting, .connected seed sent =>
      let (client, hello) := ClientPairing.start P args.code args.pin
        args.name args.requestedScope seed
      match sent with
      | .error e => .returned (.error e)
      | .ok () => .started client hello
  | .connecting, .failed e => .returned (.error e)
  | .started client _, .response response sent =>
      match client.confirm response with
      | .error e => .returned (.error e)
      | .ok (confirmed, _) =>
          match sent with
          | .error e => .returned (.error e)
          | .ok () => .confirmed confirmed
  | .started _ _, .failed e => .returned (.error e)
  | .confirmed confirmed, .result result =>
      .returned (confirmed.finish P result)
  | .confirmed _, .failed e => .returned (.error e)
  | phase, _ => phase

/-- The key and the confirm that this turn derives; the confirm may reach the
network even when its send fails. -/
def derives : PairPhase P → PairTurn → Option (ClientConfirmed × PairConfirm)
  | .started client _, .response response _ =>
      (client.confirm response).toOption
  | _, _ => none

/-- The agent's pin and the scope with which this turn returns. -/
def finishes : PairPhase P → PairTurn → Option (String × Scope)
  | .confirmed confirmed, .result result =>
      (confirmed.finish P result).toOption
  | _, _ => none

/-- The effects of a turn on the client. -/
inductive PairEffect (args : PairArgs) (phase : PairPhase P)
    (turn : PairTurn) : PairPhase P → Prop
  /-- The client stays or returns. -/
  | quiet (phase' : PairPhase P)
      (hphase : phase' = phase ∨ ∃ result, phase' = .returned result)
      (hderives : derives phase turn = none)
      (hfinishes : finishes phase turn = none) :
      PairEffect args phase turn phase'
  | started (seed : ℕ)
      (hphase : phase = .connecting)
      (hturn : turn = .connected seed (.ok ())) :
      PairEffect args phase turn
        (.started (ClientPairing.start P args.code args.pin args.name
            args.requestedScope seed).1
          (ClientPairing.start P args.code args.pin args.name
            args.requestedScope seed).2)
  | derived (client : ClientPairing P) (hello : PairHello)
      (response : PairResponse) (sent : Except String Unit)
      (confirmed : ClientConfirmed) (confirm : PairConfirm)
      (phase' : PairPhase P)
      (hphase : phase = .started client hello)
      (hturn : turn = .response response sent)
      (hconfirm : client.confirm response = .ok (confirmed, confirm))
      (hnext : phase' = .confirmed confirmed ∨
        ∃ result, phase' = .returned result) :
      PairEffect args phase turn phase'
  | finished (confirmed : ClientConfirmed) (result : PairResult)
      (pin : String) (scope : Scope)
      (hphase : phase = .confirmed confirmed)
      (hturn : turn = .result result)
      (hfinish : confirmed.finish P result = .ok (pin, scope)) :
      PairEffect args phase turn (.returned (.ok (pin, scope)))

theorem pair_effect (args : PairArgs) (phase : PairPhase P)
    (turn : PairTurn) : PairEffect args phase turn (pair args phase turn) := by
  have hquiet : ∀ result, derives phase turn = none →
      finishes phase turn = none →
      PairEffect args phase turn (.returned result) :=
    fun result => .quiet _ (Or.inr ⟨result, rfl⟩)
  have hstay : derives phase turn = none → finishes phase turn = none →
      PairEffect args phase turn phase := .quiet _ (Or.inl rfl)
  cases phase with
  | connecting =>
      cases turn with
      | connected seed sent =>
          cases sent with
          | error e => exact hquiet _ rfl rfl
          | ok _ => exact .started seed rfl rfl
      | failed e => exact hquiet _ rfl rfl
      | _ => exact hstay rfl rfl
  | started client hello =>
      cases turn with
      | response response sent =>
          cases hconfirm : client.confirm response with
          | error e =>
              simp only [pair, hconfirm]
              exact hquiet _ (by simp [derives, hconfirm, Except.toOption]) rfl
          | ok answer =>
              obtain ⟨confirmed, confirm⟩ := answer
              simp only [pair, hconfirm]
              apply PairEffect.derived client hello response sent confirmed
                confirm _ rfl rfl hconfirm
              cases sent with
              | error e => exact Or.inr ⟨_, rfl⟩
              | ok _ => exact Or.inl rfl
      | failed e => exact hquiet _ rfl rfl
      | _ => exact hstay rfl rfl
  | confirmed confirmed =>
      cases turn with
      | result result =>
          cases hfinish : confirmed.finish P result with
          | error e =>
              simp only [pair, hfinish]
              exact hquiet _ rfl (by simp [finishes, hfinish, Except.toOption])
          | ok answer =>
              obtain ⟨pin, scope⟩ := answer
              simp only [pair, hfinish]
              exact .finished confirmed result pin scope rfl rfl hfinish
      | failed e => exact hquiet _ rfl rfl
      | _ => exact hstay rfl rfl
  | returned result =>
      exact hstay (by cases turn <;> rfl) (by cases turn <;> rfl)

end GameStreamer.Client
