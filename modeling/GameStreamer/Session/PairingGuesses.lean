import GameStreamer.Core.EventRun
import GameStreamer.Session.PairingWindow
import GameStreamer.Transport.IdealPrimitives

/-!
# Guesses against a pairing window

Any number of pairing connections run beside the admin socket.  The history
of a run records which window's code each wrong confirmation tried and which
window it was charged to, and which peers were stored on the strength of
which window.
-/

namespace GameStreamer.Pairing

open Transport EventRun

/-! ## What a turn can do -/

section Turns

variable (P : Primitives)

/-- The confirm of this turn fails against the key of its connection. -/
def wrongGuess : Phase → Turn → Bool
  | .responded pairing _, .confirm confirm _ _ _ => !pairing.verify P confirm
  | _, _ => false

/-- The confirm of this turn is verified: the peer about to be stored. -/
def proven : Phase → Turn → Option (PairConfirm × Scope)
  | .responded pairing authorized, .confirm confirm _ _ _ =>
      if pairing.verify P confirm = true then
        some (confirm, min confirm.requestedScope authorized)
      else none
  | _, _ => none

/-- The effects of a turn on what the agent shares and on its connection. -/
inductive Effect (agent : Agent) (phase : Phase) (turn : Turn) :
    Agent → Phase → Prop
  /-- Nothing shared changes, and the connection stays or returns. -/
  | quiet (phase' : Phase)
      (hphase : phase' = phase ∨ ∃ result, phase' = .returned result)
      (haccept : ∀ confirm scope, phase = .granted confirm scope →
        phase' = phase ∨ ∃ e, turn = .accept (.error e))
      (hguess : wrongGuess P phase turn = false)
      (hproven : proven P phase turn = none) :
      Effect agent phase turn agent phase'
  /-- The hello was answered under the armed window. -/
  | responded (code : String) (authorized : Scope) (hello : PairHello)
      (seed : ℕ) (pairing : AgentPairing) (response : PairResponse)
      (hphase : phase = .accepted)
      (hturn : turn = .hello hello seed (.ok ()))
      (harmed : agent.pairing.armed agent.now = some (code, authorized))
      (hrespond : AgentPairing.respond P code hello seed =
        .ok (pairing, response)) :
      Effect agent phase turn agent (.responded pairing authorized)
  /-- A wrong guess is charged to whatever window is armed. -/
  | charged (result : Except String (Option String))
      (hguess : wrongGuess P phase turn = true)
      (hproven : proven P phase turn = none) :
      Effect agent phase turn
        { agent with pairing := agent.pairing.recordFailure.1 }
        (.returned result)
  /-- The peer is stored. -/
  | stored (pairing : AgentPairing) (authorized : Scope)
      (confirm : PairConfirm) (nowUnix : ℕ) (written sent : Except String Unit)
      (phase' : Phase)
      (hphase : phase = .responded pairing authorized)
      (hturn : turn = .confirm confirm nowUnix written sent)
      (hverify : pairing.verify P confirm = true)
      (hnext : phase' =
          .granted confirm (min confirm.requestedScope authorized) ∨
        written ≠ .ok () ∧ ∃ result, phase' = .returned result) :
      Effect agent phase turn
        { agent with peers := (agent.peers.add confirm.name confirm.pin
            (min confirm.requestedScope authorized) nowUnix written).1 }
        phase'
  /-- The accept went out and the outcome is recorded. -/
  | completed (confirm : PairConfirm) (scope : Scope)
      (result : Except String (Option String))
      (hphase : phase = .granted confirm scope)
      (hturn : turn = .accept (.ok ())) :
      Effect agent phase turn
        { agent with pairing :=
            agent.pairing.complete ⟨confirm.name, confirm.pin, scope⟩ }
        (.returned result)

theorem recvHello_effect (agent : Agent) (hello : PairHello) (seed : ℕ)
    (sent : Except String Unit) :
    Effect P agent .accepted (.hello hello seed sent) agent
      (recvHello P agent hello seed sent).1 := by
  have hquiet : ∀ result, Effect P agent .accepted (.hello hello seed sent)
      agent (.returned result) :=
    fun result => .quiet _ (Or.inr ⟨result, rfl⟩) (by simp) rfl rfl
  cases harmed : agent.pairing.armed agent.now with
  | none =>
      simp only [recvHello, harmed]
      exact hquiet _
  | some read =>
      obtain ⟨code, authorized⟩ := read
      cases hrespond : AgentPairing.respond P code hello seed with
      | error e =>
          simp only [recvHello, harmed, hrespond]
          exact hquiet _
      | ok answer =>
          obtain ⟨pairing, response⟩ := answer
          simp only [recvHello, harmed, hrespond]
          cases sent with
          | error e => exact hquiet _
          | ok _ =>
              exact .responded code authorized hello seed pairing response
                rfl rfl harmed hrespond

theorem recvConfirm_effect (agent : Agent) (pairing : AgentPairing)
    (authorized : Scope) (confirm : PairConfirm) (nowUnix : ℕ)
    (written sent : Except String Unit) :
    Effect P agent (.responded pairing authorized)
      (.confirm confirm nowUnix written sent)
      (recvConfirm P agent pairing authorized confirm nowUnix written sent).1
      (recvConfirm P agent pairing authorized confirm nowUnix written
        sent).2.1 := by
  by_cases hverify : pairing.verify P confirm = true
  · rw [recvConfirm, if_pos hverify]
    cases written with
    | ok _ =>
        exact .stored pairing authorized confirm nowUnix (.ok ()) sent _ rfl
          rfl hverify (Or.inl rfl)
    | error e =>
        exact .stored pairing authorized confirm nowUnix (.error e) sent _ rfl
          rfl hverify (Or.inr ⟨by simp, _, rfl⟩)
  · rw [recvConfirm, if_neg hverify]
    exact .charged _ (by simp [wrongGuess, hverify]) (by simp [proven, hverify])

theorem pairInner_effect (agent : Agent) (phase : Phase) (turn : Turn) :
    Effect P agent phase turn (pairInner P agent phase turn).1
      (pairInner P agent phase turn).2.1 := by
  have hquiet : ∀ result,
      (∀ confirm scope, phase = .granted confirm scope →
        ∃ e, turn = .accept (.error e)) →
      wrongGuess P phase turn = false → proven P phase turn = none →
      Effect P agent phase turn agent (.returned result) :=
    fun result haccept => .quiet _ (Or.inr ⟨result, rfl⟩)
      fun confirm scope h => Or.inr (haccept confirm scope h)
  have hstay : wrongGuess P phase turn = false →
      proven P phase turn = none → Effect P agent phase turn agent phase :=
    .quiet _ (Or.inl rfl) fun _ _ _ => Or.inl rfl
  cases phase with
  | accepted =>
      cases turn with
      | hello hello seed sent => exact recvHello_effect P agent hello seed sent
      | failed e => exact hquiet _ (by simp) rfl rfl
      | _ => exact hstay rfl rfl
  | responded pairing authorized =>
      cases turn with
      | confirm confirm nowUnix written sent =>
          exact recvConfirm_effect P agent pairing authorized confirm nowUnix
            written sent
      | failed e => exact hquiet _ (by simp) rfl rfl
      | _ => exact hstay rfl rfl
  | granted confirm scope =>
      cases turn with
      | accept sent =>
          cases sent with
          | ok _ => exact .completed confirm scope _ rfl rfl
          | error e => exact hquiet _ (fun _ _ _ => ⟨e, rfl⟩) rfl rfl
      | _ => exact hstay rfl rfl
  | returned result =>
      exact hstay (by cases turn <;> rfl) (by cases turn <;> rfl)

end Turns

/-! ## All connections -/

/-- A wrong confirmation. -/
structure Guess where
  /-- The window whose code it tried. -/
  tried : ℕ
  /-- The window it was charged to, if one was armed. -/
  charged : Option ℕ
  deriving DecidableEq, Repr

/-- A peer stored by a connection. -/
structure Addition where
  connection : ℕ
  /-- The window whose code the connection used. -/
  window : ℕ
  confirm : PairConfirm
  peer : PairOutcome
  /-- Whether `armed` would still have returned that window. -/
  stillArmed : Bool
  deriving DecidableEq, Repr

/-- The agent, its pairing connections and what happened so far.  The code
keeps neither the windows that were armed nor which of them a connection has
read. -/
structure World where
  agent : Agent
  connections : ℕ → Phase
  /-- The code and scope of every window armed so far, oldest first. -/
  windows : List (String × Scope)
  /-- The window that was armed at each connection's hello. -/
  read : ℕ → ℕ
  guesses : List Guess
  additions : List Addition
  /-- The outcomes handed to the admin socket, with their windows. -/
  polled : List (ℕ × PairOutcome)

namespace World

/-- The window armed last: the one in the slot, if any is. -/
def current (world : World) : ℕ := world.windows.length - 1

/-- The slot still holds the window that connection `c` read. -/
def holds (world : World) (c : ℕ) : Bool :=
  world.agent.pairing.isSome && world.read c == world.current

/-- `armed` would still return the window that connection `c` read. -/
def stillArmed (world : World) (c : ℕ) : Bool :=
  (world.agent.pairing.armed world.agent.now).isSome &&
    world.read c == world.current

end World

inductive Event
  | tick (elapsed : ℕ)
  | arm (drawn : Fin 5 → UInt8) (scope : Scope)
  | poll
  | revoke (pin : String) (written : Except String Unit)
  | turn (c : ℕ) (turn : Turn)

/-- The agent has started with the peers that it found on disk. -/
def start (peers : PeerStore) (fingerprint : String) : World where
  agent := ⟨0, none, peers, fingerprint⟩
  connections := fun _ => .accepted
  windows := []
  read := fun _ => 0
  guesses := []
  additions := []
  polled := []

section Step

variable (P : Primitives)

/-- A turn of connection `c`, with its entries in the history. -/
def turnOf (world : World) (c : ℕ) (turn : Turn) : World :=
  let phase := world.connections c
  let served := pairInner P world.agent phase turn
  { world with
    agent := served.1
    connections := Function.update world.connections c served.2.1
    read :=
      if phase = .accepted then Function.update world.read c world.current
      else world.read
    guesses :=
      if wrongGuess P phase turn = true then
        world.guesses ++ [⟨world.read c,
          if world.agent.pairing.isSome then some world.current else none⟩]
      else world.guesses
    additions :=
      match proven P phase turn with
      | none => world.additions
      | some (confirm, scope) =>
          world.additions ++ [⟨c, world.read c, confirm,
            ⟨confirm.name, confirm.pin, scope⟩, world.stillArmed c⟩] }

/-- Time passes, the owner arms or polls the window or revokes a peer, or one
connection takes its next turn. -/
def step (world : World) : Event → World
  | .tick elapsed =>
      { world with
        agent := { world.agent with now := world.agent.now + elapsed } }
  | .arm drawn scope =>
      { world with
        agent := { world.agent with
          pairing := PairingState.begin world.agent.now drawn scope }
        windows := world.windows ++ [(generateCode drawn, scope)] }
  | .poll =>
      let (pairing, seen) := world.agent.pairing.poll world.agent.now
      { world with
        agent := { world.agent with pairing }
        polled :=
          match seen with
          | .completed outcome => world.polled ++ [(world.current, outcome)]
          | _ => world.polled }
  | .revoke pin written =>
      { world with
        agent := { world.agent with
          peers := (world.agent.peers.remove pin written).1 } }
  | .turn c turn => turnOf P world c turn

end Step

/-! ## The guess bound -/

/-- Wrong confirmations tried against window `w` so far. -/
def guessesAgainst (guesses : List Guess) (w : ℕ) : ℕ :=
  guesses.countP fun guess => guess.tried == w

@[simp]
theorem guessesAgainst_append (guesses : List Guess) (guess : Guess) (w : ℕ) :
    guessesAgainst (guesses ++ [guess]) w =
      guessesAgainst guesses w + if guess.tried = w then 1 else 0 := by
  rw [guessesAgainst, List.countP_append, List.countP_singleton]
  by_cases h : guess.tried = w <;> simp [guessesAgainst, h]

/-- No window takes more than `maxAttempts` wrong confirmations, and each is
charged to no other window than the one whose code it tried. -/
structure GuessBound (world : World) : Prop where
  bounded : ∀ w, guessesAgainst world.guesses w ≤ maxAttempts
  ownCharge : ∀ guess ∈ world.guesses, ∀ w ∈ guess.charged, w = guess.tried

/-- A wrong confirmation finds the window whose code it tries still in the
slot. -/
def GuessInTime (P : Primitives) (world : World) : Event → Prop
  | .turn c turn =>
      wrongGuess P (world.connections c) turn = true → world.holds c = true
  | _ => True

instance decidableGuessInTime (P : Primitives) (world : World) :
    (event : Event) → Decidable (GuessInTime P world event)
  | .turn _ _ => inferInstanceAs (Decidable (_ → _))
  | .tick _ => inferInstanceAs (Decidable True)
  | .arm _ _ => inferInstanceAs (Decidable True)
  | .poll => inferInstanceAs (Decidable True)
  | .revoke _ _ => inferInstanceAs (Decidable True)

/-- The failures counted in the slot are the wrong confirmations tried against
the window that it holds. -/
structure Counted (world : World) : Prop where
  windows : ∀ p ∈ world.agent.pairing, world.windows ≠ []
  attempts : ∀ p ∈ world.agent.pairing,
    p.attempts = guessesAgainst world.guesses world.current ∧
      p.attempts < maxAttempts
  unarmed : ∀ w, world.windows.length ≤ w →
    guessesAgainst world.guesses w = 0
  bound : GuessBound world

theorem counted_start (peers : PeerStore) (fingerprint : String) :
    Counted (start peers fingerprint) where
  windows := by simp [start]
  attempts := by simp [start]
  unarmed := fun _ _ => rfl
  bound := ⟨fun _ => Nat.zero_le _, by simp [start]⟩

/-- Only the slot, the windows and the guesses matter, and the slot only
through its count of failures. -/
theorem Counted.of_same {world : World} (h : Counted world) (world' : World)
    (hwindows : world'.windows = world.windows)
    (hguesses : world'.guesses = world.guesses)
    (hpairing : ∀ p' ∈ world'.agent.pairing, ∃ p ∈ world.agent.pairing,
      p'.attempts = p.attempts) : Counted world' where
  windows := by
    intro p' hp'
    obtain ⟨p, hp, -⟩ := hpairing p' hp'
    rw [hwindows]
    exact h.windows p hp
  attempts := by
    intro p' hp'
    obtain ⟨p, hp, hattempts⟩ := hpairing p' hp'
    rw [hattempts, hguesses, World.current, hwindows]
    exact h.attempts p hp
  unarmed := by
    rw [hwindows, hguesses]
    exact h.unarmed
  bound := by
    constructor
    · rw [hguesses]
      exact h.bound.bounded
    · rw [hguesses]
      exact h.bound.ownCharge

theorem Counted.arm {world : World} (h : Counted world)
    (drawn : Fin 5 → UInt8) (scope : Scope) :
    Counted (step P world (.arm drawn scope)) where
  windows := by simp [step]
  attempts := by
    intro p hp
    obtain rfl := Option.mem_some_iff.mp hp
    have hnone := h.unarmed world.windows.length le_rfl
    simp [step, World.current, hnone, maxAttempts]
  unarmed := by
    intro w hw
    apply h.unarmed
    simp only [step, List.length_append, List.length_singleton] at hw
    omega
  bound := ⟨h.bound.bounded, h.bound.ownCharge⟩

/-- A wrong confirmation charged to its own window. -/
theorem Counted.charge {world : World} (h : Counted world) (world' : World)
    {p : Pending} (hp : world.agent.pairing = some p)
    (hwindows : world'.windows = world.windows)
    (hguesses : world'.guesses =
      world.guesses ++ [⟨world.current, some world.current⟩])
    (hpairing :
      world'.agent.pairing = (PairingState.recordFailure (some p)).1) :
    Counted world' := by
  have hattempts := h.attempts p hp
  have hcurrent : world'.current = world.current := by
    rw [World.current, hwindows, World.current]
  have hsome : ∀ p' ∈ world'.agent.pairing,
      p'.attempts = p.attempts + 1 ∧ p.attempts + 1 < maxAttempts := by
    intro p' hp'
    rw [hpairing, PairingState.recordFailure] at hp'
    split_ifs at hp' with hburn
    · cases hp'
    · obtain rfl := Option.mem_some_iff.mp hp'
      exact ⟨rfl, Nat.lt_of_not_le hburn⟩
  have hpos : world.current < world.windows.length :=
    Nat.sub_one_lt (mt List.length_eq_zero_iff.mp (h.windows p hp))
  constructor
  case windows =>
    intro p' _
    rw [hwindows]
    exact h.windows p hp
  case attempts =>
    intro p' hp'
    obtain ⟨hcount, hlt⟩ := hsome p' hp'
    rw [hguesses, hcurrent, guessesAgainst_append, if_pos rfl, hcount,
      ← hattempts.1]
    exact ⟨rfl, hlt⟩
  case unarmed =>
    intro w hw
    rw [hwindows] at hw
    rw [hguesses, guessesAgainst_append, h.unarmed w hw,
      if_neg (by omega : ¬world.current = w)]
  case bound =>
    constructor
    · intro w
      have hbounded := h.bound.bounded w
      rw [hguesses, guessesAgainst_append]
      by_cases hw : world.current = w
      · subst hw
        rw [if_pos rfl, ← hattempts.1]
        exact hattempts.2
      · rw [if_neg hw]
        exact hbounded
    · intro guess hguess
      rw [hguesses] at hguess
      rcases List.mem_append.mp hguess with hold | hnew
      · exact h.bound.ownCharge guess hold
      · obtain rfl := List.mem_singleton.mp hnew
        simp

theorem poll_attempts (state : PairingState) (now : ℕ) :
    ∀ p' ∈ (state.poll now).1, ∃ p ∈ state, p'.attempts = p.attempts := by
  intro p' hp'
  cases state with
  | none => cases hp'
  | some p =>
      simp only [PairingState.poll] at hp'
      split at hp'
      · cases hp'
      · split_ifs at hp'
        · cases hp'
        · exact ⟨p', hp', rfl⟩

theorem complete_attempts (state : PairingState) (outcome : PairOutcome) :
    ∀ p' ∈ state.complete outcome, ∃ p ∈ state,
      p'.attempts = p.attempts := by
  intro p' hp'
  obtain ⟨p, hp, rfl⟩ := Option.map_eq_some_iff.mp hp'
  exact ⟨p, hp, rfl⟩

theorem Counted.turn {P : Primitives} {world : World} (h : Counted world)
    (c : ℕ) (turn : Turn) (hcond : GuessInTime P world (.turn c turn)) :
    Counted (step P world (.turn c turn)) := by
  have heffect := pairInner_effect P world.agent (world.connections c) turn
  generalize hserved : pairInner P world.agent (world.connections c) turn =
    served at heffect
  obtain ⟨agent', phase', reply⟩ := served
  have hagent : (step P world (.turn c turn)).agent = agent' := by
    simp only [step, turnOf, hserved]
  have hsame : wrongGuess P (world.connections c) turn = false →
      (∀ p' ∈ agent'.pairing, ∃ p ∈ world.agent.pairing,
        p'.attempts = p.attempts) → Counted (step P world (.turn c turn)) := by
    intro hguess hpairing
    apply h.of_same (step P world (.turn c turn)) rfl
    · simp [step, turnOf, hguess]
    · rw [hagent]
      exact hpairing
  cases heffect with
  | quiet _ hphase haccept hguess hproven =>
      exact hsame hguess fun p' hp' => ⟨p', hp', rfl⟩
  | responded code authorized hello seed pairing response hphase hturn =>
      apply hsame (by rw [hphase, hturn]; rfl)
      exact fun p' hp' => ⟨p', hp', rfl⟩
  | charged result hguess hproven =>
      have hholds := hcond hguess
      rw [World.holds, Bool.and_eq_true, beq_iff_eq,
        Option.isSome_iff_exists] at hholds
      obtain ⟨⟨p, hp⟩, hread⟩ := hholds
      apply h.charge (step P world (.turn c turn)) hp rfl
      · simp [step, turnOf, hguess, hp, hread]
      · rw [hagent, hp]
  | stored pairing authorized confirm nowUnix written sent _ hphase hturn
      hverify =>
      apply hsame (by rw [hphase, hturn]; simp [wrongGuess, hverify])
      exact fun p' hp' => ⟨p', hp', rfl⟩
  | completed confirm scope result hphase hturn =>
      apply hsame (by rw [hphase, hturn]; rfl)
      exact complete_attempts _ _

theorem Counted.step {P : Primitives} {world : World} (h : Counted world)
    (event : Event) (hcond : GuessInTime P world event) :
    Counted (step P world event) := by
  cases event with
  | tick elapsed => exact h.of_same _ rfl rfl fun p hp => ⟨p, hp, rfl⟩
  | arm drawn scope => exact h.arm drawn scope
  | poll => exact h.of_same _ rfl rfl (poll_attempts _ _)
  | revoke pin written => exact h.of_same _ rfl rfl fun p hp => ⟨p, hp, rfl⟩
  | turn c turn => exact h.turn c turn hcond

/-- The guess bound.  In a run whose wrong confirmations all find their window
in the slot, no window takes more than five of them, and each is charged to the
window whose code it tried. -/
theorem guessBound_of_inTime (P : Primitives) (peers : PeerStore)
    (fingerprint : String) (events : List Event)
    (hrun : Along (step P) (GuessInTime P) (start peers fingerprint) events) :
    GuessBound (events.foldl (step P) (start peers fingerprint)) := by
  have hcounted : Counted
      (events.foldl (step P) (start peers fingerprint)) :=
    foldl_invariant (fun _ event h hcond => h.step event hcond)
      (counted_start peers fingerprint) hrun
  exact hcounted.bound

/-! ## Half-open handshakes -/

/-- Connection `c` says hello. -/
def helloTurn (c : ℕ) : Event :=
  .turn c (.hello ⟨Symbolic.message true c⟩ c (.ok ()))

/-- Connection `c` confirms with a tag that no key produces. -/
def guessTurn (c : ℕ) : Event :=
  .turn c (.confirm ⟨"pin", "name", .view, []⟩ 0 (.ok ()) (.ok ()))

/-- One guess while its window is armed. -/
def timelyGuess : List Event :=
  [.arm (fun _ => 0) .view, helloTurn 0, guessTurn 0]

theorem guessBound_timelyGuess :
    GuessBound (timelyGuess.foldl (step Symbolic.primitives)
      (start ⟨[], none⟩ "agent")) :=
  guessBound_of_inTime Symbolic.primitives ⟨[], none⟩ "agent" timelyGuess
    (by decide +kernel)

/-- Six handshakes are opened under one window; five guesses burn it, and the
sixth is made under the next one. -/
def halfOpenGuesses : List Event :=
  [.arm (fun _ => 0) .view] ++ (List.range 6).map helloTurn ++
    (List.range 5).map guessTurn ++ [.arm (fun _ => 1) .view, guessTurn 5]

/-- The first window takes six guesses, and the last of them is charged to the
second one. -/
theorem not_guessBound_halfOpenGuesses :
    ¬GuessBound (halfOpenGuesses.foldl (step Symbolic.primitives)
      (start ⟨[], none⟩ "agent")) := by
  intro h
  have hguesses : (halfOpenGuesses.foldl (step Symbolic.primitives)
      (start ⟨[], none⟩ "agent")).guesses =
        List.replicate 5 ⟨0, some 0⟩ ++ [⟨0, some 1⟩] := by
    decide +kernel
  have hbounded := h.bounded 0
  rw [hguesses] at hbounded
  exact absurd hbounded (by decide)

end GameStreamer.Pairing
