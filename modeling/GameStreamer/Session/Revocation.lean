import GameStreamer.Core.EventRun
import GameStreamer.Transport.PeerStore
import Mathlib.Logic.Function.Basic

/-!
# Revocation of live connections

The accept task of a connection looks its pin up among the peers, registers
the connection under the pin and serves it.  A revoke removes the pin from the
peers and then closes what is registered under it.  The two tables have locks
of their own, and tasks run in any order, so a connection that was looked up
before the removal may register after the closing.  This module proves that
nothing else keeps a revoked connection alive.
-/

namespace GameStreamer

/-- Registry of live connections by peer pin; a pin without an entry has an
empty list. -/
structure LiveConns where
  byPin : String → List ℕ

namespace LiveConns

def empty : LiveConns := ⟨fun _ => []⟩

def register (conns : LiveConns) (pin : String) (conn : ℕ) : LiveConns :=
  ⟨Function.update conns.byPin pin (conns.byPin pin ++ [conn])⟩

def unregister (conns : LiveConns) (pin : String) (stableId : ℕ) :
    LiveConns :=
  ⟨Function.update conns.byPin pin
    ((conns.byPin pin).filter fun conn => conn ≠ stableId)⟩

/-- The registry without the pin, and the connections to close. -/
def closePeer (conns : LiveConns) (pin : String) : LiveConns × List ℕ :=
  (⟨Function.update conns.byPin pin []⟩, conns.byPin pin)

theorem mem_register_iff {conns : LiveConns} {pin pin' : String}
    {conn conn' : ℕ} :
    conn' ∈ (conns.register pin conn).byPin pin' ↔
      conn' ∈ conns.byPin pin' ∨ (pin' = pin ∧ conn' = conn) := by
  by_cases hpin : pin' = pin
  · subst hpin
    simp [register]
  · simp [register, hpin]

theorem mem_unregister_iff {conns : LiveConns} {pin pin' : String}
    {conn conn' : ℕ} :
    conn' ∈ (conns.unregister pin conn).byPin pin' ↔
      conn' ∈ conns.byPin pin' ∧ ¬(pin' = pin ∧ conn' = conn) := by
  by_cases hpin : pin' = pin
  · subst hpin
    simp [unregister]
  · simp [unregister, hpin]

theorem mem_closePeer_iff {conns : LiveConns} {pin pin' : String}
    {conn : ℕ} :
    conn ∈ (conns.closePeer pin).1.byPin pin' ↔
      conn ∈ conns.byPin pin' ∧ pin' ≠ pin := by
  by_cases hpin : pin' = pin
  · subst hpin
    simp [closePeer]
  · simp [closePeer, hpin]

end LiveConns

namespace Revocation

open Transport EventRun

/-- Where the accept task of a connection is. -/
inductive Phase where
  | absent
  /-- The handshake is done; an anonymous client has no pin. -/
  | connected (pin : Option String)
  /-- The pin was found among the peers. -/
  | admitted (pin : String) (scope : Scope)
  /-- Registered, and inside `serve_connection`. -/
  | serving (pin : String) (scope : Scope)
  /-- `serve_connection` returned. -/
  | served (pin : String)
  /-- Served without a grant, in the dev-open mode. -/
  | openServing
  | pairing
  | ended
  deriving DecidableEq, Repr

/-- The task has registered its connection. -/
def Phase.registered : Phase → Bool
  | .serving _ _ | .served _ | .ended => true
  | _ => false

/-- A revoke request whose pin is out of the peers. -/
structure Removal where
  pin : String
  removed : Bool
  removedAt : ℕ
  deriving DecidableEq, Repr

/-- The `Revoke` response. -/
structure RevokeReply where
  pin : String
  removed : Bool
  sessionsClosed : ℕ
  removedAt : ℕ
  deriving DecidableEq, Repr

/-- The accept tasks of all connections and the revoke requests over the shared
peer store and connection table, with the times at which they looked and
removed. -/
structure World where
  /-- `GSA_DEV_OPEN` is set. -/
  devOpen : Bool
  peers : PeerStore
  conns : LiveConns
  phase : ℕ → Phase
  /-- The connections that `close_peer` closed. -/
  closed : ℕ → Bool
  /-- The revoke requests between their two steps. -/
  removal : ℕ → Option Removal
  replies : List RevokeReply
  /-- How many steps were taken. -/
  clock : ℕ
  /-- When a connection was looked up. -/
  lookedUp : ℕ → ℕ

inductive Event where
  /-- The handshake of a new connection completes. -/
  | accept (c : ℕ) (pin : Option String)
  | lookUp (c : ℕ)
  | register (c : ℕ)
  | returned (c : ℕ)
  | unregister (c : ℕ)
  | remove (request : ℕ) (pin : String) (written : Except String Unit)
  | closePeer (request : ℕ)
  /-- A pairing completes. -/
  | add (name pin : String) (scope : Scope) (nowUnix : ℕ)
      (written : Except String Unit)

def start (devOpen : Bool) (peers : PeerStore) : World where
  devOpen := devOpen
  peers := peers
  conns := .empty
  phase := fun _ => .absent
  closed := fun _ => false
  removal := fun _ => none
  replies := []
  clock := 0
  lookedUp := fun _ => 0

def World.move (world : World) (c : ℕ) (phase : Phase) : World :=
  { world with phase := Function.update world.phase c phase }

/-- `close_peer` on the connections of a pin. -/
def closing (world : World) (pin : String) : World :=
  { world with
    conns := (world.conns.closePeer pin).1
    closed := fun c =>
      world.closed c || (world.conns.closePeer pin).2.contains c }

/-- What the accept task does with a connection after its handshake. -/
def route (world : World) (pin : Option String) : Phase :=
  let scope := (pin.bind world.peers.get).map Peer.scope
  if world.devOpen then .openServing
  else
    match pin, scope with
    | some pin, some scope => .admitted pin scope
    | _, _ => .pairing

/-- The effect of a step, but for the clock. -/
def effect (world : World) : Event → World
  | .accept c pin =>
      match world.phase c with
      | .absent => world.move c (.connected pin)
      | _ => world
  | .lookUp c =>
      match world.phase c with
      | .connected pin =>
          { world.move c (route world pin) with
            lookedUp := Function.update world.lookedUp c world.clock }
      | _ => world
  | .register c =>
      match world.phase c with
      | .admitted pin scope =>
          { world.move c (.serving pin scope) with
            conns := world.conns.register pin c }
      | _ => world
  | .returned c =>
      match world.phase c with
      | .serving pin _ => world.move c (.served pin)
      | .openServing | .pairing => world.move c .ended
      | _ => world
  | .unregister c =>
      match world.phase c with
      | .served pin =>
          { world.move c .ended with conns := world.conns.unregister pin c }
      | _ => world
  | .remove request pin written =>
      match world.removal request with
      | some _ => world
      | none =>
          match world.peers.remove pin written with
          | (peers, .ok removed) =>
              { world with
                peers := peers
                removal := Function.update world.removal request
                  (some ⟨pin, removed, world.clock⟩) }
          -- the reply is an error, and nothing is closed
          | (peers, .error _) => { world with peers := peers }
  | .closePeer request =>
      match world.removal request with
      | none => world
      | some removal =>
          { closing world removal.pin with
            removal := Function.update world.removal request none
            replies := world.replies ++ [⟨removal.pin, removal.removed,
              (world.conns.closePeer removal.pin).2.length,
              removal.removedAt⟩] }
  | .add name pin scope nowUnix written =>
      { world with peers := (world.peers.add name pin scope nowUnix written).1 }

/-- One step of a task or of a request, each of which holds a lock for that
step only.  The clock counts the steps. -/
def step (world : World) (event : Event) : World :=
  { effect world event with clock := world.clock + 1 }

/-- A connection is being served under its pin's grant. -/
def World.Serves (world : World) (c : ℕ) (pin : String) : Prop :=
  (∃ scope, world.phase c = .serving pin scope) ∧ world.closed c = false

/-- After the reply to a revoke, whoever is served under the pin was looked up
after the pin had been removed. -/
def Revoked (world : World) : Prop :=
  ∀ reply ∈ world.replies, ∀ c, world.Serves c reply.pin →
    reply.removedAt ≤ world.lookedUp c

/-- A connection registers before any revoke that removed its pin after the
lookup has closed the pin's connections. -/
def Timely (world : World) : Event → Prop
  | .register c =>
      ∀ pin scope, world.phase c = .admitted pin scope →
        ∀ reply ∈ world.replies, reply.pin = pin →
          reply.removedAt ≤ world.lookedUp c
  | _ => True

/-- How the registry belongs to the tasks. -/
structure Tabled (world : World) : Prop where
  serving : ∀ c pin, world.Serves c pin → c ∈ world.conns.byPin pin
  entries : ∀ c pin, c ∈ world.conns.byPin pin →
    (world.phase c).registered = true
  closed : ∀ c, world.closed c = true → (world.phase c).registered = true

theorem tabled_start (devOpen : Bool) (peers : PeerStore) :
    Tabled (start devOpen peers) where
  serving := by simp [World.Serves, start]
  entries := by simp [start, LiveConns.empty]
  closed := by simp [start]

section Steps

variable {world : World}

theorem phase_move_self (c : ℕ) (phase : Phase) :
    (world.move c phase).phase c = phase := Function.update_self _ _ _

theorem phase_move_of_ne {c c' : ℕ} (hne : c' ≠ c) (phase : Phase) :
    (world.move c phase).phase c' = world.phase c' :=
  Function.update_of_ne hne _ _

theorem serves_move_self (c : ℕ) (phase : Phase) (pin : String) :
    (world.move c phase).Serves c pin ↔
      (∃ scope, phase = .serving pin scope) ∧ world.closed c = false := by
  rw [World.Serves, phase_move_self]
  rfl

theorem serves_move_of_ne {c c' : ℕ} (hne : c' ≠ c) (phase : Phase)
    (pin : String) :
    (world.move c phase).Serves c' pin ↔ world.Serves c' pin := by
  rw [World.Serves, phase_move_of_ne hne]
  rfl

/-- A task that goes on without entering `serve_connection`. -/
theorem Tabled.move (h : Tabled world) {c : ℕ} {phase : Phase}
    (hphase : ∀ pin scope, phase ≠ .serving pin scope)
    (hregistered : (world.phase c).registered = true →
      phase.registered = true) : Tabled (world.move c phase) := by
  have hkept : ∀ c', (world.phase c').registered = true →
      ((world.move c phase).phase c').registered = true := by
    intro c' hold
    by_cases hc : c' = c
    · subst hc
      rw [phase_move_self]
      exact hregistered hold
    · rwa [phase_move_of_ne hc]
  constructor
  case serving =>
    intro c' pin hserves
    by_cases hc : c' = c
    · subst hc
      obtain ⟨⟨scope, hserving⟩, -⟩ := (serves_move_self _ _ _).mp hserves
      exact absurd hserving (hphase pin scope)
    · exact h.serving c' pin ((serves_move_of_ne hc _ _).mp hserves)
  case entries => exact fun c' pin hmem => hkept c' (h.entries c' pin hmem)
  case closed => exact fun c' hclosed => hkept c' (h.closed c' hclosed)

/-- The replies stay, and whoever is served was served before and was looked
up at the same time. -/
theorem Revoked.of_served (h : Revoked world) {world' : World}
    (hreplies : world'.replies = world.replies)
    (hserves : ∀ c pin, world'.Serves c pin →
      world.Serves c pin ∧ world'.lookedUp c = world.lookedUp c) :
    Revoked world' := by
  intro reply hreply c hserved
  obtain ⟨hold, hlookedUp⟩ := hserves c reply.pin hserved
  rw [hlookedUp]
  rw [hreplies] at hreply
  exact h reply hreply c hold

theorem Revoked.move (h : Revoked world) {c : ℕ} {phase : Phase}
    (hphase : ∀ pin scope, phase ≠ .serving pin scope) :
    Revoked (world.move c phase) := by
  refine h.of_served rfl fun c' pin hserves => ?_
  by_cases hc : c' = c
  · subst hc
    obtain ⟨⟨scope, hserving⟩, -⟩ := (serves_move_self _ _ _).mp hserves
    exact absurd hserving (hphase pin scope)
  · exact ⟨(serves_move_of_ne hc _ _).mp hserves, rfl⟩

theorem route_ne_serving (pin : Option String) (pin' : String)
    (scope : Scope) : route world pin ≠ .serving pin' scope := by
  simp only [route]
  split_ifs
  · exact nofun
  · split <;> exact nofun

/-! ## The steps -/

theorem tabled_register (h : Tabled world) {c : ℕ} {pin : String}
    {scope : Scope} (hphase : world.phase c = .admitted pin scope) :
    Tabled { world.move c (.serving pin scope) with
      conns := world.conns.register pin c } := by
  have hkept : ∀ c', (world.phase c').registered = true →
      ((world.move c (.serving pin scope)).phase c').registered = true := by
    intro c' hold
    by_cases hc : c' = c
    · subst hc
      rw [phase_move_self]
      rfl
    · rwa [phase_move_of_ne hc]
  constructor
  case serving =>
    intro c' pin' hserves
    rw [LiveConns.mem_register_iff]
    by_cases hc : c' = c
    · subst hc
      obtain ⟨⟨scope', hserving⟩, -⟩ := (serves_move_self _ _ _).mp hserves
      obtain ⟨rfl, -⟩ := Phase.serving.inj hserving
      exact Or.inr ⟨rfl, rfl⟩
    · exact Or.inl (h.serving c' pin' ((serves_move_of_ne hc _ _).mp hserves))
  case entries =>
    intro c' pin' hmem
    rcases LiveConns.mem_register_iff.mp hmem with hold | ⟨-, rfl⟩
    · exact hkept c' (h.entries c' pin' hold)
    · change ((world.move c' (.serving pin scope)).phase c').registered = true
      rw [phase_move_self]
      rfl
  case closed => exact fun c' hclosed => hkept c' (h.closed c' hclosed)

theorem tabled_unregister (h : Tabled world) {c : ℕ} {pin : String}
    (hphase : world.phase c = .served pin) :
    Tabled { world.move c .ended with
      conns := world.conns.unregister pin c } := by
  have hmoved : Tabled (world.move c .ended) :=
    h.move (fun _ _ => nofun) (fun _ => rfl)
  constructor
  case serving =>
    intro c' pin' hserves
    refine LiveConns.mem_unregister_iff.mpr
      ⟨hmoved.serving c' pin' hserves, ?_⟩
    rintro ⟨-, rfl⟩
    obtain ⟨⟨scope, hserving⟩, -⟩ := (serves_move_self _ _ _).mp hserves
    cases hserving
  case entries =>
    intro c' pin' hmem
    exact hmoved.entries c' pin' (LiveConns.mem_unregister_iff.mp hmem).1
  case closed => exact hmoved.closed

/-- Nobody is served under the pin whose connections were closed. -/
theorem serves_closing (h : Tabled world) {removed : String} {c : ℕ}
    {pin : String} (hserves : (closing world removed).Serves c pin) :
    world.Serves c pin ∧ pin ≠ removed := by
  obtain ⟨hserving, hopen⟩ := hserves
  obtain ⟨hopen, hkept⟩ := Bool.or_eq_false_iff.mp hopen
  have hold : world.Serves c pin := ⟨hserving, hopen⟩
  refine ⟨hold, ?_⟩
  rintro rfl
  have hmem : (world.conns.byPin pin).contains c = true :=
    List.contains_iff_mem.mpr (h.serving c pin hold)
  exact absurd (hmem.symm.trans hkept) (by decide)

theorem tabled_closing (h : Tabled world) (removed : String) :
    Tabled (closing world removed) := by
  constructor
  case serving =>
    intro c pin hserved
    obtain ⟨hold, hpin⟩ := serves_closing h hserved
    exact LiveConns.mem_closePeer_iff.mpr ⟨h.serving c pin hold, hpin⟩
  case entries =>
    intro c pin hmem
    exact h.entries c pin (LiveConns.mem_closePeer_iff.mp hmem).1
  case closed =>
    intro c hc
    rcases Bool.or_eq_true_iff.mp hc with hold | hnew
    · exact h.closed c hold
    · exact h.entries c removed (List.contains_iff_mem.mp hnew)

theorem tabled_step (h : Tabled world) (event : Event) :
    Tabled (step world event) := by
  suffices heffect : Tabled (effect world event) from
    ⟨heffect.serving, heffect.entries, heffect.closed⟩
  cases event with
  | accept c pin =>
      simp only [effect]
      split
      case h_1 hphase =>
        exact h.move (fun _ _ => nofun) (by rw [hphase]; exact nofun)
      case h_2 => exact h
  | lookUp c =>
      simp only [effect]
      split
      case h_1 pin hphase =>
        have hmoved : Tabled (world.move c (route world pin)) :=
          h.move (route_ne_serving pin) (by rw [hphase]; exact nofun)
        exact ⟨hmoved.serving, hmoved.entries, hmoved.closed⟩
      case h_2 => exact h
  | register c =>
      simp only [effect]
      split
      case h_1 pin scope hphase => exact tabled_register h hphase
      case h_2 => exact h
  | returned c =>
      simp only [effect]
      split
      case h_1 => exact h.move (fun _ _ => nofun) (fun _ => rfl)
      case h_2 => exact h.move (fun _ _ => nofun) (fun _ => rfl)
      case h_3 => exact h.move (fun _ _ => nofun) (fun _ => rfl)
      case h_4 => exact h
  | unregister c =>
      simp only [effect]
      split
      case h_1 pin hphase => exact tabled_unregister h hphase
      case h_2 => exact h
  | remove request pin written =>
      simp only [effect]
      split
      case h_1 => exact h
      case h_2 => split <;> exact ⟨h.serving, h.entries, h.closed⟩
  | closePeer request =>
      simp only [effect]
      split
      case h_1 => exact h
      case h_2 removal hremoval =>
        have hclosing := tabled_closing h removal.pin
        exact ⟨hclosing.serving, hclosing.entries, hclosing.closed⟩
  | add name pin scope nowUnix written =>
      exact ⟨h.serving, h.entries, h.closed⟩

/-- Whoever is looked up is not served yet. -/
theorem Revoked.lookUp (h : Revoked world) (c : ℕ) :
    Revoked (effect world (.lookUp c)) := by
  simp only [effect]
  split
  case h_1 pin hphase =>
    refine h.of_served rfl fun c' pin' hserves => ?_
    have hmoved : (world.move c (route world pin)).Serves c' pin' := hserves
    by_cases hc : c' = c
    · subst hc
      obtain ⟨⟨scope, hserving⟩, -⟩ := (serves_move_self _ _ _).mp hmoved
      exact absurd hserving (route_ne_serving pin pin' scope)
    · exact ⟨(serves_move_of_ne hc _ _).mp hmoved,
        Function.update_of_ne hc _ _⟩
  case h_2 => exact h

/-- An admitted connection is open, as only registered ones are closed. -/
theorem Tabled.open_of_admitted (htabled : Tabled world) {c : ℕ} {pin : String}
    {scope : Scope} (hphase : world.phase c = .admitted pin scope) :
    world.closed c = false := by
  by_contra hclosed
  have hregistered := htabled.closed c (Bool.not_eq_false _ ▸ hclosed)
  rw [hphase] at hregistered
  cases hregistered

/-- Registering serves the connection, which no reply may forbid. -/
theorem revoked_register_iff (htabled : Tabled world) (h : Revoked world)
    (c : ℕ) :
    Revoked (effect world (.register c)) ↔ Timely world (.register c) := by
  simp only [effect, Timely]
  split
  case h_1 pin scope hphase =>
    constructor
    · intro hrevoked pin' scope' heq reply hreply hpin
      obtain ⟨rfl, rfl⟩ := Phase.admitted.inj (hphase.symm.trans heq)
      refine hrevoked reply hreply c
        ⟨⟨scope, ?_⟩, htabled.open_of_admitted hphase⟩
      rw [hpin]
      exact phase_move_self _ _
    · intro htimely reply hreply c' hserves
      have hmoved : (world.move c (.serving pin scope)).Serves c'
          reply.pin := hserves
      by_cases hc : c' = c
      · subst hc
        obtain ⟨⟨scope', hserving⟩, -⟩ := (serves_move_self _ _ _).mp hmoved
        obtain ⟨hpin, -⟩ := Phase.serving.inj hserving
        exact htimely pin scope hphase reply hreply hpin.symm
      · exact h reply hreply c' ((serves_move_of_ne hc _ _).mp hmoved)
  case h_2 hne =>
    exact iff_of_true h fun pin scope hphase =>
      absurd hphase (hne pin scope)

/-- The reply comes after every connection under its pin was closed. -/
theorem Revoked.closePeer (htabled : Tabled world) (h : Revoked world)
    (request : ℕ) : Revoked (effect world (.closePeer request)) := by
  simp only [effect]
  split
  case h_1 => exact h
  case h_2 removal hremoval =>
    intro reply hreply c hserves
    have hclosing : (closing world removal.pin).Serves c reply.pin := hserves
    obtain ⟨hold, hpin⟩ := serves_closing htabled hclosing
    rcases List.mem_append.mp hreply with hearlier | hnew
    · exact h reply hearlier c hold
    · obtain rfl := List.mem_singleton.mp hnew
      exact absurd rfl hpin

/-- Only a connection that registers too late breaks the promise of a
revoke. -/
theorem revoked_step_iff (htabled : Tabled world) (h : Revoked world)
    (event : Event) : Revoked (step world event) ↔ Timely world event := by
  have hclock : Revoked (step world event) ↔ Revoked (effect world event) :=
    Iff.rfl
  rw [hclock]
  cases event with
  | accept c pin =>
      refine iff_of_true ?_ trivial
      simp only [effect]
      split
      case h_1 => exact h.move fun _ _ => nofun
      case h_2 => exact h
  | lookUp c => exact iff_of_true (h.lookUp c) trivial
  | register c => exact revoked_register_iff htabled h c
  | returned c =>
      refine iff_of_true ?_ trivial
      simp only [effect]
      split
      case h_1 => exact h.move fun _ _ => nofun
      case h_2 => exact h.move fun _ _ => nofun
      case h_3 => exact h.move fun _ _ => nofun
      case h_4 => exact h
  | unregister c =>
      refine iff_of_true ?_ trivial
      simp only [effect]
      split
      case h_1 pin hphase =>
        have hmoved : Revoked (world.move c .ended) := h.move fun _ _ => nofun
        exact hmoved
      case h_2 => exact h
  | remove request pin written =>
      refine iff_of_true ?_ trivial
      simp only [effect]
      split
      case h_1 => exact h
      case h_2 => split <;> exact h
  | closePeer request => exact iff_of_true (h.closePeer htabled request) trivial
  | add name pin scope nowUnix written => exact iff_of_true h trivial

end Steps

/-- After every step of a run nobody is served under a grant that a replied
revoke had removed, if and only if every connection registers in time. -/
theorem revoked_iff_timely (devOpen : Bool) (peers : PeerStore)
    (events : List Event) :
    Along step (fun world event => Revoked (step world event))
        (start devOpen peers) events ↔
      Along step Timely (start devOpen peers) events := by
  refine along_iff_along (fun world => Tabled world ∧ Revoked world)
    (fun world event h hrevoked => ⟨tabled_step h.1 event, hrevoked⟩)
    (fun world event h => revoked_step_iff h.1 h.2 event)
    ⟨tabled_start devOpen peers, ?_⟩ events
  exact fun _ hreply => absurd hreply List.not_mem_nil

/-- A whole revoke between a connection's lookup and its registration. -/
def overtakingRevoke : List Event :=
  [.accept 0 (some "pin"), .lookUp 0, .remove 0 "pin" (.ok ()), .closePeer 0,
    .register 0]

/-- The connection is served although its pin was removed and the revoke has
replied. -/
theorem not_revoked_overtakingRevoke :
    ¬Along step (fun world event => Revoked (step world event))
      (start false ⟨[⟨"laptop", "pin", .interact, 0⟩], none⟩)
      overtakingRevoke := by
  rintro ⟨-, -, -, -, hregistered, -⟩
  have hlate := hregistered ⟨"pin", true, 0, 2⟩ (by decide +kernel) 0
    ⟨⟨.interact, by decide +kernel⟩, by decide +kernel⟩
  exact absurd hlate (by decide +kernel)

end Revocation

end GameStreamer
