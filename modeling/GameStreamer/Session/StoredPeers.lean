import GameStreamer.Session.PairedPeers

/-!
# Where stored peers come from

Handshakes may cross, writes may fail and windows may be replaced under a
connection.  Even so every peer in the store was there when the agent started
or proved the code of a window that the owner had armed, and its scope is not
above that window's.
-/

namespace GameStreamer.Pairing

open Transport EventRun

/-- The pin was granted this scope by a peer of the initial store, or by a peer
that proved the code of an armed window and was stored under this scope. -/
def Entitled (P : Primitives) (initial : List Peer) (world : World)
    (pin : String) (scope : Scope) : Prop :=
  (∃ peer ∈ initial, peer.pin = pin ∧ peer.scope = scope) ∨
    ∃ a ∈ world.additions, a.peer.pin = pin ∧ a.peer.scope = scope ∧
      ProvedCode P world.windows a

/-- How the slot, the connections and the store belong to the windows.  This
holds in every run, however the handshakes cross and the writes fail. -/
structure Traced (P : Primitives) (initial : List Peer) (world : World) :
    Prop where
  rooted : Rooted P world
  stored : ∀ peer ∈ world.agent.peers.peers,
    Entitled P initial world peer.pin peer.scope

section Steps

variable {P : Primitives} {initial : List Peer} {world : World}

/-- An entitlement rests on the history only. -/
theorem Entitled.grow {pin : String} {scope : Scope} {world' : World}
    (h : Entitled P initial world pin scope)
    (hadditions : ∀ a ∈ world.additions, a ∈ world'.additions)
    (hproved : ∀ a, ProvedCode P world.windows a →
      ProvedCode P world'.windows a) :
    Entitled P initial world' pin scope := by
  apply h.imp_right
  rintro ⟨a, ha, hpin, hscope, hcode⟩
  exact ⟨a, hadditions a ha, hpin, hscope, hproved a hcode⟩

theorem additions_turn (c : ℕ) (turn : Turn) :
    ∀ a ∈ world.additions, a ∈ (step P world (.turn c turn)).additions := by
  intro a ha
  simp only [step, turnOf]
  split
  · exact ha
  · exact List.mem_append_left _ ha

theorem Entitled.step {pin : String} {scope : Scope}
    (h : Entitled P initial world pin scope) (event : Event) :
    Entitled P initial (step P world event) pin scope := by
  cases event with
  | tick elapsed => exact h
  | arm drawn scope =>
      exact h.grow (fun _ ha => ha) fun a hcode => hcode.append _
  | poll => exact h
  | revoke pin written => exact h
  | turn c turn => exact h.grow (additions_turn c turn) fun _ hcode => hcode

theorem poll_slot (state : PairingState) (now : ℕ) :
    ∀ p ∈ (state.poll now).1, ∃ p' ∈ state,
      p.code = p'.code ∧ p.scope = p'.scope := by
  intro p hp
  cases state with
  | none => cases hp
  | some slot =>
      simp only [PairingState.poll] at hp
      split at hp
      · cases hp
      · split_ifs at hp
        · cases hp
        · exact ⟨p, hp, rfl, rfl⟩

/-- The admin socket's steps: the slot stays unless it is emptied, and no peer
comes in. -/
theorem Traced.of_admin (h : Traced P initial world) (agent : Agent)
    (polled : List (ℕ × PairOutcome))
    (hpairing : ∀ p ∈ agent.pairing, ∃ p' ∈ world.agent.pairing,
      p.code = p'.code ∧ p.scope = p'.scope)
    (hpeers : agent.peers.peers ⊆ world.agent.peers.peers) :
    Traced P initial { world with agent, polled } where
  rooted := h.rooted.of_admin agent polled hpairing
  stored peer hpeer := h.stored peer (hpeers hpeer)

theorem Traced.arm (h : Traced P initial world) (drawn : Fin 5 → UInt8)
    (scope : Scope) : Traced P initial (step P world (.arm drawn scope)) where
  rooted := h.rooted.arm drawn scope
  stored peer hpeer := (h.stored peer hpeer).step (.arm drawn scope)

/-- A peer that is stored after its confirm verified is entitled to its
scope. -/
theorem entitled_of_verified (h : Rooted P world) {c : ℕ}
    {pairing : AgentPairing} {authorized : Scope} {confirm : PairConfirm}
    (hphase : world.connections c = .responded pairing authorized)
    (hverify : pairing.verify P confirm = true) (nowUnix : ℕ)
    (written sent : Except String Unit) :
    Entitled P initial
      (step P world (.turn c (.confirm confirm nowUnix written sent)))
      confirm.pin (min confirm.requestedScope authorized) := by
  refine Or.inr ⟨_, ?_, rfl, rfl, h.proved hphase hverify
    (world.stillArmed c)⟩
  simp only [step, turnOf, hphase, proven, if_pos hverify]
  exact List.mem_append_right _ (List.mem_singleton_self _)

theorem Traced.turn (h : Traced P initial world) (c : ℕ) (turn : Turn) :
    Traced P initial (step P world (.turn c turn)) := by
  have heffect := pairInner_effect P world.agent (world.connections c) turn
  generalize hserved : pairInner P world.agent (world.connections c) turn =
    served at heffect
  obtain ⟨agent', phase', reply⟩ := served
  dsimp only at heffect
  have hagent : (step P world (.turn c turn)).agent = agent' := by
    simp only [step, turnOf, hserved]
  have hold : ∀ peer ∈ world.agent.peers.peers,
      Entitled P initial (step P world (.turn c turn)) peer.pin peer.scope :=
    fun peer hpeer => (h.stored peer hpeer).step (.turn c turn)
  refine ⟨h.rooted.turn c turn, ?_⟩
  rw [hagent]
  cases heffect with
  | stored pairing authorized confirm nowUnix written sent _ hphase hturn
      hverify =>
      subst hturn
      intro peer hpeer
      dsimp only at hpeer
      rw [PeerStore.add_peers] at hpeer
      rcases PeerStore.mem_insert hpeer with rfl | hkept
      · exact entitled_of_verified h.rooted hphase hverify nowUnix written sent
      · exact hold peer hkept
  | _ => exact hold

theorem Traced.step (h : Traced P initial world) (event : Event) :
    Traced P initial (step P world event) := by
  cases event with
  | tick elapsed =>
      exact h.of_admin { world.agent with now := world.agent.now + elapsed }
        world.polled (fun p hp => ⟨p, hp, rfl, rfl⟩) (List.Subset.refl _)
  | arm drawn scope => exact h.arm drawn scope
  | poll =>
      apply h.of_admin
        { world.agent with
          pairing := (world.agent.pairing.poll world.agent.now).1 }
      · exact poll_slot _ _
      · exact List.Subset.refl _
  | revoke pin written =>
      exact h.of_admin
        { world.agent with peers := (world.agent.peers.remove pin written).1 }
        world.polled (fun p hp => ⟨p, hp, rfl, rfl⟩)
        (PeerStore.remove_peers_subset _ _ _)
  | turn c turn => exact h.turn c turn

end Steps

end GameStreamer.Pairing
