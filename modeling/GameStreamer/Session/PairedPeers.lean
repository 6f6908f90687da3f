import GameStreamer.Session.PairingGuesses

/-!
# Which peers a pairing window admits

A peer is stored when its confirm verifies, and the window is only marked as
used once the accept has gone out.  This module proves that every stored peer
knew the code of the window it is attributed to, and under which course of
events the window was then still open, admitted nobody else and reported that
peer.
-/

namespace GameStreamer.Pairing

open Transport EventRun

/-- The confirm was verified under a key derived from the window's code, and
the peer carries its values, with no more than the window's scope. -/
def ProvedCode (P : Primitives) (windows : List (String × Scope))
    (a : Addition) : Prop :=
  ∃ code authorized hello seed pairing response,
    windows[a.window]? = some (code, authorized) ∧
      AgentPairing.respond P code hello seed = .ok (pairing, response) ∧
      pairing.verify P a.confirm = true ∧
      a.peer = ⟨a.confirm.name, a.confirm.pin,
        min a.confirm.requestedScope authorized⟩

/-- What the pairing window promises, for an agent that started with the peers
`initial`. -/
structure Attributed (P : Primitives) (initial : List Peer) (world : World) :
    Prop where
  /-- Peers come from additions only. -/
  stored : ∀ peer ∈ world.agent.peers.peers, peer ∈ initial ∨
    ∃ a ∈ world.additions, a.peer = ⟨peer.name, peer.pin, peer.scope⟩
  proved : ∀ a ∈ world.additions, ProvedCode P world.windows a
  /-- The window was open when the peer was stored. -/
  armed : ∀ a ∈ world.additions, a.stillArmed = true
  /-- No window admits two peers. -/
  single : (world.additions.map Addition.window).Nodup
  /-- No peer is granted more than its window's scope. -/
  scope : ∀ a ∈ world.additions, ∃ code authorized,
    world.windows[a.window]? = some (code, authorized) ∧
      a.peer.scope ≤ authorized
  /-- An outcome polled for a window is that of a peer who proved its code. -/
  polled : ∀ entry ∈ world.polled, ∃ a ∈ world.additions,
    a.window = entry.1 ∧ a.peer = entry.2

/-- Connection `c` has stored its peer under the window in the slot and is
still sending the accept. -/
def World.completing (world : World) (c : ℕ) : Prop :=
  world.read c = world.current ∧
    ∃ confirm scope, world.connections c = .granted confirm scope

/-- A verified confirm finds its window still armed, with no other handshake
of it completing, and its peer is written out; an outcome is recorded on its
own window; and an accept fails only once its window is gone. -/
def Undisturbed (P : Primitives) (world : World) : Event → Prop
  | .turn c turn =>
      match world.connections c, turn with
      | .responded pairing _, .confirm confirm _ written _ =>
          pairing.verify P confirm = true →
            world.stillArmed c = true ∧ written = .ok () ∧
              ∀ c', ¬world.completing c'
      | .granted _ _, .accept (.ok ()) =>
          world.agent.pairing = none ∨ world.read c = world.current
      | .granted _ _, .accept (.error _) => world.holds c = false
      | _, _ => True
  | _ => True

/-- The key was answered under the code of the window. -/
def KeyedBy (P : Primitives) (windows : List (String × Scope)) (window : ℕ)
    (pairing : AgentPairing) (authorized : Scope) : Prop :=
  ∃ code hello seed response, windows[window]? = some (code, authorized) ∧
    AgentPairing.respond P code hello seed = .ok (pairing, response)

/-- How the slot and the keys of the connections belong to the windows. -/
structure Rooted (P : Primitives) (world : World) : Prop where
  slot : ∀ p ∈ world.agent.pairing,
    world.windows[world.current]? = some (p.code, p.scope)
  responded : ∀ c pairing authorized,
    world.connections c = .responded pairing authorized →
      KeyedBy P world.windows (world.read c) pairing authorized

/-- How the slot, the connections and the history belong together.  It is kept
by undisturbed steps, and a disturbed one may break it for good. -/
structure Tracked (P : Primitives) (initial : List Peer) (world : World) :
    Prop where
  rooted : Rooted P world
  granted : ∀ c confirm scope,
    world.connections c = .granted confirm scope →
    ∃ a ∈ world.additions, a.window = world.read c ∧
      a.peer = ⟨confirm.name, confirm.pin, scope⟩
  outcome : ∀ p ∈ world.agent.pairing, ∀ outcome ∈ p.outcome,
    ∃ a ∈ world.additions, a.window = world.current ∧ a.peer = outcome
  consumed : ∀ p ∈ world.agent.pairing, ∀ a ∈ world.additions,
    a.window = world.current →
      p.outcome ≠ none ∨ ∃ c, world.completing c
  range : ∀ a ∈ world.additions, a.window < world.windows.length
  attributed : Attributed P initial world

theorem rooted_start (P : Primitives) (peers : PeerStore)
    (fingerprint : String) : Rooted P (start peers fingerprint) where
  slot := by simp [start]
  responded := by simp [start]

theorem tracked_start (P : Primitives) (peers : PeerStore)
    (fingerprint : String) :
    Tracked P peers.peers (start peers fingerprint) where
  rooted := rooted_start P peers fingerprint
  granted := by simp [start]
  outcome := by simp [start]
  consumed := by simp [start]
  range := by simp [start]
  attributed :=
    { stored := fun _ h => Or.inl h
      proved := by simp [start]
      armed := by simp [start]
      single := List.nodup_nil
      scope := by simp [start]
      polled := by simp [start] }

section Steps

theorem getElem?_append_of_some {A : Type*} {front back : List A} {i : ℕ}
    {x : A} (h : front[i]? = some x) : (front ++ back)[i]? = some x := by
  rw [List.getElem?_append_left (List.getElem?_eq_some_iff.mp h).1, h]

variable {P : Primitives} {initial : List Peer} {world : World}

/-- The admin socket leaves the slot's window as it is or empties the slot. -/
theorem Rooted.of_admin (h : Rooted P world) (agent : Agent)
    (polled : List (ℕ × PairOutcome))
    (hpairing : ∀ p ∈ agent.pairing, ∃ p' ∈ world.agent.pairing,
      p.code = p'.code ∧ p.scope = p'.scope) :
    Rooted P { world with agent, polled } where
  slot := by
    intro p hp
    obtain ⟨p', hp', hcode, hscope⟩ := hpairing p hp
    rw [hcode, hscope]
    exact h.slot p' hp'
  responded := h.responded

/-- The admin socket's steps: the connections and the additions stay, and so
does the slot unless it is emptied. -/
theorem Tracked.of_admin (h : Tracked P initial world) (agent : Agent)
    (polled : List (ℕ × PairOutcome))
    (hpairing : ∀ p ∈ agent.pairing, p ∈ world.agent.pairing)
    (hpeers : agent.peers.peers ⊆ world.agent.peers.peers)
    (hpolled : ∀ entry ∈ polled, ∃ a ∈ world.additions,
      a.window = entry.1 ∧ a.peer = entry.2) :
    Tracked P initial { world with agent, polled } where
  rooted := h.rooted.of_admin agent polled fun p hp =>
    ⟨p, hpairing p hp, rfl, rfl⟩
  granted := h.granted
  outcome p hp := h.outcome p (hpairing p hp)
  consumed p hp := h.consumed p (hpairing p hp)
  range := h.range
  attributed :=
    { stored := fun peer hpeer => h.attributed.stored peer (hpeers hpeer)
      proved := h.attributed.proved
      armed := h.attributed.armed
      single := h.attributed.single
      scope := h.attributed.scope
      polled := hpolled }

theorem Tracked.poll (h : Tracked P initial world) :
    Tracked P initial (step P world .poll) := by
  have hpairing : ∀ p ∈ (world.agent.pairing.poll world.agent.now).1,
      p ∈ world.agent.pairing := by
    intro p hp
    cases hslot : world.agent.pairing with
    | none => simp [hslot, PairingState.poll] at hp
    | some q =>
        simp only [hslot, PairingState.poll] at hp
        split at hp
        · cases hp
        · split_ifs at hp
          · cases hp
          · exact hp
  refine h.of_admin
    { world.agent with
      pairing := (world.agent.pairing.poll world.agent.now).1 }
    _ hpairing (List.Subset.refl _) ?_
  intro entry hentry
  cases hslot : world.agent.pairing with
  | none =>
      simp only [hslot] at hentry
      exact h.attributed.polled entry hentry
  | some q =>
      cases hout : q.outcome with
      | none =>
          simp only [hslot, hout] at hentry
          split_ifs at hentry <;> exact h.attributed.polled entry hentry
      | some outcome =>
          simp only [hslot, hout] at hentry
          rcases List.mem_append.mp hentry with hold | hnew
          · exact h.attributed.polled entry hold
          · obtain rfl := List.mem_singleton.mp hnew
            exact h.outcome q hslot outcome hout

theorem ProvedCode.scope_le {windows : List (String × Scope)} {a : Addition}
    (h : ProvedCode P windows a) :
    ∃ code authorized, windows[a.window]? = some (code, authorized) ∧
      a.peer.scope ≤ authorized := by
  obtain ⟨code, authorized, _, _, _, _, hwindow, -, -, hpeer⟩ := h
  refine ⟨code, authorized, hwindow, ?_⟩
  rw [hpeer]
  exact min_le_right _ _

theorem ProvedCode.append {windows : List (String × Scope)} {a : Addition}
    (h : ProvedCode P windows a) (armed : String × Scope) :
    ProvedCode P (windows ++ [armed]) a := by
  obtain ⟨code, authorized, hello, seed, pairing, response, hwindow, hrest⟩ := h
  exact ⟨code, authorized, hello, seed, pairing, response,
    getElem?_append_of_some hwindow, hrest⟩

/-- A new window comes into the slot. -/
theorem Rooted.arm (h : Rooted P world) (drawn : Fin 5 → UInt8)
    (scope : Scope) : Rooted P (step P world (.arm drawn scope)) where
  slot := by
    intro p hp
    obtain rfl := Option.mem_some_iff.mp hp
    simp [Pairing.step, World.current]
  responded := by
    intro c pairing authorized hc
    obtain ⟨code, hello, seed, response, hwindow, hrespond⟩ :=
      h.responded c pairing authorized hc
    exact ⟨code, hello, seed, response, getElem?_append_of_some hwindow,
      hrespond⟩

theorem Tracked.arm (h : Tracked P initial world) (drawn : Fin 5 → UInt8)
    (scope : Scope) : Tracked P initial (step P world (.arm drawn scope)) := by
  have hcurrent : (step P world (.arm drawn scope)).current =
      world.windows.length := by
    simp [step, World.current]
  have hfresh : ∀ p ∈ (step P world (.arm drawn scope)).agent.pairing,
      p.outcome = none := by
    intro p hp
    obtain rfl := Option.mem_some_iff.mp hp
    rfl
  constructor
  case rooted => exact h.rooted.arm drawn scope
  case granted => exact h.granted
  case outcome =>
    intro p hp outcome hout
    rw [hfresh p hp] at hout
    cases hout
  case consumed =>
    intro p hp a ha hwindow
    have hrange := h.range a ha
    rw [hcurrent] at hwindow
    omega
  case range =>
    intro a ha
    have hrange := h.range a ha
    simp only [step, List.length_append, List.length_singleton]
    omega
  case attributed =>
    have hproved : ∀ a ∈ world.additions,
        ProvedCode P (world.windows ++ [(generateCode drawn, scope)]) a :=
      fun a ha => (h.attributed.proved a ha).append _
    exact
      { stored := h.attributed.stored
        proved := hproved
        armed := h.attributed.armed
        single := h.attributed.single
        scope := fun a ha => (hproved a ha).scope_le
        polled := h.attributed.polled }

/-- The world after a turn of connection `c` that leads to `phase'`. -/
structure AfterTurn (world : World) (c : ℕ) (phase' : Phase) (world' : World) :
    Prop where
  connections :
    world'.connections = Function.update world.connections c phase'
  windows : world'.windows = world.windows
  polled : world'.polled = world.polled
  read : ∀ c' ≠ c, world'.read c' = world.read c'
  readOwn : world'.read c =
    if world.connections c = .accepted then world.current else world.read c

theorem afterTurn {c : ℕ} {turn : Turn} {agent' : Agent} {phase' : Phase}
    {reply : Option Reply}
    (hserved : pairInner P world.agent (world.connections c) turn =
      (agent', phase', reply)) :
    AfterTurn world c phase' (step P world (.turn c turn)) where
  connections := by simp only [step, turnOf, hserved]
  windows := rfl
  polled := rfl
  read c' hc' := by
    simp only [step, turnOf]
    split_ifs
    · exact Function.update_of_ne hc' _ _
    · rfl
  readOwn := by
    simp only [step, turnOf]
    split_ifs
    · exact Function.update_self _ _ _
    · rfl

theorem AfterTurn.current {c : ℕ} {phase' : Phase} {world' : World}
    (hafter : AfterTurn world c phase' world') :
    world'.current = world.current := by
  rw [World.current, hafter.windows, World.current]

theorem AfterTurn.read_eq {c : ℕ} {phase' : Phase} {world' : World}
    (hafter : AfterTurn world c phase' world')
    (hphase : world.connections c ≠ .accepted) : world'.read = world.read := by
  funext c'
  by_cases hc : c' = c
  · rw [hc, hafter.readOwn, if_neg hphase]
  · exact hafter.read c' hc

/-- The other connections are where they were. -/
theorem AfterTurn.completing {c c' : ℕ} {phase' : Phase} {world' : World}
    (hafter : AfterTurn world c phase' world') (hc : c' ≠ c) :
    world'.completing c' ↔ world.completing c' := by
  rw [World.completing, World.completing, hafter.current, hafter.read c' hc,
    hafter.connections, Function.update_of_ne hc]

/-- A turn that stores no peer leaves the window's promises as they were. -/
theorem AfterTurn.attributed {c : ℕ} {phase' : Phase} {world' : World}
    (hafter : AfterTurn world c phase' world')
    (hadditions : world'.additions = world.additions)
    (hpeers : world'.agent.peers = world.agent.peers)
    (h : Attributed P initial world) : Attributed P initial world' := by
  obtain ⟨hstored, hproved, harmed, hsingle, hscope, hpolled⟩ := h
  constructor
  · rw [hpeers, hadditions]; exact hstored
  · rw [hadditions, hafter.windows]; exact hproved
  · rw [hadditions]; exact harmed
  · rw [hadditions]; exact hsingle
  · rw [hadditions, hafter.windows]; exact hscope
  · rw [hafter.polled, hadditions]; exact hpolled

theorem mem_append_singleton {A : Type*} {front : List A} {x last : A}
    (h : x ∈ front ++ [last]) : x ∈ front ∨ x = last := by
  rcases List.mem_append.mp h with hfront | hlast
  · exact Or.inl hfront
  · exact Or.inr (List.mem_singleton.mp hlast)

/-- A turn that stores the first peer of an armed window. -/
theorem AfterTurn.attributed_added {c : ℕ} {phase' : Phase} {world' : World}
    (hafter : AfterTurn world c phase' world') {added : Addition}
    (hadditions : world'.additions = world.additions ++ [added])
    (hpeers : ∀ peer ∈ world'.agent.peers.peers,
      added.peer = ⟨peer.name, peer.pin, peer.scope⟩ ∨
        peer ∈ world.agent.peers.peers)
    (hproved : ProvedCode P world.windows added)
    (harmed : added.stillArmed = true)
    (hfirst : ∀ a ∈ world.additions, a.window ≠ added.window)
    (h : Attributed P initial world) : Attributed P initial world' := by
  have hkept : ∀ a ∈ world.additions, a ∈ world'.additions := by
    rw [hadditions]
    exact fun a ha => List.mem_append_left _ ha
  have hall : ∀ a ∈ world'.additions, ProvedCode P world'.windows a := by
    intro a ha
    rw [hadditions] at ha
    rw [hafter.windows]
    rcases mem_append_singleton ha with hold | rfl
    · exact h.proved a hold
    · exact hproved
  constructor
  case stored =>
    intro peer hpeer
    rcases hpeers peer hpeer with hnew | hold
    · refine Or.inr ⟨added, ?_, hnew⟩
      rw [hadditions]
      exact List.mem_append_right _ (List.mem_singleton_self _)
    · rcases h.stored peer hold with hinit | ⟨a, ha, hpeer⟩
      · exact Or.inl hinit
      · exact Or.inr ⟨a, hkept a ha, hpeer⟩
  case proved => exact hall
  case armed =>
    intro a ha
    rw [hadditions] at ha
    rcases mem_append_singleton ha with hold | rfl
    · exact h.armed a hold
    · exact harmed
  case single =>
    rw [hadditions, List.map_append, List.nodup_append]
    refine ⟨h.single, by simp, ?_⟩
    intro w hw w' hw'
    obtain ⟨a, ha, rfl⟩ := List.mem_map.mp hw
    obtain rfl := List.mem_singleton.mp hw'
    exact hfirst a ha
  case scope => exact fun a ha => (hall a ha).scope_le
  case polled =>
    intro entry hentry
    rw [hafter.polled] at hentry
    obtain ⟨a, ha, hrest⟩ := h.polled entry hentry
    exact ⟨a, hkept a ha, hrest⟩

/-- The connections other than the one that moved still know what they read,
and the slot still belongs to the window armed last. -/
theorem Rooted.after (h : Rooted P world) {c : ℕ} {phase' : Phase}
    {world' : World} (hafter : AfterTurn world c phase' world')
    (hpairing : ∀ p' ∈ world'.agent.pairing, ∃ p ∈ world.agent.pairing,
      p'.code = p.code ∧ p'.scope = p.scope)
    (hown : ∀ pairing authorized, phase' = .responded pairing authorized →
      KeyedBy P world.windows (world'.read c) pairing authorized) :
    Rooted P world' where
  slot := by
    intro p' hp'
    obtain ⟨p, hp, hcode, hscope⟩ := hpairing p' hp'
    rw [hafter.windows, hafter.current, hcode, hscope]
    exact h.slot p hp
  responded := by
    intro c' pairing authorized hc'
    rw [hafter.connections] at hc'
    rw [hafter.windows]
    by_cases hc : c' = c
    · subst hc
      rw [Function.update_self] at hc'
      exact hown pairing authorized hc'
    · rw [Function.update_of_ne hc] at hc'
      rw [hafter.read c' hc]
      exact h.responded c' pairing authorized hc'

theorem recordFailure_slot (state : PairingState) :
    ∀ p' ∈ state.recordFailure.1, ∃ p ∈ state,
      p'.code = p.code ∧ p'.scope = p.scope ∧ p'.outcome = p.outcome := by
  intro p' hp'
  cases state with
  | none => cases hp'
  | some p =>
      rw [PairingState.recordFailure] at hp'
      split_ifs at hp'
      · cases hp'
      · obtain rfl := Option.mem_some_iff.mp hp'
        exact ⟨p, rfl, rfl, rfl, rfl⟩

/-- Whatever a turn does, the slot and the keys belong to the windows. -/
theorem Rooted.turn (h : Rooted P world) (c : ℕ) (turn : Turn) :
    Rooted P (step P world (.turn c turn)) := by
  have heffect := pairInner_effect P world.agent (world.connections c) turn
  generalize hserved : pairInner P world.agent (world.connections c) turn =
    served at heffect
  obtain ⟨agent', phase', reply⟩ := served
  dsimp only at heffect
  have hagent : (step P world (.turn c turn)).agent = agent' := by
    simp only [step, turnOf, hserved]
  have hafter := afterTurn hserved
  apply h.after hafter
  · rw [hagent]
    cases heffect with
    | charged =>
        intro p' hp'
        obtain ⟨p, hp, hcode, hscope, -⟩ := recordFailure_slot _ p' hp'
        exact ⟨p, hp, hcode, hscope⟩
    | completed =>
        intro p' hp'
        obtain ⟨p, hp, rfl⟩ := Option.map_eq_some_iff.mp hp'
        exact ⟨p, hp, rfl, rfl⟩
    | _ => exact fun p hp => ⟨p, hp, rfl, rfl⟩
  · intro pairing authorized hresponded
    cases heffect with
    | quiet _ hphase =>
        have hold := eq_of_stays hphase hresponded (by simp)
        rw [hafter.readOwn, if_neg (by rw [hold]; simp)]
        exact h.responded c pairing authorized hold
    | responded code authorized' hello seed pairing' response hphase hturn
        harmed hrespond =>
        obtain ⟨rfl, rfl⟩ := Phase.responded.inj hresponded
        obtain ⟨p, hp, -, -, hread⟩ := PairingState.armed_eq_some harmed
        refine ⟨code, hello, seed, response, ?_, hrespond⟩
        rw [hafter.readOwn, if_pos hphase, hread]
        exact h.slot p hp
    | charged => cases hresponded
    | completed => cases hresponded
    | stored _ _ _ _ _ _ _ _ _ _ hnext =>
        rcases hnext with rfl | ⟨-, result, rfl⟩ <;> cases hresponded

/-- A verified confirm proves the code of the window that was read. -/
theorem Rooted.proved (h : Rooted P world) {c : ℕ} {pairing : AgentPairing}
    {authorized : Scope} {confirm : PairConfirm}
    (hphase : world.connections c = .responded pairing authorized)
    (hverify : pairing.verify P confirm = true) (stillArmed : Bool) :
    ProvedCode P world.windows ⟨c, world.read c, confirm,
      ⟨confirm.name, confirm.pin, min confirm.requestedScope authorized⟩,
      stillArmed⟩ := by
  obtain ⟨code, hello, seed, response, hwindow, hrespond⟩ :=
    h.responded c pairing authorized hphase
  exact ⟨code, authorized, hello, seed, pairing, response, hwindow, hrespond,
    hverify, rfl⟩

theorem Tracked.granted_after (h : Tracked P initial world) {c : ℕ}
    {phase' : Phase} {world' : World}
    (hafter : AfterTurn world c phase' world')
    (hadditions : ∀ a ∈ world.additions, a ∈ world'.additions)
    (hown : ∀ confirm scope, phase' = .granted confirm scope →
      ∃ a ∈ world'.additions, a.window = world'.read c ∧
        a.peer = ⟨confirm.name, confirm.pin, scope⟩) :
    ∀ c' confirm scope, world'.connections c' = .granted confirm scope →
      ∃ a ∈ world'.additions, a.window = world'.read c' ∧
        a.peer = ⟨confirm.name, confirm.pin, scope⟩ := by
  intro c' confirm scope hc'
  rw [hafter.connections] at hc'
  by_cases hc : c' = c
  · subst hc
    rw [Function.update_self] at hc'
    exact hown confirm scope hc'
  · rw [Function.update_of_ne hc] at hc'
    obtain ⟨a, ha, hwindow, hpeer⟩ := h.granted c' confirm scope hc'
    rw [hafter.read c' hc]
    exact ⟨a, hadditions a ha, hwindow, hpeer⟩

/-- A turn that stores no peer, and changes the slot at most by counting a
failure or emptying it. -/
theorem Tracked.of_quiet (h : Tracked P initial world) {c : ℕ}
    {phase' : Phase} {world' : World} (hrooted : Rooted P world')
    (hafter : AfterTurn world c phase' world')
    (hadditions : world'.additions = world.additions)
    (hpeers : world'.agent.peers = world.agent.peers)
    (hpairing : ∀ p' ∈ world'.agent.pairing, ∃ p ∈ world.agent.pairing,
      p'.outcome = p.outcome)
    (hgranted : ∀ confirm scope, phase' = .granted confirm scope →
      world.connections c = .granted confirm scope)
    (hcompleting : ∀ p ∈ world.agent.pairing, world.completing c →
      world'.completing c) : Tracked P initial world' := by
  constructor
  case rooted => exact hrooted
  case granted =>
    apply h.granted_after hafter (by rw [hadditions]; exact fun _ ha => ha)
    intro confirm scope hphase
    have hold := hgranted confirm scope hphase
    rw [hadditions, hafter.readOwn, if_neg (by rw [hold]; simp)]
    exact h.granted c confirm scope hold
  case outcome =>
    intro p' hp' outcome hout
    obtain ⟨p, hp, hsame⟩ := hpairing p' hp'
    rw [hsame] at hout
    rw [hadditions, hafter.current]
    exact h.outcome p hp outcome hout
  case consumed =>
    intro p' hp' a ha hwindow
    obtain ⟨p, hp, hsame⟩ := hpairing p' hp'
    rw [hadditions] at ha
    rw [hafter.current] at hwindow
    rcases h.consumed p hp a ha hwindow with hused | ⟨c', hc'⟩
    · rw [hsame]
      exact Or.inl hused
    · by_cases hc : c' = c
      · subst hc
        exact Or.inr ⟨c', hcompleting p hp hc'⟩
      · exact Or.inr ⟨c', (hafter.completing hc).mpr hc'⟩
  case range =>
    rw [hadditions, hafter.windows]
    exact h.range
  case attributed => exact hafter.attributed hadditions hpeers h.attributed

/-- While its window is armed and no other handshake of it is completing, no
peer was stored under it. -/
theorem Tracked.unused (h : Tracked P initial world) {c : ℕ}
    (harmed : world.stillArmed c = true)
    (halone : ∀ c', ¬world.completing c') :
    world.read c = world.current ∧
      ∀ a ∈ world.additions, a.window ≠ world.current := by
  rw [World.stillArmed, Bool.and_eq_true, beq_iff_eq,
    Option.isSome_iff_exists] at harmed
  obtain ⟨⟨shown, hshown⟩, hread⟩ := harmed
  obtain ⟨p, hp, hunclaimed, -, -⟩ := PairingState.armed_eq_some hshown
  refine ⟨hread, ?_⟩
  intro a ha hwindow
  rcases h.consumed p hp a ha hwindow with hused | ⟨c', hc'⟩
  · exact hused hunclaimed
  · exact halone c' hc'

/-- A verified confirm stores its peer while its window is armed and no other
handshake of it is completing. -/
structure StoresPeer (P : Primitives) (world : World) (c : ℕ)
    (confirm : PairConfirm) (scope : Scope) (world' : World)
    (added : Addition) : Prop where
  phase : ∃ pairing authorized,
    world.connections c = .responded pairing authorized
  armed : world.stillArmed c = true
  alone : ∀ c', ¬world.completing c'
  after : AfterTurn world c (.granted confirm scope) world'
  pairing : world'.agent.pairing = world.agent.pairing
  peers : ∀ peer ∈ world'.agent.peers.peers,
    added.peer = ⟨peer.name, peer.pin, peer.scope⟩ ∨
      peer ∈ world.agent.peers.peers
  proved : ProvedCode P world.windows added
  addition : added = ⟨c, world.read c, confirm,
    ⟨confirm.name, confirm.pin, scope⟩, world.stillArmed c⟩
  additions : world'.additions = world.additions ++ [added]

section StoresPeer

variable {c : ℕ} {confirm : PairConfirm} {scope : Scope} {world' : World}
  {added : Addition}

theorem StoresPeer.read_eq
    (h : StoresPeer P world c confirm scope world' added) :
    world'.read = world.read := by
  obtain ⟨pairing, authorized, hphase⟩ := h.phase
  exact h.after.read_eq (by rw [hphase]; simp)

theorem StoresPeer.kept (h : StoresPeer P world c confirm scope world' added)
    {a : Addition} (ha : a ∈ world.additions) : a ∈ world'.additions := by
  rw [h.additions]
  exact List.mem_append_left _ ha

theorem StoresPeer.granted
    (h : StoresPeer P world c confirm scope world' added) :
    ∃ a ∈ world'.additions, a.window = world'.read c ∧
      a.peer = ⟨confirm.name, confirm.pin, scope⟩ := by
  rw [h.read_eq, h.additions]
  exact ⟨added, List.mem_append_right _ (List.mem_singleton_self _),
    by rw [h.addition], by rw [h.addition]⟩

theorem StoresPeer.range (h : StoresPeer P world c confirm scope world' added)
    (hrange : ∀ a ∈ world.additions, a.window < world.windows.length) :
    ∀ a ∈ world'.additions, a.window < world'.windows.length := by
  intro a ha
  rw [h.additions] at ha
  rw [h.after.windows]
  rcases mem_append_singleton ha with hold | rfl
  · exact hrange a hold
  · obtain ⟨code, authorized, _, _, _, _, hwindow, -⟩ := h.proved
    exact (List.getElem?_eq_some_iff.mp hwindow).1

/-- The window was not used before. -/
theorem StoresPeer.attributed
    (h : StoresPeer P world c confirm scope world' added)
    (htracked : Tracked P initial world) : Attributed P initial world' := by
  obtain ⟨hread, hfirst⟩ := htracked.unused h.armed h.alone
  apply h.after.attributed_added h.additions h.peers h.proved _ _
    htracked.attributed
  · rw [h.addition]
    exact h.armed
  · intro a ha
    rw [h.addition]
    exact fun heq => hfirst a ha (heq.trans hread)

theorem Rooted.storesPeer (h : Rooted P world) {pairing : AgentPairing}
    {authorized : Scope} {nowUnix : ℕ} {written : Except String Unit}
    (hphase : world.connections c = .responded pairing authorized)
    (hverify : pairing.verify P confirm = true)
    (harmed : world.stillArmed c = true)
    (halone : ∀ c', ¬world.completing c')
    (hafter : AfterTurn world c
      (.granted confirm (min confirm.requestedScope authorized)) world')
    (hagent : world'.agent = { world.agent with
      peers := (world.agent.peers.add confirm.name confirm.pin
        (min confirm.requestedScope authorized) nowUnix written).1 })
    (hadditions : world'.additions = world.additions ++
      [⟨c, world.read c, confirm, ⟨confirm.name, confirm.pin,
        min confirm.requestedScope authorized⟩, world.stillArmed c⟩]) :
    StoresPeer P world c confirm (min confirm.requestedScope authorized)
      world' ⟨c, world.read c, confirm, ⟨confirm.name, confirm.pin,
        min confirm.requestedScope authorized⟩, world.stillArmed c⟩ where
  phase := ⟨pairing, authorized, hphase⟩
  armed := harmed
  alone := halone
  after := hafter
  pairing := by rw [hagent]
  peers peer hpeer := by
    rw [hagent, PeerStore.add_peers] at hpeer
    rcases PeerStore.mem_insert hpeer with rfl | hold
    · exact Or.inl rfl
    · exact Or.inr hold
  proved := h.proved hphase hverify _
  addition := rfl
  additions := hadditions

theorem Tracked.of_stored (h : Tracked P initial world)
    (hrooted : Rooted P world')
    (hstores : StoresPeer P world c confirm scope world' added) :
    Tracked P initial world' := by
  constructor
  case rooted => exact hrooted
  case granted =>
    apply h.granted_after hstores.after fun _ => hstores.kept
    intro confirm' scope' heq
    obtain ⟨rfl, rfl⟩ := Phase.granted.inj heq
    exact hstores.granted
  case outcome =>
    intro p' hp' outcome hout
    rw [hstores.pairing] at hp'
    obtain ⟨a, ha, hrest⟩ := h.outcome p' hp' outcome hout
    rw [hstores.after.current]
    exact ⟨a, hstores.kept ha, hrest⟩
  case consumed =>
    -- The connection that stored the peer is completing now.
    intro _ _ _ _ _
    have hread := (h.unused hstores.armed hstores.alone).1
    have hgranted := congrFun hstores.after.connections c
    rw [Function.update_self] at hgranted
    refine Or.inr ⟨c, ?_, confirm, scope, hgranted⟩
    rw [hstores.read_eq, hstores.after.current, hread]
  case range => exact hstores.range h.range
  case attributed => exact hstores.attributed h

end StoresPeer

/-- An outcome recorded on the window of the connection that stored it. -/
theorem Tracked.of_completed (h : Tracked P initial world) {c : ℕ}
    {confirm : PairConfirm} {scope : Scope}
    {result : Except String (Option String)} {world' : World}
    (hrooted : Rooted P world')
    (hphase : world.connections c = .granted confirm scope)
    (hown : world.agent.pairing = none ∨ world.read c = world.current)
    (hafter : AfterTurn world c (.returned result) world')
    (hagent : world'.agent = { world.agent with
      pairing := world.agent.pairing.complete
        ⟨confirm.name, confirm.pin, scope⟩ })
    (hadditions : world'.additions = world.additions) :
    Tracked P initial world' := by
  have hpairing : ∀ p' ∈ world'.agent.pairing, ∃ p ∈ world.agent.pairing,
      p' = { p with outcome := some ⟨confirm.name, confirm.pin, scope⟩ } := by
    intro p' hp'
    rw [hagent] at hp'
    obtain ⟨p, hp, rfl⟩ := Option.map_eq_some_iff.mp hp'
    exact ⟨p, hp, rfl⟩
  constructor
  case rooted => exact hrooted
  case granted =>
    apply h.granted_after hafter (by rw [hadditions]; exact fun _ ha => ha)
    simp
  case outcome =>
    intro p' hp' outcome hout
    obtain ⟨p, hp, rfl⟩ := hpairing p' hp'
    obtain rfl := Option.mem_some_iff.mp hout
    obtain ⟨a, ha, hwindow, hpeer⟩ := h.granted c confirm scope hphase
    have hread : world.read c = world.current := by
      rcases hown with hnone | hread
      · rw [hnone] at hp
        cases hp
      · exact hread
    rw [hadditions, hafter.current]
    exact ⟨a, ha, hwindow.trans hread, hpeer⟩
  case consumed =>
    intro p' hp' _ _ _
    obtain ⟨p, hp, rfl⟩ := hpairing p' hp'
    exact Or.inl (by simp)
  case range =>
    rw [hadditions, hafter.windows]
    exact h.range
  case attributed =>
    exact hafter.attributed hadditions (by rw [hagent]) h.attributed

/-- An accept that fails once its window is gone leaves no other handshake of
a window in the slot completing. -/
theorem completing_of_quiet {c : ℕ} {turn : Turn} {phase' : Phase}
    {world' : World} (hafter : AfterTurn world c phase' world')
    (haccept : ∀ confirm scope, world.connections c = .granted confirm scope →
      phase' = world.connections c ∨ ∃ e, turn = .accept (.error e))
    (hcond : Undisturbed P world (.turn c turn)) :
    ∀ p ∈ world.agent.pairing, world.completing c → world'.completing c := by
  rintro p hp ⟨hread, confirm, scope, hgranted⟩
  rcases haccept confirm scope hgranted with hsame | ⟨e, rfl⟩
  · refine ⟨?_, confirm, scope, ?_⟩
    · rw [hafter.readOwn, if_neg (by rw [hgranted]; simp), hafter.current,
        hread]
    · rw [hafter.connections, Function.update_self, hsame, hgranted]
  · -- The accept failed while its window was in the slot.
    simp only [Undisturbed, hgranted] at hcond
    simp [World.holds, hread, Option.mem_def.mp hp] at hcond

theorem Tracked.turn (h : Tracked P initial world) (c : ℕ) (turn : Turn)
    (hcond : Undisturbed P world (.turn c turn)) :
    Tracked P initial (step P world (.turn c turn)) := by
  have heffect := pairInner_effect P world.agent (world.connections c) turn
  generalize hserved : pairInner P world.agent (world.connections c) turn =
    served at heffect
  obtain ⟨agent', phase', reply⟩ := served
  dsimp only at heffect
  have hrooted := h.rooted.turn c turn
  have hafter := afterTurn hserved
  have hagent : (step P world (.turn c turn)).agent = agent' := by
    simp only [step, turnOf, hserved]
  have hnone : proven P (world.connections c) turn = none →
      (step P world (.turn c turn)).additions = world.additions := by
    intro hproven
    simp only [step, turnOf, hproven]
  cases heffect with
  | quiet _ hphase haccept hguess hproven =>
      refine h.of_quiet hrooted hafter (hnone hproven) (by rw [hagent])
        (by rw [hagent]; exact fun p hp => ⟨p, hp, rfl⟩) ?_
        (completing_of_quiet hafter haccept hcond)
      exact fun confirm scope hnext => eq_of_stays hphase hnext (by simp)
  | responded code authorized hello seed pairing response hphase hturn =>
      refine h.of_quiet hrooted hafter (hnone (by rw [hphase, hturn]; rfl))
        (by rw [hagent]) (by rw [hagent]; exact fun p hp => ⟨p, hp, rfl⟩)
        (by simp) ?_
      rintro p hp ⟨-, confirm, scope, hgranted⟩
      rw [hphase] at hgranted
      cases hgranted
  | charged result hguess hproven =>
      refine h.of_quiet hrooted hafter (hnone hproven) (by rw [hagent]) ?_
        (by simp) ?_
      · rw [hagent]
        intro p' hp'
        obtain ⟨p, hp, -, -, hsame⟩ := recordFailure_slot _ p' hp'
        exact ⟨p, hp, hsame⟩
      · rintro p hp ⟨-, confirm, scope, hgranted⟩
        rw [hgranted] at hguess
        cases turn <;> cases hguess
  | stored pairing authorized confirm nowUnix written sent _ hphase hturn
      hverify hnext =>
      subst hturn
      simp only [Undisturbed, hphase] at hcond
      obtain ⟨harmed, hwritten, halone⟩ := hcond hverify
      have hgranted : phase' =
          .granted confirm (min confirm.requestedScope authorized) := by
        rcases hnext with hgranted | ⟨hfailed, -⟩
        · exact hgranted
        · exact absurd hwritten hfailed
      rw [hgranted] at hafter
      apply h.of_stored hrooted
      apply h.rooted.storesPeer hphase hverify harmed halone hafter hagent
      simp only [step, turnOf, hphase, proven, if_pos hverify]
  | completed confirm scope result hphase hturn =>
      subst hturn
      simp only [Undisturbed, hphase] at hcond
      exact h.of_completed hrooted hphase hcond hafter hagent
        (hnone (by rw [hphase]; rfl))

theorem Tracked.step (h : Tracked P initial world) (event : Event)
    (hcond : Undisturbed P world event) :
    Tracked P initial (step P world event) := by
  cases event with
  | tick elapsed =>
      exact h.of_admin { world.agent with now := world.agent.now + elapsed }
        world.polled (fun _ hp => hp) (List.Subset.refl _) h.attributed.polled
  | arm drawn scope => exact h.arm drawn scope
  | poll => exact h.poll
  | revoke pin written =>
      exact h.of_admin
        { world.agent with peers := (world.agent.peers.remove pin written).1 }
        world.polled (fun _ hp => hp)
        (PeerStore.remove_peers_subset _ _ _) h.attributed.polled
  | turn c turn => exact h.turn c turn hcond

end Steps

/-- In a run whose steps are all undisturbed, the window keeps its promises
throughout: peers come from proofs of an armed window's code, one for each
window, and none is granted more than its window's scope. -/
theorem attributed_of_undisturbed (P : Primitives) (peers : PeerStore)
    (fingerprint : String) (events : List Event)
    (hrun : Along (step P) (Undisturbed P) (start peers fingerprint) events) :
    Attributed P peers.peers
      (events.foldl (step P) (start peers fingerprint)) := by
  have htracked : Tracked P peers.peers
      (events.foldl (step P) (start peers fingerprint)) :=
    foldl_invariant (fun _ event h hcond => h.step event hcond)
      (tracked_start P peers fingerprint) hrun
  exact htracked.attributed

/-! ## Two handshakes of one window -/

/-- The key of connection `c`, opened by a client that knows the code of the
window armed with zero bytes. -/
def clientKey (c : ℕ) : List UInt8 :=
  Symbolic.transcript
    ⟨true, asBytes (generateCode fun _ => 0), idClient, idAgent, c⟩
    (Symbolic.message false c) (Symbolic.message true c)

/-- That client confirms with its name as pin. -/
def provenTurn (c : ℕ) (name : String) : Event :=
  .turn c (.confirm ⟨name, name, .view,
    mac Symbolic.primitives (clientKey c) macClient name name .view⟩ 0
    (.ok ()) (.ok ()))

/-- One client pairs and the owner polls the outcome. -/
def pairingOnce : List Event :=
  [.arm (fun _ => 0) .view, helloTurn 0, provenTurn 0 "laptop",
    .turn 0 (.accept (.ok ())), .poll]

theorem undisturbed_pairingOnce :
    Along (step Symbolic.primitives) (Undisturbed Symbolic.primitives)
      (start ⟨[], none⟩ "agent") pairingOnce := by
  refine ⟨trivial, trivial, fun _ => ⟨by decide +kernel, rfl, ?_⟩,
    Or.inr (by decide +kernel), trivial, trivial⟩
  rintro (_ | c) ⟨-, confirm, scope, hgranted⟩
  · cases hgranted
  · cases hgranted

theorem attributed_pairingOnce :
    Attributed Symbolic.primitives []
      (pairingOnce.foldl (step Symbolic.primitives)
        (start ⟨[], none⟩ "agent")) :=
  attributed_of_undisturbed Symbolic.primitives ⟨[], none⟩ "agent" pairingOnce
    undisturbed_pairingOnce

/-- Two clients say hello under one window and both go on to confirm. -/
def pairingTwice : List Event :=
  [.arm (fun _ => 0) .view, helloTurn 0, helloTurn 1, provenTurn 0 "laptop",
    .turn 0 (.accept (.ok ())), .poll, provenTurn 1 "stranger"]

/-- The second client is stored although the first one had used the window up
and the outcome was already polled. -/
theorem not_attributed_pairingTwice :
    ¬Attributed Symbolic.primitives []
      (pairingTwice.foldl (step Symbolic.primitives)
        (start ⟨[], none⟩ "agent")) := by
  intro h
  have hwindows : (pairingTwice.foldl (step Symbolic.primitives)
      (start ⟨[], none⟩ "agent")).additions.map Addition.window = [0, 0] := by
    decide +kernel
  have hsingle := h.single
  rw [hwindows] at hsingle
  exact absurd hsingle (by decide)

end GameStreamer.Pairing
