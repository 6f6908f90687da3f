import GameStreamer.Core.EventRun
import GameStreamer.Session.ServiceTurn

/-!
# The session registry across connections

Any number of connections share the agent's session registry.  A session is
registered when it starts and removed when it is stopped or when the loop is
left through `break`.  This module proves that no connection ever removes
another one's session, and exactly when a connection that has returned leaves
none of its own behind.
-/

namespace GameStreamer

namespace Registry

open Service

/-! ## All connections -/

/-- Many connections over one agent.  The removals from the shared registry are
recorded with the connection that made them. -/
structure World where
  agent : AgentState
  connections : ℕ → Connection
  /-- Every removal from the registry, with the connection that made it. -/
  removals : List (ℕ × ℕ)

/-- The agent has just started, and connection `c` will be the one of peer
`peers c`. -/
def start (hostCap : Option ℕ) (configMode : VideoMode)
    (peers : ℕ → String × Bool) : World where
  agent := ⟨hostCap, configMode, 1, []⟩
  connections := fun c => Connection.accepted (peers c).1 (peers c).2
  removals := []

/-- One turn of connection `event.1`. -/
def step (world : World) (event : ℕ × Event) : World :=
  let served := serve world.agent (world.connections event.1) event.2
  { agent := served.1
    connections := Function.update world.connections event.1 served.2
    removals := world.removals ++
      (world.agent.registered.filter fun id =>
        decide (id ∉ served.1.registered)).map fun id => (event.1, id) }

/-- Connections that have returned left none of their sessions behind. -/
def CleanExits (world : World) : Prop :=
  ∀ c, (world.connections c).exit ≠ none →
    ∀ id ∈ (world.connections c).registered, id ∉ world.agent.registered

/-- Connections removed only sessions that they had registered themselves. -/
def OwnRemovals (world : World) : Prop :=
  ∀ removal ∈ world.removals,
    removal.2 ∈ (world.connections removal.1).registered

/-- No reply through `?` fails on a connection whose session is active. -/
def NoEscape (world : World) (event : ℕ × Event) : Prop :=
  (world.connections event.1).exit = none →
    WritesSucceed (world.connections event.1) event.2

/-- What holds of one connection and the registry: its active session is
registered, and nothing else of it is while it runs. -/
structure Settled (agent : AgentState) (connection : Connection) : Prop where
  fresh : ∀ id ∈ connection.registered, id < agent.nextSession
  owned : ∀ id ∈ connection.sessionId, id ∈ connection.registered
  live : ∀ id ∈ connection.sessionId, id ∈ agent.registered
  stopped : connection.exit = none → ∀ id ∈ connection.registered,
    id ∈ agent.registered → connection.sessionId = some id
  exited : connection.exit ≠ none → connection.active = none
  ceiling : bitrateMinBps ≤ connection.sessionCeiling

/-- Between sessions nothing of a running connection is registered. -/
theorem Settled.idle {agent : AgentState} {connection : Connection}
    (h : Settled agent connection) (hexit : connection.exit = none)
    (hidle : connection.active = none) :
    ∀ id ∈ connection.registered, id ∉ agent.registered := by
  intro id hregistered hlive
  have hsome := h.stopped hexit id hregistered hlive
  rw [Connection.sessionId, hidle] at hsome
  cases hsome

/-- What holds of all of them together. -/
structure Consistent (world : World) : Prop where
  settled : ∀ c, Settled world.agent (world.connections c)
  fresh : ∀ id ∈ world.agent.registered, id < world.agent.nextSession
  apart : ∀ c c', c ≠ c' → ∀ id ∈ (world.connections c).registered,
    id ∉ (world.connections c').registered

theorem consistent_start (hostCap : Option ℕ) (configMode : VideoMode)
    (peers : ℕ → String × Bool) :
    Consistent (start hostCap configMode peers) where
  settled c :=
    { fresh := by simp [start, Connection.accepted]
      owned := by simp [start, Connection.accepted, Connection.sessionId]
      live := by simp [start, Connection.accepted, Connection.sessionId]
      stopped := by simp [start, Connection.accepted]
      exited := by simp [start, Connection.accepted]
      ceiling := show bitrateMinBps ≤ bitrateMaxBps by decide }
  fresh := by simp [start, AgentState.registered]
  apart := by simp [start, Connection.accepted]

/-- What a turn of one connection does to the registry and leaves of it. -/
structure Served (agent : AgentState) (connection : Connection)
    (agent' : AgentState) (connection' : Connection) : Prop where
  settled : Settled agent' connection'
  fresh : ∀ id ∈ agent'.registered, id < agent'.nextSession
  next : agent.nextSession ≤ agent'.nextSession
  grown : ∀ id ∈ connection'.registered,
    id ∈ connection.registered ∨ agent.nextSession ≤ id
  kept : ∀ id ∈ connection.registered, id ∈ connection'.registered
  others : ∀ id ∉ connection'.registered,
    (id ∈ agent'.registered ↔ id ∈ agent.registered)

theorem served_of_kept {agent : AgentState} {connection : Connection}
    {result : Turn} (hsettled : Settled agent connection)
    (hfresh : ∀ id ∈ agent.registered, id < agent.nextSession)
    (hkept : Kept agent connection result)
    (hceiling : bitrateMinBps ≤ result.connection.sessionCeiling) :
    Served agent connection result.agent result.connection := by
  obtain ⟨hagent, hactive, hregistered, hexit, hidle⟩ := hkept
  exact {
    settled :=
      { fresh := by rw [hagent, hregistered]; exact hsettled.fresh
        owned := by rw [hactive, hregistered]; exact hsettled.owned
        live := by rw [hactive, hagent]; exact hsettled.live
        stopped := by
          rw [hexit, hregistered, hagent, hactive]
          exact hsettled.stopped
        exited := by
          rw [hexit]
          exact fun h => hidle.mpr (hsettled.exited h)
        ceiling := hceiling }
    fresh := by rw [hagent]; exact hfresh
    next := by rw [hagent]
    grown := by rw [hregistered]; exact fun _ h => Or.inl h
    kept := by rw [hregistered]; exact fun _ h => h
    others := by rw [hagent]; exact fun _ _ => Iff.rfl }

theorem served_of_started {agent : AgentState} {connection : Connection}
    {result : Turn} (hsettled : Settled agent connection)
    (hfresh : ∀ id ∈ agent.registered, id < agent.nextSession)
    (hexitNone : connection.exit = none)
    (hstarted : Started agent connection result)
    (hceiling : bitrateMinBps ≤ result.connection.sessionCeiling) :
    Served agent connection result.agent result.connection := by
  obtain ⟨hidle, hnext, hregistry, hactive, hregistered, hexit⟩ := hstarted
  have hmem : ∀ id, id ∈ result.agent.registered ↔
      id = agent.nextSession ∨ id ∈ agent.registered := by
    intro id
    rw [hregistry]
    simp only [List.mem_cons, List.mem_filter, decide_eq_true_eq]
    tauto
  have hown : ∀ id, id ∈ result.connection.registered ↔
      id = agent.nextSession ∨ id ∈ connection.registered := by
    intro id
    rw [hregistered, List.mem_cons]
  exact {
    settled :=
      { fresh := by
          intro id hid
          rw [hnext]
          rcases (hown id).mp hid with rfl | hold
          · exact Nat.lt_succ_self _
          · exact Nat.lt_succ_of_lt (hsettled.fresh id hold)
        owned := by
          intro id hid
          rw [hactive, Option.mem_some_iff] at hid
          exact (hown id).mpr (Or.inl hid.symm)
        live := by
          intro id hid
          rw [hactive, Option.mem_some_iff] at hid
          exact (hmem id).mpr (Or.inl hid.symm)
        stopped := by
          intro _ id hid hlive
          rw [hactive]
          rcases (hown id).mp hid with rfl | hold
          · rfl
          · rcases (hmem id).mp hlive with rfl | hbefore
            · rfl
            · exact absurd hbefore (hsettled.idle hexitNone hidle id hold)
        exited := fun h => absurd (hexit.trans hexitNone) h
        ceiling := hceiling }
    fresh := by
      intro id hid
      rw [hnext]
      rcases (hmem id).mp hid with rfl | hold
      · exact Nat.lt_succ_self _
      · exact Nat.lt_succ_of_lt (hfresh id hold)
    next := by rw [hnext]; exact Nat.le_succ _
    grown := by
      intro id hid
      rcases (hown id).mp hid with rfl | hold
      · exact Or.inr (Nat.le_refl _)
      · exact Or.inl hold
    kept := fun id hid => (hown id).mpr (Or.inr hid)
    others := by
      intro id hid
      rw [hmem id]
      exact or_iff_right fun h => hid ((hown id).mpr (Or.inl h)) }

theorem served_of_removed {agent : AgentState}
    {connection connection' : Connection} {id : ℕ}
    (hsettled : Settled agent connection)
    (hfresh : ∀ id ∈ agent.registered, id < agent.nextSession)
    (hexitNone : connection.exit = none)
    (hactive : connection.sessionId = some id)
    (hidle : connection'.active = none)
    (hregistered : connection'.registered = connection.registered)
    (hceiling : bitrateMinBps ≤ connection'.sessionCeiling) :
    Served agent connection (agent.removeSession id) connection' := by
  have hnone : ∀ other, other ∉ connection'.sessionId := by
    intro other
    rw [Connection.sessionId, hidle]
    exact Option.not_mem_none other
  have hmem : ∀ other, other ∈ (agent.removeSession id).registered ↔
      other ∈ agent.registered ∧ other ≠ id := by simp
  exact {
    settled :=
      { fresh := by rw [hregistered]; exact hsettled.fresh
        owned := fun other hother => absurd hother (hnone other)
        live := fun other hother => absurd hother (hnone other)
        stopped := by
          intro _ other hother hlive
          rw [hregistered] at hother
          obtain ⟨hbefore, hne⟩ := (hmem other).mp hlive
          have hsome := hsettled.stopped hexitNone other hother hbefore
          rw [hactive] at hsome
          exact absurd (Option.some.inj hsome).symm hne
        exited := fun _ => hidle
        ceiling := hceiling }
    fresh := fun other hother => hfresh other ((hmem other).mp hother).1
    next := Nat.le_refl _
    grown := by rw [hregistered]; exact fun _ h => Or.inl h
    kept := by rw [hregistered]; exact fun _ h => h
    others := by
      intro other hother
      rw [hregistered] at hother
      rw [hmem other]
      apply and_iff_left
      rintro rfl
      exact hother (hsettled.owned other hactive) }

theorem served_turn {agent : AgentState} {connection : Connection}
    (hsettled : Settled agent connection)
    (hfresh : ∀ id ∈ agent.registered, id < agent.nextSession)
    (hexitNone : connection.exit = none) (event : Event) :
    Served agent connection (turn agent connection event).agent
        (turn agent connection event).connection ∧
      (turn agent connection event).connection.exit = none := by
  have hceiling := bitrateMin_le_turn agent connection event hsettled.ceiling
  rcases turn_cases agent connection event with
    hkept | hstarted | ⟨id, hstopped⟩
  · exact ⟨served_of_kept hsettled hfresh hkept hceiling,
      hkept.same.exit.trans hexitNone⟩
  · exact ⟨served_of_started hsettled hfresh hexitNone hstarted hceiling,
      hstarted.exit.trans hexitNone⟩
  · rw [hstopped.registry]
    exact ⟨served_of_removed hsettled hfresh hexitNone hstopped.active
      hstopped.idle hstopped.registered hceiling,
      hstopped.exit.trans hexitNone⟩

theorem Served.trans {agent agent' agent'' : AgentState}
    {connection connection' connection'' : Connection}
    (hfirst : Served agent connection agent' connection')
    (hsecond : Served agent' connection' agent'' connection'') :
    Served agent connection agent'' connection'' where
  settled := hsecond.settled
  fresh := hsecond.fresh
  next := hfirst.next.trans hsecond.next
  grown id hid := by
    rcases hsecond.grown id hid with hold | hnew
    · exact hfirst.grown id hold
    · exact Or.inr (hfirst.next.trans hnew)
  kept id hid := hsecond.kept id (hfirst.kept id hid)
  others id hid :=
    (hsecond.others id hid).trans
      (hfirst.others id fun h => hid (hsecond.kept id h))

/-- A connection that has returned and dropped its session. -/
theorem served_of_dropped {agent : AgentState}
    {connection connection' : Connection}
    (hsettled : Settled agent connection)
    (hfresh : ∀ id ∈ agent.registered, id < agent.nextSession)
    (hidle : connection'.active = none) (hexit : connection'.exit ≠ none)
    (hregistered : connection'.registered = connection.registered)
    (hceiling : bitrateMinBps ≤ connection'.sessionCeiling) :
    Served agent connection agent connection' := by
  have hnone : ∀ other, other ∉ connection'.sessionId := by
    intro other
    rw [Connection.sessionId, hidle]
    exact Option.not_mem_none other
  exact {
    settled :=
      { fresh := by rw [hregistered]; exact hsettled.fresh
        owned := fun other hother => absurd hother (hnone other)
        live := fun other hother => absurd hother (hnone other)
        stopped := fun h => absurd h hexit
        exited := fun _ => hidle
        ceiling := hceiling }
    fresh := hfresh
    next := Nat.le_refl _
    grown := by rw [hregistered]; exact fun _ h => Or.inl h
    kept := by rw [hregistered]; exact fun _ h => h
    others := fun _ _ => Iff.rfl }

/-- A connection that leaves the loop removes its session. -/
theorem served_leave {result : Turn} {session : ActiveSession}
    (exit : Exit) (hsettled : Settled result.agent result.connection)
    (hfresh : ∀ id ∈ result.agent.registered, id < result.agent.nextSession)
    (hexitNone : result.connection.exit = none)
    (hactive : result.connection.active = some session)
    (hfinish : finish result = (result.agent.removeSession session.id,
      { result.connection with active := none, exit := some exit })) :
    Served result.agent result.connection (finish result).1
        (finish result).2 ∧
      ∀ id ∈ (finish result).2.registered,
        id ∉ (finish result).1.registered := by
  have hid : result.connection.sessionId = some session.id := by
    rw [Connection.sessionId, hactive]; rfl
  rw [hfinish]
  refine ⟨served_of_removed hsettled hfresh hexitNone hid rfl rfl
    hsettled.ceiling, ?_⟩
  intro id hregistered hlive
  rw [registered_removeSession, List.mem_filter, decide_eq_true_eq] at hlive
  have hsome := hsettled.stopped hexitNone id hregistered hlive.1
  rw [hid] at hsome
  exact hlive.2 (Option.some.inj hsome).symm

/-- A connection that returns and removes nothing is clean exactly if it had
no session. -/
theorem served_return {result : Turn} (exit : Exit)
    (hsettled : Settled result.agent result.connection)
    (hfresh : ∀ id ∈ result.agent.registered, id < result.agent.nextSession)
    (hexitNone : result.connection.exit = none)
    (hfinish : finish result = (result.agent,
      { result.connection with active := none, exit := some exit })) :
    Served result.agent result.connection (finish result).1
        (finish result).2 ∧
      ((∀ id ∈ (finish result).2.registered,
          id ∉ (finish result).1.registered) ↔
        result.connection.active = none) := by
  rw [hfinish]
  refine ⟨served_of_dropped hsettled hfresh rfl (by simp) rfl
    hsettled.ceiling, ?_, hsettled.idle hexitNone⟩
  intro hclean
  cases hactive : result.connection.active with
  | none => rfl
  | some session =>
      have hid : session.id ∈ result.connection.sessionId := by
        rw [Connection.sessionId, hactive]; rfl
      exact absurd (hsettled.live _ hid)
        (hclean session.id (hsettled.owned _ hid))

/-- Leaving the loop keeps the invariants, and a connection that has returned
is clean exactly when the turn did not leak. -/
theorem served_finish {result : Turn}
    (hsettled : Settled result.agent result.connection)
    (hfresh : ∀ id ∈ result.agent.registered, id < result.agent.nextSession)
    (hexitNone : result.connection.exit = none) :
    Served result.agent result.connection (finish result).1
        (finish result).2 ∧
      (((finish result).2.exit ≠ none →
        ∀ id ∈ (finish result).2.registered,
          id ∉ (finish result).1.registered) ↔ ¬ Leaks result) := by
  cases hflow : result.flow with
  | next =>
      have hfinish : finish result = (result.agent, result.connection) := by
        simp [finish, hflow]
      rw [hfinish]
      exact ⟨served_of_kept hsettled hfresh (kept_refl _ _ result.flow)
          hsettled.ceiling,
        iff_of_true (fun h => absurd hexitNone h) (by simp [Leaks, hflow])⟩
  | leave exit =>
      have hkept : ¬ Leaks result := by simp [Leaks, hflow]
      cases hactive : result.connection.active with
      | some session =>
          obtain ⟨hserved, hclean⟩ := served_leave exit hsettled hfresh
            hexitNone hactive (by simp [finish, hflow, hactive])
          exact ⟨hserved, iff_of_true (fun _ => hclean) hkept⟩
      | none =>
          obtain ⟨hserved, hclean⟩ := served_return exit hsettled hfresh
            hexitNone (by simp [finish, hflow, hactive])
          exact ⟨hserved, iff_of_true (fun _ => hclean.mpr hactive) hkept⟩
  | escape exit =>
      obtain ⟨hserved, hclean⟩ := served_return exit hsettled hfresh
        hexitNone (by simp [finish, hflow])
      have hexit : (finish result).2.exit ≠ none := by simp [finish, hflow]
      have hleaks : Leaks result ↔ result.connection.active ≠ none := by
        simp [Leaks, hflow]
      rw [hleaks, not_not, ← hclean]
      exact ⟨hserved, fun h => h hexit, fun h _ => h⟩

/-- One served turn of a running connection. -/
theorem served_serve {agent : AgentState} {connection : Connection}
    (hsettled : Settled agent connection)
    (hfresh : ∀ id ∈ agent.registered, id < agent.nextSession)
    (hexitNone : connection.exit = none) (event : Event) :
    Served agent connection (serve agent connection event).1
        (serve agent connection event).2 ∧
      (((serve agent connection event).2.exit ≠ none →
        ∀ id ∈ (serve agent connection event).2.registered,
          id ∉ (serve agent connection event).1.registered) ↔
        WritesSucceed connection event) := by
  obtain ⟨hturn, hturnExit⟩ :=
    served_turn hsettled hfresh hexitNone event
  obtain ⟨hfinish, hclean⟩ :=
    served_finish hturn.settled hturn.fresh hturnExit
  rw [leaks_turn agent connection event hsettled.ceiling, not_not] at hclean
  have hserve : serve agent connection event =
      finish (turn agent connection event) := by
    simp [serve, hexitNone]
  rw [hserve]
  exact ⟨hturn.trans hfinish, hclean⟩

/-- A connection that has returned takes no further turn. -/
theorem step_of_exited {world : World} {event : ℕ × Event}
    (hexit : (world.connections event.1).exit ≠ none) :
    step world event = world := by
  have hserve : serve world.agent (world.connections event.1) event.2 =
      (world.agent, world.connections event.1) := by
    simp [serve, Option.isSome_iff_ne_none.mpr hexit]
  have hremoved : (world.agent.registered.filter fun id =>
      decide (id ∉ world.agent.registered)) = [] := by
    simp
  rw [step]
  simp only [hserve, Function.update_eq_self, hremoved, List.map_nil,
    List.append_nil]

/-- The turning connection is served; the others stay as they are. -/
theorem step_connections (world : World) (event : ℕ × Event) :
    (step world event).connections event.1 =
        (serve world.agent (world.connections event.1) event.2).2 ∧
      ∀ c ≠ event.1, (step world event).connections c =
        world.connections c :=
  ⟨Function.update_self .., fun _ hne => Function.update_of_ne hne ..⟩

theorem consistent_step (world : World) (event : ℕ × Event)
    (hconsistent : Consistent world) : Consistent (step world event) := by
  by_cases hexit : (world.connections event.1).exit = none
  case neg => rwa [step_of_exited hexit]
  obtain ⟨hserved, -⟩ := served_serve (hconsistent.settled event.1)
    hconsistent.fresh hexit event.2
  obtain ⟨hturning, hothers⟩ := step_connections world event
  -- the ids of another connection are neither new nor its own
  have hforeign : ∀ c ≠ event.1, ∀ id ∈ (world.connections c).registered,
      id ∉ ((step world event).connections event.1).registered := by
    intro c hne id hid hmine
    rw [hturning] at hmine
    rcases hserved.grown id hmine with hold | hnew
    · exact hconsistent.apart c event.1 hne id hid hold
    · exact absurd ((hconsistent.settled c).fresh id hid) (Nat.not_lt.mpr hnew)
  refine ⟨fun c => ?_, hserved.fresh, fun c c' hne id hid => ?_⟩
  · by_cases hc : c = event.1
    · rw [hc, hturning]
      exact hserved.settled
    · have hsettled := hconsistent.settled c
      have hforeign := hforeign c hc
      rw [hturning] at hforeign
      rw [hothers c hc]
      exact
        { fresh := fun id hid => (hsettled.fresh id hid).trans_le hserved.next
          owned := hsettled.owned
          live := fun id hid =>
            (hserved.others id (hforeign id (hsettled.owned id hid))).mpr
              (hsettled.live id hid)
          stopped := fun hnone id hid hlive =>
            hsettled.stopped hnone id hid
              ((hserved.others id (hforeign id hid)).mp hlive)
          exited := hsettled.exited
          ceiling := hsettled.ceiling }
  · by_cases hc : c = event.1
    · intro hid'
      rw [hothers c' (hc ▸ hne.symm)] at hid'
      exact hforeign c' (hc ▸ hne.symm) id hid' (hc ▸ hid)
    · rw [hothers c hc] at hid
      by_cases hc' : c' = event.1
      · rw [hc']
        exact hforeign c hc id hid
      · rw [hothers c' hc']
        exact hconsistent.apart c c' hne id hid

theorem ownRemovals_step (world : World) (event : ℕ × Event)
    (hconsistent : Consistent world) (hown : OwnRemovals world) :
    OwnRemovals (step world event) := by
  by_cases hexit : (world.connections event.1).exit = none
  case neg => rwa [step_of_exited hexit]
  obtain ⟨hserved, -⟩ := served_serve (hconsistent.settled event.1)
    hconsistent.fresh hexit event.2
  obtain ⟨hturning, hothers⟩ := step_connections world event
  intro removal hremoval
  rcases List.mem_append.mp hremoval with hold | hnew
  · by_cases hc : removal.1 = event.1
    · rw [hc, hturning]
      exact hserved.kept _ (hc ▸ hown removal hold)
    · rw [hothers _ hc]
      exact hown removal hold
  · obtain ⟨id, hid, rfl⟩ := List.mem_map.mp hnew
    rw [List.mem_filter, decide_eq_true_eq] at hid
    by_contra hforeign
    rw [hturning] at hforeign
    exact hid.2 ((hserved.others id hforeign).mpr hid.1)

/-- What a connection left behind stays. -/
theorem cleanExits_of_step (world : World) (event : ℕ × Event)
    (hconsistent : Consistent world)
    (hclean : CleanExits (step world event)) : CleanExits world := by
  by_cases hexit : (world.connections event.1).exit = none
  case neg => rwa [step_of_exited hexit] at hclean
  obtain ⟨hserved, -⟩ := served_serve (hconsistent.settled event.1)
    hconsistent.fresh hexit event.2
  obtain ⟨hturning, hothers⟩ := step_connections world event
  intro c hreturned id hid hlive
  have hne : c ≠ event.1 := fun hc => hreturned (hc ▸ hexit)
  have hsame := hothers c hne
  refine hclean c (by rwa [hsame]) id (by rwa [hsame]) ?_
  refine (hserved.others id fun hmine => ?_).mpr hlive
  rcases hserved.grown id hmine with hold | hnew
  · exact hconsistent.apart c event.1 hne id hid hold
  · exact absurd ((hconsistent.settled c).fresh id hid) (Nat.not_lt.mpr hnew)

theorem cleanExits_step_iff (world : World) (event : ℕ × Event)
    (hconsistent : Consistent world) (hclean : CleanExits world) :
    CleanExits (step world event) ↔ NoEscape world event := by
  by_cases hexit : (world.connections event.1).exit = none
  case neg =>
    rw [step_of_exited hexit]
    exact iff_of_true hclean fun h => absurd h hexit
  obtain ⟨hserved, hexact⟩ := served_serve (hconsistent.settled event.1)
    hconsistent.fresh hexit event.2
  obtain ⟨hturning, hothers⟩ := step_connections world event
  have hcond : NoEscape world event ↔
      WritesSucceed (world.connections event.1) event.2 :=
    forall_prop_of_true hexit
  rw [hcond, ← hexact]
  constructor
  · intro hafter hreturned
    have hturned := hafter event.1
    rw [hturning] at hturned
    exact hturned hreturned
  · intro hturned c
    by_cases hc : c = event.1
    · rw [hc, hturning]
      exact hturned
    · rw [hothers c hc]
      intro hreturned id hid hlive
      refine hclean c hreturned id hid ((hserved.others id fun hmine => ?_).mp
        hlive)
      rcases hserved.grown id hmine with hold | hnew
      · exact hconsistent.apart c event.1 hc id hid hold
      · exact absurd ((hconsistent.settled c).fresh id hid)
          (Nat.not_lt.mpr hnew)

/-- Connections that have returned leave nothing behind exactly when no write
through `?` fails under an active session; and no connection ever removes a
session that it did not register. -/
theorem cleanExits_iff_noEscape (hostCap : Option ℕ) (configMode : VideoMode)
    (peers : ℕ → String × Bool) (events : List (ℕ × Event)) :
    let final := events.foldl step (start hostCap configMode peers)
    (CleanExits final ↔
      EventRun.Along step NoEscape (start hostCap configMode peers) events) ∧
    OwnRemovals final := by
  intro final
  have hinit := consistent_start hostCap configMode peers
  refine ⟨?_, ?_⟩
  · refine EventRun.good_iff_along_of_preserves Consistent CleanExits
      consistent_step cleanExits_of_step cleanExits_step_iff hinit ?_
    intro c hreturned
    exact absurd rfl hreturned
  · have hstep : ∀ world event, Consistent world ∧ OwnRemovals world →
        Consistent (step world event) ∧ OwnRemovals (step world event) :=
      fun world event h => ⟨consistent_step world event h.1,
        ownRemovals_step world event h.1 h.2⟩
    have hnone : OwnRemovals (start hostCap configMode peers) := by
      simp [OwnRemovals, start]
    exact (EventRun.foldl_preserves hstep events ⟨hinit, hnone⟩).2

/-- A client starts a session and is gone when its next ping is answered. -/
def pingAfterStart : List (ℕ × Event) :=
  let env : MessageEnv := ⟨true, 1000, [.h264], [7],
    .ready [] ⟨[.h264], .high⟩ false, []⟩
  [(0, .message (.hello ⟨2, ⟨[.h264], .high⟩⟩) env),
    (0, .message (.startSession ⟨7, none, none, true⟩) env),
    (0, .message (.ping 900) { env with sent := false })]

/-- The connection has returned and its session is still registered. -/
theorem not_cleanExits_pingAfterStart :
    let final := pingAfterStart.foldl step
      (start none ⟨1920, 1080, 60⟩ fun _ => ("192.0.2.7:4433", true))
    (final.connections 0).exit = some .sendFailed ∧
      final.agent.registered = [1] ∧ ¬ CleanExits final := by
  refine ⟨by decide, by decide, fun hclean => ?_⟩
  exact hclean 0 (by decide) 1 (by decide) (by decide)

end Registry

end GameStreamer
