import GameStreamer.Session.PairingExchange
import GameStreamer.Transport.IdealPrimitives

/-!
# Agreement of clients and agents

Every turn of a client or of an agent session keeps views, tags and history
linked, so both sides agree in every run that the attacker's limits allow.  The
turns are taken one kind after the other, with what they add to the history;
the run at the end pairs a client with an agent.
-/

namespace GameStreamer.PairingAgreement

open Transport EventRun Client

section Turns

variable {P : Primitives} {args : ℕ → PairArgs} {attacker : Attacker}

/-! ## Turns of clients -/

/-- A turn of client `c` that leads to `phase'`; the other clients and all
agents are where they were. -/
structure ClientTurn (net : Net P) (c : ℕ) (phase' : PairPhase P)
    (net' : Net P) : Prop where
  clients : net'.clients = Function.update net.clients c phase'
  agents : net'.agents = net.agents
  others : ∀ c' ≠ c, net'.clientViews c' = net.clientViews c'
  own : ∀ u, net.clientViews c = some u → net'.clientViews c = some u
  agentViews : net'.agentViews = net.agentViews
  verified : net'.verified = net.verified
  accepted : net'.accepted = net.accepted

theorem ClientTurn.extends {net net' : Net P} {c : ℕ} {phase' : PairPhase P}
    (hturn : ClientTurn net c phase' net') : Extends net net' where
  clientViews c' u hu := by
    by_cases hc : c' = c
    · subst hc
      exact hturn.own u hu
    · rw [hturn.others c' hc]
      exact hu
  agentViews := by rw [hturn.agentViews]; exact fun _ _ hv => hv
  verified := by rw [hturn.verified]; exact fun _ hentry => hentry
  accepted := by rw [hturn.accepted]; exact fun _ hentry => hentry

theorem ClientTurn.helloOf_ne {net net' : Net P} {c c' : ℕ}
    {phase' : PairPhase P} (hturn : ClientTurn net c phase' net')
    (hc : c' ≠ c) : helloOf net' c' = helloOf net c' := by
  rw [helloOf, helloOf, hturn.clients, Function.update_of_ne hc,
    hturn.others c' hc]

/-- No other client starts with the hello of the one that moved. -/
theorem ClientTurn.fresh {net net' : Net P} {c : ℕ} {phase' : PairPhase P}
    (hturn : ClientTurn net c phase' net')
    (hold : ∀ c' c'' hello, helloOf net c' = some hello →
      helloOf net c'' = some hello → c' = c'')
    (hnew : ∀ hello, helloOf net' c = some hello →
      ∀ c' ≠ c, helloOf net c' ≠ some hello) :
    ∀ c' c'' hello, helloOf net' c' = some hello →
      helloOf net' c'' = some hello → c' = c'' := by
  intro c' c'' hello hc' hc''
  by_cases h' : c' = c <;> by_cases h'' : c'' = c
  · rw [h', h'']
  · rw [hturn.helloOf_ne h''] at hc''
    exact absurd hc'' (hnew hello (h' ▸ hc') c'' h'')
  · rw [hturn.helloOf_ne h'] at hc'
    exact absurd hc' (hnew hello (h'' ▸ hc'') c' h')
  · rw [hturn.helloOf_ne h'] at hc'
    rw [hturn.helloOf_ne h''] at hc''
    exact hold c' c'' hello hc' hc''

theorem Linked.of_client {net net' : Net P}
    (h : Linked args attacker net) {c : ℕ} {phase' : PairPhase P}
    (hturn : ClientTurn net c phase' net')
    (hown : ClientOwn (args c) attacker phase' (net'.clientViews c))
    (hfresh : ∀ hello, helloOf net' c = some hello →
      ∀ c' ≠ c, helloOf net c' ≠ some hello)
    (htagged : ∀ entry ∈ net'.tagged,
      entry ∈ net.tagged ∨ TagOrigin args net' entry)
    (hfinished : ∀ entry ∈ net'.finished,
      entry ∈ net.finished ∨ AgentAuthentic args attacker net entry) :
    Linked args attacker net' := by
  have hext := hturn.extends
  constructor
  case clients =>
    intro c'
    rw [hturn.clients]
    by_cases hc : c' = c
    · rw [hc, Function.update_self]
      exact hown
    · rw [Function.update_of_ne hc, hturn.others c' hc]
      exact h.clients c'
  case fresh => exact hturn.fresh h.fresh hfresh
  case agents =>
    rw [hturn.agents, hturn.agentViews]
    exact h.agents
  case tagged =>
    intro entry hentry
    rcases htagged entry hentry with hold | hnew
    · exact (h.tagged entry hold).mono hext
    · exact hnew
  case accepted =>
    rw [hturn.accepted, hturn.verified]
    exact h.accepted
  case agreement =>
    constructor
    · intro entry hentry
      rw [hturn.verified] at hentry
      exact (h.agreement.verified entry hentry).mono hext
    · intro entry hentry
      rcases hfinished entry hentry with hold | hnew
      · exact (h.agreement.finished entry hold).mono hext
      · exact hnew.mono hext

/-- The turns that derive a key. -/
theorem derives_eq_some {phase : PairPhase P} {turn : PairTurn}
    {confirmed : ClientConfirmed} {confirm : PairConfirm}
    (h : derives phase turn = some (confirmed, confirm)) :
    ∃ client hello response sent, phase = .started client hello ∧
      turn = .response response sent ∧
        client.confirm response = .ok (confirmed, confirm) := by
  cases phase <;> cases turn <;> try cases h
  case started.response client hello response sent =>
    rw [derives] at h
    cases hconfirm : client.confirm response with
    | error e =>
        rw [hconfirm] at h
        cases h
    | ok answer =>
        rw [hconfirm] at h
        obtain rfl := Option.some.inj h
        exact ⟨client, hello, response, sent, rfl, rfl, hconfirm⟩

/-- The turns that return with what the agent has accepted. -/
theorem finishes_eq_some {phase : PairPhase P} {turn : PairTurn}
    {pin : String} {scope : Scope}
    (h : finishes phase turn = some (pin, scope)) :
    ∃ confirmed result, phase = .confirmed confirmed ∧
      turn = .result result ∧
        confirmed.finish P result = .ok (pin, scope) := by
  cases phase <;> cases turn <;> try cases h
  case confirmed.result confirmed result =>
    rw [finishes] at h
    cases hfinish : confirmed.finish P result with
    | error e =>
        rw [hfinish] at h
        cases h
    | ok answer =>
        rw [hfinish] at h
        obtain rfl := Option.some.inj h
        exact ⟨confirmed, result, rfl, rfl, hfinish⟩

/-- The views after a turn: only one that derives a key sets a view. -/
theorem clientStep_views (net : Net P) {c : ℕ} {turn : PairTurn} :
    (clientStep args net c turn).clientViews =
      match derives (net.clients c) turn with
      | none => net.clientViews
      | some (confirmed, confirm) => Function.update net.clientViews c
          (some (clientView (net.clients c) turn confirmed confirm)) := rfl

/-- A turn of a linked net leaves a view that is there. -/
theorem Linked.clientTurn {net : Net P} (h : Linked args attacker net) (c : ℕ)
    (turn : PairTurn) :
    ClientTurn net c (pair (args c) (net.clients c) turn)
      (clientStep args net c turn) where
  clients := rfl
  agents := rfl
  others := by
    intro c' hc
    rw [clientStep_views]
    split
    case h_1 => rfl
    case h_2 => rw [Function.update_of_ne hc]
  own := by
    intro u hu
    rw [clientStep_views]
    split
    case h_1 => exact hu
    case h_2 confirmed confirm hderives =>
      obtain ⟨client, hello, -, -, hphase, -, -⟩ := derives_eq_some hderives
      rw [(h.clients c).unconfirmed (Or.inr ⟨client, hello, hphase⟩)] at hu
      cases hu
  agentViews := rfl
  verified := rfl
  accepted := rfl

/-- The view that a turn sets comes from the client's own start. -/
theorem Linked.clientExchange {net : Net P} (h : Linked args attacker net)
    {c : ℕ} {turn : PairTurn} {confirmed : ClientConfirmed}
    {confirm : PairConfirm}
    (hfeasible : Feasible args attacker net (.client c turn))
    (hderives : derives (net.clients c) turn = some (confirmed, confirm)) :
    ClientExchange P (args c) attacker
      (clientView (net.clients c) turn confirmed confirm) := by
  obtain ⟨client, hello, response, sent, hphase, rfl, hconfirm⟩ :=
    derives_eq_some hderives
  obtain ⟨seed, hstart⟩ := (h.clients c).started client hello hphase
  obtain ⟨rfl, rfl⟩ := Prod.mk.inj hstart
  obtain ⟨msg, rfl, hfinish, hown⟩ := ClientPairing.confirm_ok hconfirm
  have hexchange := hfeasible confirmed confirm hderives
  rw [hphase]
  exact ⟨⟨seed, hfinish, rfl⟩, hown, hexchange⟩

/-- Every view that a turn leaves to its client. -/
theorem Linked.client_view {net : Net P} (h : Linked args attacker net)
    {c : ℕ} {turn : PairTurn}
    (hfeasible : Feasible args attacker net (.client c turn)) :
    ∀ u, (clientStep args net c turn).clientViews c = some u →
      ClientExchange P (args c) attacker u := by
  intro u hu
  rw [clientStep_views] at hu
  split at hu
  case h_1 => exact (h.clients c).exchange u hu
  case h_2 confirmed confirm hderives =>
    rw [Function.update_self] at hu
    obtain rfl := Option.some.inj hu
    exact h.clientExchange hfeasible hderives

/-- The tag of a turn is made with the key of the client's view. -/
theorem Linked.client_tagged {net : Net P} (h : Linked args attacker net)
    {c : ℕ} {turn : PairTurn}
    (hfeasible : Feasible args attacker net (.client c turn)) :
    ∀ entry ∈ (clientStep args net c turn).tagged,
      entry ∈ net.tagged ∨
        TagOrigin args (clientStep args net c turn) entry := by
  intro entry hentry
  cases hderives : derives (net.clients c) turn with
  | none =>
      simp only [clientStep, hderives] at hentry
      exact Or.inl hentry
  | some derived =>
      obtain ⟨confirmed, confirm⟩ := derived
      obtain ⟨-, hown, -⟩ := h.clientExchange hfeasible hderives
      have htext : tag macClient confirm.pin confirm.name
          confirm.requestedScope = tag macClient (args c).pin (args c).name
            (args c).requestedScope := by
        have hconfirm : confirm = _ := hown
        rw [hconfirm]
      simp only [clientStep, hderives, List.mem_append, List.mem_singleton]
        at hentry
      rcases hentry with hold | rfl
      · exact Or.inl hold
      · refine Or.inr (Or.inl ⟨c,
          clientView (net.clients c) turn confirmed confirm, ?_,
          congrArg (Prod.mk _) htext⟩)
        rw [clientStep_views, hderives]
        exact Function.update_self _ _ _

/-- Whatever a turn returns was accepted by the matching agent session. -/
theorem Linked.client_returned {net : Net P} (h : Linked args attacker net)
    (hideal : IdealSpake P) {c : ℕ} {turn : PairTurn}
    (hfeasible : Feasible args attacker net (.client c turn)) :
    ∀ entry ∈ (clientStep args net c turn).finished,
      entry ∈ net.finished ∨ AgentAuthentic args attacker net entry := by
  intro entry hentry
  cases hfinishes : finishes (net.clients c) turn with
  | none =>
      simp only [clientStep, hfinishes] at hentry
      exact Or.inl hentry
  | some returned =>
      obtain ⟨pin, scope⟩ := returned
      obtain ⟨confirmed, result, hphase, rfl, hfinish⟩ :=
        finishes_eq_some hfinishes
      simp only [clientStep, hfinishes, List.mem_append, List.mem_singleton]
        at hentry
      rcases hentry with hold | rfl
      · exact Or.inl hold
      · exact Or.inr (h.agentAuthentic hideal hphase
          (hfeasible confirmed pin scope hphase hfinish))

/-- A turn keeps the net linked if the client's own view and hello fit the
phase that it leads to. -/
theorem Linked.of_clientStep {net : Net P} (h : Linked args attacker net)
    (hideal : IdealSpake P) {c : ℕ} {turn : PairTurn} {phase' : PairPhase P}
    (hserved : pair (args c) (net.clients c) turn = phase')
    (hfeasible : Feasible args attacker net (.client c turn))
    (hstarted : ∀ client hello, phase' = .started client hello →
      ∃ seed, ClientPairing.start P (args c).code (args c).pin (args c).name
        (args c).requestedScope seed = (client, hello))
    (hunconfirmed : (phase' = .connecting ∨
      ∃ client hello, phase' = .started client hello) →
        (clientStep args net c turn).clientViews c = none)
    (hconfirmed : ∀ confirmed, phase' = .confirmed confirmed →
      ∃ u, (clientStep args net c turn).clientViews c = some u ∧
        u.key = confirmed.key)
    (hfresh : ∀ hello, helloOf (clientStep args net c turn) c = some hello →
      helloOf net c = some hello ∨
        ∀ c' ≠ c, helloOf net c' ≠ some hello) :
    Linked args attacker (clientStep args net c turn) := by
  have hturn := h.clientTurn c turn
  rw [hserved] at hturn
  apply h.of_client hturn
    ⟨hstarted, hunconfirmed, hconfirmed, h.client_view hfeasible⟩
  · intro hello hhello
    rcases hfresh hello hhello with hold | hnew
    · exact fun c' hne hc' => hne (h.fresh c' c hello hc' hold)
    · exact hnew
  · exact h.client_tagged hfeasible
  · exact h.client_returned hideal hfeasible

/-- The client stays or returns, with nothing derived. -/
theorem Linked.client_quiet {net : Net P} (h : Linked args attacker net)
    (hideal : IdealSpake P) {c : ℕ} {turn : PairTurn} {phase' : PairPhase P}
    (hserved : pair (args c) (net.clients c) turn = phase')
    (hfeasible : Feasible args attacker net (.client c turn))
    (hphase : phase' = net.clients c ∨ ∃ result, phase' = .returned result)
    (hderives : derives (net.clients c) turn = none) :
    Linked args attacker (clientStep args net c turn) := by
  have hviews : (clientStep args net c turn).clientViews =
      net.clientViews := by
    rw [clientStep_views, hderives]
  have hnext : (clientStep args net c turn).clients c = phase' := by
    rw [(h.clientTurn c turn).clients, Function.update_self, hserved]
  apply h.of_clientStep hideal hserved hfeasible
  · intro client hello hstarted
    exact (h.clients c).started client hello (eq_of_stays hphase hstarted nofun)
  · intro hearly
    rw [hviews]
    apply (h.clients c).unconfirmed
    rcases hearly with hconnecting | ⟨client, hello, hstarted⟩
    · exact Or.inl (eq_of_stays hphase hconnecting nofun)
    · exact Or.inr ⟨client, hello, eq_of_stays hphase hstarted nofun⟩
  · intro confirmed hconfirmed
    rw [hviews]
    exact (h.clients c).confirmed confirmed (eq_of_stays hphase hconfirmed nofun)
  · intro hello hc
    left
    rw [helloOf, hnext, hviews] at hc
    rcases hphase with hsame | ⟨result, hreturned⟩
    · rw [hsame] at hc
      exact hc
    · rw [hreturned] at hc
      obtain ⟨u, hu, rfl⟩ := Option.map_eq_some_iff.mp hc
      exact h.helloOf_eq hu

theorem Linked.client_started {net : Net P} (h : Linked args attacker net)
    (hideal : IdealSpake P) {c seed : ℕ}
    (hfeasible : Feasible args attacker net
      (.client c (.connected seed (.ok ()))))
    (hphase : net.clients c = .connecting) :
    Linked args attacker
      (clientStep args net c (.connected seed (.ok ()))) := by
  have hserved : pair (args c) (net.clients c) (.connected seed (.ok ())) =
      .started
        (ClientPairing.start P (args c).code (args c).pin (args c).name
          (args c).requestedScope seed).1
        (ClientPairing.start P (args c).code (args c).pin (args c).name
          (args c).requestedScope seed).2 := by
    rw [hphase]
    rfl
  apply h.of_clientStep hideal hserved hfeasible
  · intro client hello hstarted
    obtain ⟨rfl, rfl⟩ := PairPhase.started.inj hstarted
    exact ⟨seed, rfl⟩
  · intro _
    rw [clientStep_views, hphase]
    exact (h.clients c).unconfirmed (Or.inl hphase)
  · exact nofun
  · intro hello hc
    right
    rw [helloOf, (h.clientTurn c _).clients, Function.update_self,
      hserved] at hc
    obtain rfl := Option.some.inj hc
    exact hfeasible hphase

theorem Linked.client_derived {net : Net P} (h : Linked args attacker net)
    (hideal : IdealSpake P) {c : ℕ} {turn : PairTurn} {phase' : PairPhase P}
    {client : ClientPairing P} {hello : PairHello}
    {confirmed : ClientConfirmed} {confirm : PairConfirm}
    (hserved : pair (args c) (net.clients c) turn = phase')
    (hfeasible : Feasible args attacker net (.client c turn))
    (hphase : net.clients c = .started client hello)
    (hderives : derives (net.clients c) turn = some (confirmed, confirm))
    (hnext : phase' = .confirmed confirmed ∨
      ∃ result, phase' = .returned result) :
    Linked args attacker (clientStep args net c turn) := by
  have hview : (clientStep args net c turn).clientViews c =
      some (clientView (net.clients c) turn confirmed confirm) := by
    rw [clientStep_views, hderives]
    exact Function.update_self _ _ _
  have hown : (clientStep args net c turn).clients c = phase' := by
    rw [(h.clientTurn c turn).clients, Function.update_self, hserved]
  apply h.of_clientStep hideal hserved hfeasible
  · intro client' hello' hstarted
    cases eq_of_stays hnext hstarted nofun
  · rintro (hconnecting | ⟨client', hello', hstarted⟩)
    · cases eq_of_stays hnext hconnecting nofun
    · cases eq_of_stays hnext hstarted nofun
  · intro confirmed' heq
    obtain rfl := PairPhase.confirmed.inj (eq_of_stays hnext heq nofun)
    exact ⟨_, hview, rfl⟩
  · -- The view has the hello that the client started with.
    intro hello' hc
    left
    rw [helloOf, hown, hview, hphase] at hc
    rw [helloOf, hphase]
    rcases hnext with hconfirmed | ⟨result, hreturned⟩
    · rw [hconfirmed] at hc
      exact hc
    · rw [hreturned] at hc
      exact hc

theorem Linked.client {net : Net P} (h : Linked args attacker net)
    (hideal : IdealSpake P) (c : ℕ) (turn : PairTurn)
    (hfeasible : Feasible args attacker net (.client c turn)) :
    Linked args attacker (step args net (.client c turn)) := by
  have heffect := pair_effect (args c) (net.clients c) turn
  generalize hserved : pair (args c) (net.clients c) turn = phase' at heffect
  cases heffect with
  | quiet _ hphase hderives hfinishes =>
      exact h.client_quiet hideal hserved hfeasible hphase hderives
  | started seed hphase hconnected =>
      subst hconnected
      exact h.client_started hideal hfeasible hphase
  | derived client hello response sent confirmed confirm _ hphase hresponse
      hconfirm hnext =>
      apply h.client_derived hideal hserved hfeasible hphase _ hnext
      · exact confirm
      · rw [hphase, hresponse, derives, hconfirm]
        rfl
  | finished confirmed result pin scope hphase hresult hfinish =>
      apply h.client_quiet hideal hserved hfeasible (Or.inr ⟨_, rfl⟩)
      rw [hphase]
      rfl

/-! ## Turns of agents -/

/-- A turn of agent session `a` that leads to `phase'`; the other sessions and
all clients are where they were. -/
structure AgentTurn (net : Net P) (a : ℕ) (phase' : Pairing.Phase)
    (net' : Net P) : Prop where
  agents : net'.agents = Function.update net.agents a phase'
  clients : net'.clients = net.clients
  clientViews : net'.clientViews = net.clientViews
  others : ∀ a' ≠ a, net'.agentViews a' = net.agentViews a'
  own : ∀ v, net.agentViews a = some v → net'.agentViews a = some v
  verified : ∀ entry ∈ net.verified, entry ∈ net'.verified
  accepted : ∀ entry ∈ net.accepted, entry ∈ net'.accepted
  finished : net'.finished = net.finished

theorem AgentTurn.extends {net net' : Net P} {a : ℕ}
    {phase' : Pairing.Phase} (hturn : AgentTurn net a phase' net') :
    Extends net net' where
  clientViews := by rw [hturn.clientViews]; exact fun _ _ hu => hu
  agentViews a' v hv := by
    by_cases ha : a' = a
    · subst ha
      exact hturn.own v hv
    · rw [hturn.others a' ha]
      exact hv
  verified := hturn.verified
  accepted := hturn.accepted

theorem Linked.of_agent {net net' : Net P}
    (h : Linked args attacker net) {a : ℕ} {phase' : Pairing.Phase}
    (hturn : AgentTurn net a phase' net')
    (hown : AgentOwn P attacker phase' (net'.agentViews a))
    (htagged : ∀ entry ∈ net'.tagged,
      entry ∈ net.tagged ∨ TagOrigin args net' entry)
    (hverified : ∀ entry ∈ net'.verified,
      entry ∈ net.verified ∨ ClientAuthentic args attacker net entry)
    (haccepted : ∀ acceptance ∈ net'.accepted, acceptance ∈ net.accepted ∨
      (acceptance.session, acceptance.confirm) ∈ net'.verified) :
    Linked args attacker net' := by
  have hext := hturn.extends
  constructor
  case clients =>
    rw [hturn.clients, hturn.clientViews]
    exact h.clients
  case fresh =>
    have hhello : ∀ c, helloOf net' c = helloOf net c := by
      intro c
      rw [helloOf, helloOf, hturn.clients, hturn.clientViews]
    intro c c' hello hc hc'
    rw [hhello] at hc hc'
    exact h.fresh c c' hello hc hc'
  case agents =>
    intro a'
    rw [hturn.agents]
    by_cases ha : a' = a
    · rw [ha, Function.update_self]
      exact hown
    · rw [Function.update_of_ne ha, hturn.others a' ha]
      exact h.agents a'
  case tagged =>
    intro entry hentry
    rcases htagged entry hentry with hold | hnew
    · exact (h.tagged entry hold).mono hext
    · exact hnew
  case accepted =>
    intro acceptance hmem
    rcases haccepted acceptance hmem with hold | hnew
    · exact hext.verified _ (h.accepted acceptance hold)
    · exact hnew
  case agreement =>
    constructor
    · intro entry hentry
      rcases hverified entry hentry with hold | hnew
      · exact (h.agreement.verified entry hold).mono hext
      · exact hnew.mono hext
    · intro entry hentry
      rw [hturn.finished] at hentry
      exact (h.agreement.finished entry hentry).mono hext

/-- Only the answer to a hello sets a view. -/
theorem agentStep_views_cases (net : Net P) (a : ℕ) (shared : Pairing.Agent)
    (turn : Pairing.Turn) :
    (agentStep net a shared turn).agentViews = net.agentViews ∨
      net.agents a = .accepted ∧
        (∃ pairing authorized,
          (Pairing.pairInner P shared (net.agents a) turn).2.1 =
            .responded pairing authorized) ∧
        (agentStep net a shared turn).agentViews =
          Function.update net.agentViews a (agentView P shared turn) := by
  simp only [agentStep]
  split
  case h_1 pairing authorized hwaiting hnext =>
    exact Or.inr ⟨hwaiting, ⟨pairing, authorized, hnext⟩, rfl⟩
  case h_2 => exact Or.inl rfl

/-- A turn of a linked net only adds to its history, and leaves a view that is
there. -/
theorem Linked.agentTurn {net : Net P} (h : Linked args attacker net) (a : ℕ)
    (shared : Pairing.Agent) (turn : Pairing.Turn) :
    AgentTurn net a (Pairing.pairInner P shared (net.agents a) turn).2.1
      (agentStep net a shared turn) where
  agents := rfl
  clients := rfl
  clientViews := rfl
  others := by
    intro a' ha
    rcases agentStep_views_cases net a shared turn with hsame | ⟨-, -, hset⟩
    · rw [hsame]
    · rw [hset, Function.update_of_ne ha]
  own := by
    intro v hv
    rcases agentStep_views_cases net a shared turn with
      hsame | ⟨hwaiting, -, -⟩
    · rw [hsame]
      exact hv
    · rw [(h.agents a).waiting hwaiting] at hv
      cases hv
  verified := by
    intro entry hentry
    simp only [agentStep]
    split
    · exact hentry
    · exact List.mem_append_left _ hentry
  accepted := by
    intro acceptance hin
    simp only [agentStep]
    split
    · exact hin
    · exact List.mem_append_left _ hin
  finished := rfl

/-- The turns that verify a confirm. -/
theorem proven_eq_some {phase : Pairing.Phase} {turn : Pairing.Turn}
    {confirm : PairConfirm} {scope : Scope}
    (h : Pairing.proven P phase turn = some (confirm, scope)) :
    ∃ pairing authorized nowUnix written sent,
      phase = .responded pairing authorized ∧
        turn = .confirm confirm nowUnix written sent ∧
        pairing.verify P confirm = true ∧
        scope = min confirm.requestedScope authorized := by
  cases phase <;> cases turn <;> try cases h
  case responded.confirm pairing authorized confirm' nowUnix written sent =>
    rw [Pairing.proven] at h
    split_ifs at h with hverify
    obtain ⟨rfl, rfl⟩ := Prod.mk.inj (Option.some.inj h)
    exact ⟨pairing, authorized, nowUnix, written, sent, rfl, rfl, hverify, rfl⟩

/-- A peer that is stored and answered has been verified in this turn. -/
theorem accepts_eq_some {phase : Pairing.Phase} {turn : Pairing.Turn}
    {pairing : AgentPairing} {confirm : PairConfirm} {scope : Scope}
    (h : accepts P phase turn = some (pairing, confirm, scope)) :
    Pairing.proven P phase turn = some (confirm, scope) ∧
      ∃ authorized, phase = .responded pairing authorized := by
  cases phase <;> cases turn <;> try cases h
  case responded.confirm pairing' authorized confirm' nowUnix written sent =>
    cases written with
    | error e => cases h
    | ok stored =>
        rw [accepts] at h
        split_ifs at h with hverify
        obtain ⟨rfl, hrest⟩ := Prod.mk.inj (Option.some.inj h)
        obtain ⟨rfl, rfl⟩ := Prod.mk.inj hrest
        exact ⟨if_pos hverify, authorized, rfl⟩

/-- Whatever a turn accepts it has verified. -/
theorem agentStep_accepted (net : Net P) (a : ℕ) (shared : Pairing.Agent)
    (turn : Pairing.Turn) :
    ∀ acceptance ∈ (agentStep net a shared turn).accepted,
      acceptance ∈ net.accepted ∨ (acceptance.session, acceptance.confirm) ∈
        (agentStep net a shared turn).verified := by
  intro acceptance hacceptance
  cases haccepts : accepts P (net.agents a) turn with
  | none =>
      simp only [agentStep, haccepts] at hacceptance
      exact Or.inl hacceptance
  | some accepted =>
      obtain ⟨pairing, confirm, scope⟩ := accepted
      obtain ⟨hproven, -⟩ := accepts_eq_some haccepts
      simp only [agentStep, haccepts, List.mem_append, List.mem_singleton]
        at hacceptance
      rcases hacceptance with hold | rfl
      · exact Or.inl hold
      · simp only [agentStep, hproven]
        exact Or.inr (List.mem_append_right _ (List.mem_singleton_self _))

/-- The tag of a turn is made with the key of the session's view. -/
theorem Linked.agent_tagged {net : Net P} (h : Linked args attacker net)
    (a : ℕ) (shared : Pairing.Agent) (turn : Pairing.Turn) :
    ∀ entry ∈ (agentStep net a shared turn).tagged, entry ∈ net.tagged ∨
      TagOrigin args (agentStep net a shared turn) entry := by
  intro entry hentry
  cases haccepts : accepts P (net.agents a) turn with
  | none =>
      simp only [agentStep, haccepts] at hentry
      exact Or.inl hentry
  | some accepted =>
      obtain ⟨pairing, confirm, scope⟩ := accepted
      obtain ⟨-, authorized, hphase⟩ := accepts_eq_some haccepts
      obtain ⟨view, hview, hkey⟩ := (h.agents a).responded pairing authorized hphase
      simp only [agentStep, haccepts, List.mem_append, List.mem_singleton]
        at hentry
      rcases hentry with hold | rfl
      · exact Or.inl hold
      · refine Or.inr (Or.inr ⟨⟨a, confirm, shared.fingerprint, scope⟩, ?_,
          view, (h.agentTurn a shared turn).own view hview, by rw [hkey]⟩)
        simp only [agentStep, haccepts]
        exact List.mem_append_right _ (List.mem_singleton_self _)

/-- Whatever a turn verifies comes from the matching client. -/
theorem Linked.agent_verified {net : Net P} (h : Linked args attacker net)
    (hideal : IdealSpake P) {a : ℕ} {shared : Pairing.Agent}
    {turn : Pairing.Turn}
    (hfeasible : Feasible args attacker net (.agent a shared turn)) :
    ∀ entry ∈ (agentStep net a shared turn).verified,
      entry ∈ net.verified ∨ ClientAuthentic args attacker net entry := by
  intro entry hentry
  cases hproven : Pairing.proven P (net.agents a) turn with
  | none =>
      simp only [agentStep, hproven] at hentry
      exact Or.inl hentry
  | some verified =>
      obtain ⟨confirm, scope⟩ := verified
      obtain ⟨pairing, authorized, nowUnix, written, sent, hphase, rfl,
        hverify, -⟩ := proven_eq_some hproven
      simp only [agentStep, hproven, List.mem_append, List.mem_singleton]
        at hentry
      rcases hentry with hold | rfl
      · exact Or.inl hold
      · exact Or.inr (h.clientAuthentic hideal hphase hverify
          (hfeasible pairing authorized hphase hverify))

/-- A turn keeps the net linked if the session's own view fits the phase that
it leads to. -/
theorem Linked.of_agentStep {net : Net P} (h : Linked args attacker net)
    (hideal : IdealSpake P) {a : ℕ} {shared : Pairing.Agent}
    {turn : Pairing.Turn} {phase' : Pairing.Phase}
    (hserved : (Pairing.pairInner P shared (net.agents a) turn).2.1 = phase')
    (hfeasible : Feasible args attacker net (.agent a shared turn))
    (hwaiting : phase' = .accepted →
      (agentStep net a shared turn).agentViews a = none)
    (hresponded : ∀ pairing authorized,
      phase' = .responded pairing authorized →
      ∃ v, (agentStep net a shared turn).agentViews a = some v ∧
        v.key = pairing.key)
    (hview : ∀ v, (agentStep net a shared turn).agentViews a = some v →
      AgentExchange P attacker v) :
    Linked args attacker (agentStep net a shared turn) := by
  have hturn := h.agentTurn a shared turn
  rw [hserved] at hturn
  exact h.of_agent hturn ⟨hwaiting, hresponded, hview⟩
    (h.agent_tagged a shared turn) (h.agent_verified hideal hfeasible)
    (agentStep_accepted net a shared turn)

/-- A session that does not answer a hello keeps its view. -/
theorem agentStep_views (net : Net P) {a : ℕ} {shared : Pairing.Agent}
    {turn : Pairing.Turn}
    (hphase : net.agents a ≠ .accepted ∨ ∀ pairing authorized,
      (Pairing.pairInner P shared (net.agents a) turn).2.1 ≠
        .responded pairing authorized) :
    (agentStep net a shared turn).agentViews = net.agentViews := by
  rcases agentStep_views_cases net a shared turn with
    hsame | ⟨hwaiting, ⟨pairing, authorized, hnext⟩, -⟩
  · exact hsame
  · rcases hphase with hne | hne
    · exact absurd hwaiting hne
    · exact absurd hnext (hne pairing authorized)

/-- A turn after which the session stays or returns. -/
theorem Linked.agent_quiet {net : Net P} (h : Linked args attacker net)
    (hideal : IdealSpake P) {a : ℕ} {shared : Pairing.Agent}
    {turn : Pairing.Turn} {phase' : Pairing.Phase}
    (hserved : (Pairing.pairInner P shared (net.agents a) turn).2.1 = phase')
    (hfeasible : Feasible args attacker net (.agent a shared turn))
    (hphase : phase' = net.agents a ∨ ∃ result, phase' = .returned result) :
    Linked args attacker (agentStep net a shared turn) := by
  have hviews : (agentStep net a shared turn).agentViews = net.agentViews := by
    apply agentStep_views
    by_cases hwaiting : net.agents a = .accepted
    · right
      intro pairing authorized hnext
      have hresponded := eq_of_stays hphase (hserved.symm.trans hnext) nofun
      rw [hwaiting] at hresponded
      cases hresponded
    · exact Or.inl hwaiting
  apply h.of_agentStep hideal hserved hfeasible
  · intro hnext
    rw [hviews]
    exact (h.agents a).waiting (eq_of_stays hphase hnext nofun)
  · intro pairing authorized hnext
    rw [hviews]
    exact (h.agents a).responded pairing authorized (eq_of_stays hphase hnext nofun)
  · rw [hviews]
    exact (h.agents a).exchange

theorem Linked.agent_responded {net : Net P} (h : Linked args attacker net)
    (hideal : IdealSpake P) {a : ℕ} {shared : Pairing.Agent} {code : String}
    {authorized : Scope} {hello : PairHello} {seed : ℕ}
    {pairing : AgentPairing} {response : PairResponse}
    (hfeasible : Feasible args attacker net
      (.agent a shared (.hello hello seed (.ok ()))))
    (hphase : net.agents a = .accepted)
    (harmed : shared.pairing.armed shared.now = some (code, authorized))
    (hrespond : AgentPairing.respond P code hello seed =
      .ok (pairing, response)) :
    Linked args attacker
      (agentStep net a shared (.hello hello seed (.ok ()))) := by
  have hnext : (Pairing.pairInner P shared .accepted
      (.hello hello seed (.ok ()))).2.1 = .responded pairing authorized := by
    simp only [Pairing.pairInner, Pairing.recvHello, harmed, hrespond]
  obtain ⟨hfinish, rfl⟩ := AgentPairing.respond_ok hrespond
  have hview : agentView P shared (.hello hello seed (.ok ())) =
      some ⟨code, hello.spake,
        (P.startB (asBytes code) idClient idAgent seed).2, pairing.key⟩ := by
    simp only [agentView, harmed, hrespond]
  have hviews : (agentStep net a shared
      (.hello hello seed (.ok ()))).agentViews =
        Function.update net.agentViews a
          (agentView P shared (.hello hello seed (.ok ()))) := by
    simp only [agentStep, hphase, hnext]
  have hown : (agentStep net a shared
      (.hello hello seed (.ok ()))).agentViews a = some ⟨code, hello.spake,
        (P.startB (asBytes code) idClient idAgent seed).2, pairing.key⟩ := by
    rw [hviews, Function.update_self, hview]
  rw [← hphase] at hnext
  apply h.of_agentStep hideal hnext hfeasible
  · intro hwaiting
    cases hwaiting
  · intro pairing' authorized' heq
    obtain ⟨rfl, rfl⟩ := Pairing.Phase.responded.inj heq
    exact ⟨_, hown, rfl⟩
  · intro v hv
    obtain rfl := Option.some.inj (hown.symm.trans hv)
    exact ⟨⟨seed, hfinish, rfl⟩, hfeasible hphase _ hview⟩

theorem Linked.agent_stored {net : Net P} (h : Linked args attacker net)
    (hideal : IdealSpake P) {a : ℕ} {shared : Pairing.Agent}
    {turn : Pairing.Turn} {phase' : Pairing.Phase} {pairing : AgentPairing}
    {authorized scope : Scope} {confirm : PairConfirm}
    (hserved : (Pairing.pairInner P shared (net.agents a) turn).2.1 = phase')
    (hfeasible : Feasible args attacker net (.agent a shared turn))
    (hphase : net.agents a = .responded pairing authorized)
    (hnext : phase' = .granted confirm scope ∨
      ∃ result, phase' = .returned result) :
    Linked args attacker (agentStep net a shared turn) := by
  have hviews : (agentStep net a shared turn).agentViews = net.agentViews := by
    apply agentStep_views
    left
    rw [hphase]
    exact Pairing.Phase.noConfusion
  apply h.of_agentStep hideal hserved hfeasible
  · intro hwaiting
    cases eq_of_stays hnext hwaiting nofun
  · intro pairing' authorized' hresponded
    cases eq_of_stays hnext hresponded nofun
  · rw [hviews]
    exact (h.agents a).exchange

theorem Linked.agent {net : Net P} (h : Linked args attacker net)
    (hideal : IdealSpake P) (a : ℕ) (shared : Pairing.Agent)
    (turn : Pairing.Turn)
    (hfeasible : Feasible args attacker net (.agent a shared turn)) :
    Linked args attacker (step args net (.agent a shared turn)) := by
  have heffect := Pairing.pairInner_effect P shared (net.agents a) turn
  generalize hshared : (Pairing.pairInner P shared (net.agents a) turn).1 =
    shared' at heffect
  generalize hserved : (Pairing.pairInner P shared (net.agents a) turn).2.1 =
    phase' at heffect
  cases heffect with
  | quiet _ hphase haccept hguess hproven =>
      exact h.agent_quiet hideal hserved hfeasible hphase
  | responded code authorized hello seed pairing response hphase hturn harmed
      hrespond =>
      subst hturn
      exact h.agent_responded hideal hfeasible hphase harmed hrespond
  | charged result hguess hproven =>
      exact h.agent_quiet hideal hserved hfeasible (Or.inr ⟨result, rfl⟩)
  | stored pairing authorized confirm nowUnix written sent _ hphase hturn
      hverify hnext =>
      exact h.agent_stored hideal hserved hfeasible hphase
        (hnext.imp id And.right)
  | completed confirm scope result hphase hturn =>
      exact h.agent_quiet hideal hserved hfeasible (Or.inr ⟨result, rfl⟩)

end Turns

/-- In every run that the attacker's limits allow, whatever an agent verifies
was made by the matching client, whatever a client returns was accepted by
the matching agent after it verified that client's confirm, and no text of
one side is a text of the other. -/
theorem agreement_of_feasible (P : Primitives) (hideal : IdealSpake P)
    (args : ℕ → PairArgs) (attacker : Attacker) (events : List Event)
    (hrun : Along (step args) (Feasible args attacker) (start P)
      events) :
    Agreement args attacker (events.foldl (step args) (start P)) ∧
      ∀ pin name scope pin' scope',
        tag macClient pin name scope ≠ tag macAgent pin' "" scope' := by
  have hlinked : Linked args attacker
      (events.foldl (step args) (start P)) := by
    refine foldl_invariant ?_ linked_start hrun
    intro net event h hfeasible
    cases event with
    | client c turn => exact h.client hideal c turn hfeasible
    | agent a shared turn => exact h.agent hideal a shared turn hfeasible
  exact ⟨hlinked.agreement,
    fun pin name scope pin' scope' =>
      tag_macClient_ne_macAgent pin pin' name "" scope scope'⟩

/-! ## One pairing -/

def laptop : PairArgs where
  code := generateCode fun _ => 0
  pin := "client-pin"
  name := "laptop"
  requestedScope := .interact

/-- The agent while the owner's window for managers is armed. -/
def armedAgent : Pairing.Agent where
  now := 0
  pairing := Pairing.PairingState.begin 0 (fun _ => 0) .manage
  peers := ⟨[], none⟩
  fingerprint := "agent-pin"

def laptopKey : List UInt8 :=
  Symbolic.transcript ⟨true, asBytes laptop.code, idClient, idAgent, 0⟩
    (Symbolic.message false 0) (Symbolic.message true 0)

/-- Both sides run to the end, each message being delivered as it was sent. -/
def pairLaptop : List Event :=
  [.client 0 (.connected 0 (.ok ())),
    .agent 0 armedAgent (.hello ⟨Symbolic.message true 0⟩ 0 (.ok ())),
    .client 0 (.response (.spake (Symbolic.message false 0)) (.ok ())),
    .agent 0 armedAgent (.confirm ⟨"client-pin", "laptop", .interact,
      mac Symbolic.primitives laptopKey macClient "client-pin" "laptop"
        .interact⟩ 0 (.ok ()) (.ok ())),
    .client 0 (.result (.accepted "agent-pin" .interact
      (mac Symbolic.primitives laptopKey macAgent "agent-pin" ""
        .interact)))]

theorem feasible_pairLaptop :
    Along (step fun _ => laptop) (Feasible (fun _ => laptop) ⟨∅, ∅⟩)
      (start Symbolic.primitives) pairLaptop := by
  refine ⟨fun _ c' _ => by simp [start, helloOf],
    fun _ _ _ _ => Set.notMem_empty _,
    fun _ _ _ _ => Set.notMem_empty _, ?_, ?_, trivial⟩
  · intro pairing authorized hphase _
    have hinj := Pairing.Phase.responded.inj (hphase.symm.trans
      (by decide +kernel : _ = Pairing.Phase.responded ⟨laptopKey⟩ .manage))
    obtain ⟨rfl, rfl⟩ := hinj
    exact Or.inr (by decide +kernel)
  · intro confirmed pin scope hphase hfinish
    have hinj := PairPhase.confirmed.inj (hphase.symm.trans
      (rfl : _ = PairPhase.confirmed ⟨laptopKey⟩))
    obtain rfl := hinj
    have hresult := PairResult.accepted.inj
      (ClientConfirmed.finish_ok hfinish)
    obtain ⟨rfl, rfl, -⟩ := hresult
    exact Or.inr (by decide +kernel)

theorem agreement_pairLaptop :
    (pairLaptop.foldl (step fun _ => laptop)
        (start Symbolic.primitives)).finished =
      [(0, "agent-pin", .interact)] ∧
    Agreement (fun _ => laptop) ⟨∅, ∅⟩
        (pairLaptop.foldl (step fun _ => laptop)
          (start Symbolic.primitives)) ∧
      ∀ pin name scope pin' scope',
        tag macClient pin name scope ≠ tag macAgent pin' "" scope' :=
  ⟨by decide +kernel,
    agreement_of_feasible Symbolic.primitives Symbolic.idealSpake
      (fun _ => laptop) ⟨∅, ∅⟩ pairLaptop feasible_pairLaptop⟩

end GameStreamer.PairingAgreement
