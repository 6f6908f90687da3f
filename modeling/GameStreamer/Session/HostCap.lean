import GameStreamer.Session.BitrateControl

/-!
# The host's bitrate cap

The ceiling of a session that is opened in Auto is bounded by the cap that the
host configured.  The client's later bitrate becomes the ceiling as it is,
whatever the cap, and the estimate may then drive the target up to it.  The
condition on a run is one on the rates that the client sets.
-/

namespace GameStreamer.HostCap

open EventRun Service BitrateControl

/-- A connection, and whether its session was opened in Auto and Auto stayed on
since. -/
structure World where
  connection : Connection
  auto : Bool

def start (peer : String) (mayInteract : Bool) : World where
  connection := .accepted peer mayInteract
  auto := false

/-- One turn under the cap, on whatever the other connections made of the rest
of the agent's state. -/
def serveUnder (cap : ℕ) (connection : Connection)
    (event : AgentState × Service.Event) : Connection :=
  BitrateControl.step connection
    ({ event.1 with hostCap := some cap }, event.2)

def step (cap : ℕ) (world : World) (event : AgentState × Service.Event) :
    World :=
  let after := serveUnder cap world.connection event
  { connection := after
    auto := (world.connection.active.isNone || world.auto) &&
      after.abrEnabled }

/-- An Auto session is below the cap. -/
def WithinCap (cap : ℕ) (world : World) : Prop :=
  world.auto → ∀ session ∈ world.connection.active,
    world.connection.sessionCeiling ≤ clampBand cap ∧
      session.pipeline.bitrate ≤ clampBand cap

/-- A bitrate that the client sets on an Auto session is below the cap. -/
def RespectsCap (cap : ℕ) (world : World)
    (event : AgentState × Service.Event) : Prop :=
  ∀ rate env, event.2 = .message (.setBitrate rate) env →
    world.connection.exit = none → world.connection.helloed →
      world.connection.active.isSome → world.auto →
        clampBand rate.toNat ≤ clampBand cap

/-- An Auto session opens below the cap. -/
theorem resolveBitrates_le_cap (requested : Option ℕ) (cap : ℕ) :
    (resolveBitrates requested true (some cap)).2 ≤ clampBand cap := by
  rw [resolveBitrates]
  cases requested with
  | none => exact Nat.le_refl _
  | some rate => exact Nat.min_le_right _ _

/-- What a bitrate of the client does: it becomes target and ceiling of the
active session, or it is not read at all. -/
theorem serve_setBitrate (agent : AgentState) (connection : Connection)
    (rate : UInt32) (env : MessageEnv) :
    (connection.exit = none ∧ connection.helloed ∧
        connection.active.isSome ∧
        (serve agent connection (.message (.setBitrate rate) env)).2.rates =
          connection.rates.withBitrate rate.toNat) ∨
      ((connection.exit.isSome ∨ connection.helloed = false ∨
          connection.active = none) ∧
        ((serve agent connection (.message (.setBitrate rate) env)).2.rates =
            connection.rates ∨
          (serve agent connection (.message (.setBitrate rate) env)).2.rates =
            connection.rates.closed)) := by
  rw [serve]
  by_cases hexit : connection.exit.isSome
  · rw [if_pos hexit]
    exact Or.inr ⟨Or.inl hexit, Or.inl rfl⟩
  rw [if_neg hexit, turn]
  cases hhelloed : connection.helloed with
  | false =>
      refine Or.inr ⟨Or.inr (Or.inl rfl), ?_⟩
      have hreply := rates_sendOrEscape agent connection (.error "hello first")
        env.sent
      simp only [onMessage, hhelloed, Bool.not_false, if_true]
      rw [← hreply]
      exact rates_finish _
  | true =>
      have hread : onMessage agent connection (.setBitrate rate) env =
          onSetBitrate agent connection rate.toNat := by
        simp only [onMessage, hhelloed, Bool.not_true, Bool.false_eq_true,
          if_false]
      rw [hread]
      by_cases hactive : connection.active.isSome
      · refine Or.inl ⟨by simpa using hexit, rfl, hactive, ?_⟩
        rw [← rates_onSetBitrate agent hactive, finish]
        have hflow : (onSetBitrate agent connection rate.toNat).flow =
            .next := by
          rw [onSetBitrate, if_pos hactive]
        rw [hflow]
      · refine Or.inr ⟨Or.inr (Or.inr (by simpa using hactive)), ?_⟩
        rw [onSetBitrate, if_neg hactive]
        exact Or.inl rfl

/-- A session's rates below the cap. -/
def Below (cap : ℕ) (rates : Rates) : Prop :=
  ∀ session ∈ rates.session,
    rates.ceiling ≤ clampBand cap ∧ session.1 ≤ clampBand cap

theorem below_rates_iff (cap : ℕ) (connection : Connection) :
    Below cap connection.rates ↔ ∀ session ∈ connection.active,
      connection.sessionCeiling ≤ clampBand cap ∧
        session.pipeline.bitrate ≤ clampBand cap := by
  constructor
  · intro h session hsession
    exact h _ (Option.mem_map_of_mem _ hsession)
  · intro h session hsession
    obtain ⟨active, hactive, rfl⟩ := Option.mem_map.mp hsession
    exact h active hactive

theorem below_closed (cap : ℕ) (rates : Rates) : Below cap rates.closed :=
  nofun

/-- A target up to the ceiling is below the cap with it. -/
theorem Below.withTarget {cap : ℕ} {rates : Rates} (h : Below cap rates)
    {target : ℕ} (htarget : target ≤ rates.ceiling) :
    Below cap (rates.withTarget target) := by
  intro session hsession
  obtain ⟨earlier, hearlier, rfl⟩ := Option.mem_map.mp hsession
  obtain ⟨hceiling, -⟩ := h earlier hearlier
  exact ⟨hceiling, htarget.trans hceiling⟩

/-- No move but the client's bitrate takes a session above the cap. -/
theorem below_of_moves {cap : ℕ} {before after : Rates}
    {event : Service.Event} (hmoves : Moves (some cap) before event after)
    (hother : ∀ rate env, event ≠ .message (.setBitrate rate) env)
    (hbefore : before.session.isSome → Below cap before)
    (habr : after.abr) : Below cap after := by
  have hbelow : Below cap before := by
    cases hsession : before.session with
    | none =>
        intro session hmem
        rw [hsession] at hmem
        cases hmem
    | some session => exact hbefore (hsession ▸ rfl)
  cases hmoves with
  | keeps => exact hbelow
  | closes env => exact below_closed cap before
  | sets rate env => exact absurd rfl (hother rate env)
  | toggles enabled env => exact hbelow
  | pins env htarget => cases habr
  | opens request env hidle =>
      have hauto : request.abr = true := habr
      intro session hsession
      obtain rfl := Option.some.inj hsession
      obtain ⟨-, hhigh, -⟩ := resolveBitrates_bounds
        (request.bitrateBps.map UInt32.toNat) request.abr (some cap)
      have hceiling := resolveBitrates_le_cap
        (request.bitrateBps.map UInt32.toNat) cap
      rw [hauto] at hhigh
      change (resolveBitrates _ request.abr (some cap)).2 ≤ _ ∧
        (resolveBitrates _ request.abr (some cap)).1 ≤ _
      rw [hauto]
      exact ⟨hceiling, hhigh.trans hceiling⟩
  | ticks env estimateBps hdriven =>
      have hmeasured : Below cap (before.measured estimateBps env) := by
        intro session hsession
        obtain ⟨earlier, hearlier, rfl⟩ := Option.mem_map.mp hsession
        exact hbelow earlier hearlier
      rw [Rates.steered] at hdriven
      split at hdriven
      · obtain ⟨target, htarget, rfl⟩ := Option.map_eq_some_iff.mp hdriven
        exact hmeasured.withTarget (clamp_bounds htarget).2.1
      · exact Option.some.inj hdriven ▸ hmeasured

/-- What a run keeps as long as the cap was respected.  Of an Auto session the
service holds that it is one, and its ceiling and target are within the cap. -/
structure Sound (cap : ℕ) (world : World) : Prop where
  abr : world.auto → world.connection.abrEnabled
  within : WithinCap cap world

theorem abr_step {cap : ℕ} {world : World}
    {event : AgentState × Service.Event}
    (hauto : (step cap world event).auto) :
    (step cap world event).connection.abrEnabled :=
  (Bool.and_eq_true_iff.mp hauto).2

/-- Auto that is on now was on before, or no session was there. -/
theorem auto_of_step {cap : ℕ} {world : World}
    {event : AgentState × Service.Event}
    (hauto : (step cap world event).auto)
    (hactive : world.connection.rates.session.isSome) : world.auto := by
  have hbefore := (Bool.and_eq_true_iff.mp hauto).1
  rw [Connection.rates, Option.isSome_map] at hactive
  rw [← Option.not_isSome, hactive] at hbefore
  exact hbefore

/-- Every move but the client's bitrate keeps an Auto session below the cap. -/
theorem Sound.withinCap_step {cap : ℕ} {world : World}
    (h : Sound cap world) {event : AgentState × Service.Event}
    (hother : ∀ rate env, event.2 ≠ .message (.setBitrate rate) env) :
    WithinCap cap (step cap world event) := by
  intro hauto
  rw [← below_rates_iff]
  obtain ⟨after, hmoves, hserved⟩ := serve_moves
    { event.1 with hostCap := some cap } world.connection event.2
  rcases hserved with hsame | hclosed
  · change Below cap (serve _ world.connection event.2).2.rates
    rw [hsame]
    apply below_of_moves hmoves hother
    · intro hactive
      exact (below_rates_iff cap world.connection).mpr
        (h.within (auto_of_step hauto hactive))
    · rw [← hsame]
      exact abr_step hauto
  · change Below cap (serve _ world.connection event.2).2.rates
    rw [hclosed]
    exact below_closed cap after

/-- Where the bitrate becomes target and ceiling, an Auto session is within the
cap exactly if the bitrate is. -/
theorem Sound.withinCap_read_iff {cap : ℕ} {world : World}
    (h : Sound cap world) {event : AgentState × Service.Event} {rate : ℕ}
    (hactive : world.connection.active.isSome)
    (hrates : (step cap world event).connection.rates =
      world.connection.rates.withBitrate rate) :
    WithinCap cap (step cap world event) ↔
      (world.auto → clampBand rate ≤ clampBand cap) := by
  obtain ⟨session, hsession⟩ := Option.isSome_iff_exists.mp hactive
  have habr : (step cap world event).connection.abrEnabled =
      world.connection.abrEnabled := congrArg Rates.abr hrates
  have hauto : (step cap world event).auto = (world.auto &&
      world.connection.abrEnabled) := by
    rw [← habr]
    change ((world.connection.active.isNone || world.auto) && _) = _
    rw [hsession]
    rfl
  rw [WithinCap, ← below_rates_iff, hrates, hauto]
  constructor
  · intro hwithin hworld
    have hboth := Bool.and_eq_true_iff.mpr ⟨hworld, h.abr hworld⟩
    refine (hwithin hboth (clampBand rate,
      session.pipeline.fecPermille) ?_).1
    simp only [Connection.rates, Rates.withBitrate, Rates.withTarget,
      hsession, Option.map_some, Option.mem_def]
  · intro hcap hboth later hlater
    obtain ⟨earlier, -, rfl⟩ := Option.mem_map.mp hlater
    have hle := hcap (Bool.and_eq_true_iff.mp hboth).1
    exact ⟨hle, hle⟩

/-- Where the rates stay, or the session goes, nothing exceeds the cap. -/
theorem Sound.withinCap_unread {cap : ℕ} {world : World}
    (h : Sound cap world) {event : AgentState × Service.Event}
    (hrates : (step cap world event).connection.rates =
        world.connection.rates ∨
      (step cap world event).connection.rates =
        world.connection.rates.closed) :
    WithinCap cap (step cap world event) := by
  intro hauto
  rw [← below_rates_iff]
  rcases hrates with hsame | hclosed
  · rw [hsame]
    intro later hlater
    have hactive : world.connection.rates.session.isSome :=
      Option.isSome_of_eq_some hlater
    exact (below_rates_iff cap world.connection).mpr
      (h.within (auto_of_step hauto hactive)) later hlater
  · rw [hclosed]
    exact below_closed cap _

/-- One turn keeps an Auto session below the cap exactly when it reads no
bitrate above the cap. -/
theorem Sound.withinCap_step_iff {cap : ℕ} {world : World}
    (h : Sound cap world) (event : AgentState × Service.Event) :
    WithinCap cap (step cap world event) ↔ RespectsCap cap world event := by
  by_cases hother : ∀ rate env, event.2 ≠ .message (.setBitrate rate) env
  · apply iff_of_true (h.withinCap_step hother)
    intro rate env hevent
    exact absurd hevent (hother rate env)
  · push Not at hother
    obtain ⟨rate, env, hevent⟩ := hother
    have hrespects : RespectsCap cap world event ↔
        (world.connection.exit = none → world.connection.helloed →
          world.connection.active.isSome → world.auto →
            clampBand rate.toNat ≤ clampBand cap) := by
      constructor
      · intro hall
        exact hall rate env hevent
      · intro hone rate' env' hevent'
        obtain ⟨⟨⟩⟩ : rate = rate' := by
          rw [hevent] at hevent'
          cases hevent'
          rfl
        exact hone
    have hstep : (step cap world event).connection =
        (serve { event.1 with hostCap := some cap } world.connection
          (.message (.setBitrate rate) env)).2 := by
      rw [← hevent]
      rfl
    have hserved := serve_setBitrate { event.1 with hostCap := some cap }
      world.connection rate env
    rw [← hstep] at hserved
    rw [hrespects]
    rcases hserved with
      ⟨hexit, hhelloed, hactive, hrates⟩ | ⟨hunread, hrates⟩
    · rw [forall_prop_of_true hexit, forall_prop_of_true hhelloed,
        forall_prop_of_true hactive]
      exact h.withinCap_read_iff hactive hrates
    · apply iff_of_true (h.withinCap_unread hrates)
      intro hexit hhelloed hactive
      rcases hunread with hleft | hnot | hidle
      · rw [hexit] at hleft
        cases hleft
      · rw [hhelloed] at hnot
        cases hnot
      · rw [hidle] at hactive
        cases hactive

/-- In every run of a connection under a configured cap: an Auto session never
exceeds the cap exactly when no bitrate that the client sets on one does. -/
theorem hostCap_authoritative_iff (cap : ℕ) (peer : String)
    (mayInteract : Bool) (events : List (AgentState × Service.Event)) :
    Along (step cap) (fun world event => WithinCap cap (step cap world event))
        (start peer mayInteract) events ↔
      Along (step cap) (RespectsCap cap) (start peer mayInteract) events := by
  apply along_iff_along (Sound cap)
  · intro world event _ hwithin
    exact ⟨abr_step, hwithin⟩
  · intro world event hsound
    exact hsound.withinCap_step_iff event
  · constructor
    · intro hauto
      cases hauto
    · intro hauto
      cases hauto

instance (cap : ℕ) (world : World) : Decidable (WithinCap cap world) :=
  @instDecidableForall _ _ _ (Option.decidableForallMem _)

/-- An Auto session under a cap of 10 Mbit/s, on which the client sets 50. -/
def raisedBitrate : List (AgentState × Service.Event) :=
  let agent : AgentState := ⟨none, ⟨1920, 1080, 60⟩, 0, []⟩
  let env : MessageEnv :=
    ⟨true, 1000, [.h264], [7], .ready [] ⟨[.h264], .high⟩ false, []⟩
  [(agent, .message (.hello ⟨2, ⟨[.h264], .high⟩⟩) env),
    (agent, .message (.startSession ⟨7, none, none, true⟩) env),
    (agent, .message (.setBitrate 50000000) env)]

/-- Ceiling and target are at 50 Mbit/s while Auto is on. -/
theorem hostCap_overridden :
    let world := raisedBitrate.foldl (step 10000000) (start "laptop" true)
    world.auto = true ∧ world.connection.sessionCeiling = 50000000 ∧
      world.connection.active.map (·.pipeline.bitrate) = some 50000000 ∧
      ¬Along (step 10000000)
        (fun world event => WithinCap 10000000 (step 10000000 world event))
        (start "laptop" true) raisedBitrate := by
  decide +kernel

end GameStreamer.HostCap
