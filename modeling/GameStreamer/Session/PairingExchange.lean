import GameStreamer.Session.PairingNet

/-!
# The exchanges of honest parties

Each side's view of its exchange comes from its own start and the message it
received, and every tag comes from a party that holds its key.  From these two
facts the ideal primitives give that what one side has checked was made by the
matching session of the other side.
-/

namespace GameStreamer.PairingAgreement

open Transport Client

section Exchanges

variable {P : Primitives} {args : ℕ → PairArgs} {attacker : Attacker}

/-- A client's view comes from its own start and the message it received. -/
def ClientExchange (P : Primitives) (args : PairArgs) (attacker : Attacker)
    (u : ClientView) : Prop :=
  (∃ seed,
    P.finish (P.startA (asBytes args.code) idClient idAgent seed).1
        u.response = .ok u.key ∧
      u.hello = (P.startA (asBytes args.code) idClient idAgent seed).2) ∧
    u.confirm = ⟨args.pin, args.name, args.requestedScope,
      mac P u.key macClient args.pin args.name args.requestedScope⟩ ∧
    (args.code ∉ attacker.codes → u.key ∉ attacker.keys)

def AgentExchange (P : Primitives) (attacker : Attacker) (v : AgentView) :
    Prop :=
  (∃ seed,
    P.finish (P.startB (asBytes v.code) idClient idAgent seed).1 v.hello =
        .ok v.key ∧
      v.response = (P.startB (asBytes v.code) idClient idAgent seed).2) ∧
    (v.code ∉ attacker.codes → v.key ∉ attacker.keys)

theorem ClientExchange.matching (hideal : IdealSpake P) {args : PairArgs}
    {u : ClientView} {v : AgentView} (hu : ClientExchange P args attacker u)
    (hv : AgentExchange P attacker v) (hkey : u.key = v.key) :
    Matching args u v := by
  obtain ⟨⟨seed, hfinish, hhello⟩, -, -⟩ := hu
  obtain ⟨⟨seed', hfinish', hresponse⟩, -⟩ := hv
  rw [← hkey] at hfinish'
  obtain ⟨hcode, htoA, htoB⟩ := hideal.agree hfinish hfinish'
  exact ⟨asBytes_injective hcode, hhello.trans htoB.symm,
    htoA.trans hresponse.symm, hkey⟩

theorem ClientExchange.hello_eq (hideal : IdealSpake P)
    {args args' : PairArgs} {u u' : ClientView}
    (hu : ClientExchange P args attacker u)
    (hu' : ClientExchange P args' attacker u') (hkey : u.key = u'.key) :
    u.hello = u'.hello := by
  obtain ⟨⟨seed, hfinish, hhello⟩, -, -⟩ := hu
  obtain ⟨⟨seed', hfinish', hhello'⟩, -, -⟩ := hu'
  rw [← hkey] at hfinish'
  rw [hhello, hhello']
  exact hideal.apart hfinish hfinish'

/-- Who made a tag, and of what. -/
def TagOrigin (args : ℕ → PairArgs) (net : Net P)
    (entry : List UInt8 × List UInt8) : Prop :=
  (∃ c u, net.clientViews c = some u ∧ entry = (u.key,
    tag macClient (args c).pin (args c).name (args c).requestedScope)) ∨
  ∃ acceptance ∈ net.accepted, ∃ v,
    net.agentViews acceptance.session = some v ∧
      entry = (v.key, tag macAgent acceptance.pin "" acceptance.scope)

/-- The history that agreement rests on only grows. -/
structure Extends (net net' : Net P) : Prop where
  clientViews : ∀ c u, net.clientViews c = some u →
    net'.clientViews c = some u
  agentViews : ∀ a v, net.agentViews a = some v → net'.agentViews a = some v
  verified : ∀ entry ∈ net.verified, entry ∈ net'.verified
  accepted : ∀ entry ∈ net.accepted, entry ∈ net'.accepted

theorem TagOrigin.mono {net net' : Net P} (hext : Extends net net')
    {entry : List UInt8 × List UInt8} (h : TagOrigin args net entry) :
    TagOrigin args net' entry := by
  rcases h with ⟨c, u, hu, hentry⟩ | ⟨acceptance, hmem, v, hv, hentry⟩
  · exact Or.inl ⟨c, u, hext.clientViews c u hu, hentry⟩
  · exact Or.inr ⟨acceptance, hext.accepted _ hmem, v,
      hext.agentViews _ v hv, hentry⟩

theorem ClientAuthentic.mono {net net' : Net P} (hext : Extends net net')
    {entry : ℕ × PairConfirm} (h : ClientAuthentic args attacker net entry) :
    ClientAuthentic args attacker net' entry := by
  obtain ⟨v, hv, hclient⟩ := h
  refine ⟨v, hext.agentViews _ v hv, fun hcode => ?_⟩
  obtain ⟨c, u, hu, hrest⟩ := hclient hcode
  exact ⟨c, u, hext.clientViews c u hu, hrest⟩

theorem AgentAuthentic.mono {net net' : Net P} (hext : Extends net net')
    {entry : ℕ × String × Scope}
    (h : AgentAuthentic args attacker net entry) :
    AgentAuthentic args attacker net' entry := by
  intro hcode
  obtain ⟨u, a, v, hu, hv, hmatching, hverified, haccepted⟩ := h hcode
  exact ⟨u, a, v, hext.clientViews _ u hu, hext.agentViews _ v hv, hmatching,
    hext.verified _ hverified, hext.accepted _ haccepted⟩

/-- How the phase of a client and its view belong together. -/
structure ClientOwn (args : PairArgs) (attacker : Attacker)
    (phase : PairPhase P) (view : Option ClientView) : Prop where
  started : ∀ client hello, phase = .started client hello →
    ∃ seed, ClientPairing.start P args.code args.pin args.name
      args.requestedScope seed = (client, hello)
  unconfirmed : (phase = .connecting ∨
    ∃ client hello, phase = .started client hello) → view = none
  confirmed : ∀ confirmed, phase = .confirmed confirmed →
    ∃ u, view = some u ∧ u.key = confirmed.key
  exchange : ∀ u, view = some u → ClientExchange P args attacker u

/-- How the phase of an agent session and its view belong together. -/
structure AgentOwn (P : Primitives) (attacker : Attacker)
    (phase : Pairing.Phase) (view : Option AgentView) : Prop where
  waiting : phase = .accepted → view = none
  responded : ∀ pairing authorized, phase = .responded pairing authorized →
    ∃ v, view = some v ∧ v.key = pairing.key
  exchange : ∀ v, view = some v → AgentExchange P attacker v

/-- How phases, views and history belong together. -/
structure Linked (args : ℕ → PairArgs) (attacker : Attacker) (net : Net P) :
    Prop where
  clients : ∀ c,
    ClientOwn (args c) attacker (net.clients c) (net.clientViews c)
  fresh : ∀ c c' hello, helloOf net c = some hello →
    helloOf net c' = some hello → c = c'
  agents : ∀ a, AgentOwn P attacker (net.agents a) (net.agentViews a)
  tagged : ∀ entry ∈ net.tagged, TagOrigin args net entry
  accepted : ∀ acceptance ∈ net.accepted,
    (acceptance.session, acceptance.confirm) ∈ net.verified
  agreement : Agreement args attacker net

theorem linked_start : Linked args attacker (start P) where
  clients c := ⟨nofun, fun _ => rfl, nofun, nofun⟩
  fresh := by simp [start, helloOf]
  agents a := ⟨fun _ => rfl, nofun, nofun⟩
  tagged := by simp [start]
  accepted := by simp [start]
  agreement := ⟨by simp [start], by simp [start]⟩

theorem Linked.helloOf_eq {net : Net P} (h : Linked args attacker net)
    {c : ℕ} {u : ClientView} (hu : net.clientViews c = some u) :
    helloOf net c = some u.hello := by
  rw [helloOf]
  split
  case h_1 client hello hphase =>
    rw [(h.clients c).unconfirmed (Or.inr ⟨client, hello, hphase⟩)] at hu
    cases hu
  case h_2 => rw [hu, Option.map_some]

/-- What an agent session verifies comes from the matching client. -/
theorem Linked.clientAuthentic {net : Net P} (h : Linked args attacker net)
    (hideal : IdealSpake P) {a : ℕ} {pairing : AgentPairing}
    {authorized : Scope} {confirm : PairConfirm}
    (hphase : net.agents a = .responded pairing authorized)
    (hverify : pairing.verify P confirm = true)
    (hunforged : pairing.key ∈ attacker.keys ∨
      (pairing.key, tag macClient confirm.pin confirm.name
        confirm.requestedScope) ∈ net.tagged) :
    ClientAuthentic args attacker net (a, confirm) := by
  obtain ⟨v, hv, hkey⟩ := (h.agents a).responded pairing authorized hphase
  refine ⟨v, hv, fun hcode => ?_⟩
  have hexchange := (h.agents a).exchange v hv
  have htagged : (pairing.key, tag macClient confirm.pin confirm.name
      confirm.requestedScope) ∈ net.tagged := by
    rcases hunforged with hheld | htagged
    · rw [← hkey] at hheld
      exact absurd hheld (hexchange.2 hcode)
    · exact htagged
  rcases h.tagged _ htagged with ⟨c, u, hu, hentry⟩ | ⟨_, _, _, _, hentry⟩
  · obtain ⟨hsame, htag⟩ := Prod.mk.inj hentry
    obtain ⟨hpin, hname, hscope⟩ := tag_injective htag
    have hclient := (h.clients c).exchange u hu
    refine ⟨c, u, hu, hclient.matching hideal hexchange
      (hsame.symm.trans hkey.symm), ?_, hpin, hname, hscope⟩
    have hmac := AgentPairing.verify_iff.mp hverify
    rw [hclient.2.1, ← hsame, ← hpin, ← hname, ← hscope, hmac]
  · exact absurd (Prod.mk.inj hentry).2 (tag_macClient_ne_macAgent _ _ _ _ _ _)

/-- What a client returns was accepted by the matching agent session. -/
theorem Linked.agentAuthentic {net : Net P} (h : Linked args attacker net)
    (hideal : IdealSpake P) {c : ℕ} {confirmed : ClientConfirmed}
    {pin : String} {scope : Scope}
    (hphase : net.clients c = .confirmed confirmed)
    (hunforged : confirmed.key ∈ attacker.keys ∨
      (confirmed.key, tag macAgent pin "" scope) ∈ net.tagged) :
    AgentAuthentic args attacker net (c, pin, scope) := by
  intro hcode
  obtain ⟨u, hu, hkey⟩ := (h.clients c).confirmed confirmed hphase
  have hexchange := (h.clients c).exchange u hu
  have htagged : (confirmed.key, tag macAgent pin "" scope) ∈ net.tagged := by
    rcases hunforged with hheld | htagged
    · rw [← hkey] at hheld
      exact absurd hheld (hexchange.2.2 hcode)
    · exact htagged
  rcases h.tagged _ htagged with ⟨_, _, _, hentry⟩ |
    ⟨acceptance, haccepted, v, hv, hentry⟩
  · exact absurd (Prod.mk.inj hentry).2.symm
      (tag_macClient_ne_macAgent _ _ _ _ _ _)
  · obtain ⟨hsame, htag⟩ := Prod.mk.inj hentry
    obtain ⟨rfl, -, rfl⟩ := tag_injective htag
    have hmatching := hexchange.matching hideal ((h.agents _).exchange v hv)
      (hkey.trans hsame)
    have hverified := h.accepted acceptance haccepted
    -- The confirm that this agent verified is the client's own.
    obtain ⟨v', hv', hclient⟩ := h.agreement.verified _ hverified
    obtain rfl := Option.some.inj (hv.symm.trans hv')
    obtain ⟨c', u', hu', hmatching', hconfirm, -⟩ :=
      hclient (hmatching.code ▸ hcode)
    have hhello := hexchange.hello_eq hideal ((h.clients c').exchange u' hu')
      (hmatching.key.trans hmatching'.key.symm)
    obtain rfl := h.fresh c c' u.hello (h.helloOf_eq hu)
      (by rw [hhello, h.helloOf_eq hu'])
    obtain rfl := Option.some.inj (hu.symm.trans hu')
    refine ⟨u, acceptance.session, v, hu, hv, hmatching, ?_, ?_⟩
    · rw [hconfirm]
      exact hverified
    · rw [hconfirm]
      exact haccepted

end Exchanges

end GameStreamer.PairingAgreement
