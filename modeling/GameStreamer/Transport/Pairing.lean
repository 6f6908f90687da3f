import GameStreamer.Core.JsonText
import GameStreamer.Protocol.Pairing

/-!
# The pairing handshake

A pairing code is the password of a SPAKE2 exchange; both sides then
authenticate their identity pins with an HMAC under the derived key.  The two
primitives are parameters, as are the random draws of their callers.  The
authenticated text is built as in the source, field by field in JSON.
-/

namespace GameStreamer.Transport

/-- The SPAKE2 and HMAC crates, as far as the handshake uses them. -/
structure Primitives where
  /-- The state of one side of an exchange. -/
  Spake : Type
  /-- Password, both identities and the random draw. -/
  startA : List UInt8 → List UInt8 → List UInt8 → ℕ → Spake × List UInt8
  startB : List UInt8 → List UInt8 → List UInt8 → ℕ → Spake × List UInt8
  finish : Spake → List UInt8 → Except String (List UInt8)
  /-- HMAC-SHA256 of a message under a key. -/
  hmac : List UInt8 → List UInt8 → List UInt8

def idClient : List UInt8 := asBytes "gsa-pair-client"
def idAgent : List UInt8 := asBytes "gsa-pair-agent"

def macClient : List UInt8 := asBytes "gsa-pair-mac-client"
def macAgent : List UInt8 := asBytes "gsa-pair-mac-agent"

/-! ## Pairing codes -/

/-- Crockford base 32: no I, L, O, U. -/
def alphabet : List Char := "0123456789ABCDEFGHJKMNPQRSTVWXYZ".toList

/-- The last `count` base-32 digits of `n`, put in front of `chars`. -/
def codeChars : ℕ → ℕ → List Char → List Char
  | 0, _, chars => chars
  | count + 1, n, chars =>
      codeChars count (n >>> 5) (alphabet.getD (n &&& 0x1f) '0' :: chars)

/-- Forty random bits, grouped for reading. -/
def generateCode (bytes : Fin 5 → UInt8) : String :=
  let n := (bytes 0).toNat <<< 32 ||| (bytes 1).toNat <<< 24 |||
    (bytes 2).toNat <<< 16 ||| (bytes 3).toNat <<< 8 ||| (bytes 4).toNat
  let chars := codeChars 8 n []
  String.ofList (chars.take 4) ++ "-" ++ String.ofList (chars.drop 4)

/-! ## Message authentication -/

/-- The JSON array `[pin, name, scope]`. -/
def body (pin name : String) (scope : Scope) : List UInt8 :=
  0x5b :: (JsonText.quote (asBytes pin) ++ 0x2c ::
    (JsonText.quote (asBytes name) ++ 0x2c ::
      (JsonText.quote (asBytes scope.variantName) ++ [0x5d])))

/-- What is authenticated: the label, then the body. -/
def tag (label : List UInt8) (pin name : String) (scope : Scope) :
    List UInt8 :=
  label ++ body pin name scope

section Handshake

variable (P : Primitives)

def mac (key label : List UInt8) (pin name : String) (scope : Scope) :
    List UInt8 :=
  P.hmac key (tag label pin name scope)

def macOk (key label : List UInt8) (pin name : String) (scope : Scope)
    (expect : List UInt8) : Bool :=
  mac P key label pin name scope == expect

/-! ### Client side -/

/-- The client between its hello and the agent's response: its half of the
exchange, and the identity that it is going to claim. -/
structure ClientPairing where
  spake : P.Spake
  myPin : String
  name : String
  scope : Scope

structure ClientConfirmed where
  key : List UInt8
  deriving DecidableEq, Repr

/-- Round 1: the client's SPAKE2 message. -/
def ClientPairing.start (code myPin name : String) (scope : Scope)
    (seed : ℕ) : ClientPairing P × PairHello :=
  let (spake, msg) := P.startA (asBytes code) idClient idAgent seed
  (⟨spake, myPin, name, scope⟩, ⟨msg⟩)

variable {P}

/-- Round 2: derive the key from the agent's message. -/
def ClientPairing.confirm (client : ClientPairing P) :
    PairResponse → Except String (ClientConfirmed × PairConfirm)
  | .rejected reason => .error ("pairing rejected: " ++ reason)
  | .spake spake =>
      match P.finish client.spake spake with
      | .error e => .error ("pairing key exchange failed: " ++ e)
      | .ok key =>
          let m := mac P key macClient client.myPin client.name client.scope
          .ok (⟨key⟩, ⟨client.myPin, client.name, client.scope, m⟩)

variable (P)

/-- Verify the agent's result; on accept, its pin and the granted scope. -/
def ClientConfirmed.finish (client : ClientConfirmed) :
    PairResult → Except String (String × Scope)
  | .accepted pin scope m =>
      if macOk P client.key macAgent pin "" scope m then .ok (pin, scope)
      else .error "agent authentication failed (wrong code?)"
  | .rejected reason => .error ("pairing rejected: " ++ reason)

/-! ### Agent side -/

/-- The agent between its response and the client's confirm, which only the
derived key is needed for. -/
structure AgentPairing where
  key : List UInt8
  deriving DecidableEq, Repr

/-- Round 1: derive the key from the client's hello. -/
def AgentPairing.respond (code : String) (hello : PairHello) (seed : ℕ) :
    Except String (AgentPairing × PairResponse) :=
  let (spake, msg) := P.startB (asBytes code) idClient idAgent seed
  match P.finish spake hello.spake with
  | .error e => .error ("pairing key exchange failed: " ++ e)
  | .ok key => .ok (⟨key⟩, .spake msg)

/-- Round 2: verify the client's confirm. -/
def AgentPairing.verify (agent : AgentPairing) (confirm : PairConfirm) : Bool :=
  macOk P agent.key macClient confirm.pin confirm.name confirm.requestedScope
    confirm.mac

/-- The accept message binding the agent's pin and the granted scope. -/
def AgentPairing.accept (agent : AgentPairing) (myPin : String)
    (granted : Scope) : PairResult :=
  .accepted myPin granted (mac P agent.key macAgent myPin "" granted)

end Handshake

/-! ## What a tag binds -/

theorem body_injective {pin pin' name name' : String} {scope scope' : Scope}
    (heq : body pin name scope = body pin' name' scope') :
    pin = pin' ∧ name = name' ∧ scope = scope' := by
  have hpin := JsonText.quote_append_inj (List.cons.inj heq).2
  have hname := JsonText.quote_append_inj (List.cons.inj hpin.2).2
  have hscope := JsonText.quote_append_inj (List.cons.inj hname.2).2
  exact ⟨asBytes_injective hpin.1, asBytes_injective hname.1,
    Scope.variantName_injective (asBytes_injective hscope.1)⟩

/-- Two authenticated texts under one label carry the same values. -/
theorem tag_injective {label : List UInt8} {pin pin' name name' : String}
    {scope scope' : Scope}
    (heq : tag label pin name scope = tag label pin' name' scope') :
    pin = pin' ∧ name = name' ∧ scope = scope' :=
  body_injective (List.append_cancel_left heq)

/-- The labels part before either of them ends, so no text of one side is a
text of the other. -/
theorem tag_macClient_ne_macAgent (pin pin' name name' : String)
    (scope scope' : Scope) :
    tag macClient pin name scope ≠ tag macAgent pin' name' scope' := by
  intro heq
  have hclient : (tag macClient pin name scope).take 14 =
      macClient.take 14 := List.take_append_of_le_length (by decide +kernel)
  have hagent : (tag macAgent pin' name' scope').take 14 =
      macAgent.take 14 := List.take_append_of_le_length (by decide +kernel)
  have hlabels : macClient.take 14 = macAgent.take 14 := by
    rw [← hclient, heq, hagent]
  exact absurd hlabels (by decide +kernel)

/-! ## What each side has checked -/

section Checks

variable {P : Primitives}

theorem AgentPairing.verify_iff {agent : AgentPairing}
    {confirm : PairConfirm} :
    agent.verify P confirm = true ↔
      mac P agent.key macClient confirm.pin confirm.name
        confirm.requestedScope = confirm.mac :=
  beq_iff_eq

theorem ClientConfirmed.finish_ok {client : ClientConfirmed}
    {result : PairResult} {pin : String} {scope : Scope}
    (hok : client.finish P result = .ok (pin, scope)) :
    result =
      .accepted pin scope (mac P client.key macAgent pin "" scope) := by
  cases result with
  | rejected reason => cases hok
  | accepted pin' scope' m =>
      rw [ClientConfirmed.finish] at hok
      split_ifs at hok with hmac
      injection hok with hpair
      obtain ⟨rfl, rfl⟩ := Prod.mk.inj hpair
      rw [macOk, beq_iff_eq] at hmac
      rw [hmac]

/-- A confirm carries the client's own values, authenticated under the key of
its exchange with the agent's message. -/
theorem ClientPairing.confirm_ok {client : ClientPairing P}
    {response : PairResponse} {confirmed : ClientConfirmed}
    {confirm : PairConfirm}
    (hok : client.confirm response = .ok (confirmed, confirm)) :
    ∃ msg, response = .spake msg ∧
      P.finish client.spake msg = .ok confirmed.key ∧
      confirm = ⟨client.myPin, client.name, client.scope,
        mac P confirmed.key macClient client.myPin client.name
          client.scope⟩ := by
  cases response with
  | rejected reason => cases hok
  | spake msg =>
      cases hfinish : P.finish client.spake msg with
      | error e => simp [ClientPairing.confirm, hfinish] at hok
      | ok key =>
          simp only [ClientPairing.confirm, hfinish, Except.ok.injEq,
            Prod.mk.injEq] at hok
          obtain ⟨rfl, rfl⟩ := hok
          exact ⟨msg, rfl, hfinish, rfl⟩

theorem AgentPairing.respond_ok {code : String} {hello : PairHello}
    {seed : ℕ} {agent : AgentPairing} {response : PairResponse}
    (hok : AgentPairing.respond P code hello seed = .ok (agent, response)) :
    P.finish (P.startB (asBytes code) idClient idAgent seed).1 hello.spake =
        .ok agent.key ∧
      response =
        .spake (P.startB (asBytes code) idClient idAgent seed).2 := by
  cases hfinish : P.finish
      (P.startB (asBytes code) idClient idAgent seed).1 hello.spake with
  | error e => simp [AgentPairing.respond, hfinish] at hok
  | ok key =>
      simp only [AgentPairing.respond, hfinish, Except.ok.injEq,
        Prod.mk.injEq] at hok
      obtain ⟨rfl, rfl⟩ := hok
      exact ⟨rfl, rfl⟩

end Checks

end GameStreamer.Transport
