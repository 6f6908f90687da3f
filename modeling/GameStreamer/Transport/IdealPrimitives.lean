import GameStreamer.Transport.Pairing

/-!
# Ideal primitives

The ideal SPAKE2 gives two sides one key only when they used one password and
received each other's messages.  A symbolic implementation, whose key is the
transcript itself, shows that the assumption can be met.  The results on
agreement name these assumptions as hypotheses.
-/

namespace GameStreamer.Transport

/-- What is assumed of the key exchange. -/
structure IdealSpake (P : Primitives) : Prop where
  /-- An A side and a B side share a key only if they used one password and
  exchanged each other's messages unmodified. -/
  agree : ∀ {passwordA passwordB : List UInt8} {seedA seedB : ℕ}
    {toA toB key : List UInt8},
    P.finish (P.startA passwordA idClient idAgent seedA).1 toA = .ok key →
    P.finish (P.startB passwordB idClient idAgent seedB).1 toB = .ok key →
    passwordA = passwordB ∧
      toA = (P.startB passwordB idClient idAgent seedB).2 ∧
      toB = (P.startA passwordA idClient idAgent seedA).2
  /-- Two A sides with different messages never share a key. -/
  apart : ∀ {password password' : List UInt8} {seed seed' : ℕ}
    {toA toA' key : List UInt8},
    P.finish (P.startA password idClient idAgent seed).1 toA = .ok key →
    P.finish (P.startA password' idClient idAgent seed').1 toA' = .ok key →
    (P.startA password idClient idAgent seed).2 =
      (P.startA password' idClient idAgent seed').2

namespace Symbolic

/-- The side, what it was started with, and its draw. -/
structure Side where
  isA : Bool
  password : List UInt8
  idA : List UInt8
  idB : List UInt8
  seed : ℕ

/-- Messages carry their side in the first byte. -/
def message (isA : Bool) (seed : ℕ) : List UInt8 :=
  (if isA then 0x41 else 0x42) :: List.replicate seed 0

def transcript (side : Side) (toA toB : List UInt8) : List UInt8 :=
  JsonText.quote side.password ++ (JsonText.quote side.idA ++
    (JsonText.quote side.idB ++ (JsonText.quote toA ++ JsonText.quote toB)))

def finish (side : Side) (received : List UInt8) :
    Except String (List UInt8) :=
  if received.head? = some (if side.isA then 0x42 else 0x41) then
    .ok (if side.isA
      then transcript side received (message true side.seed)
      else transcript side (message false side.seed) received)
  else .error "BadSide"

def primitives : Primitives where
  Spake := Side
  startA password idA idB seed :=
    (⟨true, password, idA, idB, seed⟩, message true seed)
  startB password idA idB seed :=
    (⟨false, password, idA, idB, seed⟩, message false seed)
  finish := finish
  hmac key text := JsonText.quote key ++ text

theorem transcript_inj {side side' : Side} {toA toA' toB toB' : List UInt8}
    (heq : transcript side toA toB = transcript side' toA' toB') :
    side.password = side'.password ∧ toA = toA' ∧ toB = toB' := by
  obtain ⟨hpassword, hrest⟩ := JsonText.quote_append_inj heq
  obtain ⟨-, hrest⟩ := JsonText.quote_append_inj hrest
  obtain ⟨-, hrest⟩ := JsonText.quote_append_inj hrest
  obtain ⟨htoA, hrest⟩ := JsonText.quote_append_inj hrest
  have htoB := JsonText.quote_append_inj (congrArg (· ++ []) hrest)
  exact ⟨hpassword, htoA, htoB.1⟩

theorem finish_ok {side : Side} {received key : List UInt8}
    (hok : finish side received = .ok key) :
    key = if side.isA then transcript side received (message true side.seed)
      else transcript side (message false side.seed) received := by
  rw [finish] at hok
  split_ifs at hok ⊢
  all_goals
    injection hok with hkey
    exact hkey.symm

theorem idealSpake : IdealSpake primitives where
  agree := by
    intro passwordA passwordB seedA seedB toA toB key hA hB
    have heq := (finish_ok hA).symm.trans (finish_ok hB)
    obtain ⟨hpassword, htoA, htoB⟩ := transcript_inj heq
    exact ⟨hpassword, htoA, htoB.symm⟩
  apart := by
    intro password password' seed seed' toA toA' key h h'
    have heq := (finish_ok h).symm.trans (finish_ok h')
    exact (transcript_inj heq).2.2

end Symbolic

end GameStreamer.Transport
