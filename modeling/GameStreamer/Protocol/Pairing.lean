import Mathlib.Order.Nat
import Mathlib.Order.Lattice

/-!
# Pairing messages

The scopes a peer can be granted and the four messages of the pairing
handshake.  Scopes are ordered as they are declared in the source, each
implying the ones before it, and go into the authenticated text under their
serialized names.
-/

namespace GameStreamer

/-- What a peer may do; each level implies the previous ones. -/
inductive Scope
  | view
  | interact
  | manage
  deriving DecidableEq, Repr

namespace Scope

def rank : Scope → ℕ
  | view => 0
  | interact => 1
  | manage => 2

theorem rank_injective : Function.Injective rank := by
  intro left right heq
  cases left <;> cases right <;> first | rfl | exact absurd heq (by decide)

instance : LinearOrder Scope := LinearOrder.lift' rank rank_injective

/-- The variant's name in a serialised scope. -/
def variantName : Scope → String
  | view => "View"
  | interact => "Interact"
  | manage => "Manage"

theorem variantName_injective : Function.Injective variantName := by
  intro left right heq
  cases left <;> cases right <;> first | rfl | exact absurd heq (by decide)

end Scope

/-- Client to agent, round 1. -/
structure PairHello where
  spake : List UInt8
  deriving DecidableEq, Repr

/-- Agent to client, round 1. -/
inductive PairResponse
  | spake (spake : List UInt8)
  | rejected (reason : String)
  deriving DecidableEq, Repr

/-- Client to agent, round 2. -/
structure PairConfirm where
  pin : String
  name : String
  requestedScope : Scope
  mac : List UInt8
  deriving DecidableEq, Repr

/-- Agent to client: the outcome. -/
inductive PairResult
  | accepted (pin : String) (scope : Scope) (mac : List UInt8)
  | rejected (reason : String)
  deriving DecidableEq, Repr

end GameStreamer
