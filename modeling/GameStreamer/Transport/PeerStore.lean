import Mathlib.Data.List.Basic
import GameStreamer.Protocol.Pairing

/-!
# The paired-peer store

Peers are kept in memory under their pin and written to `peers.json` after
each change.  The write is an effect that may fail; it then leaves the old
file.  A map is a list without two entries of one pin, and is read back from
its file entry by entry.
-/

namespace GameStreamer.Transport

/-- One paired peer. -/
structure Peer where
  name : String
  pin : String
  scope : Scope
  pairedAt : ℕ
  deriving DecidableEq, Repr

/-- The paired peers in memory, beside the file that a restart would read.  The
two differ after a write that failed. -/
structure PeerStore where
  /-- The map from pins to peers: no two entries share a pin. -/
  peers : List Peer
  /-- What `peers.json` holds. -/
  file : Option (List Peer)
  deriving DecidableEq, Repr

namespace PeerStore

/-- `HashMap::insert` under the peer's own pin. -/
def insert (peers : List Peer) (peer : Peer) : List Peer :=
  peer :: peers.filter fun other => other.pin ≠ peer.pin

/-- Write the map out; the outcome is the environment's.  A failed write leaves
the old file. -/
def persist (store : PeerStore) (written : Except String Unit) :
    PeerStore × Except String Unit :=
  match written with
  | .ok () => ({ store with file := some store.peers }, .ok ())
  | .error e => (store, .error e)

/-- Record a pairing, then persist. -/
def add (store : PeerStore) (name pin : String) (scope : Scope)
    (nowUnix : ℕ) (written : Except String Unit) :
    PeerStore × Except String Unit :=
  persist { store with peers := insert store.peers ⟨name, pin, scope, nowUnix⟩ }
    written

/-- Revoke a peer by pin; whether one was removed. -/
def remove (store : PeerStore) (pin : String)
    (written : Except String Unit) : PeerStore × Except String Bool :=
  if store.peers.any fun peer => peer.pin == pin then
    let (store, outcome) := persist
      { store with peers := store.peers.filter fun peer => peer.pin ≠ pin }
      written
    (store, outcome.map fun _ => true)
  else (store, .ok false)

/-- `HashMap::get`. -/
def lookup (peers : List Peer) (pin : String) : Option Peer :=
  peers.find? fun peer => peer.pin = pin

/-- The peer for a pin, if paired. -/
def get (store : PeerStore) (pin : String) : Option Peer :=
  lookup store.peers pin

/-- The map that is collected from the peers of a file. -/
def collect (list : List Peer) : List Peer := list.foldl insert []

/-- Load the store from its file, or start empty if there is none. -/
def loadOrEmpty (file : Option (List Peer)) : PeerStore where
  peers := (file.map collect).getD []
  file := file

@[simp]
theorem persist_peers (store : PeerStore) (written : Except String Unit) :
    (store.persist written).1.peers = store.peers := by
  cases written <;> rfl

/-- The new peer is in memory even when it could not be written out. -/
theorem add_peers (store : PeerStore) (name pin : String) (scope : Scope)
    (nowUnix : ℕ) (written : Except String Unit) :
    (store.add name pin scope nowUnix written).1.peers =
      insert store.peers ⟨name, pin, scope, nowUnix⟩ :=
  persist_peers _ _

theorem mem_insert {peers : List Peer} {peer other : Peer}
    (hmem : other ∈ insert peers peer) : other = peer ∨ other ∈ peers := by
  rcases List.mem_cons.mp hmem with heq | hkept
  · exact Or.inl heq
  · exact Or.inr (List.mem_filter.mp hkept).1

theorem remove_peers_subset (store : PeerStore) (pin : String)
    (written : Except String Unit) :
    (store.remove pin written).1.peers ⊆ store.peers := by
  rw [remove]
  split_ifs with hany
  · simp only [persist_peers]
    exact List.filter_subset_self _
  · exact fun _ h => h

end PeerStore

end GameStreamer.Transport
