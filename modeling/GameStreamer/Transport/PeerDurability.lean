import GameStreamer.Core.EventRun
import GameStreamer.Transport.PeerStore

/-!
# Agreement of the peer store with its file

`add` and `remove` change the map before they write it out, and `remove` writes
only when it found the pin in the map.  A write that fails therefore leaves the
map ahead of the file, and a revoke that is tried again does not mend it.  This
module proves under which course of the writes memory and file agree.
-/

namespace GameStreamer.Transport

open EventRun

namespace PeerStore

/-! ## The map -/

@[simp]
theorem lookup_nil (pin : String) : lookup [] pin = none := rfl

theorem lookup_filter_self (peers : List Peer) (pin : String) :
    lookup (peers.filter fun peer => peer.pin ≠ pin) pin = none := by
  rw [lookup, List.find?_eq_none]
  intro peer hpeer heq
  have hne := (List.mem_filter.mp hpeer).2
  exact absurd (of_decide_eq_true heq) (of_decide_eq_true hne)

theorem lookup_filter_ne (peers : List Peer) {pin other : String}
    (hne : other ≠ pin) :
    lookup (peers.filter fun peer => peer.pin ≠ pin) other =
      lookup peers other := by
  induction peers with
  | nil => rfl
  | cons peer peers ih =>
      by_cases hpin : peer.pin = pin
      · have hother : ¬peer.pin = other := fun h => hne (h.symm.trans hpin)
        rw [List.filter_cons_of_neg (by simpa using hpin), ih, lookup, lookup,
          List.find?_cons_of_neg (by simpa using hother)]
      · rw [List.filter_cons_of_pos (by simpa using hpin)]
        by_cases hother : peer.pin = other
        · rw [lookup, lookup, List.find?_cons_of_pos (by simpa using hother),
            List.find?_cons_of_pos (by simpa using hother)]
        · rw [lookup, lookup, List.find?_cons_of_neg (by simpa using hother),
            List.find?_cons_of_neg (by simpa using hother)]
          exact ih

theorem lookup_insert_self (peers : List Peer) (peer : Peer) :
    lookup (insert peers peer) peer.pin = some peer := by
  rw [lookup, insert, List.find?_cons_of_pos (by simp)]

theorem lookup_insert_ne (peers : List Peer) (peer : Peer) {pin : String}
    (hne : pin ≠ peer.pin) :
    lookup (insert peers peer) pin = lookup peers pin := by
  rw [lookup, insert, List.find?_cons_of_neg (by simpa using hne.symm)]
  exact lookup_filter_ne peers hne

theorem lookup_eq_none_iff {peers : List Peer} {pin : String} :
    lookup peers pin = none ↔ ∀ peer ∈ peers, peer.pin ≠ pin := by
  simp [lookup, List.find?_eq_none]

/-- The same peer under every pin. -/
def SameMap (left right : List Peer) : Prop :=
  ∀ pin, lookup left pin = lookup right pin

/-- No two entries share a pin. -/
def Distinct (peers : List Peer) : Prop := (peers.map Peer.pin).Nodup

theorem distinct_nil : Distinct [] := List.nodup_nil

theorem distinct_filter {peers : List Peer} (h : Distinct peers)
    (keep : Peer → Bool) : Distinct (peers.filter keep) :=
  List.Nodup.sublist (List.filter_sublist.map _) h

theorem distinct_insert {peers : List Peer} (h : Distinct peers)
    (peer : Peer) : Distinct (insert peers peer) := by
  rw [Distinct, insert, List.map_cons, List.nodup_cons]
  refine ⟨?_, distinct_filter h _⟩
  intro hmem
  obtain ⟨other, hother, heq⟩ := List.mem_map.mp hmem
  exact absurd heq (of_decide_eq_true (List.mem_filter.mp hother).2)

theorem distinct_foldl_insert {peers : List Peer} (h : Distinct peers)
    (list : List Peer) : Distinct (list.foldl insert peers) := by
  induction list generalizing peers with
  | nil => exact h
  | cons peer list ih => exact ih (distinct_insert h peer)

theorem lookup_foldl_insert {list : List Peer} (h : Distinct list)
    (peers : List Peer) (pin : String) :
    lookup (list.foldl insert peers) pin =
      (lookup list pin).or (lookup peers pin) := by
  induction list generalizing peers with
  | nil => rfl
  | cons peer list ih =>
      rw [Distinct, List.map_cons, List.nodup_cons] at h
      rw [List.foldl_cons, ih h.2]
      by_cases hpin : pin = peer.pin
      · subst hpin
        have hnone : lookup list peer.pin = none := by
          rw [lookup_eq_none_iff]
          exact fun other hother heq =>
            h.1 (List.mem_map.mpr ⟨other, hother, heq⟩)
        rw [hnone, lookup_insert_self, lookup,
          List.find?_cons_of_pos (by simp)]
        rfl
      · rw [lookup_insert_ne _ _ hpin]
        conv_rhs =>
          rw [lookup, List.find?_cons_of_neg (by simpa using Ne.symm hpin)]
        rfl

/-- A map that was written out is read back. -/
theorem sameMap_collect {peers : List Peer} (h : Distinct peers) :
    SameMap peers (collect peers) := by
  intro pin
  rw [collect, lookup_foldl_insert h, lookup_nil, Option.or_none]

end PeerStore

namespace PeerDurability

open PeerStore

/-! ## Runs of operations -/

/-- An operation with the outcome of its write, if it comes to one. -/
inductive Operation where
  | add (name pin : String) (scope : Scope) (nowUnix : ℕ)
      (written : Except String Unit)
  | remove (pin : String) (written : Except String Unit)

/-- The store after an operation, and whether the operation succeeded. -/
def perform (store : PeerStore) : Operation → PeerStore × Except String Unit
  | .add name pin scope nowUnix written =>
      store.add name pin scope nowUnix written
  | .remove pin written =>
      ((store.remove pin written).1,
        (store.remove pin written).2.map fun _ => ())

def step (store : PeerStore) (operation : Operation) : PeerStore :=
  (perform store operation).1

/-- The peers that a restart would find. -/
def reloaded (store : PeerStore) : List Peer := (loadOrEmpty store.file).peers

/-- An operation that fails leaves the map as it was; after one that succeeds
the map is what a restart would find, which for a revoke no longer holds the
pin. -/
structure Atomic (store : PeerStore) (operation : Operation) : Prop where
  failed : ∀ e, (perform store operation).2 = .error e →
    SameMap (perform store operation).1.peers store.peers
  succeeded : (perform store operation).2 = .ok () →
    SameMap (perform store operation).1.peers
      (reloaded (perform store operation).1)
  revoked : ∀ pin written, operation = .remove pin written →
    (perform store operation).2 = .ok () →
      lookup (reloaded (perform store operation).1) pin = none

/-- The write succeeds unless the operation leaves the map as it is: a peer
that is added again unchanged, or a pin that is not there. -/
def Persisted (store : PeerStore) : Operation → Prop
  | .add name pin scope nowUnix written =>
      written = .ok () ∨
        store.get pin = some ⟨name, pin, scope, nowUnix⟩
  | .remove pin written => written = .ok () ∨ store.get pin = none

/-- The map is what a restart would find.  A loaded store is so, and every
write that succeeds makes it so again. -/
structure Synced (store : PeerStore) : Prop where
  distinct : Distinct store.peers
  same : SameMap store.peers (reloaded store)

theorem synced_loadOrEmpty (file : Option (List Peer)) :
    Synced (loadOrEmpty file) := by
  refine ⟨?_, fun _ => rfl⟩
  cases file with
  | none => exact distinct_nil
  | some list => exact distinct_foldl_insert distinct_nil list

/-- A written map is synced. -/
theorem synced_persist {peers : List Peer} (h : Distinct peers) :
    Synced ⟨peers, some peers⟩ :=
  ⟨h, sameMap_collect h⟩

theorem sameMap_insert_iff (peers : List Peer) (peer : Peer) :
    SameMap (insert peers peer) peers ↔
      lookup peers peer.pin = some peer := by
  constructor
  · intro hsame
    rw [← hsame, lookup_insert_self]
  · intro hold pin
    by_cases hpin : pin = peer.pin
    · rw [hpin, lookup_insert_self, hold]
    · exact lookup_insert_ne peers peer hpin

theorem sameMap_filter_iff (peers : List Peer) (pin : String) :
    SameMap (peers.filter fun peer => peer.pin ≠ pin) peers ↔
      lookup peers pin = none := by
  constructor
  · intro hsame
    rw [← hsame, lookup_filter_self]
  · intro hnone other
    by_cases hother : other = pin
    · rw [hother, lookup_filter_self, hnone]
    · exact lookup_filter_ne peers hother

/-- A store without the pin is not touched by its revoke. -/
theorem remove_of_absent {store : PeerStore} {pin : String}
    (habsent : store.get pin = none) (written : Except String Unit) :
    store.remove pin written = (store, .ok false) := by
  have hall : ∀ peer ∈ store.peers, peer.pin ≠ pin :=
    lookup_eq_none_iff.mp habsent
  rw [remove, if_neg]
  intro hany
  obtain ⟨peer, hpeer, heq⟩ := List.any_eq_true.mp hany
  exact hall peer hpeer (beq_iff_eq.mp heq)

/-- The map of a store with the pin is filtered and written out. -/
theorem remove_of_present {store : PeerStore} {pin : String}
    (hpresent : store.get pin ≠ none) (written : Except String Unit) :
    store.remove pin written =
      let persisted := PeerStore.persist
        { store with peers := store.peers.filter fun peer => peer.pin ≠ pin }
        written
      (persisted.1, persisted.2.map fun _ => true) := by
  rw [remove, if_pos]
  by_contra hany
  apply hpresent
  rw [PeerStore.get, lookup_eq_none_iff]
  intro peer hpeer heq
  exact hany (List.any_eq_true.mpr ⟨peer, hpeer, beq_iff_eq.mpr heq⟩)

theorem atomic_add_iff {store : PeerStore} (h : Synced store)
    (name pin : String) (scope : Scope) (nowUnix : ℕ)
    (written : Except String Unit) :
    Atomic store (.add name pin scope nowUnix written) ↔
      Persisted store (.add name pin scope nowUnix written) := by
  have hdistinct : Distinct (insert store.peers ⟨name, pin, scope, nowUnix⟩) :=
    distinct_insert h.distinct _
  cases written with
  | ok done =>
      refine iff_of_true ⟨nofun, fun _ => ?_, nofun⟩ (Or.inl rfl)
      exact (synced_persist hdistinct).same
  | error e =>
      constructor
      · intro hatomic
        exact Or.inr ((sameMap_insert_iff _ _).mp (hatomic.failed e rfl))
      · rintro (hwritten | hsame)
        · cases hwritten
        · exact ⟨fun _ _ => (sameMap_insert_iff _ _).mpr hsame, nofun, nofun⟩

theorem atomic_remove_iff {store : PeerStore} (h : Synced store)
    (pin : String) (written : Except String Unit) :
    Atomic store (.remove pin written) ↔
      Persisted store (.remove pin written) := by
  by_cases habsent : store.get pin = none
  · -- Nothing is removed and nothing written.
    have hperform : perform store (.remove pin written) = (store, .ok ()) := by
      rw [perform, remove_of_absent habsent]
      rfl
    refine iff_of_true ⟨?_, ?_, ?_⟩ (Or.inr habsent)
    · rw [hperform]
      exact fun _ herror => nomatch herror
    · rw [hperform]
      exact fun _ => h.same
    · rintro _ _ heq -
      obtain ⟨rfl, -⟩ := Operation.remove.inj heq
      rw [hperform, ← h.same]
      exact habsent
  · have hremove := remove_of_present habsent written
    have hdistinct : Distinct (store.peers.filter fun peer =>
        peer.pin ≠ pin) := distinct_filter h.distinct _
    cases written with
    | ok done =>
        have hperform : perform store (.remove pin (.ok done)) =
            (⟨store.peers.filter fun peer => peer.pin ≠ pin,
              some (store.peers.filter fun peer => peer.pin ≠ pin)⟩,
              .ok ()) := by
          rw [perform, hremove]
          rfl
        have hsynced := synced_persist hdistinct
        refine iff_of_true ⟨?_, ?_, ?_⟩ (Or.inl rfl)
        · rw [hperform]
          exact fun _ herror => nomatch herror
        · rw [hperform]
          exact fun _ => hsynced.same
        · rintro _ _ heq -
          obtain ⟨rfl, -⟩ := Operation.remove.inj heq
          rw [hperform, ← hsynced.same]
          exact lookup_filter_self _ _
    | error e =>
        have hperform : perform store (.remove pin (.error e)) =
            (⟨store.peers.filter fun peer => peer.pin ≠ pin, store.file⟩,
              .error e) := by
          rw [perform, hremove]
          rfl
        constructor
        · intro hatomic
          have hsame := hatomic.failed e (by rw [hperform])
          rw [hperform] at hsame
          exact absurd ((sameMap_filter_iff _ _).mp hsame) habsent
        · rintro (hwritten | hnone)
          · cases hwritten
          · exact absurd hnone habsent

theorem atomic_iff {store : PeerStore} (h : Synced store)
    (operation : Operation) :
    Atomic store operation ↔ Persisted store operation := by
  cases operation with
  | add name pin scope nowUnix written =>
      exact atomic_add_iff h name pin scope nowUnix written
  | remove pin written => exact atomic_remove_iff h pin written

theorem distinct_perform {store : PeerStore} (h : Distinct store.peers)
    (operation : Operation) : Distinct (perform store operation).1.peers := by
  cases operation with
  | add name pin scope nowUnix written =>
      rw [perform, add_peers]
      exact distinct_insert h _
  | remove pin written =>
      rw [perform, PeerStore.remove]
      split_ifs with hany
      · simp only [persist_peers]
        exact distinct_filter h _
      · exact h

/-- A failed write leaves the old file. -/
theorem file_of_failed {store : PeerStore} {operation : Operation} {e : String}
    (hfailed : (perform store operation).2 = .error e) :
    (perform store operation).1.file = store.file := by
  cases operation with
  | add name pin scope nowUnix written =>
      cases written with
      | ok done => cases hfailed
      | error e => rfl
  | remove pin written =>
      by_cases habsent : store.get pin = none
      · rw [perform, remove_of_absent habsent]
      · rw [perform, remove_of_present habsent] at hfailed ⊢
        cases written with
        | ok done => cases hfailed
        | error e => rfl

/-- An atomic operation leaves the store synced: after a failure the file and
the map are what they were, and after a success the file holds the map. -/
theorem synced_step {store : PeerStore} (h : Synced store)
    {operation : Operation} (hatomic : Atomic store operation) :
    Synced (step store operation) := by
  refine ⟨distinct_perform h.distinct operation, ?_⟩
  cases hresult : (perform store operation).2 with
  | ok done => exact hatomic.succeeded hresult
  | error e =>
      have hfile : reloaded (step store operation) = reloaded store := by
        rw [reloaded, reloaded, step, file_of_failed hresult]
      intro pin
      rw [hfile, ← h.same]
      exact hatomic.failed e hresult pin

/-- In a run from a loaded store, every operation is atomic and durable if
and only if every write that would change the map succeeds. -/
theorem atomic_iff_persisted (file : Option (List Peer))
    (operations : List Operation) :
    Along step Atomic (loadOrEmpty file) operations ↔
      Along step Persisted (loadOrEmpty file) operations :=
  along_iff_along Synced (fun _ _ h hatomic => synced_step h hatomic)
    (fun _ operation h => atomic_iff h operation) (synced_loadOrEmpty file)
    operations

/-- A revoke whose write fails, and the same revoke again. -/
def retriedRevoke : List Operation :=
  [.remove "pin" (.error "disk full"), .remove "pin" (.ok ())]

/-- The second revoke succeeds without a write, and a restart finds the peer
again. -/
theorem not_atomic_retriedRevoke :
    ¬Along step Atomic (loadOrEmpty (some [⟨"laptop", "pin", .view, 0⟩]))
      retriedRevoke := by
  rintro ⟨-, hretry, -⟩
  have hrevoked := hretry.revoked "pin" (.ok ()) rfl (by decide +kernel)
  exact absurd hrevoked (by decide +kernel)

end PeerDurability

end GameStreamer.Transport
