import GameStreamer.Client.ReassemblyRun
import GameStreamer.Core.SerialOrder

/-!
# Eviction across the wrap

When too many frames are pending, one of them is given up.  The search starts
from the greatest id by value, so it always ends at the least id by value.
That is the oldest frame unless the pending ids lie on both sides of the wrap,
and then it is the oldest of those beyond the wrap.
-/

namespace GameStreamer.Reassembler

open SerialNumber

/-- The shard opens a frame too many, and does not complete it. -/
def Evicts (reassembler : Reassembler) (shard : Shard) : Prop :=
  ¬reassembler.skips shard.header.frameId ∧
    ¬(reassembler.assembly shard).Complete ∧
    maxPending < (reassembler.opened shard).pending.keys.length

instance (reassembler : Reassembler) (shard : Shard) :
    Decidable (reassembler.Evicts shard) :=
  inferInstanceAs (Decidable (_ ∧ _))

/-- The state less the assembly of the victim. -/
def evict (reassembler : Reassembler) (victim : UInt32) : Reassembler :=
  { reassembler with
    pending := reassembler.pending.erase victim
    dropped := reassembler.dropped + 1 }

/-- What is given up is at or before everything pending, in wrap order. -/
def EvictsOldest (reassembler : Reassembler) (shard : Shard) : Prop :=
  ∃ oldest ∈ (reassembler.opened shard).pending.keys,
    (∀ id ∈ (reassembler.opened shard).pending.keys, AtOrBefore oldest id) ∧
    reassembler.settle shard = (reassembler.opened shard).evict oldest

/-- Some ids are before the wrap and some beyond it. -/
def Straddles (base : UInt32) (ids : List UInt32) : Prop :=
  (∃ id ∈ ids, base ≤ id) ∧ ∃ id ∈ ids, id < base

/-- The id farthest behind the greatest one is the least one. -/
theorem oldestPending_least {reassembler : Reassembler} {oldest : UInt32}
    (holdest : oldest ∈ reassembler.oldestPending) :
    ∀ id ∈ reassembler.pending.keys, oldest ≤ id := by
  obtain ⟨newest, hnewest, hfarthest⟩ := Option.bind_eq_some_iff.mp holdest
  intro id hid
  have hle := List.le_of_mem_argmax hid hnewest
  have hold := List.le_of_mem_argmax (List.argmax_mem hfarthest) hnewest
  have hfar := List.le_of_mem_argmax hid hfarthest
  have hbound := newest.toNat_lt
  rw [UInt32.toNat_sub, UInt32.toNat_sub] at hfar
  rw [UInt32.le_iff_toNat_le]
  omega

theorem Evicts.settle_eq {reassembler : Reassembler} {shard : Shard}
    (h : reassembler.Evicts shard) :
    ∃ oldest ∈ (reassembler.opened shard).pending.keys,
      (∀ id ∈ (reassembler.opened shard).pending.keys, oldest ≤ id) ∧
      reassembler.settle shard = (reassembler.opened shard).evict oldest := by
  obtain ⟨-, hopen, hfull⟩ := h
  have hpending : (reassembler.opened shard).pending.keys ≠ [] := by
    intro hnil
    rw [hnil] at hfull
    exact absurd hfull (Nat.not_lt_zero _)
  obtain ⟨oldest, holdest, heq⟩ := pruneOldest_eq hpending
  refine ⟨oldest, mem_keys_of_oldestPending holdest,
    oldestPending_least holdest, ?_⟩
  rw [settle, if_pos hopen, if_pos hfull, heq]
  rfl

/-- Different victims leave different states. -/
theorem evict_injOn {reassembler : Reassembler} {left right : UInt32}
    (hleft : left ∈ reassembler.pending.keys)
    (h : reassembler.evict left = reassembler.evict right) : left = right := by
  by_contra hne
  have hkeys := congrArg (fun state => state.pending.keys) h
  simp only [evict, AList.keys_erase] at hkeys
  have hkept : left ∈ reassembler.pending.keys.erase right :=
    (List.mem_erase_of_ne hne).mpr hleft
  rw [← hkeys] at hkept
  exact reassembler.pending.keys_nodup.not_mem_erase hkept

/-- The least id is the oldest one exactly when the ids do not straddle the
wrap. -/
theorem least_oldest_iff {base least : UInt32} {ids : List UInt32}
    (hhalf : AllInHalf base ids) (hleast : least ∈ ids)
    (hle : ∀ id ∈ ids, least ≤ id) :
    (∀ id ∈ ids, AtOrBefore least id) ↔ ¬Straddles base ids := by
  constructor
  · rintro hbefore ⟨⟨before, hbeforeMem, hbase⟩, beyond, hbeyondMem, hwrapped⟩
    have hlt : least < base :=
      UInt32.lt_of_le_of_lt (hle beyond hbeyondMem) hwrapped
    have hplace := place_lt_of_straddle hbase hlt
    have hage := (atOrBefore_iff (hhalf _ hleast) (hhalf _ hbeforeMem)).mp
      (hbefore before hbeforeMem)
    omega
  · intro hside id hid
    rw [atOrBefore_iff (hhalf _ hleast) (hhalf _ hid)]
    apply (le_iff_place_le _).mp (hle id hid)
    constructor
    · intro hlt
      by_contra hge
      exact hside ⟨⟨id, hid, UInt32.not_lt.mp hge⟩, least, hleast, hlt⟩
    · exact UInt32.lt_of_le_of_lt (hle id hid)

/-- In any state, the assembly that is evicted is the oldest exactly when the
pending ids do not straddle the wrap. -/
theorem Evicts.oldest_iff {reassembler : Reassembler} {shard : Shard}
    {base : UInt32} (h : reassembler.Evicts shard)
    (hhalf : AllInHalf base (reassembler.opened shard).pending.keys) :
    reassembler.EvictsOldest shard ↔
      ¬Straddles base (reassembler.opened shard).pending.keys := by
  obtain ⟨least, hleast, hle, hsettle⟩ := h.settle_eq
  rw [← least_oldest_iff hhalf hleast hle]
  constructor
  · rintro ⟨oldest, -, hbefore, heq⟩
    rw [hsettle] at heq
    obtain rfl := evict_injOn hleast heq
    exact hbefore
  · intro hbefore
    exact ⟨least, hleast, hbefore, hsettle⟩

/-- Where the oldest frame is evicted, the frame just received stays as long
as an older one is pending. -/
theorem EvictsOldest.received {reassembler : Reassembler} {shard : Shard}
    {base : UInt32} (h : reassembler.EvictsOldest shard)
    (hhalf : AllInHalf base (reassembler.opened shard).pending.keys)
    {id : UInt32} (hid : id ∈ (reassembler.opened shard).pending.keys)
    (hne : id ≠ shard.header.frameId)
    (holder : AtOrBefore id shard.header.frameId) :
    shard.header.frameId ∈ (reassembler.settle shard).pending.keys := by
  obtain ⟨oldest, holdest, hbefore, heq⟩ := h
  have hreceived : shard.header.frameId ∈
      (reassembler.opened shard).pending.keys := by
    rw [keys_opened]
    exact List.mem_cons_self
  have hdifferent : shard.header.frameId ≠ oldest := by
    rintro rfl
    have hle := (atOrBefore_iff (hhalf _ holdest) (hhalf _ hid)).mp
      (hbefore id hid)
    have hge := (atOrBefore_iff (hhalf _ hid) (hhalf _ holdest)).mp holder
    exact hne (place_injective base (Nat.le_antisymm hge hle))
  rw [heq, evict, AList.keys_erase]
  exact (List.mem_erase_of_ne hdifferent).mpr hreceived

/-- After any shards, as long as the pending ids lie in half of the id space:
the frame given up is the oldest one exactly when the pending ids do not
straddle the wrap, and then a frame just received outlasts every older one. -/
theorem evictsOldest_iff (shards : List Shard) (shard : Shard)
    (base : UInt32)
    (hevicts : (Playback.after shards).reassembler.Evicts shard)
    (hhalf : AllInHalf base
      ((Playback.after shards).reassembler.opened shard).pending.keys) :
    ((Playback.after shards).reassembler.EvictsOldest shard ↔
      ¬Straddles base ((Playback.after shards).reassembler.opened
        shard).pending.keys) ∧
    (¬Straddles base ((Playback.after shards).reassembler.opened
        shard).pending.keys →
      ∀ id ∈ ((Playback.after shards).reassembler.opened shard).pending.keys,
        id ≠ shard.header.frameId → AtOrBefore id shard.header.frameId →
        shard.header.frameId ∈ ((Playback.after shards).reassembler.settle
          shard).pending.keys) := by
  have holdest := hevicts.oldest_iff hhalf
  refine ⟨holdest, fun hside id hid hne holder => ?_⟩
  exact (holdest.mpr hside).received hhalf hid hne holder

theorem evictsOldest_iff_plain :
    (Playback.after ((List.range 8).map fun i =>
      firstOfTwo (UInt32.ofNat i))).reassembler.EvictsOldest (firstOfTwo 8) ↔
    ¬Straddles 0 ((Playback.after ((List.range 8).map fun i =>
      firstOfTwo (UInt32.ofNat i))).reassembler.opened
        (firstOfTwo 8)).pending.keys :=
  (evictsOldest_iff _ (firstOfTwo 8) 0 (by decide +kernel)
    (by decide +kernel)).1

/-- Frames pending on both sides of the wrap. -/
def acrossWrap : List Shard :=
  (List.range 8).map fun i => firstOfTwo (UInt32.ofNat (2 ^ 32 - 4 + i))

/-- Nine frames in half of the id space: frame `0` is given up, and
`2 ^ 32 - 4` stays. -/
theorem evictsOldest_wrapped :
    (Playback.after acrossWrap).reassembler.Evicts (firstOfTwo 4) ∧
      AllInHalf (UInt32.ofNat (2 ^ 32 - 4))
        ((Playback.after acrossWrap).reassembler.opened
          (firstOfTwo 4)).pending.keys ∧
      ((Playback.after acrossWrap).reassembler.settle
        (firstOfTwo 4)).pending.keys =
        [4, 3, 2, 1, 4294967295, 4294967294, 4294967293, 4294967292] ∧
      ¬(Playback.after acrossWrap).reassembler.EvictsOldest
        (firstOfTwo 4) := by
  have hevicts : (Playback.after acrossWrap).reassembler.Evicts
      (firstOfTwo 4) := by decide +kernel
  have hhalf : AllInHalf (UInt32.ofNat (2 ^ 32 - 4))
      ((Playback.after acrossWrap).reassembler.opened
        (firstOfTwo 4)).pending.keys := by decide +kernel
  refine ⟨hevicts, hhalf, by decide +kernel, ?_⟩
  rw [hevicts.oldest_iff hhalf, not_not]
  exact ⟨⟨4294967292, by decide +kernel, by decide⟩, 0, by decide +kernel,
    by decide⟩

end GameStreamer.Reassembler
