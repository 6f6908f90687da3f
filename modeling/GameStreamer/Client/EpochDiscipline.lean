import GameStreamer.Client.Assembly
import GameStreamer.Client.HeldQueue

/-!
# Frames of several epochs

The sender counts the frames of every epoch anew, but the reassembler compares
frame ids alone.  A frame of a newer epoch is then owed that nothing of an
older one takes its shards from it or keeps it from going out.  This module
says so for whole runs, and under which arrivals the reassembler keeps to it.

The conditions on an arrival look at the state before the push: at what was
delivered, what is held and what is pending, with the shard in its place.  The
run of a frame then has three outcomes.  All its shards are in its assembly, it
is delivered, or it has yielded to something that is of no older epoch.
-/

namespace GameStreamer

open Reassembler

/-- Wrap-aware "epoch `a` is older than `b`". -/
def olderEpoch (a b : UInt8) : Prop := 0 < b - a ∧ b - a < 128

instance (a b : UInt8) : Decidable (olderEpoch a b) :=
  inferInstanceAs (Decidable (_ ∧ _))

/-- The assembly is one of the geometry's shards. -/
def Pending.IsOf (entry : Pending) (geometry : Geometry) : Prop :=
  entry.epoch = geometry.epoch ∧ entry.dataCount = geometry.chunkCount ∧
    entry.shards.length = geometry.total ∧
    entry.frameLen = geometry.frameLen

instance (entry : Pending) (geometry : Geometry) :
    Decidable (entry.IsOf geometry) :=
  inferInstanceAs (Decidable (_ ∧ _))

namespace Reassembler

/-- A frame of the geometry is pending. -/
def Assembles (reassembler : Reassembler) (geometry : Geometry) : Prop :=
  ∃ entry ∈ reassembler.pending.lookup geometry.frameId, entry.IsOf geometry

instance (reassembler : Reassembler) (geometry : Geometry) :
    Decidable (reassembler.Assembles geometry) :=
  inferInstanceAs (Decidable (∃ entry ∈ _, _))

/-- The frame that a shard evicts. -/
def evicted (reassembler : Reassembler) (shard : Shard) : Option UInt32 :=
  if ¬(reassembler.assembly shard).Complete ∧
      maxPending < (reassembler.opened shard).pending.keys.length then
    (reassembler.opened shard).oldestPending
  else none

/-- A frame is held, and no assembly of an older epoch keeps it or a frame in
front of it waiting. -/
def Unobstructed (reassembler : Reassembler) (frame : CompletedFrame)
    (epoch : UInt8) : Prop :=
  ∃ place, reassembler.held[place]? = some frame ∧
    ∀ front ∈ reassembler.held.take (place + 1),
      ∀ entry ∈ reassembler.pending.entries,
        older entry.1 front.frameId → ¬olderEpoch entry.2.epoch epoch

end Reassembler

namespace Recording

/-- The shards that an assembly of the geometry goes on from. -/
def current (recording : Recording) (geometry : Geometry) : List Shard :=
  if recording.playback.reassembler.Assembles geometry then
    recording.log geometry.frameId
  else []

/-- The frame that was completed last under an id, with its shards. -/
def latest (recording : Recording) (id : UInt32) :
    Option (CompletedFrame × List Shard) :=
  (recording.made.filter fun entry => entry.1.frameId = id).getLast?

/-- The epoch of that frame. -/
def epochOf (recording : Recording) (id : UInt32) : UInt8 :=
  (((recording.latest id).bind fun entry => entry.2.head?).map fun shard =>
    shard.header.sessionEpoch).getD 0

/-- A frame of the geometry went out, or it is held and nothing of an older
epoch keeps it from going out. -/
def Delivers (recording : Recording) (geometry : Geometry) : Prop :=
  ∃ frame sources, OfGeometry geometry sources ∧
    ((frame, sources) ∈ recording.made ∧ frame ∈ recording.playback.released ∨
      recording.latest frame.frameId = some (frame, sources) ∧
        recording.playback.reassembler.Unobstructed frame geometry.epoch)

theorem since_eq_current (recording : Recording) (shard : Shard) :
    recording.since shard =
      recording.current shard.geometry ++ [shard] := by
  rw [since, current]
  change (if recording.playback.reassembler.Assembles shard.geometry then _
    else _) = _
  split_ifs <;> rfl

end Recording

/-! ## What is owed -/

section Step

variable (recording : Recording) (shard : Shard)

/-- The shard leaves the assembly of a newer epoch alone, and nothing goes out
under its id. -/
def NewerKept : Prop :=
  let reassembler := recording.playback.reassembler
  let pushed := reassembler.push shard.header shard.payload
  ∀ entry ∈ reassembler.pending.lookup shard.header.frameId,
    olderEpoch shard.header.sessionEpoch entry.epoch →
      pushed.1.pending.lookup shard.header.frameId = some entry ∧
        ∀ frame ∈ pushed.2, frame.frameId ≠ shard.header.frameId

instance : Decidable (NewerKept recording shard) :=
  inferInstanceAs (Decidable (∀ entry ∈ _, _))

section Yields

variable (geometry : Geometry)

/-- A frame that is not older, of no older epoch, was delivered, and so the
shard is stale.  This is the newest-wins rule within an epoch. -/
def Superseded : Prop :=
  shard.geometry = geometry ∧
    recording.playback.reassembler.stale shard.header.frameId ∧
    ∃ latest ∈ recording.playback.reassembler.latestDelivered,
      ¬olderEpoch (recording.epochOf latest) geometry.epoch

/-- A frame of that id, of no older epoch, is held. -/
def Shadowed : Prop :=
  shard.geometry = geometry ∧
    recording.playback.reassembler.held.any
      (·.frameId = shard.header.frameId) ∧
    ¬olderEpoch (recording.epochOf shard.header.frameId) geometry.epoch

/-- A shard of that id, of no older epoch, has another geometry. -/
def Restarted : Prop :=
  recording.playback.reassembler.Assembles geometry ∧
    shard.header.frameId = geometry.frameId ∧ shard.geometry ≠ geometry ∧
    ¬olderEpoch shard.header.sessionEpoch geometry.epoch

/-- Too many frames are pending, and none of an older epoch: the window is
full, and the frame is the one that is given up. -/
def CrowdedOut : Prop :=
  geometry.frameId ∈ recording.playback.reassembler.evicted shard ∧
    (recording.playback.reassembler.opened shard).Assembles geometry ∧
    ∀ other ∈ (recording.playback.reassembler.opened shard).pending.entries,
      ¬olderEpoch other.2.epoch geometry.epoch

/-- A newer frame, of no older epoch, goes out. -/
def Passed : Prop :=
  ∃ release ∈ (recording.playback.reassembler.settle shard).releases
      (recording.playback.reassembler.settle shard).held,
    release.1.Assembles geometry ∧
      older geometry.frameId release.2.frameId ∧
      ¬olderEpoch ((recording.step shard).epochOf release.2.frameId)
        geometry.epoch

/-- Enough shards are there, but they are not those of a frame. -/
def Malformed : Prop :=
  shard.geometry = geometry ∧
    (recording.playback.reassembler.assembly shard).Complete ∧
    (recording.playback.reassembler.assembly shard).frameData = none

/-- The shard takes a frame its shards, or meets what took them, but nothing of
an older epoch stands behind it: this is newest-wins, the window or malformed
input. -/
def Yields : Prop :=
  Superseded recording shard geometry ∨ Shadowed recording shard geometry ∨
    ¬recording.playback.reassembler.skips shard.header.frameId ∧
      (Restarted recording shard geometry ∨
        CrowdedOut recording shard geometry ∨
        Passed recording shard geometry ∨ Malformed recording shard geometry)

instance : Decidable (Superseded recording shard geometry) :=
  inferInstanceAs (Decidable (_ ∧ _ ∧ ∃ latest ∈
    recording.playback.reassembler.latestDelivered, _))

instance : Decidable (Shadowed recording shard geometry) :=
  inferInstanceAs (Decidable (_ ∧ _))

instance : Decidable (Restarted recording shard geometry) :=
  inferInstanceAs (Decidable (_ ∧ _))

instance : Decidable (CrowdedOut recording shard geometry) :=
  inferInstanceAs (Decidable (_ ∧ _ ∧ ∀ _ ∈ AList.entries _, _))

instance : Decidable (Passed recording shard geometry) :=
  inferInstanceAs (Decidable (∃ _ ∈ Reassembler.releases _ _, _))

instance : Decidable (Malformed recording shard geometry) :=
  inferInstanceAs (Decidable (_ ∧ _))

instance : Decidable (Yields recording shard geometry) :=
  inferInstanceAs (Decidable (_ ∨ _))

end Yields

end Step

/-- The shards of a geometry among those that arrived. -/
def arrivals (geometry : Geometry) (shards : List Shard) : List Shard :=
  shards.filter fun shard => shard.geometry = geometry

/-- What a run of shards owes to the epochs. -/
structure Discipline (shards : List Shard) : Prop where
  /-- A late shard of an older epoch changes nothing for a newer one. -/
  kept : EventRun.Along Recording.step NewerKept Recording.start shards
  /-- Once enough shards of a frame arrived, it is delivered, or it has
  yielded to nothing older than its own epoch. -/
  delivered : ∀ earlier, earlier <+: shards → ∀ shard ∈ earlier,
    (assembled shard.geometry (arrivals shard.geometry earlier)).Covered →
      (Recording.after earlier).Delivers shard.geometry ∨
        EventRun.Sometime (fun recording other =>
          Yields recording other shard.geometry)
          Recording.step Recording.start earlier

/-! ## Arrivals that keep to it -/

section Ordered

variable (recording : Recording) (shard : Shard)

/-- The epoch of a frame in the queue, which the shard may complete. -/
def epochIn (frame : CompletedFrame) : UInt8 :=
  if frame.frameId = shard.header.frameId then shard.header.sessionEpoch
  else recording.epochOf frame.frameId

/-- No frame is evicted while one of an older epoch is pending. -/
def EvictsInOrder : Prop :=
  let reassembler := recording.playback.reassembler
  reassembler.Evicts shard →
    ∀ victim ∈ (reassembler.opened shard).pending.entries,
      (reassembler.opened shard).Least victim.1 →
        ∀ other ∈ (reassembler.opened shard).pending.entries,
          ¬olderEpoch other.2.epoch victim.2.epoch

/-- An assembly that is older than a frame that goes out is of no newer epoch
than this. -/
def PassesInOrder : Prop :=
  let reassembler := recording.playback.reassembler
  let queue := reassembler.queue shard
  let missing := reassembler.missing shard
  ∀ place < queue.length, GoesOut missing queue place →
    ∀ frame ∈ queue[place]?, ∀ entry ∈ missing,
      Outlasts missing queue place entry → older entry.1 frame.frameId →
        ¬olderEpoch (epochIn recording shard frame) entry.2.epoch

/-- An assembly that keeps a frame waiting, or one in front of it, is of no
older epoch than the frame. -/
def WaitsInOrder : Prop :=
  let reassembler := recording.playback.reassembler
  let queue := reassembler.queue shard
  let missing := reassembler.missing shard
  ∀ place < queue.length, ¬GoesOut missing queue place →
    ∀ frame ∈ queue[place]?, ∀ front ∈ queue.take (place + 1),
      ∀ entry ∈ missing, Outlasts missing queue place entry →
        older entry.1 front.frameId →
          ¬olderEpoch entry.2.epoch (epochIn recording shard frame)

/-- The shard finds nothing of another epoch in its way, and nothing of another
epoch is in the way of what it lets go out.  All of this is read off the state
before the push. -/
structure EpochOrdered : Prop where
  /-- It is not stale on account of a frame of an older epoch. -/
  delivered : ∀ latest ∈ recording.playback.reassembler.latestDelivered,
    recording.playback.reassembler.stale shard.header.frameId →
      ¬olderEpoch (recording.epochOf latest) shard.header.sessionEpoch
  /-- No frame of an older epoch is held under its id. -/
  held : recording.playback.reassembler.held.any
      (·.frameId = shard.header.frameId) →
    ¬olderEpoch (recording.epochOf shard.header.frameId)
      shard.header.sessionEpoch
  /-- It does not replace an assembly of a newer epoch. -/
  assembly : ¬recording.playback.reassembler.skips shard.header.frameId →
    ∀ entry ∈ recording.playback.reassembler.pending.lookup
      shard.header.frameId,
      ¬olderEpoch shard.header.sessionEpoch entry.epoch
  evicts : EvictsInOrder recording shard
  passes : ¬recording.playback.reassembler.skips shard.header.frameId →
    PassesInOrder recording shard
  waits : ¬recording.playback.reassembler.skips shard.header.frameId →
    WaitsInOrder recording shard

instance : Decidable (EvictsInOrder recording shard) :=
  inferInstanceAs (Decidable (_ → ∀ _ ∈ AList.entries _, _ →
    ∀ _ ∈ AList.entries _, _))

instance : Decidable (PassesInOrder recording shard) :=
  inferInstanceAs (Decidable (∀ place < _, _ →
    ∀ _ ∈ (Reassembler.queue _ _)[place]?, ∀ _ ∈ Reassembler.missing _ _, _))

instance : Decidable (WaitsInOrder recording shard) :=
  inferInstanceAs (Decidable (∀ place < _, _ →
    ∀ _ ∈ (Reassembler.queue _ _)[place]?, ∀ _ ∈ List.take _ _,
      ∀ _ ∈ Reassembler.missing _ _, _))

instance : Decidable (EpochOrdered recording shard) :=
  have : Decidable (∀ latest ∈
      recording.playback.reassembler.latestDelivered,
      recording.playback.reassembler.stale shard.header.frameId →
        ¬olderEpoch (recording.epochOf latest) shard.header.sessionEpoch) :=
    Option.decidableForallMem _
  decidable_of_iff (_ ∧ _ ∧ _ ∧ _ ∧ _ ∧ _)
    ⟨fun ⟨hdelivered, hheld, hassembly, hevicts, hpasses, hwaits⟩ =>
      ⟨hdelivered, hheld, hassembly, hevicts, hpasses, hwaits⟩,
      fun ⟨hdelivered, hheld, hassembly, hevicts, hpasses, hwaits⟩ =>
        ⟨hdelivered, hheld, hassembly, hevicts, hpasses, hwaits⟩⟩

end Ordered

/-! ## What becomes of an assembly -/

theorem isOf_assembled {geometry other : Geometry}
    (hid : other.frameId = geometry.frameId) (shards : List Shard) :
    (assembled geometry shards).IsOf other ↔ geometry = other := by
  obtain ⟨frameId, epoch, chunkCount, total, frameLen⟩ := geometry
  obtain ⟨frameId', epoch', chunkCount', total', frameLen'⟩ := other
  obtain rfl : frameId' = frameId := hid
  rw [Pending.IsOf, length_assembled]
  simp only [assembled, Geometry.mk.injEq, true_and]

namespace Reassembler

variable {reassembler : Reassembler}

/-- A pending assembly survives draining, or a newer frame passes it. -/
theorem lookup_drain {id : UInt32} {entry : Pending}
    (h : reassembler.pending.lookup id = some entry) :
    reassembler.drain.1.pending.lookup id = some entry ∨
      ∃ release ∈ reassembler.releases reassembler.held,
        release.1.pending.lookup id = some entry ∧
          older id release.2.frameId := by
  by_contra hlost
  obtain ⟨hgone, hnone⟩ := not_or.mp hlost
  refine hgone (@drain_rule_releases
    (fun state _ => state.pending.lookup id = some entry) reassembler []
    (fun state head rest log hmem _ _ hstate => ?_) h)
  exact lookup_release_of_not_older hstate fun holder =>
    hnone ⟨(state, head), hmem, hstate, holder⟩

theorem assembles_drain {geometry : Geometry}
    (h : reassembler.Assembles geometry) :
    reassembler.drain.1.Assembles geometry ∨
      ∃ state head, (state, head) ∈ reassembler.releases reassembler.held ∧
        state.Assembles geometry ∧
          older geometry.frameId head.frameId := by
  obtain ⟨entry, hentry, hof⟩ := h
  rcases lookup_drain hentry with hkept | ⟨⟨state, head⟩, hmem, hstate, hold⟩
  · exact Or.inl ⟨entry, hkept, hof⟩
  · exact Or.inr ⟨state, head, hmem, ⟨entry, hstate, hof⟩, hold⟩

theorem assembles_of_drain {geometry : Geometry}
    (h : reassembler.drain.1.Assembles geometry) :
    reassembler.Assembles geometry := by
  obtain ⟨entry, hentry, hof⟩ := h
  exact ⟨entry, lookup_of_drain hentry, hof⟩

end Reassembler

section Step

variable {recording : Recording} {shard : Shard} {geometry : Geometry}

theorem Recording.reassembler_step
    (hskips : ¬recording.playback.reassembler.skips shard.header.frameId) :
    (recording.step shard).playback.reassembler =
      (recording.playback.reassembler.settle shard).drain.1 := by
  rw [Recording.playback_step, Playback.step_of_settles hskips]

/-! ### The epochs of held frames -/

theorem Recording.latest_step_of_ne {id : UInt32}
    (hid : id ≠ shard.header.frameId) :
    (recording.step shard).latest id = recording.latest id := by
  rw [Recording.step]
  split_ifs
  · rfl
  · rw [Recording.latest, Recording.latest]
    dsimp only
    rw [List.filter_append]
    split_ifs
    · cases (recording.playback.reassembler.assembly shard).frameData with
      | none => exact congrArg _ (List.append_nil _)
      | some data =>
          have hother : ¬(completed shard data).frameId = id := Ne.symm hid
          simp [hother]
    · exact congrArg _ (List.append_nil _)

theorem Recording.latest_step_of_completes
    (hskips : ¬recording.playback.reassembler.skips shard.header.frameId)
    (hcomplete : (recording.playback.reassembler.assembly shard).Complete)
    {data : Bytes}
    (hdata : (recording.playback.reassembler.assembly shard).frameData =
      some data) :
    (recording.step shard).latest shard.header.frameId =
      some (completed shard data, recording.since shard) := by
  have hsame : (completed shard data).frameId = shard.header.frameId := rfl
  rw [Recording.step, if_neg hskips, Recording.latest]
  dsimp only
  rw [if_pos hcomplete, hdata, List.filter_append]
  simp [hsame]

theorem Recording.made_of_latest {id : UInt32}
    {entry : CompletedFrame × List Shard}
    (hlatest : recording.latest id = some entry) : entry ∈ recording.made :=
  (List.mem_filter.mp (List.mem_of_getLast? hlatest)).1

/-- The last frame under an id has the epoch of its shards. -/
theorem Recording.epochOf_of_latest {frame : CompletedFrame}
    {sources : List Shard}
    (hlatest : recording.latest frame.frameId = some (frame, sources))
    (hsame : OfGeometry geometry sources) :
    recording.epochOf frame.frameId = geometry.epoch := by
  rw [Recording.epochOf, hlatest, Option.bind_some]
  dsimp only
  cases sources with
  | nil => exact absurd rfl hsame.nonempty
  | cons source sources =>
      exact congrArg Geometry.epoch (hsame.same source List.mem_cons_self)

/-- A shard that is not skipped has not the id of a held frame. -/
theorem Reassembler.ne_of_mem_held {reassembler : Reassembler}
    {frameId : UInt32} (hskips : ¬reassembler.skips frameId)
    {frame : CompletedFrame} (hframe : frame ∈ reassembler.held) :
    frame.frameId ≠ frameId := by
  rw [skips, Bool.or_eq_true, not_or, List.any_eq_true] at hskips
  intro hid
  exact hskips.2 ⟨frame, hframe, decide_eq_true hid⟩

/-- After the push, the frames of the queue have the epochs they have in it. -/
theorem Recorded.epochOf_step (hrecorded : Recorded recording)
    (hskips : ¬recording.playback.reassembler.skips shard.header.frameId)
    {frame : CompletedFrame}
    (hframe : frame ∈ recording.playback.reassembler.queue shard) :
    (recording.step shard).epochOf frame.frameId =
      epochIn recording shard frame := by
  rw [epochIn]
  rcases mem_queue.mp hframe with hheld | ⟨hcomplete, data, hdata, rfl⟩
  · have hid := ne_of_mem_held hskips hheld
    rw [if_neg hid, Recording.epochOf, Recording.latest_step_of_ne hid,
      Recording.epochOf]
  · have hlatest := Recording.latest_step_of_completes hskips hcomplete hdata
    have hid : (completed shard data).frameId = shard.header.frameId := rfl
    rw [if_pos hid]
    exact @Recording.epochOf_of_latest (recording.step shard) shard.geometry
      (completed shard data) _ hlatest (hrecorded.assembly shard).1

/-- After a push in order every frame of the queue went out, or nothing of an
older epoch keeps it from that. -/
theorem EpochOrdered.out_or_unobstructed (h : EpochOrdered recording shard)
    (hskips : ¬recording.playback.reassembler.skips shard.header.frameId)
    {frame : CompletedFrame}
    (hframe : frame ∈ recording.playback.reassembler.queue shard) :
    frame ∈ (recording.step shard).playback.released ∨
      (recording.step shard).playback.reassembler.Unobstructed frame
        (epochIn recording shard frame) := by
  obtain ⟨released, hdrained⟩ := drained_push hskips
  obtain ⟨place, hplace⟩ := List.mem_iff_getElem?.mp hframe
  rw [Recording.playback_step]
  by_cases hgoes : GoesOut (recording.playback.reassembler.missing shard)
      (recording.playback.reassembler.queue shard) place
  · left
    exact List.mem_append_right _ (hdrained.mem_out hplace hgoes)
  · right
    obtain ⟨hheld, hfront⟩ := hdrained.held_at hplace hgoes
    refine ⟨_, hheld, ?_⟩
    intro front hmem entry hentry
    exact h.waits hskips place (List.getElem?_eq_some_iff.mp hplace).1 hgoes
      frame hplace front (hfront hmem) entry (hdrained.pending entry hentry).1
      (hdrained.outlasts hentry place)

/-- An assembly that the shard settles next to, or in, goes on unless a
newer frame passes it. -/
theorem EpochOrdered.assembles_step (h : EpochOrdered recording shard)
    (hrecorded : Recorded recording)
    (hskips : ¬recording.playback.reassembler.skips shard.header.frameId)
    (hsettled : (recording.playback.reassembler.settle shard).Assembles
      geometry) :
    (recording.step shard).playback.reassembler.Assembles geometry ∨
      Yields recording shard geometry := by
  rw [Recording.reassembler_step hskips]
  rcases assembles_drain hsettled with
    hkept | ⟨state, head, hrelease, hpending, holder⟩
  · exact Or.inl hkept
  · right; right; right
    refine ⟨hskips, Or.inr (Or.inr (Or.inl
      ⟨(state, head), hrelease, hpending, holder, ?_⟩))⟩
    obtain ⟨entry, hentry, hepoch, -⟩ := hpending
    obtain ⟨place, hgoes, hplace, hentries⟩ :=
      goesOut_of_mem_releases hrelease
    obtain ⟨hmem, hnewer⟩ := hentries ⟨geometry.frameId, entry⟩
      (AList.mem_lookup_iff.mp hentry)
    rw [goesOut_settle_iff hskips] at hgoes
    rw [held_settle] at hplace hnewer
    have houtlasts : Outlasts (recording.playback.reassembler.missing shard)
        (recording.playback.reassembler.queue shard) place
        ⟨geometry.frameId, entry⟩ := by
      intro out hout _ earlier hearlier
      apply hnewer
      apply List.mem_of_getElem?
      rw [List.getElem?_take_of_lt hout]
      exact hearlier
    rw [hrecorded.epochOf_step hskips (List.mem_of_getElem? hplace), ← hepoch]
    exact h.passes hskips place hgoes.1 hgoes head hplace
      ⟨geometry.frameId, entry⟩ ((mem_entries_settle hskips _).mp hmem)
      houtlasts holder

/-- An assembly that is there once the shard is stored is there when it has
settled, unless it is completed or evicted. -/
theorem EpochOrdered.assembles_settle (h : EpochOrdered recording shard)
    (hskips : ¬recording.playback.reassembler.skips shard.header.frameId)
    (hstays : ¬(recording.playback.reassembler.assembly shard).Complete ∨
      geometry.frameId ≠ shard.header.frameId)
    (hopened : (recording.playback.reassembler.opened shard).Assembles
      geometry) :
    (recording.playback.reassembler.settle shard).Assembles geometry ∨
      Yields recording shard geometry := by
  obtain ⟨entry, hentry, hof⟩ := hopened
  have hnext := settled_settle recording.playback.reassembler shard
  have herase : ∀ removed, geometry.frameId ≠ removed →
      ((recording.playback.reassembler.opened shard).pending.erase
        removed).lookup geometry.frameId = some entry := by
    intro removed hne
    rw [AList.lookup_erase_ne hne]
    exact hentry
  have hclosed :
      (recording.playback.reassembler.assembly shard).Complete →
        (recording.playback.reassembler.closed shard).pending.lookup
          geometry.frameId = some entry := fun hcomplete =>
    herase _ (hstays.resolve_left (not_not.mpr hcomplete))
  generalize recording.playback.reassembler.settle shard = next at hnext
  cases hnext with
  | waiting hopen hroom => exact Or.inl ⟨entry, hentry, hof⟩
  | completing hcomplete hdata => exact Or.inl ⟨entry, hclosed hcomplete, hof⟩
  | failing hcomplete hdata => exact Or.inl ⟨entry, hclosed hcomplete, hof⟩
  | @evicting hopen hfull oldest holdest =>
      by_cases hvictim : geometry.frameId = oldest
      · subst hvictim
        have hevicted : geometry.frameId ∈
            recording.playback.reassembler.evicted shard := by
          rw [Reassembler.evicted, if_pos ⟨hopen, hfull⟩]
          exact holdest
        right; right; right
        refine ⟨hskips, Or.inr (Or.inl ⟨hevicted, ⟨entry, hentry, hof⟩, ?_⟩)⟩
        rw [← hof.1]
        exact h.evicts ⟨hskips, hopen, hfull⟩ ⟨geometry.frameId, entry⟩
          (AList.mem_lookup_iff.mp hentry) (oldestPending_least holdest)
      · exact Or.inl ⟨entry, herase oldest hvictim, hof⟩

/-- A shard of another geometry opens no assembly. -/
theorem Recorded.not_assembles_step (hrecorded : Recorded recording)
    (hskips : ¬recording.playback.reassembler.skips shard.header.frameId)
    (hother : shard.geometry ≠ geometry)
    (hnone : ¬recording.playback.reassembler.Assembles geometry) :
    ¬(recording.step shard).playback.reassembler.Assembles geometry := by
  rw [Recording.reassembler_step hskips]
  intro hassembles
  obtain ⟨entry, hentry, hof⟩ := assembles_of_drain hassembles
  rcases lookup_settled (settled_settle _ shard) hentry with
    ⟨hid, rfl, -⟩ | ⟨-, hold⟩
  · obtain ⟨-, hassembly⟩ := hrecorded.assembly shard
    rw [hassembly] at hof
    exact hother ((isOf_assembled hid _).mp hof)
  · exact hnone ⟨entry, hold, hof⟩

/-- A frame that the shard completes is delivered, unless it is malformed. -/
theorem EpochOrdered.delivers_step (h : EpochOrdered recording shard)
    (hrecorded : Recorded recording)
    (hskips : ¬recording.playback.reassembler.skips shard.header.frameId)
    (hcomplete : (recording.playback.reassembler.assembly shard).Complete) :
    (recording.step shard).Delivers shard.geometry ∨
      Yields recording shard shard.geometry := by
  cases hdata :
      (recording.playback.reassembler.assembly shard).frameData with
  | none =>
      right; right; right
      exact ⟨hskips, Or.inr (Or.inr (Or.inr ⟨rfl, hcomplete, hdata⟩))⟩
  | some data =>
      left
      refine ⟨completed shard data, recording.since shard,
        (hrecorded.assembly shard).1, ?_⟩
      have hframe : completed shard data ∈
          recording.playback.reassembler.queue shard :=
        mem_queue.mpr (Or.inr ⟨hcomplete, data, hdata, rfl⟩)
      have hepoch : epochIn recording shard (completed shard data) =
          shard.geometry.epoch := if_pos rfl
      rw [← hepoch]
      exact (h.out_or_unobstructed hskips hframe).imp
        (And.intro (Recording.completed_made_step hskips hcomplete hdata))
        (And.intro
          (Recording.latest_step_of_completes hskips hcomplete hdata))

/-- The shards that a frame's assembly goes on from, after a shard in order:
those before and the shard itself if it is one of them, unless the frame is
delivered or yields. -/
theorem Recorded.current_step (hrecorded : Recorded recording)
    (h : EpochOrdered recording shard)
    (hskips : ¬recording.playback.reassembler.skips shard.header.frameId) :
    (recording.step shard).current geometry =
        recording.current geometry ++
          (if shard.geometry = geometry then [shard] else []) ∨
      (recording.step shard).Delivers geometry ∨
      Yields recording shard geometry := by
  have hlog := Recording.log_step hskips
  by_cases hshard : shard.geometry = geometry
  · subst hshard
    by_cases hcomplete :
      (recording.playback.reassembler.assembly shard).Complete
    · exact Or.inr (h.delivers_step hrecorded hskips hcomplete)
    have hopened : (recording.playback.reassembler.opened shard).Assembles
        shard.geometry := by
      refine ⟨_, AList.lookup_insert _, ?_⟩
      rw [(hrecorded.assembly shard).2]
      exact (isOf_assembled rfl _).mpr rfl
    rcases h.assembles_settle hskips (Or.inl hcomplete) hopened with
      hsettled | hyields
    · rcases h.assembles_step hrecorded hskips hsettled with hstep | hyields
      · left
        rw [Recording.current, if_pos hstep, if_pos rfl, hlog,
          ← Recording.since_eq_current]
        exact Function.update_self _ _ _
      · exact Or.inr (Or.inr hyields)
    · exact Or.inr (Or.inr hyields)
  rw [if_neg hshard, List.append_nil]
  by_cases hpending : recording.playback.reassembler.Assembles geometry
  · by_cases hid : shard.header.frameId = geometry.frameId
    · right; right; right; right
      refine ⟨hskips, Or.inl ⟨hpending, hid, hshard, ?_⟩⟩
      obtain ⟨entry, hentry, hepoch, -⟩ := hpending
      rw [← hepoch]
      exact h.assembly hskips entry (hid ▸ hentry)
    have hopened : (recording.playback.reassembler.opened shard).Assembles
        geometry := by
      obtain ⟨entry, hentry, hof⟩ := hpending
      exact ⟨entry, (AList.lookup_insert_ne (Ne.symm hid)).trans hentry, hof⟩
    rcases h.assembles_settle hskips (Or.inr (Ne.symm hid)) hopened with
      hsettled | hyields
    · rcases h.assembles_step hrecorded hskips hsettled with hstep | hyields
      · left
        rw [Recording.current, if_pos hstep, Recording.current,
          if_pos hpending, hlog, Function.update_of_ne (Ne.symm hid)]
      · exact Or.inr (Or.inr hyields)
    · exact Or.inr (Or.inr hyields)
  · left
    rw [Recording.current, Recording.current, if_neg hpending,
      if_neg (hrecorded.not_assembles_step hskips hshard hpending)]

/-- A shard in order that is dropped is one of a frame that yields. -/
theorem EpochOrdered.yields_of_skips (h : EpochOrdered recording shard)
    (hskips : recording.playback.reassembler.skips shard.header.frameId) :
    Yields recording shard shard.geometry := by
  rw [skips, Bool.or_eq_true] at hskips
  rcases hskips with hstale | hheld
  · have hdelivered := hstale
    rw [Reassembler.stale] at hdelivered
    split at hdelivered
    case h_1 hnone => cases hdelivered
    case h_2 latest hlatest =>
      exact Or.inl ⟨rfl, hstale, latest, hlatest,
        h.delivered latest hlatest hstale⟩
  · exact Or.inr (Or.inl ⟨rfl, hheld, h.held hheld⟩)

/-- A delivered frame stays so, also while it is held. -/
theorem EpochOrdered.delivers (h : EpochOrdered recording shard)
    (hdelivers : recording.Delivers geometry) :
    (recording.step shard).Delivers geometry := by
  obtain ⟨frame, sources, hsame, hout⟩ := hdelivers
  refine ⟨frame, sources, hsame, ?_⟩
  by_cases hskips :
    recording.playback.reassembler.skips shard.header.frameId
  · rwa [Recording.step, if_pos hskips]
  · rcases hout with ⟨hmade, hreleased⟩ | ⟨hlatest, place, hplace, -⟩
    · left
      refine ⟨Recording.made_step hmade shard, ?_⟩
      rw [Recording.playback_step]
      exact List.mem_append_left _ hreleased
    · have hheld := List.mem_of_getElem? hplace
      have hid := ne_of_mem_held hskips hheld
      have hepoch : epochIn recording shard frame = geometry.epoch := by
        rw [epochIn, if_neg hid]
        exact Recording.epochOf_of_latest hlatest hsame
      rw [← hepoch]
      refine (h.out_or_unobstructed hskips
        (mem_queue.mpr (Or.inl hheld))).imp (And.intro ?_) (And.intro ?_)
      · exact Recording.made_step (Recording.made_of_latest hlatest) shard
      · rw [Recording.latest_step_of_ne hid]
        exact hlatest

/-- A shard of an older epoch that meets an assembly in order is dropped. -/
theorem EpochOrdered.kept (h : EpochOrdered recording shard) :
    NewerKept recording shard := by
  intro entry hentry holder
  by_cases hskips :
    recording.playback.reassembler.skips shard.header.frameId
  · rw [push_eq, if_pos hskips]
    exact ⟨hentry, nofun⟩
  · exact absurd holder (h.assembly hskips entry hentry)

end Step

/-! ## Runs -/

/-- Where a frame is: all its shards that arrived are in its assembly, or it
is delivered, or it has yielded. -/
inductive Fate (pushed : List Shard) (geometry : Geometry) : Prop
  | waiting (hcurrent : (Recording.after pushed).current geometry =
      arrivals geometry pushed)
  | delivered (hdelivers : (Recording.after pushed).Delivers geometry)
  | yielded (hyields : EventRun.Sometime
      (fun recording other => Yields recording other geometry)
      Recording.step Recording.start pushed)

theorem after_concat (pushed : List Shard) (shard : Shard) :
    Recording.after (pushed ++ [shard]) =
      (Recording.after pushed).step shard := by
  rw [Recording.after, List.foldl_append]
  rfl

theorem Fate.step {pushed : List Shard} {shard : Shard}
    {geometry : Geometry} (hfate : Fate pushed geometry)
    (h : EpochOrdered (Recording.after pushed) shard) :
    Fate (pushed ++ [shard]) geometry := by
  have hyielded : Yields (Recording.after pushed) shard geometry →
      Fate (pushed ++ [shard]) geometry := fun hyields =>
    .yielded ((EventRun.sometime_concat _ _ _ _).mpr (Or.inr hyields))
  have harrivals : arrivals geometry (pushed ++ [shard]) =
      arrivals geometry pushed ++
        (if shard.geometry = geometry then [shard] else []) := by
    rw [arrivals, arrivals, List.filter_append, List.filter_singleton]
    split_ifs with hshard <;> simp [hshard]
  cases hfate with
  | delivered hdelivers =>
      refine .delivered ?_
      rw [after_concat]
      exact h.delivers hdelivers
  | yielded hyields =>
      exact .yielded ((EventRun.sometime_concat _ _ _ _).mpr (Or.inl hyields))
  | waiting hcurrent =>
      by_cases hskips : (Recording.after pushed).playback.reassembler.skips
        shard.header.frameId
      · by_cases hshard : shard.geometry = geometry
        · subst hshard
          exact hyielded (h.yields_of_skips hskips)
        · refine .waiting ?_
          rw [harrivals, if_neg hshard, List.append_nil, after_concat,
            Recording.step, if_pos hskips, hcurrent]
      · rcases (recorded_after pushed).current_step h hskips with
          hstep | hdelivers | hyields
        · refine .waiting ?_
          rw [harrivals, after_concat, hstep, hcurrent]
        · refine .delivered ?_
          rwa [after_concat]
        · exact hyielded hyields

theorem fate_of_along {pushed : List Shard}
    (h : EventRun.Along Recording.step EpochOrdered Recording.start pushed)
    (geometry : Geometry) : Fate pushed geometry := by
  induction pushed using List.reverseRecOn with
  | nil =>
      refine .waiting (if_neg ?_)
      rintro ⟨entry, hentry, -⟩
      cases hentry
  | append_singleton pushed shard ih =>
      rw [EventRun.along_append] at h
      obtain ⟨hpushed, hshard, -⟩ := h
      exact (ih hpushed).step hshard

/-- Enough shards of a frame do not wait in its assembly. -/
theorem not_covered_of_waiting {pushed : List Shard} {shard : Shard}
    (hmem : shard ∈ pushed)
    (hcurrent : (Recording.after pushed).current shard.geometry =
      arrivals shard.geometry pushed) :
    ¬(assembled shard.geometry
      (arrivals shard.geometry pushed)).Covered := by
  have hpresent : shard ∈ arrivals shard.geometry pushed :=
    List.mem_filter.mpr ⟨hmem, decide_eq_true rfl⟩
  rw [← hcurrent, Recording.current] at hpresent ⊢
  by_cases hassembles : (Recording.after
      pushed).playback.reassembler.Assembles shard.geometry
  · rw [if_pos hassembles]
    obtain ⟨entry, hentry, hof⟩ := hassembles
    obtain ⟨geometry, hopen⟩ :=
      (recorded_after pushed).pending _ entry hentry
    rw [hopen.assembly] at hof
    obtain rfl := (isOf_assembled hopen.id.symm _).mp hof
    rw [← hopen.assembly]
    exact hopen.uncovered
  · rw [if_neg hassembles] at hpresent
    cases hpresent

/-- If every shard finds the state in order, the reassembler keeps to the
epochs: late shards of an older epoch change nothing, and a frame whose groups
are covered is delivered or has yielded to nothing older than its own epoch. -/
theorem discipline_of_epochOrdered (shards : List Shard)
    (h : EventRun.Along Recording.step EpochOrdered Recording.start shards) :
    Discipline shards where
  kept := EventRun.along_of_along (fun _ => True) (fun _ _ _ _ => trivial)
    (fun _ _ _ hordered => hordered.kept) trivial h
  delivered earlier hprefix shard hmem hcovered := by
    obtain ⟨rest, rfl⟩ := hprefix
    rw [EventRun.along_append] at h
    cases fate_of_along h.1 shard.geometry with
    | waiting hcurrent =>
        exact absurd hcovered (not_covered_of_waiting hmem hcurrent)
    | delivered hdelivers => exact Or.inl hdelivers
    | yielded hyields => exact Or.inr hyields

/-- One of the two shards of a frame. -/
def halfShard (epoch : UInt8) (frameId : UInt32) (second : Bool) : Shard where
  header :=
    { seq := 0
      sessionEpoch := epoch
      frameId := frameId
      kind := .p
      chunkIndex := if second then 1 else 0
      chunkCount := 2
      parityCount := 0
      frameLen := 2
      captureTsUs := 0 }
  payload := [7]
  wellFormed := by
    constructor
    · exact (by decide : (2 : UInt16) ≠ 0)
    · cases second
      · exact (by decide : (0 : UInt16).toNat < totalShards 2 0)
      · exact (by decide : (1 : UInt16).toNat < totalShards 2 0)

/-- A newer epoch goes on with newer ids, takes over a pending one, and an old
shard trails. -/
theorem discipline_newerIds :
    Discipline
      [halfShard 0 5 false, halfShard 0 5 true, halfShard 0 6 false,
        halfShard 1 6 false, halfShard 0 5 true, halfShard 1 6 true] :=
  discipline_of_epochOrdered _ (by decide +kernel)

/-- An old shard that comes in between the two of a new frame. -/
def lateRun : List Shard :=
  [halfShard 1 5 false, halfShard 0 5 false, halfShard 0 5 true]

/-- The sender counts anew in the second epoch. -/
def restartRun : List Shard :=
  [halfShard 0 5 false, halfShard 0 5 true, halfShard 1 3 false,
    halfShard 1 3 true]

/-- Half a frame of the first epoch is there when one of the second is
complete. -/
def remainsRun : List Shard :=
  [halfShard 0 5 false, halfShard 1 6 false, halfShard 1 6 true]

/-- The old shard starts its frame over in the place of the new one, the frames
of the new epoch are dropped as stale, and what remains of an old frame keeps
the new one from going out. -/
theorem not_discipline_late_restart :
    ¬Discipline lateRun ∧ ¬Discipline restartRun ∧
      ¬Discipline remainsRun := by
  refine ⟨?_, ?_, ?_⟩
  · intro h
    exact absurd h.kept (by decide +kernel)
  · intro h
    rcases h.delivered restartRun List.prefix_rfl (halfShard 1 3 true)
      (by simp [restartRun]) (by decide +kernel) with
      ⟨frame, sources, hsame, hout⟩ | hyields
    · have hother : ∀ entry ∈ (Recording.after restartRun).made,
          ∀ source ∈ entry.2,
            source.geometry ≠ (halfShard 1 3 true).geometry := by
        decide +kernel
      obtain ⟨source, hsource⟩ := List.exists_mem_of_ne_nil _ hsame.nonempty
      have hmade : (frame, sources) ∈ (Recording.after restartRun).made :=
        hout.elim And.left fun h => Recording.made_of_latest h.1
      exact hother _ hmade source hsource (hsame.same source hsource)
    · exact hyields (by decide +kernel)
  · intro h
    rcases h.delivered remainsRun List.prefix_rfl (halfShard 1 6 true)
      (by simp [remainsRun]) (by decide +kernel) with
      ⟨frame, sources, hsame, ⟨-, hreleased⟩ | ⟨-, place, hplace, hclear⟩⟩ |
        hyields
    · have hnone : (Recording.after remainsRun).playback.released = [] := by
        decide +kernel
      rw [hnone] at hreleased
      cases hreleased
    · have hbehind : ∀ held ∈
          (Recording.after remainsRun).playback.reassembler.held,
          ∃ entry ∈ (Recording.after
            remainsRun).playback.reassembler.pending.entries,
            older entry.1 held.frameId ∧ olderEpoch entry.2.epoch 1 := by
        decide +kernel
      obtain ⟨entry, hentry, holder, hepoch⟩ :=
        hbehind frame (List.mem_of_getElem? hplace)
      have hfront : frame ∈ (Recording.after
          remainsRun).playback.reassembler.held.take (place + 1) := by
        apply List.mem_of_getElem?
        rw [List.getElem?_take_of_lt (Nat.lt_succ_self place)]
        exact hplace
      exact hclear frame hfront entry hentry holder hepoch
    · exact hyields (by decide +kernel)

end GameStreamer
