import GameStreamer.Client.Assembly
import GameStreamer.Fec.CheckedRecovery

/-!
# Pushing under checks

`push` with the checks that a debug build makes: the indices and slices of the
shards, the `expect`s, the 16-bit counters and the sizes of what is allocated.
Each function is the one of `Reassembly` with its checks, and is shown to
compute the same where they pass.  The statistics count without bound here.
-/

namespace GameStreamer

open Tiling Fec

namespace Pending

/-- `present`. -/
def presentChecked (shards : Shards) (start len : ℕ) : Option ℕ :=
  (Checked.slice start len shards).map fun slots =>
    slots.countP Option.isSome

/-- The test of one group; its parity is looked at if data is missing. -/
def groupRecoverableChecked (shards : Shards) (g : FecGroup) :
    Option Bool := do
  let data ← presentChecked shards g.dataStart g.dataLen
  if data = g.dataLen then some true
  else do
    let parity ← presentChecked shards g.parityStart g.parityLen
    some (g.dataLen ≤ data + parity)

def recoverableChecked (pending : Pending) : Option Bool := do
  let k := pending.dataCount.toNat
  let m ← Checked.sub pending.shards.length k
  (groupLayout k m).allM (groupRecoverableChecked pending.shards)

/-- `reconstructable`; the groups are looked at if the counters allow it. -/
def reconstructableChecked (pending : Pending) : Option Bool :=
  if ¬pending.receivedData = pending.dataCount ∧
      pending.dataCount ≤ pending.receivedTotal then
    pending.recoverableChecked
  else some false

/-- The slot of a shard and the counters. -/
def storeChecked (pending : Pending) (header : VideoDatagramHeader)
    (payload : Bytes) : Option Pending := do
  let idx := header.chunkIndex.toNat
  if (← pending.shards[idx]?) = none then do
    let shards ← Checked.set pending.shards idx (some payload)
    let receivedTotal ← Checked.succ16 pending.receivedTotal
    let receivedData ←
      if header.chunkIndex < header.chunkCount then
        Checked.succ16 pending.receivedData
      else some pending.receivedData
    some
      { pending with
        shards := shards
        receivedTotal := receivedTotal
        receivedData := receivedData }
  else some pending

/-- `assemble_data`, which expects that all data shards were received. -/
def assembleDataChecked (pending : Pending) : Option Bytes := do
  let data ← Checked.slice 0 pending.dataCount.toNat pending.shards
  Checked.reserve (data.map fun shard => (shard.getD []).length).sum
  let received ← data.mapM id
  some received.flatten

/-- The inner option is the function's own answer. -/
def recoverGroupChecked (shards : Shards) (g : FecGroup) :
    Option (Option Shards) := do
  let data ← Checked.slice g.dataStart g.dataLen shards
  if data.all Option.isSome then some (some shards)
  else do
    let parity ← Checked.slice g.parityStart g.parityLen shards
    let (ok, group) ← reconstructDataChecked (data ++ parity) g.dataLen
    if ok then
      some (some (splice g.dataStart (group.take g.dataLen)
        (splice g.parityStart (List.replicate g.parityLen none) shards)))
    else some none

def recoverGroupsChecked : List FecGroup → Shards → Option (Option Shards)
  | [], shards => some (some shards)
  | g :: groups, shards => do
      match ← recoverGroupChecked shards g with
      | none => some none
      | some shards => recoverGroupsChecked groups shards

/-- `reconstruct`. -/
def reconstructChecked (pending : Pending) : Option (Option Bytes) := do
  let k := pending.dataCount.toNat
  let m ← Checked.sub pending.shards.length k
  if m = 0 then some none
  else do
    -- The index of the last data shard.
    let _ ← Checked.sub k 1
    match pending.uniformLength with
    | none => some none
    | some shardLen =>
        if shardLen = 0 then some none
        else do
          match ← recoverGroupsChecked (groupLayout k m)
            (pending.padded shardLen) with
          | none => some none
          | some shards => do
              Checked.reserve (k * shardLen)
              let slots ← Checked.slice 0 k shards
              some ((slots.mapM id).map fun data => data.flatten.take
                (min pending.frameLen.toNat data.flatten.length))

end Pending

namespace Reassembler

/-- `prune_older_than`, which subtracts the two numbers of entries. -/
def pruneOlderThanChecked (reassembler : Reassembler) (completed : UInt32) :
    Option Reassembler := do
  let pruned := reassembler.pruneOlderThan completed
  let removed ← Checked.sub reassembler.pending.entries.length
    pruned.pending.entries.length
  some { pruned with dropped := reassembler.dropped + removed }

def drainFromChecked (reassembler : Reassembler) :
    (held : List CompletedFrame) → Option (Reassembler × List CompletedFrame)
  | [] => some ({ reassembler with held := [] }, [])
  | head :: rest =>
      let blocked := ∃ id ∈ reassembler.pending.keys, older id head.frameId
      let force := head.kind = .idr ∨ holdLimit < (head :: rest).length
      if blocked ∧ ¬force then
        some ({ reassembler with held := head :: rest }, [])
      else do
        let pruned ← pruneOlderThanChecked
          { reassembler with latestDelivered := some head.frameId }
          head.frameId
        let (reassembler, out) ← pruned.drainFromChecked rest
        some (reassembler, head :: out)

def drainChecked (reassembler : Reassembler) :
    Option (Reassembler × List CompletedFrame) :=
  reassembler.drainFromChecked reassembler.held

/-- `held.insert`. -/
def holdChecked (reassembler : Reassembler) (frame : CompletedFrame) :
    Option Reassembler := do
  Checked.ensure
    ((reassembler.held.findIdx fun h => older frame.frameId h.frameId) ≤
      reassembler.held.length)
  some (reassembler.hold frame)

/-- `push`, once the shard is in its slot. -/
def finishChecked (reassembler : Reassembler) (header : VideoDatagramHeader)
    (entry : Pending) : Option (Reassembler × List CompletedFrame) := do
  let reassembler : Reassembler :=
    { reassembler with
      pending := reassembler.pending.insert header.frameId entry }
  let completeDirect := entry.receivedData = entry.dataCount
  let reconstructable ← entry.reconstructableChecked
  if ¬(completeDirect ∨ reconstructable = true) then
    if maxPending < reassembler.pending.keys.length then
      reassembler.pruneOldest.drainChecked
    else reassembler.drainChecked
  else do
    -- `expect("just inserted")`.
    let done ← reassembler.pending.lookup header.frameId
    let reassembler : Reassembler :=
      { reassembler with
        pending := reassembler.pending.erase header.frameId }
    let completed := fun data : Bytes => ({
      frameId := header.frameId
      kind := header.kind
      captureTsUs := header.captureTsUs
      data := data } : CompletedFrame)
    if completeDirect then do
      let data ← done.assembleDataChecked
      let holding ← reassembler.holdChecked (completed data)
      holding.drainChecked
    else do
      match ← done.reconstructChecked with
      | some data => do
          let holding ← holdChecked
            { reassembler with recovered := reassembler.recovered + 1 }
            (completed data)
          holding.drainChecked
      | none =>
          drainChecked { reassembler with dropped := reassembler.dropped + 1 }

/-- `push`. -/
def pushChecked (reassembler : Reassembler) (header : VideoDatagramHeader)
    (payload : Bytes) : Option (Reassembler × List CompletedFrame) :=
  if reassembler.stale header.frameId then some (reassembler, [])
  else if reassembler.held.any (·.frameId = header.frameId) then
    some (reassembler, [])
  else do
    let entry ← (reassembler.entryFor header).storeChecked header payload
    reassembler.finishChecked header entry

end Reassembler

/-! ## The shards of one assembly -/

namespace Pending

theorem presentChecked_eq {shards : Shards} {start len : ℕ}
    (h : start + len ≤ shards.length) :
    presentChecked shards start len = some (present shards start len) := by
  rw [presentChecked, Checked.slice_of_le h]
  rfl

theorem recoverableChecked_eq {pending : Pending}
    (hle : pending.dataCount.toNat ≤ pending.shards.length) :
    pending.recoverableChecked = some pending.recoverable := by
  rw [recoverableChecked, Checked.sub_of_le hle]
  simp only [Option.bind_eq_bind, Option.bind_some]
  refine Checked.allM_eq fun g hg => ?_
  have hdata := data_bounds hg
  have hparity := parity_bounds hle hg
  rw [groupRecoverableChecked, presentChecked_eq (by omega),
    presentChecked_eq hparity.2]
  simp only [Option.bind_eq_bind, Option.bind_some]
  split_ifs with hall
  · rw [decide_eq_true (Or.inl hall)]
  · simp only [hall, false_or]

/-- The counters are the only arithmetic on storing a shard, and the smaller
one never comes first. -/
theorem storeChecked_eq {pending : Pending} {header : VideoDatagramHeader}
    (payload : Bytes)
    (hindex : header.chunkIndex.toNat < pending.shards.length)
    (hdata : pending.shards.getD header.chunkIndex.toNat none = none →
      header.chunkIndex < header.chunkCount →
        pending.receivedData.toNat + 1 < 2 ^ 16) :
    pending.storeChecked header payload =
      if pending.shards.getD header.chunkIndex.toNat none = none ∧
          ¬pending.receivedTotal.toNat + 1 < 2 ^ 16 then none
      else some (pending.store header payload) := by
  have hslot : pending.shards[header.chunkIndex.toNat]? =
      some (pending.shards.getD header.chunkIndex.toNat none) := by
    rw [List.getElem?_eq_getElem hindex, List.getD_eq_getElem _ _ hindex]
  rw [storeChecked, store]
  simp only [hslot, Option.bind_eq_bind, Option.bind_some]
  by_cases hempty :
    pending.shards.getD header.chunkIndex.toNat none = none
  · rw [if_pos hempty, if_pos hempty, Checked.set_of_lt hindex,
      Option.bind_some]
    by_cases hroom : pending.receivedTotal.toNat + 1 < 2 ^ 16
    · rw [if_neg fun h => h.2 hroom, Checked.succ16_of_lt hroom,
        Option.bind_some]
      by_cases hcount : header.chunkIndex < header.chunkCount
      · rw [if_pos hcount, if_pos hcount,
          Checked.succ16_of_lt (hdata hempty hcount)]
        rfl
      · rw [if_neg hcount, if_neg hcount]
    · rw [if_pos ⟨hempty, hroom⟩, Checked.succ16, if_neg hroom,
        Option.bind_none]
  · rw [if_neg hempty, if_neg hempty, if_neg fun h => hempty h.1]

/-- Shards that a process can hold. -/
def Fits (shards : Shards) : Prop :=
  ∀ shard, some shard ∈ shards → shard.length < 2 ^ 47

theorem assembleDataChecked_eq {pending : Pending} (h : pending.Tallied)
    (hdirect : pending.receivedData = pending.dataCount)
    (hfits : Fits pending.shards) :
    pending.assembleDataChecked = some pending.assembleData := by
  have hle : 0 + pending.dataCount.toNat ≤ pending.shards.length := by
    have hdata := h.data_le
    omega
  have hslice : slice 0 pending.dataCount.toNat pending.shards =
      pending.shards.take pending.dataCount.toNat := by
    rw [slice, List.drop_zero]
  have hall : ∀ shard ∈ pending.shards.take pending.dataCount.toNat,
      id shard = some (shard.getD []) := by
    intro shard hshard
    obtain ⟨i, hi, rfl⟩ := List.mem_iff_getElem.mp hshard
    have hlength := List.length_take_le pending.dataCount.toNat pending.shards
    have hfilled := mem_filled.mp
      (h.direct_iff.mp hdirect (Finset.mem_range.mpr (hi.trans_le hlength)))
    rw [isPresent_iff] at hfilled
    have hget := List.getElem?_take_of_lt (l := pending.shards)
      (hi.trans_le hlength)
    rw [List.getElem?_eq_getElem hi, hfilled] at hget
    rw [Option.some.inj hget]
    rfl
  have hsum : ((pending.shards.take pending.dataCount.toNat).map fun shard =>
      (shard.getD []).length).sum ≤ Checked.maxCapacity := by
    have hbound := List.sum_le_card_nsmul
      ((pending.shards.take pending.dataCount.toNat).map fun shard =>
        (shard.getD []).length) (2 ^ 47) (by
          intro length hlength
          obtain ⟨shard, hshard, rfl⟩ := List.mem_map.mp hlength
          have hsome := hall shard hshard
          exact (hfits _ (hsome ▸ List.mem_of_mem_take hshard)).le)
    have hcount := List.length_take_le pending.dataCount.toNat pending.shards
    have hlt := pending.dataCount.toNat_lt
    rw [List.length_map, smul_eq_mul] at hbound
    refine hbound.trans ((Nat.mul_le_mul_right _
      (hcount.trans (Nat.le_of_lt_succ hlt))).trans ?_)
    decide
  rw [assembleDataChecked, Checked.slice_of_le hle, hslice]
  simp only [Option.bind_eq_bind, Option.bind_some, Checked.reserve,
    Checked.ensure_of hsum, Checked.mapM_eq hall]
  rfl

/-! ## Reconstruction -/

section Groups

variable {shards : Shards} {g : FecGroup}

theorem recoverGroupChecked_eq
    (hdata : g.dataStart + g.dataLen ≤ shards.length)
    (hparity : g.parityStart + g.parityLen ≤ shards.length) :
    recoverGroupChecked shards g = some (recoverGroup shards g) := by
  rw [recoverGroupChecked, recoverGroup, Checked.slice_of_le hdata,
    Checked.slice_of_le hparity]
  simp only [Option.bind_eq_bind, Option.bind_some,
    reconstructDataChecked_eq]
  split_ifs <;> rfl

theorem length_recoverGroup {out : Shards}
    (hdata : g.dataStart + g.dataLen ≤ shards.length)
    (hparity : g.parityStart + g.parityLen ≤ shards.length)
    (hout : recoverGroup shards g = some out) :
    out.length = shards.length := by
  have hinner : (splice g.parityStart
      (List.replicate g.parityLen (none : Option Bytes)) shards).length =
        shards.length := length_splice (by rwa [List.length_replicate])
  rw [recoverGroup] at hout
  dsimp only at hout
  split_ifs at hout
  · rw [← Option.some.inj hout]
  · rw [← Option.some.inj hout, length_splice, hinner]
    rw [hinner]
    exact (Nat.add_le_add_left (List.length_take_le _ _) _).trans hdata

theorem recoverGroupsChecked_eq {groups : List FecGroup} {n : ℕ}
    (hgroups : ∀ g ∈ groups, g.dataStart + g.dataLen ≤ n ∧
      g.parityStart + g.parityLen ≤ n)
    (hlength : shards.length = n) :
    recoverGroupsChecked groups shards =
      some (groups.foldlM recoverGroup shards) := by
  induction groups generalizing shards with
  | nil => rfl
  | cons g groups ih =>
      obtain ⟨hdata, hparity⟩ := hgroups g List.mem_cons_self
      rw [← hlength] at hdata hparity
      rw [recoverGroupsChecked, recoverGroupChecked_eq hdata hparity,
        List.foldlM_cons]
      simp only [Option.bind_eq_bind, Option.bind_some]
      cases hout : recoverGroup shards g with
      | none => rfl
      | some out =>
          exact ih (fun g hg => hgroups g (List.mem_cons_of_mem _ hg))
            ((length_recoverGroup hdata hparity hout).trans hlength)

theorem length_recoverGroups {groups : List FecGroup} {n : ℕ}
    (hgroups : ∀ g ∈ groups, g.dataStart + g.dataLen ≤ n ∧
      g.parityStart + g.parityLen ≤ n)
    (hlength : shards.length = n) {out : Shards}
    (hout : groups.foldlM recoverGroup shards = some out) :
    out.length = n := by
  induction groups generalizing shards with
  | nil =>
      rw [← Option.some.inj hout]
      exact hlength
  | cons g groups ih =>
      obtain ⟨hdata, hparity⟩ := hgroups g List.mem_cons_self
      rw [← hlength] at hdata hparity
      obtain ⟨next, hnext, hrest⟩ := Option.bind_eq_some_iff.mp hout
      exact ih (fun g hg => hgroups g (List.mem_cons_of_mem _ hg))
        ((length_recoverGroup hdata hparity hnext).trans hlength) hrest

end Groups

theorem length_padded (pending : Pending) (shardLen : ℕ) :
    (pending.padded shardLen).length = pending.shards.length := by
  rw [padded, List.length_map, List.length_zipIdx]

/-- The common length is that of a shard. -/
theorem uniformLength_lt {pending : Pending} (hfits : Fits pending.shards)
    {shardLen : ℕ} (h : pending.uniformLength = some shardLen) :
    shardLen < 2 ^ 47 := by
  obtain ⟨⟨slot, i⟩, hentry, hlength⟩ :=
    List.mem_filterMap.mp (List.max?_mem h)
  obtain ⟨shard, rfl, hvalue⟩ := Option.bind_eq_some_iff.mp hlength
  split_ifs at hvalue
  rw [← Option.some.inj hvalue]
  exact hfits shard (List.fst_mem_of_mem_zipIdx hentry)

theorem reconstructChecked_eq {pending : Pending} (h : pending.Tallied)
    (hfits : Fits pending.shards) :
    pending.reconstructChecked = some pending.reconstruct := by
  have hle := h.data_le
  rw [reconstructChecked, reconstruct, Checked.sub_of_le hle,
    Checked.sub_of_le h.pos]
  simp only [Option.bind_eq_bind, Option.bind_some]
  split_ifs with hparity
  · rfl
  cases hlen : pending.uniformLength with
  | none => rfl
  | some shardLen =>
      have hlt := uniformLength_lt hfits hlen
      have hwithin : ∀ g ∈ groupLayout pending.dataCount.toNat
          (pending.shards.length - pending.dataCount.toNat),
          g.dataStart + g.dataLen ≤ pending.shards.length ∧
            g.parityStart + g.parityLen ≤ pending.shards.length :=
        fun g hg => ⟨(data_bounds hg).trans hle, (parity_bounds hle hg).2⟩
      have hlength := pending.length_padded shardLen
      simp only [Option.bind_some, recoverGroupsChecked_eq hwithin hlength]
      split_ifs with hzero
      · rfl
      cases hrecovered : (groupLayout pending.dataCount.toNat
          (pending.shards.length - pending.dataCount.toNat)).foldlM
            recoverGroup (pending.padded shardLen) with
      | none => rfl
      | some shards =>
          have hslice : 0 + pending.dataCount.toNat ≤ shards.length := by
            rw [length_recoverGroups hwithin hlength hrecovered]
            omega
          have hsize : pending.dataCount.toNat * shardLen ≤
              Checked.maxCapacity := by
            have hcount := pending.dataCount.toNat_lt
            refine (Nat.mul_le_mul (Nat.le_of_lt_succ hcount) hlt.le).trans ?_
            decide
          simp only [Option.bind_some, Checked.reserve,
            Checked.ensure_of hsize, Checked.slice_of_le hslice, slice,
            List.drop_zero]

end Pending

/-! ## The push -/

namespace Reassembler

theorem pruneOlderThanChecked_eq (reassembler : Reassembler)
    (completed : UInt32) :
    reassembler.pruneOlderThanChecked completed =
      some (reassembler.pruneOlderThan completed) := by
  have hle : (reassembler.pruneOlderThan completed).pending.entries.length ≤
      reassembler.pending.entries.length := List.length_filter_le _ _
  rw [pruneOlderThanChecked, Checked.sub_of_le hle]
  rfl

theorem drainFromChecked_eq (reassembler : Reassembler)
    (held : List CompletedFrame) :
    reassembler.drainFromChecked held =
      some (reassembler.drainFrom held) := by
  induction held generalizing reassembler with
  | nil => rfl
  | cons head rest ih =>
      rw [drainFromChecked, drainFrom]
      dsimp only
      split_ifs
      · rfl
      · simp only [pruneOlderThanChecked_eq, Option.bind_eq_bind,
          Option.bind_some, ih]

theorem drainChecked_eq (reassembler : Reassembler) :
    reassembler.drainChecked = some reassembler.drain :=
  drainFromChecked_eq reassembler reassembler.held

theorem holdChecked_eq (reassembler : Reassembler) (frame : CompletedFrame) :
    reassembler.holdChecked frame = some (reassembler.hold frame) := by
  rw [holdChecked, Checked.ensure_of List.findIdx_le_length]
  rfl

/-- The shard would be one more than its assembly can count. -/
def Overruns (reassembler : Reassembler) (shard : Shard) : Prop :=
  let entry := reassembler.entryFor shard.header
  ¬reassembler.skips shard.header.frameId ∧
    entry.shards.getD shard.header.chunkIndex.toNat none = none ∧
    65535 ≤ (filled entry.shards).card

instance (reassembler : Reassembler) (shard : Shard) :
    Decidable (reassembler.Overruns shard) :=
  inferInstanceAs (Decidable (_ ∧ _))

/-- What the checks need of the assembly that a shard finds: the shard has a
slot in it, and the 16-bit counters still count its slots. -/
structure Countable (reassembler : Reassembler) (shard : Shard) : Prop where
  index : shard.header.chunkIndex.toNat <
    (reassembler.entryFor shard.header).shards.length
  data : (reassembler.entryFor shard.header).shards.getD
      shard.header.chunkIndex.toNat none = none →
    shard.header.chunkIndex < shard.header.chunkCount →
      (reassembler.entryFor shard.header).receivedData.toNat + 1 < 2 ^ 16
  total : (reassembler.entryFor shard.header).receivedTotal.toNat =
    (filled (reassembler.entryFor shard.header).shards).card
  tallied : (reassembler.assembly shard).Tallied
  fits : Pending.Fits (reassembler.assembly shard).shards

/-- Once the shard is stored, no check fails. -/
theorem finishChecked_eq {reassembler : Reassembler} {shard : Shard}
    (htallied : (reassembler.assembly shard).Tallied)
    (hfits : Pending.Fits (reassembler.assembly shard).shards) :
    reassembler.finishChecked shard.header (reassembler.assembly shard) =
      some (reassembler.settle shard).drain := by
  generalize hentry : reassembler.assembly shard = entry at htallied hfits
  have htest : entry.reconstructableChecked =
      some (decide (¬entry.receivedData = entry.dataCount ∧
        entry.dataCount ≤ entry.receivedTotal ∧ entry.recoverable)) := by
    rw [Pending.reconstructableChecked,
      Pending.recoverableChecked_eq htallied.data_le]
    split_ifs with hcount
    · simp [hcount]
    · exact congrArg some (decide_eq_false fun h => hcount ⟨h.1, h.2.1⟩).symm
  have hcomplete : (entry.receivedData = entry.dataCount ∨
      decide (¬entry.receivedData = entry.dataCount ∧
        entry.dataCount ≤ entry.receivedTotal ∧ entry.recoverable) = true) ↔
          entry.Complete := by
    rw [decide_eq_true_eq]
    rfl
  rw [finishChecked, settle]
  simp only [hentry, htest, hcomplete, Option.bind_eq_bind, Option.bind_some,
    AList.lookup_insert, drainChecked_eq, holdChecked_eq]
  by_cases hopen : ¬entry.Complete
  · rw [if_pos hopen, if_pos hopen, opened, hentry]
    split_ifs <;> rfl
  · rw [if_neg hopen, if_neg hopen, closed, opened, hentry]
    by_cases hdirect : entry.receivedData = entry.dataCount
    · rw [if_pos hdirect, if_pos hdirect, Pending.frameData, if_pos hdirect,
        Pending.assembleDataChecked_eq htallied hdirect hfits]
      rfl
    · rw [if_neg hdirect, if_neg hdirect, Pending.frameData, if_neg hdirect,
        Pending.reconstructChecked_eq htallied hfits]
      cases entry.reconstruct <;> rfl

/-- A push goes through as without the checks, or its shard overruns. -/
theorem pushChecked_eq {reassembler : Reassembler} {shard : Shard}
    (h : reassembler.Countable shard) :
    reassembler.pushChecked shard.header shard.payload =
      if reassembler.Overruns shard then none
      else some (reassembler.push shard.header shard.payload) := by
  have hstore := Pending.storeChecked_eq shard.payload h.index h.data
  rw [h.total] at hstore
  rw [push_eq, pushChecked]
  by_cases hstale : reassembler.stale shard.header.frameId
  · have hskips : reassembler.skips shard.header.frameId = true := by
      rw [skips, hstale, Bool.true_or]
    rw [if_pos hstale, if_pos hskips, if_neg fun hover => hover.1 hskips]
  by_cases hheld : reassembler.held.any (·.frameId = shard.header.frameId)
  · have hskips : reassembler.skips shard.header.frameId = true := by
      rw [skips, hheld, Bool.or_true]
    rw [if_neg hstale, if_pos hheld, if_pos hskips,
      if_neg fun hover => hover.1 hskips]
  have hskips : ¬reassembler.skips shard.header.frameId = true := by
    rw [skips, Bool.or_eq_true, not_or]
    exact ⟨hstale, hheld⟩
  rw [if_neg hstale, if_neg hheld, if_neg hskips, hstore]
  by_cases hfull : (reassembler.entryFor shard.header).shards.getD
      shard.header.chunkIndex.toNat none = none ∧
    65535 ≤ (filled (reassembler.entryFor shard.header).shards).card
  · rw [if_pos ⟨hfull.1, by omega⟩, if_pos ⟨hskips, hfull⟩]
    rfl
  · rw [if_neg fun hover => hfull ⟨hover.1, by omega⟩,
      if_neg fun hover => hfull hover.2, Option.bind_eq_bind,
      Option.bind_some]
    exact finishChecked_eq h.tallied h.fits

end Reassembler

end GameStreamer
