import GameStreamer.Fec.GroupLayout
import GameStreamer.Fec.ReedSolomon
import GameStreamer.Protocol.Chunking
import GameStreamer.Protocol.Datagram
import Mathlib.Data.List.AList
import Mathlib.Data.List.MinMax

/-!
# Datagram reassembly

Frames complete out of nothing but shard arrival; anything stale is dropped
and never waited on.  A frame completes when every group of its shards has
enough of them, and completed frames are released in id order.  The functions
follow the source, with its early returns and its two completeness tests; ids
are compared in wrap order throughout.
-/

namespace GameStreamer

open Tiling Fec

/-- A frame ready for the decoder, as the reassembler releases it. -/
structure CompletedFrame where
  frameId : UInt32
  kind : FrameKind
  captureTsUs : UInt32
  data : Bytes
  deriving DecidableEq, Repr

/-- How many newer completions a completed frame waits for. -/
def holdLimit : ℕ := 3

/-- How many frames are tracked before the oldest is pruned. -/
def maxPending : ℕ := 8

/-- A frame in assembly.  The slots hold the data shards and then the parity
shards; the two counters stand in for counting the slots. -/
structure Pending where
  /-- Data shards, then parity shards. -/
  shards : Shards
  dataCount : UInt16
  receivedData : UInt16
  receivedTotal : UInt16
  frameLen : UInt32
  epoch : UInt8
  deriving DecidableEq, Repr

namespace Pending

def new (header : VideoDatagramHeader) : Pending where
  shards :=
    List.replicate (totalShards header.chunkCount header.parityCount) none
  dataCount := header.chunkCount
  receivedData := 0
  receivedTotal := 0
  frameLen := header.frameLen
  epoch := header.sessionEpoch

/-- `Pending::matches`. -/
def Matches (pending : Pending) (header : VideoDatagramHeader) : Prop :=
  pending.epoch = header.sessionEpoch ∧
    pending.dataCount = header.chunkCount ∧
    pending.shards.length =
      totalShards header.chunkCount header.parityCount ∧
    pending.frameLen = header.frameLen

instance (pending : Pending) (header : VideoDatagramHeader) :
    Decidable (pending.Matches header) :=
  inferInstanceAs (Decidable (_ ∧ _))

/-- Present shards among `start..start + len`. -/
def present (shards : Shards) (start len : ℕ) : ℕ :=
  (slice start len shards).countP Option.isSome

/-- Every group's data is present or recoverable. -/
def recoverable (pending : Pending) : Bool :=
  let k := pending.dataCount.toNat
  let m := pending.shards.length - k
  (groupLayout k m).all fun g =>
    let data := present pending.shards g.dataStart g.dataLen
    data = g.dataLen ∨
      g.dataLen ≤ data + present pending.shards g.parityStart g.parityLen

/-- Put a payload into its empty slot and count it. -/
def store (pending : Pending) (header : VideoDatagramHeader)
    (payload : Bytes) : Pending :=
  let idx := header.chunkIndex.toNat
  if pending.shards.getD idx none = none then
    { pending with
      shards := pending.shards.set idx (some payload)
      receivedTotal := pending.receivedTotal + 1
      receivedData :=
        if header.chunkIndex < header.chunkCount then pending.receivedData + 1
        else pending.receivedData }
  else pending

/-- All data shards present: concatenate them as they are. -/
def assembleData (pending : Pending) : Bytes :=
  ((pending.shards.take pending.dataCount.toNat).map fun shard =>
    shard.getD []).flatten

/-- The common shard length: the greatest of all but the last data shard. -/
def uniformLength (pending : Pending) : Option ℕ :=
  (pending.shards.zipIdx.filterMap fun (shard, i) =>
    shard.bind fun s =>
      if i ≠ pending.dataCount.toNat - 1 then some s.length else none).max?

/-- The shards of consistent length, padded. -/
def padded (pending : Pending) (shardLen : ℕ) : Shards :=
  pending.shards.zipIdx.map fun (shard, i) =>
    shard.bind fun s =>
      if shardLen < s.length ∨
          (s.length < shardLen ∧ i ≠ pending.dataCount.toNat - 1) then none
      else some (Chunking.resize shardLen s)

/-- Recover one group's missing data; the parity slots were taken. -/
def recoverGroup (shards : Shards) (g : FecGroup) : Option Shards :=
  let data := slice g.dataStart g.dataLen shards
  if data.all Option.isSome then some shards
  else
    let parity := slice g.parityStart g.parityLen shards
    let (ok, group) := reconstructData (data ++ parity) g.dataLen
    if ok then
      some (splice g.dataStart (group.take g.dataLen)
        (splice g.parityStart (List.replicate g.parityLen none) shards))
    else none

/-- Reed-Solomon reconstruction, trimmed to the frame length. -/
def reconstruct (pending : Pending) : Option Bytes :=
  let k := pending.dataCount.toNat
  let m := pending.shards.length - k
  if m = 0 then none
  else
    pending.uniformLength.bind fun shardLen =>
      if shardLen = 0 then none
      else
        ((groupLayout k m).foldlM recoverGroup
          (pending.padded shardLen)).bind fun shards =>
            ((shards.take k).mapM id).map fun data =>
              data.flatten.take (min pending.frameLen.toNat data.flatten.length)

end Pending

/-- The reassembler: frames in assembly under their ids, and completed frames
that wait for older ones. -/
structure Reassembler where
  pending : AList fun _ : UInt32 => Pending
  /-- Completed frames not yet released, oldest first. -/
  held : List CompletedFrame
  dropped : ℕ
  recovered : ℕ
  latestDelivered : Option UInt32

/-- Wrap-aware "`a` is older than `b`". -/
def older (a b : UInt32) : Prop := 0 < b - a ∧ b - a < halfRange

instance (a b : UInt32) : Decidable (older a b) :=
  inferInstanceAs (Decidable (_ ∧ _))

namespace Reassembler

def new : Reassembler where
  pending := ∅
  held := []
  dropped := 0
  recovered := 0
  latestDelivered := none

def pruneOlderThan (reassembler : Reassembler) (completed : UInt32) :
    Reassembler :=
  let kept := reassembler.pending.entries.filter fun entry =>
    ¬older entry.1 completed
  { reassembler with
    pending := ⟨kept,
      reassembler.pending.nodupKeys.sublist List.filter_sublist⟩
    dropped := reassembler.dropped +
      (reassembler.pending.entries.length - kept.length) }

/-- Evict the pending frame farthest behind the greatest id. -/
def pruneOldest (reassembler : Reassembler) : Reassembler :=
  let keys := reassembler.pending.keys
  match keys.argmax UInt32.toNat with
  | none => reassembler
  | some newest =>
      match keys.argmax fun id => (newest - id).toNat with
      | none => reassembler
      | some oldest =>
          { reassembler with
            pending := reassembler.pending.erase oldest
            dropped := reassembler.dropped + 1 }

/-- Release the held frames in order, up to the first that an older pending
frame blocks. -/
def drainFrom (reassembler : Reassembler) :
    (held : List CompletedFrame) → Reassembler × List CompletedFrame
  | [] => ({ reassembler with held := [] }, [])
  | head :: rest =>
      let blocked := ∃ id ∈ reassembler.pending.keys, older id head.frameId
      let force := head.kind = .idr ∨ holdLimit < (head :: rest).length
      if blocked ∧ ¬force then
        ({ reassembler with held := head :: rest }, [])
      else
        let (reassembler, out) := drainFrom
          (pruneOlderThan
            { reassembler with latestDelivered := some head.frameId }
            head.frameId)
          rest
        (reassembler, head :: out)

/-- Release from the head of the queue what does not have to wait, and give up
the assemblies that are older than a released frame. -/
def drain (reassembler : Reassembler) : Reassembler × List CompletedFrame :=
  reassembler.drainFrom reassembler.held

/-- At or behind the last delivered frame. -/
def stale (reassembler : Reassembler) (frameId : UInt32) : Bool :=
  match reassembler.latestDelivered with
  | none => false
  | some latest => latest - frameId < halfRange

/-- The pending frame of a shard, opened or restarted where it must be. -/
def entryFor (reassembler : Reassembler) (header : VideoDatagramHeader) :
    Pending :=
  let entry := (reassembler.pending.lookup header.frameId).getD (.new header)
  if entry.Matches header then entry else .new header

/-- A completed frame goes into `held` at its place. -/
def hold (reassembler : Reassembler) (frame : CompletedFrame) : Reassembler :=
  let place := reassembler.held.findIdx fun h => older frame.frameId h.frameId
  { reassembler with held := reassembler.held.insertIdx place frame }

/-- Insert one shard; returns the frames that go out.  The shard is dropped
when its frame is stale or already complete, and a mismatching assembly is
started over. -/
def push (reassembler : Reassembler) (header : VideoDatagramHeader)
    (payload : Bytes) : Reassembler × List CompletedFrame :=
  if reassembler.stale header.frameId then (reassembler, [])
  else if reassembler.held.any (·.frameId = header.frameId) then
    (reassembler, [])
  else
    let entry := (reassembler.entryFor header).store header payload
    let reassembler : Reassembler :=
      { reassembler with
        pending := reassembler.pending.insert header.frameId entry }
    let completeDirect := entry.receivedData = entry.dataCount
    let reconstructable := ¬completeDirect ∧
      entry.dataCount ≤ entry.receivedTotal ∧ entry.recoverable
    if ¬(completeDirect ∨ reconstructable) then
      if maxPending < reassembler.pending.keys.length then
        reassembler.pruneOldest.drain
      else reassembler.drain
    else
      let reassembler : Reassembler :=
        { reassembler with
          pending := reassembler.pending.erase header.frameId }
      let completed := fun data : Bytes => ({
        frameId := header.frameId
        kind := header.kind
        captureTsUs := header.captureTsUs
        data := data } : CompletedFrame)
      if completeDirect then
        (reassembler.hold (completed entry.assembleData)).drain
      else
        match entry.reconstruct with
        | some data =>
            (hold { reassembler with recovered := reassembler.recovered + 1 }
              (completed data)).drain
        | none =>
            drain { reassembler with dropped := reassembler.dropped + 1 }

/-- The receive task on a video datagram: a bad one is dropped, and a good one
is pushed under the header that it carries. -/
def receive (reassembler : Reassembler) (datagram : Bytes) :
    Reassembler × List CompletedFrame :=
  match VideoDatagramHeader.parse datagram with
  | .ok (header, payload) => reassembler.push header payload
  | .error _ => (reassembler, [])

/-- What each of the datagrams releases. -/
def receiveAll (reassembler : Reassembler) :
    List Bytes → List (List CompletedFrame)
  | [] => []
  | datagram :: datagrams =>
      let (reassembler, out) := reassembler.receive datagram
      out :: reassembler.receiveAll datagrams

end Reassembler

end GameStreamer
