import GameStreamer.Core.Consecutive
import GameStreamer.Core.EventRun
import GameStreamer.Session.DelayTime
import Mathlib.Algebra.Order.Group.Unbundled.Basic

/-!
# Inter-arrival groups

The delay detector does not look at single packets.  It gathers packets that
were sent close together, or that arrived in one burst, into groups and
measures how the spacing of the groups changed on the way.  The accumulator
keeps only the latest times of two groups.  Here it is compared with a
partition of the packets that keeps every group whole, and what is known of
that partition is carried over to the deltas that the code reports.

Instants and durations are nanoseconds.
-/

namespace GameStreamer

/-- A packet that the receiver acknowledged. -/
structure AckedPacket where
  seqNo : ℕ
  size : ℕ
  localSendTime : ℕ
  /-- Comparable only with other receive times of the same session. -/
  remoteRecvTime : ℕ
  localRecvTime : ℕ
  deriving DecidableEq, Repr

/-- A burst of packets: the first one, the latest send and receive times, and
how many there are. -/
structure ArrivalGroup where
  first : Option (ℕ × ℕ × ℕ)
  lastSeqNo : Option ℕ
  lastLocalSendTime : Option ℕ
  lastRemoteRecvTime : Option ℕ
  size : ℕ
  deriving DecidableEq, Repr

inductive Belongs where
  | yes
  | newGroup
  | skipped
  deriving DecidableEq, Repr

structure InterGroupDelayDelta where
  sendDelta : TimeDelta
  arrivalDelta : TimeDelta
  lastRemoteRecvTime : ℕ
  deriving DecidableEq, Repr

/-- The part of a delta that the trend is fitted to. -/
def InterGroupDelayDelta.delayChange (delta : InterGroupDelayDelta) : ℤ :=
  delta.arrivalDelta.toInt - delta.sendDelta.toInt

/-- The group that is being gathered and the one before it.  When a packet
starts a third, the spacing of the two is reported. -/
structure ArrivalGroupAccumulator where
  previousGroup : Option ArrivalGroup
  currentGroup : ArrivalGroup
  deriving DecidableEq, Repr

def burstTimeInterval : ℕ := 5000000
def sendTimeGroupLength : ℕ := 5000000
def maxBurstDuration : ℕ := 100000000

namespace ArrivalGroup

def default : ArrivalGroup where
  first := none
  lastSeqNo := none
  lastLocalSendTime := none
  lastRemoteRecvTime := none
  size := 0

/-- The source panics on an empty group; that is the outer nothing here and
in the functions below. -/
def localSendTime (group : ArrivalGroup) : Option ℕ := group.lastLocalSendTime

def remoteRecvTime (group : ArrivalGroup) : Option ℕ :=
  group.lastRemoteRecvTime

def belongsToGroup (group : ArrivalGroup) (packet : AckedPacket) :
    Option Belongs :=
  match group.first with
  | none => some .yes
  | some (_, firstLocalSendTime, firstRemoteRecvTime) =>
      if packet.localSendTime < firstLocalSendTime then some .skipped
      else do
        let firstSendDelta := packet.localSendTime - firstLocalSendTime
        let sendTime ← group.localSendTime
        let sendTimeDelta :=
          (Timestamp.exact packet.localSendTime).sub (.exact sendTime)
        if sendTimeDelta = TimeDelta.zero then some .yes
        else do
          let recvTime ← group.remoteRecvTime
          let arrivalTimeDelta :=
            (Timestamp.exact packet.remoteRecvTime).sub (.exact recvTime)
          let propagationDelta := arrivalTimeDelta.sub sendTimeDelta
          -- the difference of two instants saturates at zero
          if propagationDelta.cmp TimeDelta.zero = .lt ∧
              arrivalTimeDelta.cmp (.ofDuration burstTimeInterval) ≠ .gt ∧
              packet.remoteRecvTime - firstRemoteRecvTime
                < maxBurstDuration then some .yes
          else if sendTimeGroupLength < firstSendDelta then some .newGroup
          else some .yes

/-- The packet becomes a member. -/
def insert (group : ArrivalGroup) (packet : AckedPacket) :
    ArrivalGroup where
  first := group.first.orElse fun _ =>
    some (packet.seqNo, packet.localSendTime, packet.remoteRecvTime)
  lastRemoteRecvTime :=
    max group.lastRemoteRecvTime (some packet.remoteRecvTime)
  lastLocalSendTime := max group.lastLocalSendTime (some packet.localSendTime)
  size := group.size + 1
  lastSeqNo := max group.lastSeqNo (some packet.seqNo)

/-- Maybe add a packet to the group, and say whether a new group needs to be
created. -/
def addPacket (group : ArrivalGroup) (packet : AckedPacket) :
    Option (Bool × ArrivalGroup) := do
  match ← group.belongsToGroup packet with
  | .newGroup => some (true, group)
  | .skipped => some (false, group)
  | .yes => some (false, group.insert packet)

def departureDelta (group other : ArrivalGroup) : Option TimeDelta := do
  let theirs ← other.localSendTime
  let ours ← group.localSendTime
  some ((Timestamp.exact theirs).sub (.exact ours))

def arrivalDelta (group other : ArrivalGroup) : Option TimeDelta := do
  let theirs ← other.remoteRecvTime
  let ours ← group.remoteRecvTime
  some ((Timestamp.exact theirs).sub (.exact ours))

end ArrivalGroup

namespace ArrivalGroupAccumulator

def default : ArrivalGroupAccumulator where
  previousGroup := none
  currentGroup := .default

/-- Accumulate a packet; the inner option is the delay delta that it
completes. -/
def accumulatePacket (accumulator : ArrivalGroupAccumulator)
    (packet : AckedPacket) :
    Option (Option InterGroupDelayDelta × ArrivalGroupAccumulator) := do
  let (needNewGroup, currentGroup) ←
    accumulator.currentGroup.addPacket packet
  if needNewGroup then do
    let previousGroup := accumulator.previousGroup
    let arrivalDelta ← previousGroup.mapM (·.arrivalDelta currentGroup)
    let sendDelta ← previousGroup.mapM (·.departureDelta currentGroup)
    let lastRemoteRecvTime ← currentGroup.remoteRecvTime
    let (_, nextGroup) ← ArrivalGroup.default.addPacket packet
    some (do
      let sendDelta ← sendDelta
      let arrivalDelta ← arrivalDelta
      some {
        sendDelta := sendDelta
        arrivalDelta := arrivalDelta
        lastRemoteRecvTime := lastRemoteRecvTime },
      { previousGroup := some currentGroup, currentGroup := nextGroup })
  else some (none, { accumulator with currentGroup := currentGroup })

/-- The deltas that a sequence of packets completes, over any number of
feedback reports. -/
def accumulateAll :
    ArrivalGroupAccumulator → List AckedPacket →
      Option (List InterGroupDelayDelta × ArrivalGroupAccumulator)
  | accumulator, [] => some ([], accumulator)
  | accumulator, packet :: packets => do
      let (delta, accumulator) ← accumulator.accumulatePacket packet
      let (deltas, accumulator) ← accumulateAll accumulator packets
      some (delta.toList ++ deltas, accumulator)

end ArrivalGroupAccumulator

/-- A group with all its packets, in the order in which they joined. -/
structure PacketGroup where
  first : AckedPacket
  others : List AckedPacket
  deriving DecidableEq, Repr

namespace PacketGroup

def single (packet : AckedPacket) : PacketGroup where
  first := packet
  others := []

def insert (group : PacketGroup) (packet : AckedPacket) : PacketGroup :=
  { group with others := group.others ++ [packet] }

def members (group : PacketGroup) : List AckedPacket :=
  group.first :: group.others

/-- The greatest value of a field among the members. -/
def latest (group : PacketGroup) (field : AckedPacket → ℕ) : ℕ :=
  group.others.foldl (fun value packet => max value (field packet))
    (field group.first)

def sendTime (group : PacketGroup) : ℕ := group.latest (·.localSendTime)

def recvTime (group : PacketGroup) : ℕ := group.latest (·.remoteRecvTime)

/-- What becomes of a packet that meets this group, in plain integers. -/
def place (group : PacketGroup) (packet : AckedPacket) : Belongs :=
  let departure : ℤ := (packet.localSendTime : ℤ) - group.sendTime
  let arrival : ℤ := (packet.remoteRecvTime : ℤ) - group.recvTime
  if packet.localSendTime < group.first.localSendTime then .skipped
  else if departure = 0 then .yes
  else if arrival < departure ∧ arrival ≤ burstTimeInterval ∧
      packet.remoteRecvTime
        < group.first.remoteRecvTime + maxBurstDuration then .yes
  else if group.first.localSendTime + sendTimeGroupLength
      < packet.localSendTime then .newGroup
  else .yes

/-- What the accumulator keeps of a group. -/
def summary (group : PacketGroup) : ArrivalGroup where
  first := some (group.first.seqNo, group.first.localSendTime,
    group.first.remoteRecvTime)
  lastSeqNo := some (group.latest (·.seqNo))
  lastLocalSendTime := some group.sendTime
  lastRemoteRecvTime := some group.recvTime
  size := group.members.length

/-- The change of spacing from one group to the next. -/
def between (previous group : PacketGroup) : InterGroupDelayDelta where
  sendDelta := TimeDelta.difference group.sendTime previous.sendTime
  arrivalDelta := TimeDelta.difference group.recvTime previous.recvTime
  lastRemoteRecvTime := group.recvTime

/-- The one-way delay of a group, up to the offset of the two clocks. -/
def oneWayDelay (group : PacketGroup) : ℤ :=
  (group.recvTime : ℤ) - group.sendTime

theorem delayChange_between (previous group : PacketGroup) :
    (previous.between group).delayChange =
      group.oneWayDelay - previous.oneWayDelay := by
  simp only [InterGroupDelayDelta.delayChange, between,
    TimeDelta.toInt_difference, oneWayDelay]
  omega

@[simp]
theorem latest_single (packet : AckedPacket) (field : AckedPacket → ℕ) :
    (single packet).latest field = field packet := rfl

@[simp]
theorem latest_insert (group : PacketGroup) (packet : AckedPacket)
    (field : AckedPacket → ℕ) :
    (group.insert packet).latest field =
      max (group.latest field) (field packet) := by
  simp only [latest, insert, List.foldl_append, List.foldl_cons,
    List.foldl_nil]

@[simp]
theorem members_insert (group : PacketGroup) (packet : AckedPacket) :
    (group.insert packet).members = group.members ++ [packet] := rfl

theorem summary_insert (group : PacketGroup) (packet : AckedPacket) :
    group.summary.insert packet = (group.insert packet).summary := by
  simp only [summary, ArrivalGroup.insert, sendTime, recvTime, latest_insert,
    members_insert, List.length_append, List.length_singleton]
  rfl

theorem default_addPacket (packet : AckedPacket) :
    ArrivalGroup.default.addPacket packet =
      some (false, (single packet).summary) := rfl

/-- The accumulator judges a packet as plain integer arithmetic on the whole
group does, and never meets an empty group. -/
theorem belongsToGroup_summary (group : PacketGroup) (packet : AckedPacket) :
    group.summary.belongsToGroup packet = some (group.place packet) := by
  have hsend := TimeDelta.difference_finite packet.localSendTime
    group.sendTime
  have hrecv := TimeDelta.difference_finite packet.remoteRecvTime
    group.recvTime
  have hsendNormal := TimeDelta.difference_normal packet.localSendTime
    group.sendTime
  have hrecvNormal := TimeDelta.difference_normal packet.remoteRecvTime
    group.recvTime
  have hzero := TimeDelta.eq_zero_iff hsend hsendNormal
  have hlt := TimeDelta.cmp_eq_lt_iff_toInt _ TimeDelta.zero
    (TimeDelta.sub_finite hrecv hsend) trivial
    (TimeDelta.sub_normal hrecvNormal hsendNormal)
  have hle := TimeDelta.cmp_ne_gt_iff_toInt _
    (.ofDuration burstTimeInterval) hrecv trivial trivial
  rw [TimeDelta.toInt_sub hrecv hsend, TimeDelta.toInt_difference,
    TimeDelta.toInt_difference, TimeDelta.toInt_zero, sub_lt_zero] at hlt
  rw [TimeDelta.toInt_difference] at hzero hle
  have hlimit : packet.remoteRecvTime - group.first.remoteRecvTime
        < maxBurstDuration ↔
      packet.remoteRecvTime
        < group.first.remoteRecvTime + maxBurstDuration :=
    by simp only [maxBurstDuration]; omega
  simp only [ArrivalGroup.belongsToGroup, summary, ArrivalGroup.localSendTime,
    ArrivalGroup.remoteRecvTime, Timestamp.sub, Option.bind_eq_bind,
    Option.bind_some, hzero, hlt, hle, hlimit, TimeDelta.toInt_ofDuration,
    Nat.lt_sub_iff_add_lt', place, apply_ite some]

theorem addPacket_summary (group : PacketGroup) (packet : AckedPacket) :
    group.summary.addPacket packet =
      match group.place packet with
      | .newGroup => some (true, group.summary)
      | .skipped => some (false, group.summary)
      | .yes => some (false, (group.insert packet).summary) := by
  rw [ArrivalGroup.addPacket, belongsToGroup_summary, ← summary_insert]
  rfl

/-- What the verdict says about the times of the packet. -/
theorem place_spec (group : PacketGroup) (packet : AckedPacket) :
    match group.place packet with
    | .skipped => packet.localSendTime < group.first.localSendTime
    | .newGroup =>
        group.first.localSendTime + sendTimeGroupLength
            < packet.localSendTime ∧
          packet.localSendTime ≠ group.sendTime
    | .yes =>
        group.first.localSendTime ≤ packet.localSendTime ∧
          (packet.localSendTime = group.sendTime ∨
            packet.localSendTime
              ≤ group.first.localSendTime + sendTimeGroupLength ∨
            packet.remoteRecvTime
              < group.first.remoteRecvTime + maxBurstDuration) := by
  rw [place]
  split_ifs with hskip hsame hburst hnew
  · exact hskip
  · exact ⟨Nat.le_of_not_lt hskip, Or.inl (by omega)⟩
  · exact ⟨Nat.le_of_not_lt hskip, Or.inr (Or.inr hburst.2.2)⟩
  · exact ⟨hnew, by omega⟩
  · exact ⟨Nat.le_of_not_lt hskip, Or.inr (Or.inl (Nat.le_of_not_lt hnew))⟩

/-- A fold over a maximum is attained. -/
theorem foldl_max_mem (field : AckedPacket → ℕ) (packets : List AckedPacket)
    (start : AckedPacket) :
    ∃ packet ∈ start :: packets, field packet =
      packets.foldl (fun value packet => max value (field packet))
        (field start) := by
  induction packets using List.reverseRecOn with
  | nil => exact ⟨start, List.mem_cons_self, rfl⟩
  | append_singleton packets last ih =>
      rw [List.foldl_append, List.foldl_cons, List.foldl_nil]
      obtain ⟨packet, hmem, hfield⟩ := ih
      rcases le_total (field packet) (field last) with hle | hle
      · exact ⟨last, by simp, by rw [← hfield, max_eq_right hle]⟩
      · refine ⟨packet, ?_, by rw [← hfield, max_eq_left hle]⟩
        exact List.mem_append_left [last] hmem

theorem exists_latest (group : PacketGroup) (field : AckedPacket → ℕ) :
    ∃ packet ∈ group.members, field packet = group.latest field :=
  foldl_max_mem field group.others group.first

theorem first_le_latest (group : PacketGroup) (field : AckedPacket → ℕ) :
    field group.first ≤ group.latest field := by
  rw [latest]
  induction group.others using List.reverseRecOn with
  | nil => exact le_rfl
  | append_singleton packets last ih =>
      rw [List.foldl_append, List.foldl_cons, List.foldl_nil]
      exact le_max_of_le_left ih

/-- No member was sent before the first one, and a member that was sent more
than the group length after it shares its send time with one that arrived in
the same burst as the first. -/
def Shaped (group : PacketGroup) : Prop :=
  ∀ packet ∈ group.members,
    group.first.localSendTime ≤ packet.localSendTime ∧
      (packet.localSendTime
          ≤ group.first.localSendTime + sendTimeGroupLength ∨
        ∃ other ∈ group.members,
          other.localSendTime = packet.localSendTime ∧
            other.remoteRecvTime
              < group.first.remoteRecvTime + maxBurstDuration)

theorem shaped_single (packet : AckedPacket) : (single packet).Shaped := by
  intro other hother
  rw [List.mem_singleton.mp hother]
  exact ⟨le_rfl, Or.inl (Nat.le_add_right _ _)⟩

theorem Shaped.insert {group : PacketGroup} {packet : AckedPacket}
    (hshaped : group.Shaped) (hplace : group.place packet = .yes) :
    (group.insert packet).Shaped := by
  have hspec := group.place_spec packet
  rw [hplace] at hspec
  obtain ⟨hfirst, hcase⟩ := hspec
  -- whoever witnesses a member's send time still does
  have hold : ∀ member ∈ group.members,
      member.localSendTime
          ≤ group.first.localSendTime + sendTimeGroupLength ∨
        ∃ other ∈ (group.insert packet).members,
          other.localSendTime = member.localSendTime ∧
            other.remoteRecvTime
              < group.first.remoteRecvTime + maxBurstDuration := by
    intro member hmember
    refine (hshaped member hmember).2.imp id ?_
    rintro ⟨other, hother, htimes⟩
    exact ⟨other, List.mem_append_left _ hother, htimes⟩
  intro member hmember
  rw [members_insert, List.mem_append] at hmember
  rcases hmember with hmember | hmember
  · exact ⟨(hshaped member hmember).1, hold member hmember⟩
  · rw [List.mem_singleton.mp hmember]
    refine ⟨hfirst, ?_⟩
    rcases hcase with hsame | hshort | hburst
    · obtain ⟨latest, hlatest, htime⟩ :=
        group.exists_latest (·.localSendTime)
      have heq : packet.localSendTime = latest.localSendTime :=
        hsame.trans htime.symm
      rw [heq]
      exact hold latest hlatest
    · exact Or.inl hshort
    · exact Or.inr ⟨packet, by simp, rfl, hburst⟩

end PacketGroup

/-- The packets of a run: those of the complete groups, those of the group
that is being gathered, and those that were left out. -/
structure PacketPartition where
  completed : List PacketGroup
  current : Option PacketGroup
  skipped : List AckedPacket
  deriving DecidableEq, Repr

namespace PacketPartition

def empty : PacketPartition where
  completed := []
  current := none
  skipped := []

def place (partition : PacketPartition) (packet : AckedPacket) :
    PacketPartition :=
  match partition.current with
  | none => { partition with current := some (.single packet) }
  | some group =>
      match group.place packet with
      | .yes => { partition with current := some (group.insert packet) }
      | .skipped =>
          { partition with skipped := partition.skipped ++ [packet] }
      | .newGroup =>
          { partition with
            completed := partition.completed ++ [group]
            current := some (.single packet) }

def ofPackets (packets : List AckedPacket) : PacketPartition :=
  packets.foldl place empty

/-- The deltas between complete groups. -/
def deltas (partition : PacketPartition) : List InterGroupDelayDelta :=
  Consecutive.neighbours PacketGroup.between partition.completed

/-- What the accumulator keeps of a partition. -/
def summary (partition : PacketPartition) : ArrivalGroupAccumulator where
  previousGroup := partition.completed.getLast?.map PacketGroup.summary
  currentGroup := (partition.current.map PacketGroup.summary).getD .default

theorem summary_empty : empty.summary = .default := rfl

theorem deltas_concat (partition : PacketPartition) (group : PacketGroup)
    (current : Option PacketGroup) :
    deltas { partition with
        completed := partition.completed ++ [group]
        current := current } =
      partition.deltas ++ (partition.completed.getLast?.map fun previous =>
        previous.between group).toList :=
  Consecutive.neighbours_concat _ _ _

/-- One packet: the accumulator goes from summary to summary and reports the
delta that the partition gains. -/
theorem accumulatePacket_summary (partition : PacketPartition)
    (packet : AckedPacket) :
    ∃ delta, partition.summary.accumulatePacket packet =
        some (delta, (partition.place packet).summary) ∧
      (partition.place packet).deltas = partition.deltas ++ delta.toList := by
  rcases partition with ⟨completed, current, skipped⟩
  cases current with
  | none => exact ⟨none, rfl, (List.append_nil _).symm⟩
  | some group =>
      have hadd := group.addPacket_summary packet
      cases hplace : group.place packet with
      | yes =>
          rw [hplace] at hadd
          refine ⟨none, ?_, ?_⟩
          · simp [ArrivalGroupAccumulator.accumulatePacket, summary, place,
              hadd, hplace]
          · simp [place, hplace, deltas]
      | skipped =>
          rw [hplace] at hadd
          refine ⟨none, ?_, ?_⟩
          · simp [ArrivalGroupAccumulator.accumulatePacket, summary, place,
              hadd, hplace]
          · simp [place, hplace, deltas]
      | newGroup =>
          rw [hplace] at hadd
          refine ⟨completed.getLast?.map fun previous =>
            previous.between group, ?_, ?_⟩
          · simp only [ArrivalGroupAccumulator.accumulatePacket, summary,
              place, hadd, hplace, Option.map_some, Option.getD_some,
              Option.bind_eq_bind, Option.bind_some,
              PacketGroup.default_addPacket, List.getLast?_concat]
            cases completed.getLast? <;> rfl
          · simp only [place, hplace]
            exact deltas_concat ⟨completed, some group, skipped⟩ group _

/-- A whole run. -/
theorem accumulateAll_summary (partition : PacketPartition)
    (packets : List AckedPacket) :
    ∃ deltas, partition.summary.accumulateAll packets =
        some (deltas, (packets.foldl place partition).summary) ∧
      (packets.foldl place partition).deltas = partition.deltas ++ deltas := by
  induction packets generalizing partition with
  | nil => exact ⟨[], rfl, (List.append_nil _).symm⟩
  | cons packet packets ih =>
      obtain ⟨delta, hstep, hdelta⟩ :=
        partition.accumulatePacket_summary packet
      obtain ⟨rest, hrun, hrest⟩ := ih (partition.place packet)
      refine ⟨delta.toList ++ rest, ?_, ?_⟩
      · simp only [ArrivalGroupAccumulator.accumulateAll, hstep,
          Option.bind_eq_bind, Option.bind_some, hrun, List.foldl_cons]
      · rw [List.foldl_cons, hrest, hdelta, List.append_assoc]

/-- The accumulator never panics, and reports the deltas between the complete
groups of the partition of its packets. -/
theorem accumulateAll_eq (packets : List AckedPacket) :
    ArrivalGroupAccumulator.default.accumulateAll packets =
      some ((ofPackets packets).deltas, (ofPackets packets).summary) := by
  obtain ⟨deltas, hrun, hdeltas⟩ := empty.accumulateAll_summary packets
  rw [← summary_empty, hrun, ofPackets, hdeltas]
  rfl

def groups (partition : PacketPartition) : List PacketGroup :=
  partition.completed ++ partition.current.toList

/-- The groups and the packets left out are all that came in; each group has
its shape; the groups start more than the group length apart; and a packet is
left out only because it was sent before some group's first. -/
structure Sound (partition : PacketPartition)
    (packets : List AckedPacket) : Prop where
  started : partition.current = none → partition.completed = []
  everyPacket : packets.Perm
    (partition.groups.flatMap PacketGroup.members ++ partition.skipped)
  spaced : (partition.groups.map (·.first)).IsChain fun previous first =>
    previous.localSendTime + sendTimeGroupLength < first.localSendTime
  shaped : ∀ group ∈ partition.groups, group.Shaped
  late : ∀ packet ∈ partition.skipped, ∃ group ∈ partition.groups,
    packet.localSendTime < group.first.localSendTime

theorem sound_empty : empty.Sound [] where
  started := fun _ => rfl
  everyPacket := List.Perm.refl _
  spaced := List.isChain_nil
  shaped := fun _ hmem => absurd hmem List.not_mem_nil
  late := fun _ hmem => absurd hmem List.not_mem_nil

theorem sound_single (packet : AckedPacket) :
    Sound ⟨[], some (.single packet), []⟩ [packet] where
  started := fun _ => rfl
  everyPacket := List.Perm.refl _
  spaced := List.isChain_singleton _
  shaped := by
    intro group hgroup
    rw [List.mem_singleton.mp hgroup]
    exact PacketGroup.shaped_single packet
  late := fun _ hmem => absurd hmem List.not_mem_nil

/-- The packet joins the current group, which keeps its first packet. -/
theorem Sound.join {completed : List PacketGroup} {group : PacketGroup}
    {skipped packets : List AckedPacket} {packet : AckedPacket}
    (hsound : Sound ⟨completed, some group, skipped⟩ packets)
    (hplace : group.place packet = .yes) :
    Sound ⟨completed, some (group.insert packet), skipped⟩
      (packets ++ [packet]) where
  started := fun hnone => absurd hnone (Option.some_ne_none _)
  everyPacket := by
    have hperm := hsound.everyPacket
    rw [List.perm_iff_count] at hperm ⊢
    intro other
    have hcount := hperm other
    simp only [groups, Option.toList_some, List.flatMap_append,
      List.flatMap_singleton, PacketGroup.members_insert,
      List.count_append] at hcount ⊢
    omega
  spaced := by
    have hspaced := hsound.spaced
    simp only [groups, Option.toList_some, List.map_append, List.map_cons,
      List.map_nil] at hspaced ⊢
    exact hspaced
  shaped := by
    intro other hother
    rcases List.mem_append.mp hother with hcompleted | hcurrent
    · exact hsound.shaped other (List.mem_append_left _ hcompleted)
    · rw [List.mem_singleton.mp hcurrent]
      have hgroup := hsound.shaped group (by simp [groups])
      exact hgroup.insert hplace
  late := by
    intro other hother
    obtain ⟨early, hearly, htime⟩ := hsound.late other hother
    rcases List.mem_append.mp hearly with hcompleted | hcurrent
    · exact ⟨early, List.mem_append_left _ hcompleted, htime⟩
    · rw [List.mem_singleton.mp hcurrent] at htime
      exact ⟨group.insert packet, by simp [groups], htime⟩

/-- The packet is left out. -/
theorem Sound.skip {completed : List PacketGroup} {group : PacketGroup}
    {skipped packets : List AckedPacket} {packet : AckedPacket}
    (hsound : Sound ⟨completed, some group, skipped⟩ packets)
    (hplace : packet.localSendTime < group.first.localSendTime) :
    Sound ⟨completed, some group, skipped ++ [packet]⟩
      (packets ++ [packet]) where
  started := hsound.started
  everyPacket := by
    have hperm := hsound.everyPacket.append_right [packet]
    rw [List.append_assoc] at hperm
    exact hperm
  spaced := hsound.spaced
  shaped := hsound.shaped
  late := by
    intro other hother
    rcases List.mem_append.mp hother with hold | hnew
    · exact hsound.late other hold
    · rw [List.mem_singleton.mp hnew]
      exact ⟨group, by simp [groups], hplace⟩

/-- The packet starts a group of its own. -/
theorem Sound.start {completed : List PacketGroup} {group : PacketGroup}
    {skipped packets : List AckedPacket} {packet : AckedPacket}
    (hsound : Sound ⟨completed, some group, skipped⟩ packets)
    (hplace : group.first.localSendTime + sendTimeGroupLength
      < packet.localSendTime) :
    Sound ⟨completed ++ [group], some (.single packet), skipped⟩
      (packets ++ [packet]) where
  started := fun hnone => absurd hnone (Option.some_ne_none _)
  everyPacket := by
    have hperm := hsound.everyPacket
    rw [List.perm_iff_count] at hperm ⊢
    intro other
    have hcount := hperm other
    simp only [groups, Option.toList_some, List.flatMap_append,
      List.flatMap_singleton, List.count_append] at hcount ⊢
    simp only [PacketGroup.single, PacketGroup.members] at hcount ⊢
    omega
  spaced := by
    have hspaced := hsound.spaced
    simp only [groups, Option.toList_some, List.map_append, List.map_cons,
      List.map_nil] at hspaced ⊢
    rw [List.isChain_append]
    refine ⟨hspaced, List.isChain_singleton _, ?_⟩
    intro previous hprevious next hnext
    rw [List.getLast?_concat, Option.mem_some] at hprevious
    rw [List.head?_cons, Option.mem_some] at hnext
    subst hprevious hnext
    exact hplace
  shaped := by
    intro other hother
    rcases List.mem_append.mp hother with hcompleted | hcurrent
    · exact hsound.shaped other hcompleted
    · rw [List.mem_singleton.mp hcurrent]
      exact PacketGroup.shaped_single packet
  late := by
    intro other hother
    obtain ⟨early, hearly, htime⟩ := hsound.late other hother
    exact ⟨early, List.mem_append_left _ hearly, htime⟩

theorem Sound.place {partition : PacketPartition}
    {packets : List AckedPacket} (hsound : partition.Sound packets)
    (packet : AckedPacket) :
    (partition.place packet).Sound (packets ++ [packet]) := by
  rcases partition with ⟨completed, current, skipped⟩
  cases current with
  | none =>
      have hcompleted : completed = [] := hsound.started rfl
      subst hcompleted
      have hskipped : skipped = [] := by
        apply List.eq_nil_iff_forall_not_mem.mpr
        intro other hother
        obtain ⟨group, hgroup, _⟩ := hsound.late other hother
        exact absurd hgroup List.not_mem_nil
      subst hskipped
      have hpackets : packets = [] := hsound.everyPacket.eq_nil
      subst hpackets
      exact sound_single packet
  | some group =>
      have hspec := group.place_spec packet
      cases hplace : group.place packet with
      | yes =>
          simp only [PacketPartition.place, hplace]
          exact hsound.join hplace
      | skipped =>
          rw [hplace] at hspec
          simp only [PacketPartition.place, hplace]
          exact hsound.skip hspec
      | newGroup =>
          rw [hplace] at hspec
          simp only [PacketPartition.place, hplace]
          exact hsound.start hspec.1

/-- Every run sorts its packets so. -/
theorem sound_ofPackets (packets : List AckedPacket) :
    (ofPackets packets).Sound packets := by
  induction packets using List.reverseRecOn with
  | nil => exact sound_empty
  | append_singleton packets last ih =>
      rw [ofPackets, List.foldl_append, List.foldl_cons, List.foldl_nil]
      exact ih.place last

/-- Whatever packets are acknowledged, in whatever order, the accumulator never
meets an empty group, and what it reports is the change of spacing between the
complete groups of a partition of these packets. -/
theorem accumulateAll_partition (packets : List AckedPacket) :
    ∃ partition : PacketPartition, partition.Sound packets ∧
      ArrivalGroupAccumulator.default.accumulateAll packets =
        some (Consecutive.neighbours PacketGroup.between partition.completed,
          partition.summary) :=
  ⟨ofPackets packets, sound_ofPackets packets, accumulateAll_eq packets⟩

theorem Sound.member_mem {partition : PacketPartition}
    {packets : List AckedPacket} (hsound : partition.Sound packets)
    {group : PacketGroup} (hgroup : group ∈ partition.groups)
    {packet : AckedPacket} (hpacket : packet ∈ group.members) :
    packet ∈ packets := by
  apply hsound.everyPacket.symm.subset
  apply List.mem_append_left
  exact List.mem_flatMap_of_mem hgroup hpacket

theorem Sound.first_mem {partition : PacketPartition}
    {packets : List AckedPacket} (hsound : partition.Sound packets)
    {first : AckedPacket} (hfirst : first ∈ partition.groups.map (·.first)) :
    first ∈ packets := by
  obtain ⟨group, hgroup, rfl⟩ := List.mem_map.mp hfirst
  exact hsound.member_mem hgroup List.mem_cons_self

/-- Some group is being gathered as soon as one is complete. -/
theorem Sound.length_groups {partition : PacketPartition}
    {packets : List AckedPacket} (hsound : partition.Sound packets)
    (hdeltas : partition.deltas ≠ []) :
    partition.groups.length = partition.deltas.length + 2 := by
  have hlength : partition.deltas.length = partition.completed.length - 1 :=
    Consecutive.length_neighbours _ _
  have hpos : 0 < partition.deltas.length := List.length_pos_iff.mpr hdeltas
  cases hcurrent : partition.current with
  | none =>
      rw [hsound.started hcurrent, List.length_nil] at hlength
      omega
  | some group =>
      rw [groups, List.length_append, hcurrent, Option.toList_some,
        List.length_singleton]
      omega

/-- The detector hears of at most one delta for each group length of sending:
a number of deltas needs packets that were sent so many lengths apart. -/
theorem accumulateAll_spread (packets : List AckedPacket)
    (deltas : List InterGroupDelayDelta) (acc : ArrivalGroupAccumulator)
    (hrun : ArrivalGroupAccumulator.default.accumulateAll packets =
      some (deltas, acc)) (hdeltas : deltas ≠ []) :
    ∃ first ∈ packets, ∃ last ∈ packets,
      first.localSendTime + (deltas.length + 1) * sendTimeGroupLength
        < last.localSendTime := by
  rw [accumulateAll_eq, Option.some.injEq, Prod.mk.injEq] at hrun
  obtain ⟨rfl, -⟩ := hrun
  have hsound := sound_ofPackets packets
  have hlength := hsound.length_groups hdeltas
  have hchain := hsound.spaced
  cases hfirsts : (ofPackets packets).groups.map (·.first) with
  | nil =>
      rw [List.map_eq_nil_iff] at hfirsts
      rw [hfirsts, List.length_nil] at hlength
      omega
  | cons first rest =>
      rw [hfirsts] at hchain
      have hrest : rest.length = (ofPackets packets).deltas.length + 1 := by
        have hmap := congrArg List.length hfirsts
        rw [List.length_map, List.length_cons] at hmap
        omega
      have hspan := @Consecutive.add_length_mul_le_getLast _
        (·.localSendTime) (sendTimeGroupLength + 1) first rest
        (hchain.imp fun previous value hlt => Nat.succ_le_of_lt hlt)
      refine ⟨first, hsound.first_mem (by simp [hfirsts]),
        (first :: rest).getLast (List.cons_ne_nil _ _),
        hsound.first_mem (by rw [hfirsts]; exact List.getLast_mem _), ?_⟩
      rw [hrest, Nat.mul_succ] at hspan
      omega

/-- What the deltas of a run accumulate to is the change of the one-way delay
between two groups of its packets: nothing drifts, however many there are. -/
theorem accumulateAll_delay (packets : List AckedPacket)
    (deltas : List InterGroupDelayDelta) (acc : ArrivalGroupAccumulator)
    (hrun : ArrivalGroupAccumulator.default.accumulateAll packets =
      some (deltas, acc)) (hdeltas : deltas ≠ []) :
    ∃ first last : PacketGroup, first.members ⊆ packets ∧
      last.members ⊆ packets ∧
        (deltas.map InterGroupDelayDelta.delayChange).sum =
          last.oneWayDelay - first.oneWayDelay := by
  rw [accumulateAll_eq, Option.some.injEq, Prod.mk.injEq] at hrun
  obtain ⟨rfl, -⟩ := hrun
  have hsound := sound_ofPackets packets
  have hmem : ∀ group ∈ (ofPackets packets).completed,
      group.members ⊆ packets := fun group hgroup packet hpacket =>
    hsound.member_mem (List.mem_append_left _ hgroup) hpacket
  cases hcompleted : (ofPackets packets).completed with
  | nil => exact absurd (by rw [deltas, hcompleted]; rfl) hdeltas
  | cons first rest =>
      rw [hcompleted] at hmem
      refine ⟨first, (first :: rest).getLast (List.cons_ne_nil _ _),
        hmem _ List.mem_cons_self, hmem _ (List.getLast_mem _), ?_⟩
      rw [deltas, hcompleted]
      exact Consecutive.sum_map_neighbours PacketGroup.oneWayDelay
        InterGroupDelayDelta.delayChange PacketGroup.delayChange_between
        first rest

/-- Packets that are sent and arrive every six milliseconds. -/
def pacedPacket (index : ℕ) : AckedPacket where
  seqNo := index
  size := 1200
  localSendTime := index * 6000000
  remoteRecvTime := index * 6000000 + 20000000
  localRecvTime := index * 6000000 + 40000000

theorem accumulateAll_spread_paced :
    ∃ first ∈ (List.range 4).map pacedPacket,
      ∃ last ∈ (List.range 4).map pacedPacket,
        first.localSendTime + 3 * sendTimeGroupLength
          < last.localSendTime :=
  accumulateAll_spread ((List.range 4).map pacedPacket)
    (ofPackets ((List.range 4).map pacedPacket)).deltas
    (ofPackets ((List.range 4).map pacedPacket)).summary
    (by decide) (by decide)

theorem accumulateAll_delay_paced :
    ∃ first last : PacketGroup,
      first.members ⊆ (List.range 4).map pacedPacket ∧
        last.members ⊆ (List.range 4).map pacedPacket ∧
          ((ofPackets ((List.range 4).map pacedPacket)).deltas.map
              InterGroupDelayDelta.delayChange).sum =
            last.oneWayDelay - first.oneWayDelay :=
  accumulateAll_delay ((List.range 4).map pacedPacket)
    (ofPackets ((List.range 4).map pacedPacket)).deltas
    (ofPackets ((List.range 4).map pacedPacket)).summary
    (by decide) (by decide)

/-- The next group starts after all of the previous one was sent, and not
before it arrived. -/
def Follows (previous group : PacketGroup) : Prop :=
  previous.sendTime < group.first.localSendTime ∧
    previous.recvTime ≤ group.first.remoteRecvTime

def InOrder (packets : List AckedPacket) : Prop :=
  packets.Pairwise fun earlier later =>
    earlier.localSendTime ≤ later.localSendTime ∧
      earlier.remoteRecvTime ≤ later.remoteRecvTime

/-- A bound on every packet is a bound on what the group keeps. -/
theorem Sound.latest_le {partition : PacketPartition}
    {packets : List AckedPacket} (hsound : partition.Sound packets)
    {group : PacketGroup} (hgroup : group ∈ partition.groups)
    {field : AckedPacket → ℕ} {bound : ℕ}
    (hbound : ∀ packet ∈ packets, field packet ≤ bound) :
    group.latest field ≤ bound := by
  obtain ⟨packet, hpacket, hfield⟩ := group.exists_latest field
  rw [← hfield]
  exact hbound packet (hsound.member_mem hgroup hpacket)

/-- Packets that are sent and received in order form groups that follow each
other, and none is left out. -/
theorem follows_of_inOrder {packets : List AckedPacket}
    (horder : InOrder packets) :
    (ofPackets packets).groups.IsChain Follows ∧
      (ofPackets packets).skipped = [] := by
  induction packets using List.reverseRecOn with
  | nil => exact ⟨List.isChain_nil, rfl⟩
  | append_singleton packets last ih =>
      rw [InOrder, List.pairwise_append] at horder
      obtain ⟨hold, -, hlast⟩ := horder
      obtain ⟨hchain, hskipped⟩ := ih hold
      have hsound := sound_ofPackets packets
      have hofPackets : ofPackets (packets ++ [last]) =
          (ofPackets packets).place last := by
        rw [ofPackets, List.foldl_append]
        rfl
      rw [hofPackets]
      generalize ofPackets packets = partition at *
      rcases partition with ⟨completed, current, skipped⟩
      cases current with
      | none =>
          have hcompleted : completed = [] := hsound.started rfl
          subst hcompleted
          exact ⟨List.isChain_singleton _, hskipped⟩
      | some group =>
          have hgroup : group ∈ groups ⟨completed, some group, skipped⟩ := by
            simp [groups]
          have hlast' := fun packet hpacket =>
            hlast packet hpacket last List.mem_cons_self
          have hspec := group.place_spec last
          rw [groups, Option.toList_some, List.isChain_append] at hchain
          cases hplace : group.place last with
          | yes =>
              simp only [place, hplace]
              refine ⟨?_, hskipped⟩
              rw [groups, Option.toList_some, List.isChain_append]
              exact ⟨hchain.1, List.isChain_singleton _, fun previous hprev
                next hnext => by
                rw [List.head?_cons, Option.mem_some] at hnext
                subst hnext
                exact hchain.2.2 previous hprev group rfl⟩
          | skipped =>
              rw [hplace] at hspec
              have hfirst := (hlast' group.first
                (hsound.member_mem hgroup List.mem_cons_self)).1
              exact absurd hspec (Nat.not_lt.mpr hfirst)
          | newGroup =>
              rw [hplace] at hspec
              simp only [place, hplace]
              refine ⟨?_, hskipped⟩
              rw [groups, Option.toList_some, List.isChain_append,
                List.isChain_append]
              refine ⟨hchain, List.isChain_singleton _, ?_⟩
              intro previous hprev next hnext
              rw [List.getLast?_concat, Option.mem_some] at hprev
              rw [List.head?_cons, Option.mem_some] at hnext
              subst hprev hnext
              have hsend : group.sendTime ≤ last.localSendTime :=
                hsound.latest_le hgroup fun packet hpacket =>
                  (hlast' packet hpacket).1
              have hrecv : group.recvTime ≤ last.remoteRecvTime :=
                hsound.latest_le hgroup fun packet hpacket =>
                  (hlast' packet hpacket).2
              exact ⟨lt_of_le_of_ne hsend (Ne.symm hspec.2), hrecv⟩

/-- While packets are sent and received in order, every delta has the groups
apart in send time and not reversed in arrival. -/
theorem accumulateAll_inOrder (packets : List AckedPacket)
    (horder : InOrder packets) (deltas : List InterGroupDelayDelta)
    (acc : ArrivalGroupAccumulator)
    (hrun : ArrivalGroupAccumulator.default.accumulateAll packets =
      some (deltas, acc)) :
    ∀ delta ∈ deltas,
      0 < delta.sendDelta.toInt ∧ 0 ≤ delta.arrivalDelta.toInt := by
  rw [accumulateAll_eq, Option.some.injEq, Prod.mk.injEq] at hrun
  obtain ⟨rfl, -⟩ := hrun
  obtain ⟨hchain, -⟩ := follows_of_inOrder horder
  rw [groups, List.isChain_append] at hchain
  refine Consecutive.forall_mem_neighbours hchain.1 ?_
  rintro previous group ⟨hsend, hrecv⟩
  have hsendLatest := group.first_le_latest (·.localSendTime)
  have hrecvLatest := group.first_le_latest (·.remoteRecvTime)
  simp only [PacketGroup.between, TimeDelta.toInt_difference]
  simp only [PacketGroup.sendTime, PacketGroup.recvTime] at hsend hrecv ⊢
  omega

theorem accumulateAll_inOrder_paced :
    ∃ delta ∈ (ofPackets ((List.range 4).map pacedPacket)).deltas,
      0 < delta.sendDelta.toInt ∧ 0 ≤ delta.arrivalDelta.toInt := by
  have hdeltas : (ofPackets ((List.range 4).map pacedPacket)).deltas ≠ [] := by
    decide
  have hmem := List.head_mem hdeltas
  exact ⟨_, hmem, accumulateAll_inOrder ((List.range 4).map pacedPacket)
    (by simp [InOrder, pacedPacket, List.range_succ]) _
    (ofPackets ((List.range 4).map pacedPacket)).summary (by decide) _ hmem⟩

end PacketPartition

end GameStreamer
