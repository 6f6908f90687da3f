import GameStreamer.Core.EventRun
import GameStreamer.Core.SortedWindow
import GameStreamer.Protocol.Chunking
import GameStreamer.Protocol.WireFormat
import GameStreamer.Session.ProbeDriver
import GameStreamer.Session.SendHistory

/-!
# The sender task

One task hands every video datagram of a session to the connection.  It cuts
frames into datagrams, stamps each with the next transport sequence number,
records it, retains it for retransmission and paces it; between frames it
serves retransmission requests and probe bursts, and it drops a backlog that
the encoder has run up.  While it sleeps between two datagrams the other tasks
go on, so every datagram is a step of its own, and a paced one is two.
-/

namespace GameStreamer

open SerialNumber

/-- An encoded frame on its way to the sender task. -/
structure EncodedChunk where
  /-- How many chunks the encoder produced before; the wire truncates it. -/
  frameId : ℕ
  /-- How many frames were submitted before the one it comes from. -/
  serial : ℕ
  kind : FrameKind
  data : Bytes
  captureTsUs : UInt32
  deriving DecidableEq

/-- What became of a chunk. -/
inductive ChunkFate where
  | sent
  /-- `chunk_video_frame` refused it. -/
  | failed
  /-- Dropped with a backlog, when so many frames had been submitted. -/
  | dropped (submitted : ℕ)
  deriving DecidableEq, Repr

/-- A datagram that was given a sequence number. -/
structure StampedDatagram where
  datagram : Bytes
  /-- The probe cluster of a padding datagram. -/
  cluster : Option ℕ
  deriving DecidableEq

/-- A datagram that was handed to the connection. -/
inductive HandedDatagram where
  | fresh (datagram : Bytes)
  | again (datagram : Bytes)
  deriving DecidableEq

def HandedDatagram.bytes : HandedDatagram → Bytes
  | .fresh datagram => datagram
  | .again datagram => datagram

/-- Where the sender task stands. -/
inductive SenderPhase where
  | waiting
  | sending (chunk : EncodedChunk) (rest : List Bytes)
  /-- A stamped datagram waits for its deadline. -/
  | pacing (chunk : EncodedChunk) (datagram : Bytes) (rest : List Bytes)
  | probing (cluster size total sent : ℕ)
  /-- Ended by an error, in the midst of a chunk or not. -/
  | stopped (chunk : Option EncodedChunk)
  deriving DecidableEq

/-- The chunk the sender task is at work on. -/
def SenderPhase.chunk : SenderPhase → Option EncodedChunk
  | .sending chunk _ => some chunk
  | .pacing chunk _ _ => some chunk
  | .stopped chunk => chunk
  | _ => none

/-- What is stamped and not yet handed over. -/
def SenderPhase.pending : SenderPhase → List StampedDatagram
  | .pacing _ datagram _ => [⟨datagram, none⟩]
  | _ => []

/-- A frame inside the encoder. -/
structure SubmittedFrame where
  serial : ℕ
  idr : Bool
  deriving DecidableEq, Repr

/-- The sender task with the queues that lead to it, and the encoder that
feeds it. -/
structure SenderTask (Bitrate : Type*) where
  /-- Shared with the encode thread and the session. -/
  forceIdr : Bool
  history : List SendRecord
  /-- The encoder: what is inside, how many frames it was given, which of them
  were asked to be keyframes, which it lost, how many chunks it produced. -/
  inside : List SubmittedFrame
  requested : List Bool
  lost : List ℕ
  produced : ℕ
  /-- The queues. -/
  nacks : List (List UInt32)
  probes : List (ProbeJob Bitrate)
  chunks : List EncodedChunk
  /-- The task's own. -/
  phase : SenderPhase
  nextSeq : UInt32
  ring : List (UInt32 × Bytes)
  framesSent : ℕ
  framesDropped : ℕ
  /-- Everything that was stamped, everything that was handed over, and the
  chunks that are done with; oldest first. -/
  stamped : List StampedDatagram
  handed : List HandedDatagram
  fates : List (EncodedChunk × ChunkFate)
  deriving DecidableEq

/-- What the task finds when it moves. -/
structure SenderEnv where
  maxDatagram : ℕ
  fecPermille : UInt32
  nowUs : ℕ
  /-- The connection takes the datagram. -/
  accepted : Bool
  deriving DecidableEq, Repr

inductive SenderEvent (Bitrate : Type*) where
  /-- The encode thread takes the keyframe request and submits a frame. -/
  | submit
  /-- The encode thread passes on the chunk of the oldest frame inside. -/
  | encoded (kind : FrameKind) (data : Bytes) (captureTsUs : UInt32)
  /-- The encoder drops the oldest frame inside. -/
  | lose
  /-- `request_keyframe`, or an invalidation that the encoder refused. -/
  | requestKeyframe
  | nack (seqs : List UInt32)
  | probe (job : ProbeJob Bitrate)
  /-- The session joins a feedback batch. -/
  | takeUpto (maxSeq : UInt32)
  /-- The task runs to its next point of suspension. -/
  | turn (env : SenderEnv)
  deriving DecidableEq

namespace SenderTask

variable {Bitrate : Type*}

def ringCap : ℕ := 2048

def sendBacklogCap : ℕ := 4

def probeDatagram : ℕ := 1200

def start : SenderTask Bitrate where
  forceIdr := false
  history := []
  inside := []
  requested := []
  lost := []
  produced := 0
  nacks := []
  probes := []
  chunks := []
  phase := .waiting
  nextSeq := 0
  ring := []
  framesSent := 0
  framesDropped := 0
  stamped := []
  handed := []
  fates := []

/-- Send one requested datagram again, if it is still retained; an error is
ignored. -/
def resendOne (task : SenderTask Bitrate) (seq : UInt32) :
    SenderTask Bitrate :=
  match task.ring.find? fun entry => entry.1 = seq with
  | some entry => { task with handed := task.handed ++ [.again entry.2] }
  | none => task

/-- Stamp and record a datagram; a datagram too short for the stamp panics. -/
def stamp (task : SenderTask Bitrate) (nowUs : ℕ) (cluster : Option ℕ)
    (datagram : Bytes) : Option (SenderTask Bitrate × Bytes) :=
  (stampSeq datagram task.nextSeq).map fun stamped =>
    ({ task with
      history := SendHistory.push task.history
        ⟨task.stamped.length, nowUs, UInt32.ofNat stamped.length,
          cluster.isSome, cluster⟩
      nextSeq := task.nextSeq + 1
      stamped := task.stamped ++ [⟨stamped, cluster⟩] }, stamped)

/-- Retain a stamped datagram under its sequence number. -/
def retain (task : SenderTask Bitrate) (datagram : Bytes) :
    SenderTask Bitrate :=
  { task with
    ring :=
      (if task.ring.length = ringCap then task.ring.tail else task.ring) ++
        [(task.nextSeq - 1, datagram)] }

/-- The header of a chunk's datagrams, before the chunk fields are filled
in. -/
def headerOf (chunk : EncodedChunk) : VideoDatagramHeader where
  seq := 0
  sessionEpoch := 0
  frameId := wire chunk.frameId
  kind := chunk.kind
  chunkIndex := 0
  chunkCount := 1
  parityCount := 0
  frameLen := 0
  captureTsUs := chunk.captureTsUs

/-- Start on the oldest chunk, unless too many wait behind it. -/
def takeChunk (task : SenderTask Bitrate) (env : SenderEnv)
    (chunk : EncodedChunk) (rest : List EncodedChunk) : SenderTask Bitrate :=
  if sendBacklogCap < rest.length then
    { task with
      chunks := []
      framesDropped := task.framesDropped + (rest.length + 1)
      forceIdr := true
      fates := task.fates ++ (chunk :: rest).map fun chunk =>
        (chunk, .dropped task.requested.length) }
  else
    match Chunking.chunkVideoFrame (headerOf chunk) chunk.data env.maxDatagram
        env.fecPermille with
    | some (.ok datagrams) =>
        { task with chunks := rest, phase := .sending chunk datagrams }
    | some (.error _) =>
        { task with
          chunks := rest
          fates := task.fates ++ [(chunk, .failed)] }
    | none => { task with chunks := rest, phase := .stopped (some chunk) }

/-- `(rate_bps / 8.0 * duration.as_secs_f64()) as usize`. -/
abbrev ProbeBudget (Bitrate : Type*) := ProbeJob Bitrate → ℕ

/-- Start a probe burst; a datagram size of 0 panics. -/
def startProbe (budget : ProbeBudget Bitrate) (task : SenderTask Bitrate)
    (env : SenderEnv) (job : ProbeJob Bitrate)
    (rest : List (ProbeJob Bitrate)) : SenderTask Bitrate :=
  let size := min env.maxDatagram probeDatagram
  { task with
    probes := rest
    phase :=
      if size = 0 then .stopped none
      else .probing job.cluster size
        (max (Tiling.divCeil (budget job) size) job.minPackets) 0 }

/-- The task looks at its queues in this order. -/
def await (budget : ProbeBudget Bitrate) (task : SenderTask Bitrate)
    (env : SenderEnv) : SenderTask Bitrate :=
  match task.nacks, task.probes, task.chunks with
  | seqs :: rest, _, _ => seqs.foldl resendOne { task with nacks := rest }
  | [], job :: rest, _ => task.startProbe budget env job rest
  | [], [], chunk :: rest => task.takeChunk env chunk rest
  | [], [], [] => task

/-- The next datagram of a frame, or its end. -/
def send (task : SenderTask Bitrate) (env : SenderEnv) (chunk : EncodedChunk) :
    List Bytes → SenderTask Bitrate
  | [] =>
      { task with
        phase := .waiting
        framesSent := task.framesSent + 1
        fates := task.fates ++ [(chunk, .sent)] }
  | datagram :: rest =>
      match task.stamp env.nowUs none datagram with
      | some (task, stamped) =>
          { task with phase := .pacing chunk stamped rest }
      | none => { task with phase := .stopped (some chunk) }

/-- Hand a datagram to the connection; an error ends the task. -/
def release (task : SenderTask Bitrate) (env : SenderEnv)
    (chunk : EncodedChunk) (datagram : Bytes) (rest : List Bytes) :
    SenderTask Bitrate :=
  let task := task.retain datagram
  { task with
    handed := task.handed ++ [.fresh datagram]
    phase :=
      if env.accepted then .sending chunk rest else .stopped (some chunk) }

/-- The next datagram of a burst, or its end; an error ends the burst. -/
def sendProbe (task : SenderTask Bitrate) (env : SenderEnv)
    (cluster size total sent : ℕ) : SenderTask Bitrate :=
  if sent < total then
    match task.stamp env.nowUs (some cluster) (encodePadding size) with
    | some (task, stamped) =>
        { task with
          handed := task.handed ++ [.fresh stamped]
          phase :=
            if env.accepted then .probing cluster size total (sent + 1)
            else .waiting }
    | none => { task with phase := .stopped none }
  else { task with phase := .waiting }

/-- One move of the sender task, from one await to the next.  What it finds in
its queues decides what it does. -/
def turn (budget : ProbeBudget Bitrate) (task : SenderTask Bitrate)
    (env : SenderEnv) : SenderTask Bitrate :=
  match task.phase with
  | .waiting => task.await budget env
  | .sending chunk rest => task.send env chunk rest
  | .pacing chunk datagram rest => task.release env chunk datagram rest
  | .probing cluster size total sent =>
      task.sendProbe env cluster size total sent
  | .stopped _ => task

/-- A chunk reaches the queue, as what the encoder says it is. -/
def produce (task : SenderTask Bitrate) (kind : FrameKind) (data : Bytes)
    (captureTsUs : UInt32) : SenderTask Bitrate :=
  match task.inside with
  | [] => task
  | frame :: rest =>
      { task with
        inside := rest
        produced := task.produced + 1
        chunks := task.chunks ++
          [{ frameId := task.produced
             serial := frame.serial
             kind := kind
             data := data
             captureTsUs := captureTsUs }] }

/-- A frame is submitted, a chunk comes out, a request arrives, or the sender
task moves. -/
def step (budget : ProbeBudget Bitrate) (task : SenderTask Bitrate) :
    SenderEvent Bitrate → SenderTask Bitrate
  | .submit =>
      { task with
        forceIdr := false
        inside := task.inside ++ [⟨task.requested.length, task.forceIdr⟩]
        requested := task.requested ++ [task.forceIdr] }
  | .encoded kind data captureTsUs => task.produce kind data captureTsUs
  | .lose =>
      match task.inside with
      | [] => task
      | frame :: rest =>
          { task with inside := rest, lost := task.lost ++ [frame.serial] }
  | .requestKeyframe => { task with forceIdr := true }
  | .nack seqs => { task with nacks := task.nacks ++ [seqs] }
  | .probe job => { task with probes := task.probes ++ [job] }
  | .takeUpto maxSeq =>
      { task with
        history := (SendHistory.takeUpto task.history maxSeq).2 }
  | .turn env => task.turn budget env

/-- The encoder makes a keyframe of a frame that it was asked to. -/
def Obeys (task : SenderTask Bitrate) : SenderEvent Bitrate → Prop
  | .encoded kind _ _ =>
      ∀ frame ∈ task.inside.head?, frame.idr = true → kind = .idr
  | _ => True

instance (task : SenderTask Bitrate) (event : SenderEvent Bitrate) :
    Decidable (task.Obeys event) := by
  unfold Obeys
  cases event <;> infer_instance

/-! ### Stamps and records -/

/-- The record of a stamped datagram says what it is. -/
def Describes (record : SendRecord) (stamped : StampedDatagram) : Prop :=
  record.bytes = UInt32.ofNat stamped.datagram.length ∧
    record.padding = stamped.cluster.isSome ∧ record.cluster = stamped.cluster

/-- Stamps and records go on without a gap. -/
structure Numbered (nextSeq : UInt32) (stamped : List StampedDatagram)
    (history : List SendRecord) : Prop where
  nextSeq : nextSeq = wire stamped.length
  readSeq : ∀ i entry, stamped[i]? = some entry →
    readSeq entry.datagram = .ok (wire i)
  window : SendHistory.Window history stamped.length
  described : ∀ record ∈ history, ∃ entry,
    stamped[record.serial]? = some entry ∧ Describes record entry

theorem readSeq_of_stampSeq {datagram stamped : Bytes} {seq : UInt32}
    (hstamp : stampSeq datagram seq = some stamped) :
    GameStreamer.readSeq stamped = .ok seq := by
  unfold stampSeq at hstamp
  split at hstamp
  · next hle =>
      rw [← Option.some.inj hstamp]
      exact (stamped_splice hle seq).readSeq
  · exact absurd hstamp.symm (Option.some_ne_none stamped)

theorem mem_push {history : List SendRecord} {record other : SendRecord}
    (hother : other ∈ SendHistory.push history record) :
    other ∈ history ∨ other = record := by
  unfold SendHistory.push at hother
  rcases List.mem_append.mp hother with hold | hnew
  · split at hold
    · exact Or.inl (List.mem_of_mem_tail hold)
    · exact Or.inl hold
  · exact Or.inr (List.mem_singleton.mp hnew)

theorem Numbered.concat {nextSeq : UInt32} {stamped : List StampedDatagram}
    {history : List SendRecord} (hnumbered : Numbered nextSeq stamped history)
    {datagram : Bytes} (hseq : GameStreamer.readSeq datagram = .ok nextSeq)
    (nowUs : ℕ) (cluster : Option ℕ) :
    Numbered (nextSeq + 1) (stamped ++ [⟨datagram, cluster⟩])
      (SendHistory.push history ⟨stamped.length, nowUs,
        UInt32.ofNat datagram.length, cluster.isSome, cluster⟩) where
  nextSeq := by
    rw [hnumbered.nextSeq, List.length_append, List.length_singleton]
    exact (UInt32.ofNat_add _ _).symm
  readSeq := by
    intro i entry hentry
    rcases Nat.lt_or_ge i stamped.length with hold | hnew
    · rw [List.getElem?_append_left hold] at hentry
      exact hnumbered.readSeq i entry hentry
    · rw [List.getElem?_append_right hnew, List.getElem?_singleton] at hentry
      split at hentry
      · next hzero =>
          have hi : i = stamped.length :=
            Nat.le_antisymm (Nat.sub_eq_zero_iff_le.mp hzero) hnew
          rw [← Option.some.inj hentry, hseq, hnumbered.nextSeq, hi]
      · exact absurd hentry.symm (Option.some_ne_none entry)
  window := by
    rw [List.length_append, List.length_singleton]
    exact hnumbered.window.push rfl
  described := by
    intro record hrecord
    rcases mem_push hrecord with hold | rfl
    · obtain ⟨entry, hentry, hdescribes⟩ := hnumbered.described record hold
      exact ⟨entry, List.getElem?_append_left
        (List.getElem?_eq_some_iff.mp hentry).1 ▸ hentry, hdescribes⟩
    · exact ⟨⟨datagram, cluster⟩, List.getElem?_concat_length, rfl, rfl, rfl⟩

/-! ### What is handed over -/

/-- The fresh datagrams among those handed over. -/
def fresh (handed : List HandedDatagram) : List Bytes :=
  handed.filterMap fun
    | .fresh datagram => some datagram
    | .again _ => none

/-- The video datagrams with their sequence numbers. -/
def media (stamped : List StampedDatagram) : List (UInt32 × Bytes) :=
  stamped.zipIdx.filterMap fun (entry, i) =>
    if entry.cluster = none then some (wire i, entry.datagram) else none

theorem media_concat (stamped : List StampedDatagram)
    (entry : StampedDatagram) :
    media (stamped ++ [entry]) = media stamped ++
      if entry.cluster = none then [(wire stamped.length, entry.datagram)]
      else [] := by
  rw [media, List.zipIdx_append, List.filterMap_append]
  congr 1
  by_cases hcluster : entry.cluster = none
  · simp only [List.zipIdx_singleton, List.filterMap_cons, hcluster, if_true,
      List.filterMap_nil, Nat.zero_add]
  · simp only [List.zipIdx_singleton, List.filterMap_cons, hcluster, if_false,
      List.filterMap_nil]

theorem mem_media {stamped : List StampedDatagram} {entry : UInt32 × Bytes}
    (hentry : entry ∈ media stamped) :
    ∃ i, stamped[i]? = some ⟨entry.2, none⟩ ∧ entry.1 = wire i := by
  obtain ⟨⟨original, i⟩, hmem, hsome⟩ := List.mem_filterMap.mp hentry
  have hget := List.mem_zipIdx_iff_getElem?.mp hmem
  dsimp only at hget hsome
  split at hsome
  · next hcluster =>
      obtain rfl := Option.some.inj hsome
      refine ⟨i, ?_, rfl⟩
      rw [hget, ← hcluster]
  · exact absurd hsome.symm (Option.some_ne_none entry)

/-- All but the datagram that waits for its deadline has been handed over, in
order; the ring holds the last video datagrams of these, and a retransmission
is one of them. -/
structure Carried (stamped : List StampedDatagram) (phase : SenderPhase)
    (ring : List (UInt32 × Bytes)) (handed : List HandedDatagram) : Prop where
  split : ∃ released, stamped = released ++ phase.pending ∧
    fresh handed = released.map StampedDatagram.datagram ∧
      ring = SortedWindow.lastOf ringCap (media released)
  again : ∀ datagram, .again datagram ∈ handed →
    ∃ i : ℕ, stamped[i]? = some ⟨datagram, none⟩

section Carried

variable {stamped : List StampedDatagram} {phase phase' : SenderPhase}
  {ring : List (UInt32 × Bytes)} {handed : List HandedDatagram}

theorem fresh_concat_fresh (handed : List HandedDatagram) (datagram : Bytes) :
    fresh (handed ++ [.fresh datagram]) = fresh handed ++ [datagram] := by
  rw [fresh, List.filterMap_append]
  rfl

theorem fresh_concat_again (handed : List HandedDatagram) (datagram : Bytes) :
    fresh (handed ++ [.again datagram]) = fresh handed := by
  rw [fresh, List.filterMap_append]
  exact List.append_nil _

/-- Moving on without touching a datagram. -/
theorem Carried.quiet (hcarried : Carried stamped phase ring handed)
    (hpending : phase'.pending = phase.pending) :
    Carried stamped phase' ring handed where
  split := by
    rw [hpending]
    exact hcarried.split
  again := hcarried.again

/-- A retained datagram is handed over again. -/
theorem Carried.resend (hcarried : Carried stamped phase ring handed)
    {entry : UInt32 × Bytes} (hentry : entry ∈ ring) :
    Carried stamped phase ring (handed ++ [.again entry.2]) := by
  obtain ⟨released, hstamped, hfresh, hring⟩ := hcarried.split
  refine ⟨⟨released, hstamped, ?_, hring⟩, ?_⟩
  · rw [fresh_concat_again, hfresh]
  · intro datagram hmem
    rcases List.mem_append.mp hmem with hold | hnew
    · exact hcarried.again datagram hold
    · obtain rfl : datagram = entry.2 :=
        HandedDatagram.again.inj (List.mem_singleton.mp hnew)
      rw [hring] at hentry
      obtain ⟨i, hget, -⟩ := mem_media (List.mem_of_mem_drop hentry)
      rw [hstamped]
      exact ⟨i, (List.getElem?_append_left
        (List.getElem?_eq_some_iff.mp hget).1).trans hget⟩

/-- Whatever was stamped stays where it is. -/
theorem again_concat (hcarried : Carried stamped phase ring handed)
    (entry : StampedDatagram) {datagram : Bytes}
    (hmem : .again datagram ∈ handed) :
    ∃ i : ℕ, (stamped ++ [entry])[i]? = some ⟨datagram, none⟩ := by
  obtain ⟨i, hget⟩ := hcarried.again datagram hmem
  exact ⟨i, (List.getElem?_append_left
    (List.getElem?_eq_some_iff.mp hget).1).trans hget⟩

theorem Carried.stamp (hcarried : Carried stamped phase ring handed)
    (hpending : phase.pending = []) (chunk : EncodedChunk) (datagram : Bytes)
    (rest : List Bytes) :
    Carried (stamped ++ [⟨datagram, none⟩]) (.pacing chunk datagram rest) ring
      handed := by
  obtain ⟨released, hstamped, hfresh, hring⟩ := hcarried.split
  rw [hpending, List.append_nil] at hstamped
  exact ⟨⟨released, by rw [hstamped]; rfl, hfresh, hring⟩,
    fun _ hmem => again_concat hcarried _ hmem⟩

/-- The datagram that was stamped last is retained and handed over. -/
theorem Carried.release {chunk : EncodedChunk} {datagram : Bytes}
    {rest : List Bytes}
    (hcarried : Carried stamped (.pacing chunk datagram rest) ring handed)
    (hpending : phase'.pending = []) :
    Carried stamped phase'
      ((if ring.length = ringCap then ring.tail else ring) ++
        [(wire stamped.length - 1, datagram)])
      (handed ++ [.fresh datagram]) := by
  obtain ⟨released, hstamped, hfresh, hring⟩ := hcarried.split
  have hseq : wire stamped.length - 1 = wire released.length := by
    rw [hstamped, List.length_append]
    exact wire_sub_wire (Nat.le_add_left 1 _)
  refine ⟨⟨released ++ [⟨datagram, none⟩], ?_, ?_, ?_⟩, ?_⟩
  · rw [hpending, List.append_nil, hstamped]
    rfl
  · rw [fresh_concat_fresh, hfresh, List.map_append]
    rfl
  · rw [hseq, media_concat, if_pos rfl,
      SortedWindow.lastOf_concat (by decide), ← hring]
  · intro again hmem
    rcases List.mem_append.mp hmem with hold | hnew
    · exact hcarried.again again hold
    · exact HandedDatagram.noConfusion (List.mem_singleton.mp hnew)

/-- Padding is stamped and handed over at once, and is not retained. -/
theorem Carried.probe (hcarried : Carried stamped phase ring handed)
    (hpending : phase.pending = []) (hpending' : phase'.pending = [])
    (datagram : Bytes) (cluster : ℕ) :
    Carried (stamped ++ [⟨datagram, some cluster⟩]) phase' ring
      (handed ++ [.fresh datagram]) := by
  obtain ⟨released, hstamped, hfresh, hring⟩ := hcarried.split
  rw [hpending, List.append_nil] at hstamped
  refine ⟨⟨released ++ [⟨datagram, some cluster⟩], ?_, ?_, ?_⟩, ?_⟩
  · rw [hpending', List.append_nil, hstamped]
  · rw [fresh_concat_fresh, hfresh, List.map_append]
    rfl
  · rw [media_concat, if_neg (Option.some_ne_none cluster), List.append_nil,
      hring]
  · intro again hmem
    rcases List.mem_append.mp hmem with hold | hnew
    · exact again_concat hcarried _ hold
    · exact HandedDatagram.noConfusion (List.mem_singleton.mp hnew)

end Carried

/-- The sequence numbers, records, ring and datagrams of the task agree: a
number is given once, recorded at once, and carried by the datagram that goes
out. -/
structure Orderly (task : SenderTask Bitrate) : Prop where
  numbered : Numbered task.nextSeq task.stamped task.history
  carried : Carried task.stamped task.phase task.ring task.handed

variable {task : SenderTask Bitrate}

theorem orderly_start : (start : SenderTask Bitrate).Orderly where
  numbered := ⟨rfl, fun _ entry hentry => absurd hentry.symm
    (Option.some_ne_none entry), SendHistory.window_nil,
    fun _ hmem => absurd hmem List.not_mem_nil⟩
  carried := ⟨⟨[], rfl, rfl, rfl⟩,
    fun _ hmem => absurd hmem List.not_mem_nil⟩

theorem Orderly.resendOne (horderly : task.Orderly) (seq : UInt32) :
    (task.resendOne seq).Orderly := by
  unfold SenderTask.resendOne
  cases hfind : task.ring.find? fun entry => entry.1 = seq with
  | none => exact horderly
  | some entry =>
      exact ⟨horderly.numbered,
        horderly.carried.resend (List.mem_of_find?_eq_some hfind)⟩

theorem Orderly.takeChunk (horderly : task.Orderly)
    (hpending : task.phase.pending = []) (env : SenderEnv)
    (chunk : EncodedChunk) (rest : List EncodedChunk) :
    (task.takeChunk env chunk rest).Orderly := by
  unfold SenderTask.takeChunk
  split
  · exact ⟨horderly.numbered, horderly.carried⟩
  · split
    · exact ⟨horderly.numbered, horderly.carried.quiet hpending.symm⟩
    · exact ⟨horderly.numbered, horderly.carried⟩
    · exact ⟨horderly.numbered, horderly.carried.quiet hpending.symm⟩

theorem Orderly.await (horderly : task.Orderly)
    (hpending : task.phase.pending = []) (budget : ProbeBudget Bitrate)
    (env : SenderEnv) : (task.await budget env).Orderly := by
  unfold SenderTask.await
  split
  · next seqs rest hnacks =>
      have hstart : Orderly { task with nacks := rest } :=
        ⟨horderly.numbered, horderly.carried⟩
      exact EventRun.foldl_preserves
        (fun _ seq horderly => horderly.resendOne seq) seqs hstart
  · next job rest hnacks hprobes =>
      refine ⟨horderly.numbered, horderly.carried.quiet ?_⟩
      rw [hpending, SenderTask.startProbe]
      dsimp only
      split <;> rfl
  · exact horderly.takeChunk hpending env _ _
  · exact horderly

/-- What stamping a datagram changes. -/
theorem stamp_eq_some {nowUs : ℕ} {cluster : Option ℕ}
    {datagram stamped : Bytes} {after : SenderTask Bitrate}
    (hstamp : task.stamp nowUs cluster datagram = some (after, stamped)) :
    GameStreamer.readSeq stamped = .ok task.nextSeq ∧
      after = { task with
        history := SendHistory.push task.history
          ⟨task.stamped.length, nowUs, UInt32.ofNat stamped.length,
            cluster.isSome, cluster⟩
        nextSeq := task.nextSeq + 1
        stamped := task.stamped ++ [⟨stamped, cluster⟩] } := by
  obtain ⟨bytes, hbytes, hpair⟩ := Option.map_eq_some_iff.mp hstamp
  obtain ⟨rfl, rfl⟩ := Prod.mk.inj hpair
  exact ⟨readSeq_of_stampSeq hbytes, rfl⟩

theorem Orderly.send (horderly : task.Orderly)
    (hpending : task.phase.pending = []) (env : SenderEnv)
    (chunk : EncodedChunk) (rest : List Bytes) :
    (task.send env chunk rest).Orderly := by
  cases rest with
  | nil => exact ⟨horderly.numbered, horderly.carried.quiet hpending.symm⟩
  | cons datagram rest =>
      unfold SenderTask.send
      dsimp only
      cases hstamp : task.stamp env.nowUs none datagram with
      | none => exact ⟨horderly.numbered, horderly.carried.quiet hpending.symm⟩
      | some result =>
          obtain ⟨after, stamped⟩ := result
          obtain ⟨hseq, rfl⟩ := stamp_eq_some hstamp
          exact ⟨horderly.numbered.concat hseq env.nowUs none,
            horderly.carried.stamp hpending chunk stamped rest⟩

theorem Orderly.release (horderly : task.Orderly) {chunk : EncodedChunk}
    {datagram : Bytes} {rest : List Bytes}
    (hphase : task.phase = .pacing chunk datagram rest) (env : SenderEnv) :
    (task.release env chunk datagram rest).Orderly := by
  have hcarried := horderly.carried
  rw [hphase] at hcarried
  refine ⟨horderly.numbered, ?_⟩
  unfold SenderTask.release SenderTask.retain
  rw [horderly.numbered.nextSeq]
  apply hcarried.release
  dsimp only
  split <;> rfl

theorem Orderly.sendProbe (horderly : task.Orderly)
    (hpending : task.phase.pending = []) (env : SenderEnv)
    (cluster size total sent : ℕ) :
    (task.sendProbe env cluster size total sent).Orderly := by
  unfold SenderTask.sendProbe
  split
  · cases hstamp : task.stamp env.nowUs (some cluster)
      (encodePadding size) with
    | none => exact ⟨horderly.numbered, horderly.carried.quiet hpending.symm⟩
    | some result =>
        obtain ⟨after, stamped⟩ := result
        obtain ⟨hseq, rfl⟩ := stamp_eq_some hstamp
        refine ⟨horderly.numbered.concat hseq env.nowUs (some cluster),
          horderly.carried.probe hpending ?_ stamped cluster⟩
        dsimp only
        split <;> rfl
  · exact ⟨horderly.numbered, horderly.carried.quiet hpending.symm⟩

theorem Orderly.turn (horderly : task.Orderly) (budget : ProbeBudget Bitrate)
    (env : SenderEnv) : (task.turn budget env).Orderly := by
  unfold SenderTask.turn
  split
  · next hphase => exact horderly.await (by rw [hphase]; rfl) budget env
  · next hphase => exact horderly.send (by rw [hphase]; rfl) env _ _
  · next hphase => exact horderly.release hphase env
  · next hphase => exact horderly.sendProbe (by rw [hphase]; rfl) env _ _ _ _
  · exact horderly

theorem Orderly.step (horderly : task.Orderly) (budget : ProbeBudget Bitrate)
    (event : SenderEvent Bitrate) : (task.step budget event).Orderly := by
  cases event with
  | submit => exact ⟨horderly.numbered, horderly.carried⟩
  | encoded kind data captureTsUs =>
      unfold SenderTask.step SenderTask.produce
      dsimp only
      split <;> exact ⟨horderly.numbered, horderly.carried⟩
  | lose =>
      unfold SenderTask.step
      dsimp only
      split <;> exact ⟨horderly.numbered, horderly.carried⟩
  | requestKeyframe => exact ⟨horderly.numbered, horderly.carried⟩
  | nack seqs => exact ⟨horderly.numbered, horderly.carried⟩
  | probe job => exact ⟨horderly.numbered, horderly.carried⟩
  | takeUpto maxSeq =>
      have hsplit := SendHistory.takeUpto_append task.history maxSeq
      have hnumbered := horderly.numbered
      have hwindow := hnumbered.window
      rw [← hsplit] at hwindow
      refine ⟨⟨hnumbered.nextSeq, hnumbered.readSeq, hwindow.suffix, ?_⟩,
        horderly.carried⟩
      intro record hrecord
      apply hnumbered.described record
      rw [← hsplit]
      exact List.mem_append_right _ hrecord
  | turn env => exact horderly.turn budget env

theorem orderly_foldl (budget : ProbeBudget Bitrate)
    (events : List (SenderEvent Bitrate)) :
    (events.foldl (SenderTask.step budget) start).Orderly :=
  EventRun.foldl_preserves (fun _ event horderly =>
    horderly.step budget event) events orderly_start

theorem Orderly.stamped_of_handed (horderly : task.Orderly)
    {handed : HandedDatagram} (hmem : handed ∈ task.handed) :
    ∃ (i : ℕ) (entry : StampedDatagram), task.stamped[i]? = some entry ∧
      entry.datagram = handed.bytes := by
  cases handed with
  | again datagram =>
      obtain ⟨i, hget⟩ := horderly.carried.again datagram hmem
      exact ⟨i, _, hget, rfl⟩
  | fresh datagram =>
      obtain ⟨released, hstamped, hfresh, -⟩ := horderly.carried.split
      have hdatagram : datagram ∈ fresh task.handed :=
        List.mem_filterMap.mpr ⟨_, hmem, rfl⟩
      rw [hfresh] at hdatagram
      obtain ⟨entry, hentry, rfl⟩ := List.mem_map.mp hdatagram
      obtain ⟨i, hget⟩ := List.mem_iff_getElem?.mp hentry
      refine ⟨i, entry, ?_, rfl⟩
      rw [hstamped]
      exact (List.getElem?_append_left
        (List.getElem?_eq_some_iff.mp hget).1).trans hget

/-- However frames, probe bursts and retransmissions interleave, the fresh
datagrams go out in the order of their stamps, and the `i`-th carries the
sequence number `i`; a record of the history describes the datagram of its
number; a retransmission is a video datagram that was stamped before, byte by
byte; and until the numbers wrap, datagrams of one number are equal. -/
theorem foldl_step_seqs (budget : ProbeBudget Bitrate)
    (events : List (SenderEvent Bitrate)) :
    let task := events.foldl (SenderTask.step budget) start
    (∀ i entry, task.stamped[i]? = some entry →
        GameStreamer.readSeq entry.datagram = .ok (wire i)) ∧
      fresh task.handed ++ task.phase.pending.map StampedDatagram.datagram =
          task.stamped.map StampedDatagram.datagram ∧
        (∀ record ∈ task.history, ∃ entry,
          task.stamped[record.serial]? = some entry ∧
            Describes record entry) ∧
          (∀ datagram, .again datagram ∈ task.handed →
            ∃ i : ℕ, task.stamped[i]? = some ⟨datagram, none⟩) ∧
            (task.stamped.length ≤ 2 ^ 32 →
              ∀ left ∈ task.handed, ∀ right ∈ task.handed,
                GameStreamer.readSeq left.bytes =
                  GameStreamer.readSeq right.bytes →
                    left.bytes = right.bytes) := by
  have horderly := orderly_foldl budget events
  refine ⟨horderly.numbered.readSeq, ?_, horderly.numbered.described,
    horderly.carried.again, ?_⟩
  · obtain ⟨released, hstamped, hfresh, -⟩ := horderly.carried.split
    rw [hfresh, hstamped, List.map_append]
  · intro hlength left hleft right hright hseq
    obtain ⟨i, first, hfirst, hleftBytes⟩ := horderly.stamped_of_handed hleft
    obtain ⟨j, second, hsecond, hrightBytes⟩ :=
      horderly.stamped_of_handed hright
    rw [← hleftBytes, ← hrightBytes, horderly.numbered.readSeq i first hfirst,
      horderly.numbered.readSeq j second hsecond] at hseq
    have hi := (List.getElem?_eq_some_iff.mp hfirst).1
    have hj := (List.getElem?_eq_some_iff.mp hsecond).1
    have hij : i = j := by
      have htoNat := congrArg UInt32.toNat (Except.ok.inj hseq)
      rwa [toNat_wire_of_lt (Nat.lt_of_lt_of_le hi hlength),
        toNat_wire_of_lt (Nat.lt_of_lt_of_le hj hlength)] at htoNat
    rw [hij, hsecond] at hfirst
    rw [← hleftBytes, ← hrightBytes, Option.some.inj hfirst]

end SenderTask

end GameStreamer
