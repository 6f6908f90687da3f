import GameStreamer.Client.Arrivals
import GameStreamer.Session.Feedback
import Mathlib.Algebra.Order.Group.Multiset
import Mathlib.Data.Multiset.AddSub
import Mathlib.Tactic.Abel

/-!
# Retransmissions and the delay signal

A datagram that the client asks for again goes out with its old transport seq
and without a send record of its own.  The client acknowledges it like any
other arrival, and the driver joins the acknowledgment with the record of that
seq, whose send time is the lost original's.  This module proves when every
join is of one transmission.
-/

namespace GameStreamer.Retransmission

open EventRun SerialNumber SendHistory BweDriver

/-- One trip of a datagram; the original is copy 0. -/
structure Transmission where
  serial : ℕ
  copy : ℕ
  deriving DecidableEq, Repr

/-- What the client sends on the control stream.  A batch comes with the
transmissions whose arrivals its samples are. -/
inductive Message where
  | nack (seqs : List UInt32)
  | feedback (batch : PacketFeedback) (origins : List Transmission)
  deriving DecidableEq, Repr

def Message.origins : Message → List Transmission
  | .nack _ => []
  | .feedback _ origins => origins

/-- The agent, the client and the datagrams and messages between them.  A
datagram is identified by its serial and by how often it was retransmitted
before. -/
structure World where
  /-- The agent. -/
  history : List SendRecord
  driver : BweDriver
  stamped : ℕ
  /-- The retention ring: seqs and serials of stamped video datagrams. -/
  ring : List (UInt32 × ℕ)
  nackQueue : List (List UInt32)
  /-- The client. -/
  receiver : Receiver
  /-- The transmissions whose arrivals its batch notes. -/
  origins : List Transmission
  /-- What is under way. -/
  inFlight : List Transmission
  control : List Message
  lost : List Transmission
  /-- How often a datagram was retransmitted. -/
  copies : ℕ → ℕ

def start (nowAgentUs : ℕ) : World where
  history := []
  driver := .new nowAgentUs
  stamped := 0
  ring := []
  nackQueue := []
  receiver := .new
  origins := []
  inFlight := []
  control := []
  lost := []
  copies := fun _ => 0

inductive Event where
  /-- The sender task stamps, records and sends a datagram. -/
  | send (sentUs : ℕ) (bytes : UInt32) (padding : Bool)
      (cluster : Option ℕ)
  /-- The sender task takes a list of requested seqs. -/
  | resend
  | lose (transmission : Transmission)
  | arrive (transmission : Transmission) (nowUs : ℕ) (writer : Bool)
  /-- The service reads the next control message. -/
  | deliver (nowUs : ℕ)
  deriving DecidableEq, Repr

def ringCap : ℕ := 2048

/-- Retain a stamped datagram, dropping the oldest of a full ring. -/
def retain (ring : List (UInt32 × ℕ)) (serial : ℕ) : List (UInt32 × ℕ) :=
  (if ring.length = ringCap then ring.tail else ring) ++ [(wire serial, serial)]

/-- Send one requested datagram again, if it is still retained. -/
def resendOne (world : World) (seq : UInt32) : World :=
  match world.ring.find? fun entry => entry.1 = seq with
  | none => world
  | some (_, serial) =>
      { world with
        copies := Function.update world.copies serial
          (world.copies serial + 1)
        inFlight := world.inFlight ++ [⟨serial, world.copies serial + 1⟩] }

/-- The messages that one arrival makes the client send. -/
def messages (nack : List UInt32) (feedback : Option PacketFeedback)
    (origins : List Transmission) : List Message :=
  (if nack = [] then [] else [.nack nack]) ++
    (feedback.map fun batch => Message.feedback batch origins).toList

def arrive (world : World) (transmission : Transmission) (nowUs : ℕ)
    (writer : Bool) : World :=
  let (receiver, nack, feedback) := world.receiver.recordArrival
    (wire transmission.serial) nowUs writer
  let origins := world.origins ++ [transmission]
  { world with
    inFlight := world.inFlight.erase transmission
    receiver := receiver
    origins := if receiver.feedbackBatch = [] then [] else origins
    control := world.control ++ messages nack feedback origins }

/-- The agent reads the next control message: a NACK is queued for the sender
task, and a batch is joined with the records. -/
def deliver (world : World) (nowUs : ℕ) : World :=
  match world.control with
  | [] => world
  | .nack seqs :: rest =>
      { world with
        control := rest
        nackQueue := world.nackQueue ++ [seqs] }
  | .feedback batch _ :: rest =>
      match batch.samples.getLast? with
      | none => { world with control := rest }
      | some (maxSeq, _) =>
          let (sent, left) := takeUpto world.history maxSeq
          { world with
            control := rest
            history := left
            driver := world.driver.onFeedback sent batch nowUs }

/-- The agent sends or resends, the network loses or delivers a datagram, or
the next control message arrives.  Datagrams arrive in any order, control
messages in theirs. -/
def step (world : World) : Event → World
  | .send sentUs bytes padding cluster =>
      { world with
        history := SendHistory.push world.history
          ⟨world.stamped, sentUs, bytes, padding, cluster⟩
        stamped := world.stamped + 1
        ring := if padding then world.ring else retain world.ring world.stamped
        inFlight := world.inFlight ++ [⟨world.stamped, 0⟩] }
  | .resend =>
      match world.nackQueue with
      | [] => world
      | seqs :: rest =>
          seqs.foldl resendOne { world with nackQueue := rest }
  | .lose transmission =>
      if transmission ∈ world.inFlight then
        { world with
          inFlight := world.inFlight.erase transmission
          lost := world.lost ++ [transmission] }
      else world
  | .arrive transmission nowUs writer =>
      if transmission ∈ world.inFlight then
        arrive world transmission nowUs writer
      else world
  | .deliver nowUs => deliver world nowUs

/-- What a step tells the estimator about single packets. -/
def told (world : World) (event : Event) : List TwccSendRecord :=
  newReports world.driver (step world event).driver

/-- Whatever is reported as received pairs the send time with the arrival of
that very transmission, which was not lost. -/
def SameTransmission (world : World) (event : Event) : Prop :=
  ∀ report ∈ told world event, report.received.isSome →
    ∃ batch origins, world.control.head? = some (.feedback batch origins) ∧
      originOf batch origins report.record.seq =
        some ⟨report.record.serial, 0⟩ ∧
      ⟨report.record.serial, 0⟩ ∉ world.lost

/-- A batch that is delivered names no copy, and no other datagram of the same
seq, as the last arrival for a record that the driver waits for. -/
def NoCopyAwaited (world : World) : Event → Prop
  | .deliver _ =>
      ∀ batch origins, world.control.head? = some (.feedback batch origins) →
        ∀ last ∈ batch.samples.getLast?,
          ∀ record ∈ world.driver.awaiting
              (takeUpto world.history last.1).1,
            ∀ origin ∈ originOf batch origins record.seq,
              origin.copy = 0 ∧ origin.serial = record.serial
  | _ => True

/-! ## Where the transmissions are -/

/-- Everything that was ever sent and is not forgotten. -/
def World.transmissions (world : World) : Multiset Transmission :=
  ↑world.inFlight + ↑world.lost + ↑world.origins +
    ↑(world.control.flatMap Message.origins)

/-- Every transmission is in one place, and every sample has its origin. -/
structure Placed (world : World) : Prop where
  nodup : world.transmissions.Nodup
  known : ∀ t ∈ world.transmissions,
    t.serial < world.stamped ∧ t.copy ≤ world.copies t.serial
  retained : ∀ entry ∈ world.ring, entry.2 < world.stamped
  batch : world.origins.length = world.receiver.feedbackBatch.length
  messages : ∀ batch origins, Message.feedback batch origins ∈ world.control →
    batch.samples.length = origins.length

theorem placed_start (nowAgentUs : ℕ) : Placed (start nowAgentUs) where
  nodup := Multiset.nodup_zero
  known := fun t ht => absurd ht (Multiset.notMem_zero t)
  retained := by simp [start]
  batch := rfl
  messages := by simp [start]

section Steps

variable {world : World}

/-- A transmission that was never made before. -/
theorem Placed.sent (h : Placed world) {t : Transmission} {world' : World}
    (htransmissions : world'.transmissions = t ::ₘ world.transmissions)
    (hnew : t.serial < world.stamped → world.copies t.serial < t.copy)
    (hstamped : world.stamped ≤ world'.stamped)
    (hcopies : ∀ serial, world.copies serial ≤ world'.copies serial)
    (ht : t.serial < world'.stamped ∧ t.copy ≤ world'.copies t.serial)
    (hretained : ∀ entry ∈ world'.ring, entry.2 < world'.stamped)
    (horigins : world'.origins = world.origins)
    (hreceiver : world'.receiver = world.receiver)
    (hcontrol : world'.control = world.control) : Placed world' := by
  constructor
  case nodup =>
    rw [htransmissions, Multiset.nodup_cons]
    refine ⟨fun hmem => ?_, h.nodup⟩
    obtain ⟨hserial, hcopy⟩ := h.known t hmem
    exact absurd hcopy (Nat.not_le.mpr (hnew hserial))
  case known =>
    intro t' ht'
    rw [htransmissions, Multiset.mem_cons] at ht'
    rcases ht' with rfl | hold
    · exact ht
    · obtain ⟨hserial, hcopy⟩ := h.known t' hold
      exact ⟨hserial.trans_le hstamped, hcopy.trans (hcopies _)⟩
  case retained => exact hretained
  case batch => rw [horigins, hreceiver, h.batch]
  case messages => rw [hcontrol]; exact h.messages

/-- Transmissions only move or are forgotten. -/
theorem Placed.of_le (h : Placed world) {world' : World}
    (htransmissions : world'.transmissions ≤ world.transmissions)
    (hstamped : world'.stamped = world.stamped)
    (hcopies : world'.copies = world.copies) (hring : world'.ring = world.ring)
    (hbatch : world'.origins.length = world'.receiver.feedbackBatch.length)
    (hmessages : ∀ batch origins,
      Message.feedback batch origins ∈ world'.control →
        batch.samples.length = origins.length) : Placed world' where
  nodup := Multiset.nodup_of_le htransmissions h.nodup
  known t ht := by
    rw [hstamped, hcopies]
    exact h.known t (Multiset.mem_of_le htransmissions ht)
  retained := by
    rw [hring, hstamped]
    exact h.retained
  batch := hbatch
  messages := hmessages

theorem Placed.send (h : Placed world) (sentUs : ℕ) (bytes : UInt32)
    (padding : Bool) (cluster : Option ℕ) :
    Placed (step world (.send sentUs bytes padding cluster)) := by
  refine h.sent (t := ⟨world.stamped, 0⟩) ?_
    (fun hlt => absurd hlt (Nat.lt_irrefl _)) (Nat.le_succ _)
    (fun _ => Nat.le_refl _) ⟨Nat.lt_succ_self _, Nat.zero_le _⟩ ?_ rfl rfl rfl
  · simp only [World.transmissions, step, ← Multiset.coe_add,
      Multiset.coe_singleton, ← Multiset.singleton_add]
    abel
  · intro entry hentry
    simp only [step] at hentry ⊢
    split_ifs at hentry
    · exact (h.retained entry hentry).trans (Nat.lt_succ_self _)
    · rw [retain] at hentry
      rcases List.mem_append.mp hentry with hold | hnew
      · have hmem : entry ∈ world.ring := by
          split_ifs at hold
          · exact List.mem_of_mem_tail hold
          · exact hold
        exact (h.retained entry hmem).trans (Nat.lt_succ_self _)
      · obtain rfl := List.mem_singleton.mp hnew
        exact Nat.lt_succ_self _

theorem Placed.resendOne (h : Placed world) (seq : UInt32) :
    Placed (resendOne world seq) := by
  rw [Retransmission.resendOne]
  split
  case h_1 => exact h
  case h_2 first serial hfind =>
    have hretained := h.retained _ (List.mem_of_find?_eq_some hfind)
    refine h.sent (t := ⟨serial, world.copies serial + 1⟩) ?_
      (fun _ => Nat.lt_succ_self _) (Nat.le_refl _) ?_ ⟨hretained, ?_⟩
      h.retained rfl rfl rfl
    · simp only [World.transmissions, ← Multiset.coe_add,
        Multiset.coe_singleton, ← Multiset.singleton_add]
      abel
    · intro serial'
      by_cases hserial : serial' = serial
      · subst hserial
        simp
      · simp [hserial]
    · simp

theorem coe_eq_erase_add {t : Transmission} {l : List Transmission}
    (h : t ∈ l) : (l : Multiset Transmission) = ↑(l.erase t) + {t} := by
  rw [← Multiset.coe_singleton, Multiset.coe_add, Multiset.coe_eq_coe]
  exact (List.perm_cons_erase h).trans (List.perm_append_singleton t _).symm

theorem Placed.lose (h : Placed world) (t : Transmission) :
    Placed (step world (.lose t)) := by
  simp only [step]
  split_ifs with hmem
  · refine h.of_le (le_of_eq ?_) rfl rfl rfl h.batch h.messages
    simp only [World.transmissions, ← Multiset.coe_add,
      Multiset.coe_singleton]
    rw [coe_eq_erase_add hmem]
    abel
  · exact h

theorem origins_messages (nack : List UInt32)
    (feedback : Option PacketFeedback) (origins : List Transmission) :
    (messages nack feedback origins).flatMap Message.origins =
      if feedback.isSome then origins else [] := by
  rw [messages, List.flatMap_append]
  cases feedback <;> split_ifs <;> simp_all [Message.origins]

theorem mem_messages {nack : List UInt32} {feedback : Option PacketFeedback}
    {origins origins' : List Transmission} {batch : PacketFeedback}
    (h : Message.feedback batch origins' ∈ messages nack feedback origins) :
    feedback = some batch ∧ origins' = origins := by
  rcases List.mem_append.mp h with hnack | hfeedback
  · split_ifs at hnack
    · cases hnack
    · cases List.mem_singleton.mp hnack
  · obtain ⟨batch', hbatch', heq⟩ :=
      Option.map_eq_some_iff.mp (Option.mem_toList.mp hfeedback)
    obtain ⟨rfl, rfl⟩ := Message.feedback.inj heq
    exact ⟨hbatch', rfl⟩

theorem Placed.arrive (h : Placed world) (t : Transmission) (nowUs : ℕ)
    (writer : Bool) : Placed (step world (.arrive t nowUs writer)) := by
  simp only [step]
  split_ifs with hmem
  · have hcases := world.receiver.recordArrival_cases (wire t.serial) nowUs
      writer
    simp only [Retransmission.arrive]
    generalize world.receiver.recordArrival (wire t.serial) nowUs writer =
      recorded at hcases
    obtain ⟨receiver, nack, feedback⟩ := recorded
    simp only at hcases ⊢
    have hlength : (world.origins ++ [t]).length =
        (world.receiver.feedbackBatch ++ [(wire t.serial, nowUs)]).length := by
      rw [List.length_append, List.length_append, h.batch]
      rfl
    have hmoved : world.transmissions =
        ↑(world.inFlight.erase t) + ↑world.lost + ↑(world.origins ++ [t]) +
          ↑(world.control.flatMap Message.origins) := by
      rw [World.transmissions, coe_eq_erase_add hmem, ← Multiset.coe_add,
        Multiset.coe_singleton]
      abel
    rcases hcases with ⟨hkept, rfl⟩ | ⟨hcleared, hsent⟩
    · -- The batch keeps the new origin.
      have hne : receiver.feedbackBatch ≠ [] := by
        rw [hkept]
        exact List.append_ne_nil_of_right_ne_nil _ nofun
      rw [if_neg hne]
      refine h.of_le (le_of_eq ?_) rfl rfl rfl ?_ ?_
      · rw [hmoved]
        simp only [World.transmissions, List.flatMap_append, origins_messages,
          Option.isSome_none, Bool.false_eq_true, if_false, List.append_nil]
      · rw [hkept, hlength]
      · intro batch origins hbatch
        rcases List.mem_append.mp hbatch with hold | hnew
        · exact h.messages batch origins hold
        · cases (mem_messages hnew).1
    · -- The batch is emptied, and a message takes its origins, or nothing.
      rw [if_pos hcleared]
      refine h.of_le ?_ rfl rfl rfl ?_ ?_
      · rw [hmoved]
        simp only [World.transmissions, List.flatMap_append, origins_messages,
          ← Multiset.coe_add (world.control.flatMap Message.origins)]
        have hle : ((if feedback.isSome then world.origins ++ [t] else [] :
            List Transmission) : Multiset Transmission) ≤
              ↑(world.origins ++ [t]) := by
          split_ifs
          · exact le_refl _
          · exact Multiset.zero_le _
        rw [Multiset.coe_nil, add_zero, ← add_assoc, add_right_comm]
        gcongr
      · rw [hcleared]
        rfl
      · intro batch origins hbatch
        rcases List.mem_append.mp hbatch with hold | hnew
        · exact h.messages batch origins hold
        · obtain ⟨hfeedback, rfl⟩ := mem_messages hnew
          rw [hsent batch hfeedback, Receiver.length_samples_batchMessage,
            hlength]
  · exact h

theorem Placed.deliver (h : Placed world) (nowUs : ℕ) :
    Placed (step world (.deliver nowUs)) := by
  simp only [step, Retransmission.deliver]
  cases hcontrol : world.control with
  | nil => exact h
  | cons message rest =>
      -- The message is forgotten.
      have hle : ∀ world' : World, world'.inFlight = world.inFlight →
          world'.lost = world.lost → world'.origins = world.origins →
          world'.control = rest →
          world'.transmissions ≤ world.transmissions := by
        intro world' hflight hlost horigins hrest
        rw [World.transmissions, World.transmissions, hflight, hlost,
          horigins, hrest, hcontrol, List.flatMap_cons, ← Multiset.coe_add]
        gcongr
        exact Multiset.le_add_left _ _
      have hmessages : ∀ batch origins,
          Message.feedback batch origins ∈ rest →
            batch.samples.length = origins.length := fun batch origins hmem =>
        h.messages batch origins (hcontrol ▸ List.mem_cons_of_mem _ hmem)
      cases message with
      | nack seqs =>
          exact h.of_le (hle _ rfl rfl rfl rfl) rfl rfl rfl h.batch hmessages
      | feedback batch origins =>
          dsimp only
          split
          · exact h.of_le (hle _ rfl rfl rfl rfl) rfl rfl rfl h.batch hmessages
          · exact h.of_le (hle _ rfl rfl rfl rfl) rfl rfl rfl h.batch hmessages

theorem Placed.resend (h : Placed world) : Placed (step world .resend) := by
  simp only [step]
  split
  case h_1 => exact h
  case h_2 seqs rest hqueue =>
    have hfold : ∀ (seqs : List UInt32) (world : World), Placed world →
        Placed (seqs.foldl Retransmission.resendOne world) := by
      intro seqs
      induction seqs with
      | nil => exact fun _ h => h
      | cons seq seqs ih => exact fun _ h => ih _ (h.resendOne seq)
    exact hfold seqs _
      ⟨h.nodup, h.known, h.retained, h.batch, h.messages⟩

theorem Placed.step (h : Placed world) (event : Event) :
    Placed (step world event) := by
  cases event with
  | send sentUs bytes padding cluster =>
      exact h.send sentUs bytes padding cluster
  | resend => exact h.resend
  | lose t => exact h.lose t
  | arrive t nowUs writer => exact h.arrive t nowUs writer
  | deliver nowUs => exact h.deliver nowUs

/-! ## What the estimator is told -/

theorem driver_foldl_resendOne (seqs : List UInt32) (world : World) :
    (seqs.foldl resendOne world).driver = world.driver := by
  induction seqs generalizing world with
  | nil => rfl
  | cons seq seqs ih =>
      rw [List.foldl_cons, ih, Retransmission.resendOne]
      split <;> rfl

/-- Only a delivered batch with samples reaches the driver. -/
theorem driver_step (world : World) (event : Event) :
    ((step world event).driver = world.driver ∧
      ∀ nowUs batch origins, event = .deliver nowUs →
        world.control.head? = some (.feedback batch origins) →
          batch.samples.getLast? = none) ∨
    ∃ nowUs batch origins last, event = .deliver nowUs ∧
      world.control.head? = some (.feedback batch origins) ∧
      batch.samples.getLast? = some last ∧
      (step world event).driver = world.driver.onFeedback
        (takeUpto world.history last.1).1 batch nowUs := by
  cases event with
  | send sentUs bytes padding cluster => exact Or.inl ⟨rfl, nofun⟩
  | resend =>
      refine Or.inl ⟨?_, nofun⟩
      simp only [Retransmission.step]
      split
      · rfl
      · exact driver_foldl_resendOne _ _
  | lose t =>
      refine Or.inl ⟨?_, nofun⟩
      simp only [Retransmission.step]
      split_ifs <;> rfl
  | arrive t nowUs writer =>
      refine Or.inl ⟨?_, nofun⟩
      simp only [Retransmission.step]
      split_ifs <;> rfl
  | deliver nowUs =>
      simp only [Retransmission.step, Retransmission.deliver]
      cases hcontrol : world.control with
      | nil => exact Or.inl ⟨rfl, nofun⟩
      | cons message rest =>
          cases message with
          | nack seqs => exact Or.inl ⟨rfl, nofun⟩
          | feedback batch origins =>
              dsimp only
              split
              case h_1 hlast =>
                  refine Or.inl ⟨rfl, ?_⟩
                  rintro _ _ _ - heq
                  obtain ⟨rfl, -⟩ := Message.feedback.inj (Option.some.inj heq)
                  exact hlast
              case h_2 maxSeq delta hlast =>
                  exact Or.inr ⟨nowUs, batch, origins, (maxSeq, delta), rfl,
                    rfl, hlast, rfl⟩

/-- The arrivals of a message in flight were not lost. -/
theorem Placed.not_lost (h : Placed world) {batch : PacketFeedback}
    {origins : List Transmission} {t : Transmission}
    (hhead : world.control.head? = some (.feedback batch origins))
    (ht : t ∈ origins) : t ∉ world.lost := by
  intro hlost
  have hmem : t ∈ world.control.flatMap Message.origins :=
    List.mem_flatMap.mpr ⟨_, List.mem_of_mem_head? hhead, ht⟩
  have hnodup := h.nodup
  rw [World.transmissions, Multiset.nodup_add, Multiset.nodup_add] at hnodup
  refine Multiset.disjoint_left.mp hnodup.2.2 (Multiset.mem_add.mpr
    (Or.inl (Multiset.mem_add.mpr (Or.inr hlost)))) hmem

theorem sameTransmission_iff (h : Placed world) (event : Event) :
    SameTransmission world event ↔ NoCopyAwaited world event := by
  rcases driver_step world event with ⟨hdriver, hidle⟩ |
    ⟨nowUs, batch, origins, last, rfl, hhead, hlast, hdriver⟩
  · have htold : told world event = [] := by
      rw [told, hdriver, newReports_self]
    refine iff_of_true ?_ ?_
    · rw [SameTransmission, htold]
      exact nofun
    · cases event with
      | deliver nowUs =>
          intro batch origins hhead last hlast
          rw [hidle nowUs batch origins rfl hhead] at hlast
          cases hlast
      | _ => trivial
  · have hlength := h.messages batch origins (List.mem_of_mem_head? hhead)
    constructor
    · intro hsame batch' origins' hhead' last' hlast' record hrecord t ht
      obtain ⟨rfl, rfl⟩ := Message.feedback.inj
        (Option.some.inj (hhead'.symm.trans hhead))
      obtain rfl := Option.some.inj (hlast.symm.trans hlast')
      have harrival : (arrivalOf batch' record.seq).isSome := by
        rw [← isSome_originOf hlength, ht]
        rfl
      obtain ⟨report, hreport, hreceived, rfl⟩ :=
        (received_newReports_iff _ _ _ nowUs record).mpr ⟨hrecord, harrival⟩
      rw [← hdriver] at hreport
      obtain ⟨_, _, hhead'', horigin, -⟩ := hsame report hreport hreceived
      obtain ⟨rfl, rfl⟩ := Message.feedback.inj
        (Option.some.inj (hhead''.symm.trans hhead))
      obtain rfl := Option.some.inj (horigin.symm.trans ht)
      exact ⟨rfl, rfl⟩
    · intro hnone report hreport hreceived
      rw [told, hdriver] at hreport
      obtain ⟨hrecord, harrival⟩ := (received_newReports_iff _ _ _ _
        report.record).mp ⟨report, hreport, hreceived, rfl⟩
      rw [← isSome_originOf hlength] at harrival
      obtain ⟨⟨serial, copy⟩, horigin⟩ := Option.isSome_iff_exists.mp harrival
      obtain ⟨hcopy, hserial⟩ :=
        hnone batch origins hhead last hlast report.record hrecord _ horigin
      dsimp only at hcopy hserial
      subst hcopy hserial
      exact ⟨batch, origins, hhead, horigin,
        h.not_lost hhead (mem_of_originOf horigin)⟩

end Steps

/-- In every run, all joins are of one transmission each if and only if no
batch names a copy for a record that the driver still waits for. -/
theorem sameTransmission_iff_noCopyAwaited (nowAgentUs : ℕ)
    (events : List Event) :
    Along step SameTransmission (start nowAgentUs) events ↔
      Along step NoCopyAwaited (start nowAgentUs) events :=
  along_iff_along Placed (fun _ event h _ => h.step event)
    (fun _ event h => sameTransmission_iff h event) (placed_start nowAgentUs)
    events

/-- Of three datagrams the second is lost, asked for and sent again. -/
def nackedLoss : List Event :=
  [.send 80000 1000 false none, .send 80100 1000 false none,
    .send 80200 1000 false none, .lose ⟨1, 0⟩, .arrive ⟨0, 0⟩ 100000 true,
    .arrive ⟨2, 0⟩ 101000 true, .deliver 102000, .deliver 102100, .resend,
    .arrive ⟨1, 1⟩ 160000 true, .deliver 170000]

/-- The copy's arrival is joined with the send time of the lost original. -/
theorem not_sameTransmission_nackedLoss :
    ¬Along step SameTransmission (start 0) nackedLoss := by
  rintro ⟨-, -, -, -, -, -, -, -, -, -, hdeliver, -⟩
  have htold : ∃ report ∈ told ((nackedLoss.take 10).foldl step (start 0))
      (.deliver 170000), report.received.isSome ∧ report.record.serial = 1 := by
    decide +kernel
  have hhead : ((nackedLoss.take 10).foldl step (start 0)).control.head? =
      some (.feedback ⟨101000, [(2, 0), (1, 59000)]⟩ [⟨2, 0⟩, ⟨1, 1⟩]) := by
    decide +kernel
  obtain ⟨report, hreport, hreceived, hserial⟩ := htold
  obtain ⟨batch, origins, hbatch, horigin, -⟩ :=
    hdeliver report hreport hreceived
  obtain ⟨rfl, rfl⟩ := Message.feedback.inj
    (Option.some.inj (hbatch.symm.trans hhead))
  rw [SendRecord.seq, hserial] at horigin
  revert horigin
  decide

end GameStreamer.Retransmission
