import GameStreamer.Client.Run

/-!
# The frame that a recovery request cites

A `RequestRecovery` must cite a frame the decoder truly has: the agent keeps
that frame as its safe reference.  The client cites the newest frame it
*delivered*, and a decode error is reported after delivery, so the request
that the error triggers cites the very frame the decoder rejected.  This
module proves which requests are affected.
-/

namespace GameStreamer

namespace Client

/-! ## The messages of one pass through the gate -/

theorem keyframeRequest_congr {left right : Client}
    (hdelivered : left.lastDeliveredId = right.lastDeliveredId) :
    left.keyframeRequest = right.keyframeRequest := by
  simp only [keyframeRequest, hdelivered]

theorem freeze_cites (client : Client) (env : RequestEnv) :
    ∀ message ∈ (client.freeze env).sent,
      message = client.keyframeRequest := by
  intro message hmessage
  rw [freeze, requestKeyframeThrottled_sent] at hmessage
  split at hmessage
  · exact (Option.mem_some_iff.mp hmessage).symm
  · cases hmessage

theorem decodeFailed_sent (client : Client) (env : RequestEnv) :
    (client.decodeFailed env).sent =
      if client.canSend env then some client.keyframeRequest else none :=
  requestKeyframeThrottled_sent _ env

theorem takeDecodeError_cites (client : Client) (env : RequestEnv) :
    ∀ message ∈ (client.takeDecodeError env).sent,
      message = client.keyframeRequest := by
  rw [takeDecodeError]
  split
  · exact freeze_cites { client with decodeError := false } env
  · simp

theorem noteFrame_cites (client : Client) (frame : CompletedFrame)
    (env : RequestEnv) :
    ∀ message ∈ (client.noteFrame frame env).sent,
      message = client.keyframeRequest := by
  rw [noteFrame]
  split
  · simp
  · split
    · exact freeze_cites client env
    · simp

theorem releaseOrSkip_sent (core : Client) (arrived : ArrivedFrame)
    (backlog : Bool) (env : GateEnv) (sent : List C2A) :
    (core.releaseOrSkip arrived backlog env sent).sent =
      sent ++
        if core.awaitingIdr && arrived.frame.kind ≠ .idr &&
          !core.recoveryCovers arrived.frame.frameId &&
          core.canSend env.skipRequest
        then [core.keyframeRequest] else [] := by
  by_cases hopen : core.awaitingIdr = false ∨ arrived.frame.kind = .idr
  · rw [releaseOrSkip_open backlog env sent hopen]
    rcases hopen with hopen | hopen <;> simp [deliver, hopen]
  · obtain ⟨hfrozen, hkind⟩ := not_or.mp hopen
    replace hfrozen : core.awaitingIdr = true := by simpa using hfrozen
    cases hcovers : core.recoveryCovers arrived.frame.frameId with
    | true =>
        rw [releaseOrSkip_thaw backlog env sent hfrozen hkind hcovers]
        simp [deliver]
    | false =>
        rw [releaseOrSkip_skip backlog env sent hfrozen hkind hcovers]
        have hsent : (requestKeyframeThrottled
            { core with lastFrameId := some arrived.frame.frameId }
            env.skipRequest).sent =
              if core.canSend env.skipRequest then some core.keyframeRequest
              else none :=
          requestKeyframeThrottled_sent _ env.skipRequest
        dsimp only
        rw [hsent, hfrozen]
        cases core.canSend env.skipRequest <;> simp [hkind]

/-- Everything the gate sends cites the frame that was the newest delivered
one when the gate was entered. -/
theorem gate_cites (client : Client) (arrived : ArrivedFrame)
    (backlog : Bool) (env : GateEnv) :
    ∀ message ∈ (client.gate arrived backlog env).sent,
      message = client.keyframeRequest := by
  set flagged := client.takeDecodeError env.breakRequest with hflagged
  obtain ⟨time, hflaggedClient⟩ :=
    takeDecodeError_client client env.breakRequest
  have hhead := takeDecodeError_cites client env.breakRequest
  rw [← hflagged] at hflaggedClient hhead
  set noted := flagged.client.noteFrame arrived.frame env.breakRequest
    with hnoted
  have hmiddle := noteFrame_cites flagged.client arrived.frame
    env.breakRequest
  rw [← hnoted, show flagged.client.keyframeRequest = client.keyframeRequest
    from keyframeRequest_congr (by simp [hflaggedClient])] at hmiddle
  have hnotedDelivered : noted.client.lastDeliveredId =
      client.lastDeliveredId := by
    by_cases hkind : arrived.frame.kind = .idr
    · simp [hnoted, noteFrame_idr _ hkind, hflaggedClient]
    · obtain ⟨time', hnotedClient⟩ :=
        noteFrame_client flagged.client hkind env.breakRequest
      rw [← hnoted] at hnotedClient
      simp [hnotedClient, hflaggedClient]
  have hboth : ∀ message ∈ flagged.sent.toList ++ noted.sent.toList,
      message = client.keyframeRequest := by
    intro message hmessage
    rcases List.mem_append.mp hmessage with hmem | hmem
    · exact hhead message (Option.mem_toList.mp hmem)
    · exact hmiddle message (Option.mem_toList.mp hmem)
  simp only [gate, ← hflagged, ← hnoted]
  intro message hmessage
  split at hmessage
  · exact hhead message (Option.mem_toList.mp hmessage)
  · split at hmessage
    · exact hboth message hmessage
    · rw [releaseOrSkip_sent] at hmessage
      rcases List.mem_append.mp hmessage with hmem | hmem
      · exact hboth message hmem
      · split at hmem
        · rw [List.mem_singleton.mp hmem]
          exact keyframeRequest_congr hnotedDelivered
        · cases hmem

/-- No request site that a broken client reaches with this frame gets its
request past the throttle and onto the wire. -/
def QuietFor (client : Client) (frame : CompletedFrame) (env : GateEnv) :
    Prop :=
  (client.awaitingIdr = false → client.canSend env.breakRequest = false) ∧
  (frame.kind ≠ .idr → client.recoveryCovers frame.frameId = false →
    (client.awaitingIdr = true ∨
      client.requestFails env.breakRequest = false) →
    client.canSend env.skipRequest = false)

instance (client : Client) (frame : CompletedFrame) (env : GateEnv) :
    Decidable (client.QuietFor frame env) :=
  inferInstanceAs (Decidable (_ ∧ _))

/-- The gate of a client that already waits for an IDR asks only at its
tail. -/
theorem gate_sent_of_awaiting {client : Client} (arrived : ArrivedFrame)
    (backlog : Bool) (env : GateEnv) (hawaiting : client.awaitingIdr = true) :
    (client.gate arrived backlog env).sent = [] ↔
      (arrived.frame.kind ≠ .idr →
        client.recoveryCovers arrived.frame.frameId = false →
        client.canSend env.skipRequest = false) := by
  obtain ⟨core, hhead, hcore, hcovers, hsend⟩ : ∃ core : Client,
      client.takeDecodeError env.breakRequest = ⟨core, none, true⟩ ∧
      core.awaitingIdr = true ∧
      core.recoveryCovers arrived.frame.frameId =
        client.recoveryCovers arrived.frame.frameId ∧
      core.canSend env.skipRequest = client.canSend env.skipRequest :=
    ⟨{ client with decodeError := false }, by
      simp [takeDecodeError, hawaiting], hawaiting, rfl, rfl⟩
  by_cases hkind : arrived.frame.kind = .idr
  · simp [gate, hhead, noteFrame_idr _ hkind, releaseOrSkip_sent, hkind]
  · have hmiddle : core.noteFrame arrived.frame env.breakRequest =
        ⟨core, none, true⟩ := by
      simp [noteFrame, hkind, hcore]
    simp [gate, hhead, hmiddle, releaseOrSkip_sent, hkind, hcore, hcovers,
      hsend]

/-- A raised flag is handled before the frame is looked at: the rest of the
pass is that of a client which already waits for an IDR. -/
theorem gate_sent_of_decodeError {client : Client} {flagged : Asked}
    (arrived : ArrivedFrame) (backlog : Bool) (env : GateEnv)
    (herror : client.decodeError = true)
    (hflagged : client.takeDecodeError env.breakRequest = flagged) :
    (client.gate arrived backlog env).sent =
      flagged.sent.toList ++
        if flagged.ok then (flagged.client.gate arrived backlog env).sent
        else [] := by
  obtain ⟨time, hclient⟩ := takeDecodeError_client client env.breakRequest
  rw [hflagged] at hclient
  have hagain : flagged.client.takeDecodeError env.breakRequest =
      ⟨flagged.client, none, true⟩ := by
    simp only [hclient, herror, Bool.or_true]
    rfl
  cases hok : flagged.ok with
  | false => simp [gate, hflagged, hok]
  | true =>
      cases hmiddle :
        (flagged.client.noteFrame arrived.frame env.breakRequest).ok <;>
        simp [gate, hflagged, hok, hagain, hmiddle, releaseOrSkip_sent]

/-- A broken client sends nothing on a frame exactly when every request site
that it reaches is quiet. -/
theorem gate_sent_eq_nil_iff {client : Client} (arrived : ArrivedFrame)
    (backlog : Bool) (env : GateEnv)
    (hbroken : client.decodeError = true ∨ client.awaitingIdr = true) :
    (client.gate arrived backlog env).sent = [] ↔
      client.QuietFor arrived.frame env := by
  cases hawaiting : client.awaitingIdr with
  | true =>
      rw [gate_sent_of_awaiting arrived backlog env hawaiting]
      simp [QuietFor, hawaiting]
  | false =>
      have herror : client.decodeError = true := by
        simpa [hawaiting] using hbroken
      let core := { client with decodeError := false, awaitingIdr := true }
      have hhead : client.takeDecodeError env.breakRequest =
          core.requestKeyframeThrottled env.breakRequest := by
        simp [takeDecodeError, freeze, herror, hawaiting, core]
      rw [gate_sent_of_decodeError arrived backlog env herror hhead,
        List.append_eq_nil_iff, requestKeyframeThrottled_ok,
        show core.requestFails = client.requestFails from rfl,
        requestKeyframeThrottled_sent,
        show core.canSend = client.canSend from rfl]
      cases hbreak : client.canSend env.breakRequest with
      | true => simp [QuietFor, hawaiting, hbreak]
      | false =>
          cases hfails : client.requestFails env.breakRequest with
          | true => simp [QuietFor, hawaiting, hbreak, hfails]
          | false =>
              obtain ⟨time, hclient⟩ :=
                requestKeyframeThrottled_client core env.breakRequest
              have hskip : (core.requestKeyframeThrottled
                  env.breakRequest).client.canSend env.skipRequest =
                  client.canSend env.skipRequest := by
                rcases requestKeyframeThrottled_quiet
                  (show core.canSend env.breakRequest = false from hbreak)
                  hfails with hsame | hdetached
                · rw [hsame]; rfl
                · have hnone : client.control = .detached := hdetached
                  rw [hclient]
                  simp [canSend, core, hnone]
              simp only [Bool.not_false, if_true, Bool.false_eq_true, if_false]
              rw [gate_sent_of_awaiting arrived backlog env
                (by rw [hclient]), hskip]
              simp [QuietFor, hawaiting, hbreak, hfails, hclient, core,
                recoveryCovers]

end Client

namespace RecoveryRequest

open SerialNumber ClientRun

/-! ## Requests over a whole run -/

/-- The newest frame delivered under this wire id, and whether the decoder
rejected it since. -/
def namedBy (frameId : UInt32) : History → Option (ℕ × Bool)
  | [] => none
  | .delivered id _ :: older =>
      if wire id = frameId then some (id, false) else namedBy frameId older
  | .rejected id :: older =>
      (namedBy frameId older).map fun named =>
        (named.1, named.2 || named.1 = id)
  | .announced _ :: older => namedBy frameId older
  | .asked _ :: older => namedBy frameId older

/-- Every recovery request that was sent names a frame which was delivered
and which the decoder had not rejected. -/
def CitesDecoded : History → Prop
  | [] => True
  | .asked (.requestRecovery lastGoodFrameId) :: older =>
      (∃ id, namedBy lastGoodFrameId older = some (id, false)) ∧
        CitesDecoded older
  | _ :: older => CitesDecoded older

/-- The newest delivered frame, and whether the decoder rejected it since. -/
def tip : History → Option (ℕ × Bool)
  | [] => none
  | .delivered id _ :: _ => some (id, false)
  | .rejected id :: older =>
      (tip older).map fun newest => (newest.1, newest.2 || newest.1 = id)
  | .announced _ :: older => tip older
  | .asked _ :: older => tip older

theorem namedBy_of_tip {history : History} {newest : ℕ × Bool}
    (htip : tip history = some newest) :
    namedBy (wire newest.1) history = some newest := by
  induction history generalizing newest with
  | nil => cases htip
  | cons entry older ih =>
      cases entry with
      | delivered id kind =>
          obtain rfl : (id, false) = newest := by simpa [tip] using htip
          simp [namedBy]
      | rejected id =>
          obtain ⟨before, hbefore, rfl⟩ := Option.map_eq_some_iff.mp htip
          simp [namedBy, ih hbefore]
      | announced firstSafe => exact ih htip
      | asked message => exact ih htip

theorem lastDelivered_eq_tip (history : History) :
    lastDelivered history = (tip history).map Prod.fst := by
  induction history with
  | nil => rfl
  | cons entry older ih =>
      cases entry with
      | delivered id kind => rfl
      | rejected id => simp [lastDelivered, tip, ih, Function.comp_def]
      | announced firstSafe => exact ih
      | asked message => exact ih

theorem recordAsked_cons (message : C2A) (sent : List C2A)
    (history : History) :
    recordAsked (message :: sent) history =
      recordAsked sent (.asked message :: history) := by
  simp [recordAsked]

@[simp]
theorem tip_recordAsked (sent : List C2A) (history : History) :
    tip (recordAsked sent history) = tip history := by
  induction sent generalizing history with
  | nil => rfl
  | cons message sent ih => rw [recordAsked_cons, ih]; rfl

theorem citesDecoded_of_recordAsked {sent : List C2A} {history : History}
    (hcites : CitesDecoded (recordAsked sent history)) :
    CitesDecoded history := by
  induction sent generalizing history with
  | nil => exact hcites
  | cons message sent ih =>
      rw [recordAsked_cons] at hcites
      have hnext := ih hcites
      cases message <;> simp_all [CitesDecoded]

/-- What ties the client to its history: the frame that it cites is the newest
one that it delivered, and when that one was rejected the client knows. -/
structure Tracks (state : State) : Prop where
  cited : state.client.lastDeliveredId =
    (tip state.history).map (wire ·.1)
  broken : ∀ id, tip state.history = some (id, true) →
    state.client.decodeError = true ∨ state.client.awaitingIdr = true

/-- Requests that all cite the newest delivered frame are honest exactly when
there are none or that frame stands. -/
theorem citesDecoded_recordAsked_iff {client : Client} {sent : List C2A}
    {history : History} (hbefore : CitesDecoded history)
    (hcited : client.lastDeliveredId = (tip history).map (wire ·.1))
    (hsent : ∀ message ∈ sent, message = client.keyframeRequest) :
    CitesDecoded (recordAsked sent history) ↔
      ((∃ id, tip history = some (id, true)) → sent = []) := by
  induction sent generalizing history with
  | nil => simpa [recordAsked] using hbefore
  | cons message sent ih =>
      obtain rfl : message = client.keyframeRequest :=
        hsent message List.mem_cons_self
      rw [recordAsked_cons]
      cases htip : tip history with
      | none =>
          have hrequest : client.keyframeRequest = .requestKeyframe := by
            simp [Client.keyframeRequest, hcited, htip]
          rw [hrequest, ih (by exact hbefore) (by simpa [tip] using hcited)
            fun message hmem => hsent message (List.mem_cons_of_mem _ hmem)]
          simp [tip, htip]
      | some newest =>
          have hrequest : client.keyframeRequest =
              .requestRecovery (wire newest.1) := by
            simp [Client.keyframeRequest, hcited, htip]
          have hnamed := namedBy_of_tip htip
          rw [hrequest]
          cases hrejected : newest.2 with
          | true =>
              refine iff_of_false (fun hcites => ?_) (fun himp => ?_)
              · obtain ⟨⟨id, hid⟩, -⟩ := citesDecoded_of_recordAsked hcites
                rw [hnamed] at hid
                cases Option.some.inj hid
                cases hrejected
              · have hnone := himp ⟨newest.1, by rw [← hrejected]⟩
                cases hnone
          | false =>
              have hhead : CitesDecoded
                  (.asked (.requestRecovery (wire newest.1)) :: history) :=
                ⟨⟨newest.1, by rw [hnamed, ← hrejected]⟩, hbefore⟩
              rw [ih hhead (by simpa [tip] using hcited)
                fun message hmem => hsent message (List.mem_cons_of_mem _ hmem)]
              simp [tip, htip, Prod.ext_iff, hrejected]
/-- Nothing is asked for while the newest delivered frame stands rejected. -/
def QuietWhileRejected (state : State) : Event → Prop
  | .frame released _ env =>
      (∃ id, tip state.history = some (id, true)) →
      state.client.QuietFor released.arrived.frame env
  | .decodeFailed env =>
      (∃ id, tip state.history = some id) → state.client.canSend env = false
  | _ => True

theorem tracks_start (control : ControlPath) (clockSync : ClockSync) :
    Tracks (start control clockSync) where
  cited := rfl
  broken := by simp [start, tip]

theorem tracks_step (state : State) (event : Event) (htracks : Tracks state) :
    Tracks (step state event) := by
  cases event with
  | recoveryPoint firstSafe => exact ⟨htracks.cited, htracks.broken⟩
  | embedderRejects id =>
      exact
        { cited := by
            simpa [step, tip, Function.comp_def] using htracks.cited
          broken := fun _ _ => Or.inl rfl }
  | decodeFailed env =>
      simp only [step]
      cases lastDelivered state.history with
      | none => exact htracks
      | some id =>
          obtain ⟨time, htime⟩ := Client.requestKeyframeThrottled_client
            { state.client with awaitingIdr := true } env
          exact
            { cited := by
                simpa [Client.decodeFailed, Client.freeze, htime, tip,
                  Function.comp_def] using htracks.cited
              broken := fun _ _ => Or.inr (by
                simp [Client.decodeFailed, Client.freeze, htime]) }
  | frame released backlog env =>
      obtain ⟨hhistory, hover⟩ | ⟨hhistory, hheld⟩ :=
        step_frame_cases state released backlog env
      · exact
          { cited := by rw [hhistory, hover.lastDeliveredId]; rfl
            broken := fun id h => by simp [hhistory, tip] at h }
      · exact
          { cited := by
              rw [hhistory, hheld.lastDeliveredId, tip_recordAsked,
                htracks.cited]
            broken := fun _ _ => Or.inr hheld.awaitingIdr }

theorem citesDecoded_of_step (state : State) (event : Event)
    (hafter : CitesDecoded (step state event).history) :
    CitesDecoded state.history := by
  cases event with
  | recoveryPoint firstSafe => exact hafter
  | embedderRejects id => exact hafter
  | decodeFailed env =>
      simp only [step] at hafter
      split at hafter
      · exact hafter
      next id _ =>
        have hbefore : CitesDecoded (.rejected id :: state.history) :=
          citesDecoded_of_recordAsked hafter
        exact hbefore
  | frame released backlog env =>
      obtain ⟨hhistory, -⟩ | ⟨hhistory, -⟩ :=
        step_frame_cases state released backlog env
      all_goals
        rw [hhistory] at hafter
        exact citesDecoded_of_recordAsked hafter

/-- One step stays honest exactly when it asks for nothing while the newest
delivered frame stands rejected. -/
theorem citesDecoded_step_iff (state : State) (event : Event)
    (htracks : Tracks state) (hcites : CitesDecoded state.history) :
    CitesDecoded (step state event).history ↔
      QuietWhileRejected state event := by
  cases event with
  | recoveryPoint firstSafe => exact iff_of_true hcites trivial
  | embedderRejects id => exact iff_of_true hcites trivial
  | decodeFailed env =>
      simp only [step, QuietWhileRejected]
      cases htip : tip state.history with
      | none =>
          simp [lastDelivered_eq_tip, htip, hcites]
      | some newest =>
          have hlast : lastDelivered state.history = some newest.1 := by
            rw [lastDelivered_eq_tip, htip]; rfl
          have hrejected :
              tip (.rejected newest.1 :: state.history) =
                some (newest.1, true) := by
            simp [tip, htip]
          have hsent : ∀ message ∈ (state.client.decodeFailed env).sent.toList,
              message = state.client.keyframeRequest := fun message hmem =>
            Client.freeze_cites state.client env message
              (Option.mem_toList.mp hmem)
          have hcited : state.client.lastDeliveredId =
              (tip (.rejected newest.1 :: state.history)).map (wire ·.1) := by
            rw [hrejected, htracks.cited, htip]
            rfl
          rw [hlast]
          dsimp only
          have hbefore : CitesDecoded
              (.rejected newest.1 :: state.history) := hcites
          rw [citesDecoded_recordAsked_iff hbefore hcited hsent, hrejected,
            Client.decodeFailed_sent]
          cases state.client.canSend env <;> simp
  | frame released backlog env =>
      have hrequests : CitesDecoded (recordAsked
          (state.client.gate released.arrived backlog env).sent
            state.history) ↔
          ((∃ id, tip state.history = some (id, true)) →
            state.client.QuietFor released.arrived.frame env) := by
        rw [citesDecoded_recordAsked_iff hcites htracks.cited
          (Client.gate_cites state.client released.arrived backlog env)]
        apply forall_congr'
        rintro ⟨id, hid⟩
        exact Client.gate_sent_eq_nil_iff released.arrived backlog env
          (htracks.broken id hid)
      obtain ⟨hhistory, -⟩ | ⟨hhistory, -⟩ :=
        step_frame_cases state released backlog env
      all_goals
        rw [hhistory]
        exact hrequests

/-! ## Whole runs -/

/-- Every recovery request of a run cites a frame the decoder has exactly
when the run asks for nothing between the rejection of the newest delivered
frame and the next delivery. -/
theorem citesDecoded_iff_quietWhileRejected (control : ControlPath)
    (clockSync : ClockSync) (events : List Event) :
    CitesDecoded (events.foldl step (start control clockSync)).history ↔
      EventRun.Along step QuietWhileRejected (start control clockSync)
        events :=
  EventRun.good_iff_along_of_preserves Tracks
    (fun state => CitesDecoded state.history) tracks_step
    (fun state event _ => citesDecoded_of_step state event)
    citesDecoded_step_iff (tracks_start control clockSync) trivial

/-- The decoder rejects the first frame, and the request for help that
follows cites this very frame. -/
def rejectedFirstFrame : List Event :=
  [.plainFrame 0 .idr 1000000, .decodeFailed ⟨1010000, true⟩]

theorem not_citesDecoded_rejectedFirstFrame :
    (rejectedFirstFrame.foldl step
        (start .writer ⟨some (4000, 0)⟩)).history =
      [.asked (.requestRecovery 0), .rejected 0, .delivered 0 .idr] ∧
    ¬ CitesDecoded (rejectedFirstFrame.foldl step
      (start .writer ⟨some (4000, 0)⟩)).history :=
  ⟨by decide, fun hcites => absurd hcites (by
    rw [show (rejectedFirstFrame.foldl step
      (start .writer ⟨some (4000, 0)⟩)).history =
        [.asked (.requestRecovery 0), .rejected 0, .delivered 0 .idr]
      by decide]
    rintro ⟨⟨id, hid⟩, -⟩
    simp [namedBy] at hid)⟩

end RecoveryRequest

end GameStreamer
