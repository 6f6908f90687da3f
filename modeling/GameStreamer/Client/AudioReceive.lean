import GameStreamer.Protocol.WireFormat
import Mathlib.Data.List.Chain

/-!
# Audio receive

The client decodes the audio datagrams in the order of their sequence numbers:
a small gap is concealed, a duplicate or late packet dropped.  The state is
the last decoded number; what the decoder is asked for does not depend on its
answers, so the calls themselves are the output.

The discipline is stated for datagrams as byte strings: of any sequence of them
the decoded packets are each ahead of the one before.
-/

namespace GameStreamer

/-- One call of the Opus decoder.  The sequence number of a decoded packet is
kept beside its payload. -/
inductive DecoderCall where
  | conceal
  | decode (seq : UInt16) (opus : Bytes)
  deriving DecidableEq, Repr

/-- The receiver of audio datagrams with the decoder calls it has made.  What
the decoder answers has no influence on the calls. -/
structure AudioReceive where
  lastSeq : Option UInt16
  /-- The calls made so far, oldest first. -/
  calls : List DecoderCall
  deriving DecidableEq, Repr

namespace AudioReceive

/-- Upper bound on frames concealed across one gap. -/
def maxConceal : ℕ := 5

/-- The receiver handed to the embedder. -/
def new : AudioReceive := ⟨none, []⟩

/-- `for _ in 0..frames { decoder.conceal() }`. -/
def conceal (recv : AudioReceive) (frames : ℕ) : AudioReceive :=
  { recv with calls := recv.calls ++ List.replicate frames .conceal }

/-- `decoder.decode(opus)`, which leaves the packet the last one. -/
def decode (recv : AudioReceive) (seq : UInt16) (opus : Bytes) :
    AudioReceive :=
  ⟨some seq, recv.calls ++ [.decode seq opus]⟩

/-- Decode one audio datagram, concealing a small gap before it.  A datagram
that does not parse, or is not ahead of the last one, is ignored. -/
def handle (recv : AudioReceive) (datagram : Bytes) : AudioReceive :=
  match AudioDatagramHeader.parse datagram with
  | .error _ => recv
  | .ok (hdr, opus) =>
      match recv.lastSeq with
      | none => recv.decode hdr.seq opus
      | some last =>
          let delta := hdr.seq - last
          -- A duplicate, or reordered and late.
          if delta = 0 ∨ 0xffff / 2 < delta then recv
          else (recv.conceal (min (delta - 1).toNat maxConceal)).decode
            hdr.seq opus

/-! ## The discipline -/

/-- A packet as it was given to the decoder. -/
structure Packet where
  seq : UInt16
  opus : Bytes
  deriving DecidableEq, Repr

/-- Ahead in serial arithmetic, by less than half of the number space. -/
def Ahead (previous next : UInt16) : Prop :=
  1 ≤ (next - previous).toNat ∧ (next - previous).toNat ≤ 32767

/-- How many packets are missing between two. -/
def missing (previous next : UInt16) : ℕ := (next - previous).toNat - 1

/-- The packets that were decoded, oldest first. -/
def decoded (calls : List DecoderCall) : List Packet :=
  calls.filterMap fun call =>
    match call with
    | .conceal => none
    | .decode seq opus => some ⟨seq, opus⟩

/-- The concealment of the gap after `last`: one frame for each missing
packet, five at most. -/
def gapCalls (last : Option UInt16) (seq : UInt16) : List DecoderCall :=
  match last with
  | none => []
  | some previous => List.replicate (min (missing previous seq) 5) .conceal

/-- A packet after `last` is decoded once its gap is concealed. -/
def packetCalls (last : Option UInt16) (packet : Packet) : List DecoderCall :=
  gapCalls last packet.seq ++ [.decode packet.seq packet.opus]

/-- The calls that decode the packets one after another. -/
def callsFrom : Option UInt16 → List Packet → List DecoderCall
  | _, [] => []
  | last, packet :: packets =>
      packetCalls last packet ++ callsFrom (some packet.seq) packets

/-- The sequence number of the last decoded packet. -/
def lastDecoded (calls : List DecoderCall) : Option UInt16 :=
  (decoded calls).getLast?.map Packet.seq

/-- Nothing was decoded yet, or the number is ahead of the last. -/
def Newer (last : Option UInt16) (seq : UInt16) : Prop :=
  ∀ previous, last = some previous → Ahead previous seq

theorem callsFrom_concat (last : Option UInt16) (packets : List Packet)
    (packet : Packet) :
    callsFrom last (packets ++ [packet]) =
      callsFrom last packets ++
        packetCalls ((packets.getLast?.map Packet.seq).or last) packet := by
  induction packets generalizing last with
  | nil =>
      rw [List.nil_append, callsFrom, callsFrom, callsFrom, List.append_nil]
      rfl
  | cons first rest ih =>
      rw [List.cons_append, callsFrom, callsFrom, ih, List.append_assoc,
        List.getLast?_cons]
      cases rest.getLast? with
      | none => rfl
      | some packet => rfl

theorem decoded_append (calls more : List DecoderCall) :
    decoded (calls ++ more) = decoded calls ++ decoded more :=
  List.filterMap_append

theorem decoded_replicate_conceal (frames : ℕ) :
    decoded (List.replicate frames .conceal) = [] := by
  rw [decoded, List.filterMap_eq_nil_iff]
  intro call hcall
  rw [List.eq_of_mem_replicate hcall]

theorem decoded_gapCalls (last : Option UInt16) (seq : UInt16) :
    decoded (gapCalls last seq) = [] := by
  cases last with
  | none => rfl
  | some previous => exact decoded_replicate_conceal _

theorem decoded_packetCalls (last : Option UInt16) (packet : Packet) :
    decoded (packetCalls last packet) = [packet] := by
  rw [packetCalls, decoded_append, decoded_gapCalls]
  rfl

/-! ## One datagram -/

theorem not_dropped_iff (last seq : UInt16) :
    ¬(seq - last = 0 ∨ 0xffff / 2 < seq - last) ↔ Ahead last seq := by
  have hhalf : (0xffff / 2 : UInt16).toNat = 32767 := rfl
  have hzero : seq - last = 0 ↔ (seq - last).toNat = 0 :=
    UInt16.toNat_inj.symm
  rw [Ahead, UInt16.lt_iff_toNat_lt, hhalf, hzero]
  omega

theorem missing_eq {last seq : UInt16} (h : Ahead last seq) :
    (seq - last - 1).toNat = missing last seq := by
  have hlt := (seq - last).toNat_lt
  rw [missing, UInt16.toNat_sub, UInt16.toNat_one]
  have hone := h.1
  omega

/-- A newer packet is decoded after its gap. -/
theorem handle_newer {recv : AudioReceive} {datagram opus : Bytes}
    {hdr : AudioDatagramHeader}
    (hparse : AudioDatagramHeader.parse datagram = .ok (hdr, opus))
    (hnewer : Newer recv.lastSeq hdr.seq) :
    recv.handle datagram =
      ⟨some hdr.seq, recv.calls ++ packetCalls recv.lastSeq
        ⟨hdr.seq, opus⟩⟩ := by
  cases hlast : recv.lastSeq with
  | none =>
      simp only [handle, hparse, hlast]
      rfl
  | some last =>
      have hahead := hnewer last hlast
      simp only [handle, hparse, hlast]
      rw [if_neg ((not_dropped_iff last hdr.seq).mpr hahead),
        missing_eq hahead, decode, conceal, packetCalls, List.append_assoc]
      rfl

/-- Any other packet is dropped. -/
theorem handle_not_newer {recv : AudioReceive} {datagram opus : Bytes}
    {hdr : AudioDatagramHeader}
    (hparse : AudioDatagramHeader.parse datagram = .ok (hdr, opus))
    (hlate : ¬Newer recv.lastSeq hdr.seq) : recv.handle datagram = recv := by
  cases hlast : recv.lastSeq with
  | none =>
      apply absurd _ hlate
      intro previous hprevious
      rw [hlast] at hprevious
      cases hprevious
  | some last =>
      have hdropped : ¬Ahead last hdr.seq := by
        intro hahead
        apply hlate
        rintro previous hprevious
        rw [hlast] at hprevious
        cases hprevious
        exact hahead
      simp only [handle, hparse, hlast]
      rw [if_pos]
      exact not_not.mp (fun h =>
        hdropped ((not_dropped_iff last hdr.seq).mp h))

theorem handle_malformed {recv : AudioReceive} {datagram : Bytes}
    {error : ProtocolError}
    (hparse : AudioDatagramHeader.parse datagram = .error error) :
    recv.handle datagram = recv := by
  rw [handle, hparse]

/-! ## Every sequence of datagrams -/

/-- What holds of every receiver: its last number is that of the last decoded
packet, the decoded packets are in order, and the calls are theirs. -/
structure Disciplined (recv : AudioReceive) : Prop where
  last : recv.lastSeq = lastDecoded recv.calls
  ahead : (decoded recv.calls).IsChain fun previous next =>
    Ahead previous.seq next.seq
  calls : recv.calls = callsFrom none (decoded recv.calls)

theorem disciplined_new : Disciplined new where
  last := rfl
  ahead := List.isChain_nil
  calls := rfl

/-- Decoding a newer packet keeps the discipline. -/
theorem Disciplined.concat {recv : AudioReceive} (h : Disciplined recv)
    (packet : Packet) (hnewer : Newer recv.lastSeq packet.seq) :
    Disciplined ⟨some packet.seq,
      recv.calls ++ packetCalls recv.lastSeq packet⟩ := by
  have hdecoded : decoded (recv.calls ++ packetCalls recv.lastSeq packet) =
      decoded recv.calls ++ [packet] := by
    rw [decoded_append, decoded_packetCalls]
  constructor
  · change some packet.seq = Option.map Packet.seq (decoded _).getLast?
    rw [hdecoded, List.getLast?_concat]
    rfl
  · rw [hdecoded, List.isChain_append]
    refine ⟨h.ahead, List.isChain_singleton _, ?_⟩
    intro previous hprevious next hnext
    cases hnext
    apply hnewer
    rw [h.last, lastDecoded, hprevious]
    rfl
  · change recv.calls ++ _ = callsFrom none (decoded _)
    rw [hdecoded, callsFrom_concat, ← h.calls, Option.or_none, h.last]
    rfl

theorem Disciplined.handle {recv : AudioReceive} (h : Disciplined recv)
    (datagram : Bytes) : Disciplined (recv.handle datagram) := by
  cases hparse : AudioDatagramHeader.parse datagram with
  | error error =>
      rw [handle_malformed hparse]
      exact h
  | ok parsed =>
      obtain ⟨hdr, opus⟩ := parsed
      by_cases hnewer : Newer recv.lastSeq hdr.seq
      · rw [handle_newer hparse hnewer]
        exact h.concat ⟨hdr.seq, opus⟩ hnewer
      · rw [handle_not_newer hparse hnewer]
        exact h

theorem disciplined_run (datagrams : List Bytes) :
    Disciplined (datagrams.foldl handle new) := by
  induction datagrams using List.reverseRecOn with
  | nil => exact disciplined_new
  | append_singleton datagrams datagram ih =>
      rw [List.foldl_concat]
      exact ih.handle datagram

/-- What the next datagram makes of a disciplined receiver. -/
theorem Disciplined.next {recv : AudioReceive} (h : Disciplined recv)
    {datagram opus : Bytes} {hdr : AudioDatagramHeader}
    (hparse : AudioDatagramHeader.parse datagram = .ok (hdr, opus)) :
    (Newer (lastDecoded recv.calls) hdr.seq →
      (recv.handle datagram).calls = recv.calls ++
        packetCalls (lastDecoded recv.calls) ⟨hdr.seq, opus⟩) ∧
    (¬Newer (lastDecoded recv.calls) hdr.seq →
      (recv.handle datagram).calls = recv.calls) := by
  rw [← h.last]
  constructor
  · intro hnewer
    rw [handle_newer hparse hnewer]
  · intro hlate
    rw [handle_not_newer hparse hlate]

/-- **The audio sequence discipline.**  After any datagrams the decoded
packets are each ahead of the one before, the calls are these packets' with
every gap concealed up to five frames, and the next datagram is decoded when
it is ahead of the last decoded one and changes nothing when it is not.  The
next datagram is one that parses, in particular an encoded packet. -/
theorem audio_sequence_discipline (datagrams : List Bytes) :
    let recv := datagrams.foldl handle new
    ((decoded recv.calls).IsChain fun previous next =>
        Ahead previous.seq next.seq) ∧
      recv.calls = callsFrom none (decoded recv.calls) ∧
      (∀ datagram hdr opus,
        AudioDatagramHeader.parse datagram = .ok (hdr, opus) →
        (Newer (lastDecoded recv.calls) hdr.seq →
          (recv.handle datagram).calls = recv.calls ++
            packetCalls (lastDecoded recv.calls) ⟨hdr.seq, opus⟩) ∧
        (¬Newer (lastDecoded recv.calls) hdr.seq →
          (recv.handle datagram).calls = recv.calls)) ∧
      ∀ (hdr : AudioDatagramHeader) (opus : Bytes),
        (Newer (lastDecoded recv.calls) hdr.seq →
          (recv.handle (hdr.encodeWithPayload opus)).calls = recv.calls ++
            packetCalls (lastDecoded recv.calls) ⟨hdr.seq, opus⟩) ∧
        (¬Newer (lastDecoded recv.calls) hdr.seq →
          (recv.handle (hdr.encodeWithPayload opus)).calls = recv.calls) := by
  intro recv
  have hrun : Disciplined recv := disciplined_run datagrams
  refine ⟨hrun.ahead, hrun.calls, fun datagram hdr opus => hrun.next, ?_⟩
  intro hdr opus
  exact hrun.next (AudioDatagramHeader.parse_encodeWithPayload hdr opus)

end AudioReceive

end GameStreamer
