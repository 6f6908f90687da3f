import GameStreamer.Core.Pieces
import GameStreamer.Core.Varint
import GameStreamer.Protocol.Datagram

/-!
# Framing on the control stream

A control message travels as its encoded length, four bytes big-endian, and its
encoding.  The reader refuses lengths above a cap of one mebibyte; the writer
only refuses what four bytes cannot say.  The serializer is a parameter; for
one message its bytes are written out, to show what the cap means for it.
-/

namespace GameStreamer.ControlStream

open Pieces

/-- `MAX_CONTROL_MSG`. -/
def maxControlMsg : ℕ := 2 ^ 20

/-- Why a message was not sent or not received. -/
inductive StreamError where
  | serialize (message : String)
  | deserialize (message : String)
  /-- "recv len", the stream ended before a length. -/
  | recvLen
  /-- "recv body", the stream ended before the end of a message. -/
  | recvBody
  deriving DecidableEq, Repr

/-- `encode_msg` and `decode_msg` of one message type, over the serializer.
What the results need is that decoding gives back what was encoded. -/
structure Codec (Msg : Type*) where
  encode : Msg → Except String Bytes
  decode : Bytes → Except String Msg

/-- The serializer decodes what it encodes. -/
def Codec.RoundTrips {Msg : Type*} (codec : Codec Msg) : Prop :=
  ∀ msg bytes, codec.encode msg = .ok bytes → codec.decode bytes = .ok msg

variable {Msg : Type*} (codec : Codec Msg)

/-- What goes on the stream for an encoding. -/
def frame (bytes : Bytes) : Bytes :=
  u32ToBe (UInt32.ofNat bytes.length) ++ bytes

/-- The reader's refusal of a length. -/
def exceedsCap (len : ℕ) : String :=
  s!"control message of {len} bytes exceeds cap {maxControlMsg}"

/-- Append one message to a stream whose writes succeed. -/
def sendMsg (stream : Bytes) (msg : Msg) : Except StreamError Bytes :=
  match codec.encode msg with
  | .error message => .error (.serialize message)
  | .ok bytes =>
      if 2 ^ 32 ≤ bytes.length then .error (.serialize "message > 4 GiB")
      else .ok (stream ++ frame bytes)

/-- Read one message off a stream in pieces, with the pieces that are left. -/
def recvMsg (pieces : List Bytes) : Except StreamError (Msg × List Bytes) :=
  match readExact 4 pieces with
  | none => .error .recvLen
  | some (lenBuf, pieces) =>
      let len := (u32At lenBuf 0).toNat
      if maxControlMsg < len then .error (.deserialize (exceedsCap len))
      else
        match readExact len pieces with
        | none => .error .recvBody
        | some (body, pieces) =>
            match codec.decode body with
            | .error message => .error (.deserialize message)
            | .ok msg => .ok (msg, pieces)

/-- Send messages one after the other, as long as every send succeeds. -/
def sendAll (stream : Bytes) : List Msg → Except StreamError Bytes
  | [] => .ok stream
  | msg :: msgs =>
      match sendMsg codec stream msg with
      | .error error => .error error
      | .ok stream => sendAll stream msgs

/-- What so many calls of the reader return, up to the first error. -/
def recvMsgs : (calls : ℕ) → List Bytes → List (Except StreamError Msg)
  | 0, _ => []
  | calls + 1, pieces =>
      match recvMsg codec pieces with
      | .error error => [.error error]
      | .ok (msg, pieces) => .ok msg :: recvMsgs calls pieces

/-- However the stream is split, its reader gets these messages, and then the
end of the stream. -/
def Delivers (stream : Bytes) (msgs : List Msg) : Prop :=
  ∀ pieces : List Bytes, pieces.flatten = stream →
    recvMsgs codec (msgs.length + 1) pieces =
      msgs.map .ok ++ [.error .recvLen]

/-- The encoding is not longer than the reader's cap. -/
def WithinLimit (msg : Msg) : Prop :=
  ∀ bytes, codec.encode msg = .ok bytes → bytes.length ≤ maxControlMsg

/-! ## One message -/

theorem length_frame (bytes : Bytes) :
    (frame bytes).length = 4 + bytes.length := by
  rw [frame, List.length_append, length_u32ToBe]

/-- The length that was sent is read back. -/
theorem u32At_frame {bytes : Bytes} (h : bytes.length < 2 ^ 32) :
    (u32At (u32ToBe (UInt32.ofNat bytes.length)) 0).toNat = bytes.length := by
  have hvalue := u32At_append [] (UInt32.ofNat bytes.length) []
  rw [List.nil_append, List.append_nil, List.length_nil] at hvalue
  rw [hvalue, UInt32.toNat_ofNat', Nat.mod_eq_of_lt h]

variable {codec}

theorem sendMsg_eq_ok {stream out : Bytes} {msg : Msg}
    (h : sendMsg codec stream msg = .ok out) :
    ∃ bytes, codec.encode msg = .ok bytes ∧ bytes.length < 2 ^ 32 ∧
      out = stream ++ frame bytes := by
  rw [sendMsg] at h
  cases hencode : codec.encode msg with
  | error message =>
      rw [hencode] at h
      cases h
  | ok bytes =>
      rw [hencode] at h
      dsimp only at h
      split_ifs at h with hlong
      exact ⟨bytes, rfl, Nat.lt_of_not_le hlong, (Except.ok.inj h).symm⟩

/-- The four bytes of the length are read off any pieces. -/
theorem readExact_frame {bytes tail : Bytes} {pieces : List Bytes}
    (hpieces : pieces.flatten = frame bytes ++ tail) :
    ∃ rest, readExact 4 pieces =
        some (u32ToBe (UInt32.ofNat bytes.length), rest) ∧
      rest.flatten = bytes ++ tail := by
  have henough : 4 ≤ pieces.flatten.length := by
    rw [hpieces, List.length_append, length_frame]
    omega
  have hfour : (u32ToBe (UInt32.ofNat bytes.length)).length = 4 := rfl
  obtain ⟨rest, hread, hrest⟩ := readExact_of_le henough
  have hhead : pieces.flatten.take 4 =
      u32ToBe (UInt32.ofNat bytes.length) := by
    rw [hpieces, frame, List.append_assoc, ← hfour, List.take_left]
  have htail : rest.flatten = bytes ++ tail := by
    rw [hrest, hpieces, frame, List.append_assoc, ← hfour, List.drop_left]
  exact ⟨rest, hhead ▸ hread, htail⟩

/-- A message within the cap is read, and the reader stands behind it. -/
theorem recvMsg_frame_of_le (hcodec : codec.RoundTrips) {msg : Msg}
    {bytes tail : Bytes} (hencode : codec.encode msg = .ok bytes)
    (hfits : bytes.length ≤ maxControlMsg) {pieces : List Bytes}
    (hpieces : pieces.flatten = frame bytes ++ tail) :
    ∃ rest, recvMsg codec pieces = .ok (msg, rest) ∧ rest.flatten = tail := by
  have hlong : bytes.length < 2 ^ 32 := lt_of_le_of_lt hfits (by decide)
  obtain ⟨rest, hread, hrest⟩ := readExact_frame hpieces
  have hbody : bytes.length ≤ rest.flatten.length := by
    rw [hrest, List.length_append]
    exact Nat.le_add_right _ _
  obtain ⟨left, hreadBody, hleft⟩ := readExact_of_le hbody
  rw [hrest, List.take_left] at hreadBody
  rw [hrest, List.drop_left] at hleft
  refine ⟨left, ?_, hleft⟩
  rw [recvMsg, hread]
  dsimp only
  rw [u32At_frame hlong, if_neg (Nat.not_lt.mpr hfits), hreadBody]
  dsimp only
  rw [hcodec msg bytes hencode]

/-- A message above the cap is refused. -/
theorem recvMsg_frame_of_lt {bytes tail : Bytes}
    (hexceeds : maxControlMsg < bytes.length) (hlong : bytes.length < 2 ^ 32)
    {pieces : List Bytes} (hpieces : pieces.flatten = frame bytes ++ tail) :
    recvMsg codec pieces =
      .error (.deserialize (exceedsCap bytes.length)) := by
  obtain ⟨rest, hread, _⟩ := readExact_frame hpieces
  rw [recvMsg, hread]
  dsimp only
  rw [u32At_frame hlong, if_pos hexceeds]

/-! ## A whole stream -/

theorem sendMsg_append (stream : Bytes) (msg : Msg) :
    sendMsg codec stream msg = (sendMsg codec [] msg).map (stream ++ ·) := by
  rw [sendMsg, sendMsg]
  cases codec.encode msg with
  | error message => rfl
  | ok bytes =>
      dsimp only
      split_ifs
      · rfl
      · rw [List.nil_append, Except.map]

theorem sendAll_append (stream : Bytes) (msgs : List Msg) :
    sendAll codec stream msgs =
      (sendAll codec [] msgs).map (stream ++ ·) := by
  induction msgs generalizing stream with
  | nil => rw [sendAll, sendAll, Except.map, List.append_nil]
  | cons msg msgs ih =>
      rw [sendAll, sendAll, sendMsg_append stream]
      cases sendMsg codec [] msg with
      | error error => rfl
      | ok front =>
          calc sendAll codec (stream ++ front) msgs
              = (sendAll codec [] msgs).map (stream ++ front ++ ·) := ih _
            _ = ((sendAll codec [] msgs).map (front ++ ·)).map
                (stream ++ ·) := by
              cases sendAll codec [] msgs with
              | error error => rfl
              | ok out => exact congrArg Except.ok (List.append_assoc _ _ _)
            _ = (sendAll codec front msgs).map (stream ++ ·) := by
              rw [← ih front]

theorem sendAll_cons_eq_ok {msg : Msg} {msgs : List Msg} {stream : Bytes}
    (h : sendAll codec [] (msg :: msgs) = .ok stream) :
    ∃ bytes tail, codec.encode msg = .ok bytes ∧ bytes.length < 2 ^ 32 ∧
      stream = frame bytes ++ tail ∧ sendAll codec [] msgs = .ok tail := by
  rw [sendAll] at h
  cases hsend : sendMsg codec [] msg with
  | error error =>
      rw [hsend] at h
      cases h
  | ok front =>
      obtain ⟨bytes, hencode, hlong, hfront⟩ := sendMsg_eq_ok hsend
      rw [List.nil_append] at hfront
      rw [hsend] at h
      dsimp only at h
      rw [sendAll_append, hfront] at h
      cases htail : sendAll codec [] msgs with
      | error error =>
          rw [htail] at h
          cases h
      | ok tail =>
          rw [htail] at h
          exact ⟨bytes, tail, hencode, hlong, (Except.ok.inj h).symm, rfl⟩

theorem recvMsg_of_flatten_nil {pieces : List Bytes}
    (h : pieces.flatten = []) : recvMsg codec pieces = .error .recvLen := by
  have hshort : pieces.flatten.length < 4 := by
    rw [h]
    decide
  rw [recvMsg, readExact_of_lt hshort]

/-- What the reader gets is decided message by message, however the stream is
split. -/
theorem recvMsgs_eq_iff (hcodec : codec.RoundTrips) {msgs : List Msg}
    {pieces : List Bytes}
    (hsend : sendAll codec [] msgs = .ok pieces.flatten) :
    recvMsgs codec (msgs.length + 1) pieces =
        msgs.map .ok ++ [.error .recvLen] ↔
      ∀ msg ∈ msgs, WithinLimit codec msg := by
  induction msgs generalizing pieces with
  | nil =>
      have hempty : pieces.flatten = [] := (Except.ok.inj hsend).symm
      rw [List.length_nil, recvMsgs, recvMsg_of_flatten_nil hempty]
      exact iff_of_true rfl (List.forall_mem_nil _)
  | cons msg msgs ih =>
      obtain ⟨bytes, tail, hencode, hlong, hpieces, htail⟩ :=
        sendAll_cons_eq_ok hsend
      have hwithin : WithinLimit codec msg ↔ bytes.length ≤ maxControlMsg := by
        rw [WithinLimit, hencode]
        exact ⟨fun h => h _ rfl, fun h _ hbytes => Except.ok.inj hbytes ▸ h⟩
      rw [List.forall_mem_cons, hwithin, List.length_cons, recvMsgs]
      cases Nat.lt_or_ge maxControlMsg bytes.length with
      | inr hfits =>
        obtain ⟨rest, hread, hrest⟩ :=
          recvMsg_frame_of_le hcodec hencode hfits hpieces
        rw [← hrest] at htail
        rw [hread]
        dsimp only
        rw [List.map_cons, List.cons_append, List.cons_inj_right, ih htail]
        exact (and_iff_right hfits).symm
      | inl hexceeds =>
        rw [recvMsg_frame_of_lt hexceeds hlong hpieces]
        dsimp only
        rw [List.map_cons, List.cons_append]
        apply iff_of_false
        · intro h
          cases (List.cons.inj h).1
        · exact fun h => absurd h.1 (Nat.not_le.mpr hexceeds)

/-- The reader of a stream whose sends all succeeded gets the messages sent
exactly when none of their encodings is above its own cap. -/
theorem delivers_iff (hcodec : codec.RoundTrips) {msgs : List Msg}
    {stream : Bytes} (hsend : sendAll codec [] msgs = .ok stream) :
    Delivers codec stream msgs ↔ ∀ msg ∈ msgs, WithinLimit codec msg := by
  constructor
  · intro h
    have hwhole : [stream].flatten = stream := List.flatten_singleton
    rw [← hwhole] at hsend
    exact (recvMsgs_eq_iff hcodec hsend).mp (h _ hwhole)
  · intro h pieces hpieces
    rw [← hpieces] at hsend
    exact (recvMsgs_eq_iff hcodec hsend).mpr h

/-- A message between the two limits is sent, and its reader refuses it. -/
theorem sendAll_of_lt {msg : Msg} {bytes : Bytes}
    (hencode : codec.encode msg = .ok bytes)
    (hexceeds : maxControlMsg < bytes.length) (hlong : bytes.length < 2 ^ 32) :
    sendAll codec [] [msg] = .ok (frame bytes) ∧
      recvMsgs codec 2 [frame bytes] =
        [.error (.deserialize (exceedsCap bytes.length))] ∧
      ¬ Delivers codec (frame bytes) [msg] := by
  have hwhole : [frame bytes].flatten = frame bytes ++ [] := by
    rw [List.flatten_singleton, List.append_nil]
  have hrefused : recvMsgs codec 2 [frame bytes] =
      [.error (.deserialize (exceedsCap bytes.length))] := by
    rw [recvMsgs, recvMsg_frame_of_lt hexceeds hlong hwhole]
  refine ⟨?_, hrefused, ?_⟩
  · rw [sendAll, sendMsg, hencode]
    dsimp only
    rw [if_neg (Nat.not_le.mpr hlong), List.nil_append]
    rfl
  · intro hdelivers
    have hreads := hdelivers _ List.flatten_singleton
    rw [List.length_singleton, hrefused] at hreads
    cases (List.cons.inj hreads).1

/-! ## `C2A::Nack`

The serializer writes an enumeration's variant, a vector's length and an integer
as variable-length numbers and skips what follows a value.
-/

/-- `C2A::Nack { seqs }`, whose vector has a length of 64 bits. -/
abbrev Nack := {seqs : List UInt32 // seqs.length < 2 ^ 64}

def encodeSeqs (seqs : List UInt32) : Bytes :=
  seqs.flatMap fun seq => Varint.write 5 seq.toNat

def encodeNack (nack : Nack) : Bytes :=
  Varint.write 5 13 ++
    (Varint.write 10 nack.val.length ++ encodeSeqs nack.val)

def decodeSeqs : (count : ℕ) → Bytes → Option (List UInt32)
  | 0, _ => some []
  | count + 1, bytes =>
      match Varint.read 5 bytes with
      | none => none
      | some (value, rest) =>
          if value < 2 ^ 32 then
            (decodeSeqs count rest).map (UInt32.ofNat value :: ·)
          else none

def decodeNack (bytes : Bytes) : Option Nack :=
  match Varint.read 5 bytes with
  | none => none
  | some (variant, rest) =>
      if variant = 13 then
        match Varint.read 10 rest with
        | none => none
        | some (count, rest) =>
            match decodeSeqs count rest with
            | none => none
            | some seqs =>
                if h : seqs.length < 2 ^ 64 then some ⟨seqs, h⟩ else none
      else none

/-- Nacks, and nothing else, in the serializer's format. -/
def nackCodec : Codec Nack where
  encode nack := .ok (encodeNack nack)
  decode bytes :=
    match decodeNack bytes with
    | none => .error "not a nack"
    | some nack => .ok nack

theorem decodeSeqs_encodeSeqs (seqs : List UInt32) :
    decodeSeqs seqs.length (encodeSeqs seqs) = some seqs := by
  induction seqs with
  | nil => rfl
  | cons seq seqs ih =>
      have hseq : seq.toNat < 128 ^ (4 + 1) :=
        lt_trans seq.toNat_lt (by decide)
      rw [encodeSeqs, List.flatMap_cons, List.length_cons, decodeSeqs,
        Varint.read_write hseq]
      dsimp only
      rw [if_pos seq.toNat_lt, ← encodeSeqs, ih, Option.map_some,
        UInt32.ofNat_toNat]

theorem nackCodec_roundTrips : nackCodec.RoundTrips := by
  intro nack bytes hencode
  have hbytes : encodeNack nack = bytes := Except.ok.inj hencode
  have hcount : nack.val.length < 128 ^ (9 + 1) :=
    lt_trans nack.property (by decide)
  have hdecode : decodeNack bytes = some nack := by
    rw [← hbytes, decodeNack, encodeNack,
      Varint.read_write (by decide : 13 < 128 ^ (4 + 1))]
    dsimp only
    rw [if_pos rfl, Varint.read_write hcount]
    dsimp only
    rw [decodeSeqs_encodeSeqs]
    exact dif_pos nack.property
  change (match decodeNack bytes with
    | none => .error "not a nack"
    | some nack => .ok nack) = Except.ok nack
  rw [hdecode]

/-- A nack of two seqs: nine bytes on the stream. -/
theorem delivers_iff_nack :
    Delivers nackCodec [0, 0, 0, 5, 13, 2, 7, 172, 2]
        [⟨[7, 300], by decide⟩] ↔
      ∀ nack ∈ [(⟨[7, 300], by decide⟩ : Nack)], WithinLimit nackCodec nack :=
  delivers_iff nackCodec_roundTrips rfl

theorem length_encodeSeqs_replicate (count : ℕ) :
    (encodeSeqs (List.replicate count 0)).length = count := by
  rw [encodeSeqs, List.flatMap_replicate, List.length_flatten,
    List.map_replicate, List.sum_replicate]
  exact Nat.mul_one count

/-- As many seqs as the cap has bytes. -/
def longNack : Nack :=
  ⟨List.replicate maxControlMsg 0, by
    rw [List.length_replicate]
    decide⟩

theorem length_encodeNack_longNack :
    (encodeNack longNack).length = 1048580 := by
  have hcount : longNack.val.length = maxControlMsg := List.length_replicate
  have hseqs : (encodeSeqs longNack.val).length = maxControlMsg :=
    length_encodeSeqs_replicate maxControlMsg
  rw [encodeNack, List.length_append, List.length_append, hseqs, hcount]
  decide

/-- Its send succeeds, and its receiver refuses it. -/
theorem not_delivers_longNack :
    nackCodec.RoundTrips ∧ ∃ stream,
      sendAll nackCodec [] [longNack] = .ok stream ∧
      recvMsgs nackCodec 2 [stream] =
        [.error (.deserialize (exceedsCap 1048580))] ∧
      ¬ Delivers nackCodec stream [longNack] := by
  have hencode : nackCodec.encode longNack = .ok (encodeNack longNack) := rfl
  have hrefused := sendAll_of_lt hencode
    (length_encodeNack_longNack ▸ (by decide : maxControlMsg < 1048580))
    (length_encodeNack_longNack ▸ (by decide : 1048580 < 2 ^ 32))
  rw [length_encodeNack_longNack] at hrefused
  exact ⟨nackCodec_roundTrips, _, hrefused⟩

end GameStreamer.ControlStream
