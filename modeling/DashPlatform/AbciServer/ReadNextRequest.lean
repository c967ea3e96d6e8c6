import DashPlatform.AbciServer.Connection

/-! # Frames

A request is sent as the length of its message, as a varint of twice the length, and the message. A connection
that is not reading takes the first frame from its buffer, or waits for the rest of it. -/

namespace Connection
variable {Request Response : Type} (messages : AbciMessages Request Response) (encodeRequest : Request → Buffer)

def frame (request : Request) : Buffer :=
  Varint.encode (2 * (encodeRequest request).length) ++ encodeRequest request

/-- A request that is read back from its message, which has a length that the server takes. -/
structure Sendable (request : Request) : Prop where
  decodes : messages.decodeRequest (encodeRequest request) = some request
  minLength : 1 ≤ (encodeRequest request).length
  maxLength : (encodeRequest request).length ≤ maxMessageSize

section
variable {messages encodeRequest} {request : Request} {s : Connection Request Response}

theorem number_of_le {value : Nat} (h : value ≤ 2 ^ 53) : number value = value := if_pos h

/-- The length is half of the lower bits, as long as they have no sign. -/
theorem shiftRight_of_lt {value : Nat} (h : number value % 2 ^ 32 < 2 ^ 31) :
    shiftRight value = (number value % 2 ^ 32 / 2 : Nat) := by
  have htoNat : (BitVec.ofNat 32 (number value)).toNat = number value % 2 ^ 32 := BitVec.toNat_ofNat _ _
  rw [shiftRight, BitVec.toInt_eq_toNat_of_lt (by omega), htoNat, Int.natCast_div]
  rfl

theorem shiftRight_of_le {value : Nat} (h : value / 2 ≤ maxMessageSize) : shiftRight value = (value / 2 : Nat) := by
  rw [maxMessageSize] at h
  have hnumber : number value = value := number_of_le (by omega)
  rw [shiftRight_of_lt (by rw [hnumber]; omega), hnumber, Nat.mod_eq_of_lt (by omega)]

theorem shiftRight_double {length : Nat} (h : length ≤ maxMessageSize) : shiftRight (2 * length) = length := by
  rw [shiftRight_of_le (by omega), Nat.mul_div_cancel_left _ two_pos]

/-- A message behind the first bytes is what the following bytes are. -/
theorem slice_add (bytes : Buffer) (start length : Nat) :
    slice bytes start (start + length) = (bytes.drop start).take length := by
  rw [slice, if_neg (by omega), List.drop_take]
  congr
  omega

theorem consume_add (bytes : Buffer) (start length : Nat) :
    consume bytes (start + length) = (bytes.drop start).drop length := by
  rw [consume, List.drop_drop]
  rfl

theorem Sendable.length_varint_le (h : Sendable messages encodeRequest request) :
    (Varint.encode (2 * (encodeRequest request).length)).length ≤ 4 := by
  refine Varint.length_encode_le (k := 3) ?_
  have hmax := h.maxLength
  rw [maxMessageSize] at hmax
  omega

/-- The length is read from the first bytes as soon as they are there. -/
theorem Sendable.decode_take (h : Sendable messages encodeRequest request) (rest : Buffer) :
    Varint.decode ((Varint.encode (2 * (encodeRequest request).length) ++ rest).take 8) =
      some (2 * (encodeRequest request).length, (Varint.encode (2 * (encodeRequest request).length)).length) := by
  have hlength := h.length_varint_le
  rw [List.take_append, List.take_of_length_le (by omega)]
  exact Varint.decode_encode _ _

theorem readNextRequest_of_reading (h : s.isReading) : s.readNextRequest messages = s := by
  rw [readNextRequest, h, Bool.or_true]
  rfl

theorem readNextRequest_nil (h : s.readerBuffer = []) : s.readNextRequest messages = s := by
  rw [readNextRequest, h]
  split <;> rfl

theorem length_frame (request : Request) : (frame encodeRequest request).length =
    (Varint.encode (2 * (encodeRequest request).length)).length + (encodeRequest request).length :=
  List.length_append

/-- A whole frame in front of the buffer is taken, and its request is handled. -/
theorem readNextRequest_frame (hsend : Sendable messages encodeRequest request) (hopen : s.isClosing = false)
    (hidle : s.isReading = false) {rest : Buffer} (hbuffer : s.readerBuffer = frame encodeRequest request ++ rest) :
    s.readNextRequest messages =
      { s with
        readerBuffer := rest
        isReading := true
        reading := .handling request
        isPaused := true
        calls := s.calls ++ [.handleRequest request] } := by
  have hdecode := hsend.decode_take (encodeRequest request ++ rest)
  have hshift := shiftRight_double hsend.maxLength
  have hmin : ((encodeRequest request).length : Int) ≠ 0 := by have := hsend.minLength; omega
  have hmax : ¬(maxMessageSize : Int) < (encodeRequest request).length := by have := hsend.maxLength; omega
  rw [frame, List.append_assoc] at hbuffer
  have hlength : ¬(s.readerBuffer.length : Int) <
      (Varint.encode (2 * (encodeRequest request).length)).length + ((encodeRequest request).length : Int) := by
    rw [hbuffer, List.length_append, List.length_append]
    omega
  have hmessage : (s.readerBuffer.drop (Varint.encode (2 * (encodeRequest request).length)).length).take
      (encodeRequest request).length = encodeRequest request := by
    rw [hbuffer, List.drop_left, List.take_left]
  have hrest : (s.readerBuffer.drop (Varint.encode (2 * (encodeRequest request).length)).length).drop
      (encodeRequest request).length = rest := by
    rw [hbuffer, List.drop_left, List.drop_left]
  rw [← hbuffer] at hdecode
  rw [readNextRequest, hopen, hidle, hdecode]
  simp only [hshift, hmin, hmax, hlength, slice_add, hmessage, hsend.decodes, consume_add, hrest, Bool.or_self,
    Bool.false_eq_true, if_false]

/-- A part of a frame is left in the buffer. -/
theorem readNextRequest_incomplete (hsend : Sendable messages encodeRequest request)
    (hbuffer : s.readerBuffer <+: frame encodeRequest request)
    (hpart : s.readerBuffer.length < (frame encodeRequest request).length) : s.readNextRequest messages = s := by
  have hbegins := hsend.length_varint_le
  rw [length_frame] at hpart
  by_cases hshort : s.readerBuffer.length < (Varint.encode (2 * (encodeRequest request).length)).length
  · -- not even the length is there
    have hlength : s.readerBuffer <+: Varint.encode (2 * (encodeRequest request).length) :=
      List.prefix_of_prefix_length_le hbuffer (List.prefix_append _ _) hshort.le
    have hdecode := Varint.decode_of_part hlength hshort
    rw [readNextRequest, List.take_of_length_le (by omega), hdecode]
    split <;> rfl
  · obtain ⟨part, hpart⟩ := List.prefix_of_prefix_length_le (List.prefix_append _ _) hbuffer (not_lt.mp hshort)
    have hdecode := hsend.decode_take part
    have hshift := shiftRight_double hsend.maxLength
    have hmin : ((encodeRequest request).length : Int) ≠ 0 := by have := hsend.minLength; omega
    have hmax : ¬(maxMessageSize : Int) < (encodeRequest request).length := by have := hsend.maxLength; omega
    rw [hpart] at hdecode
    rw [readNextRequest, hdecode]
    split
    · rfl
    · simp only [hshift, hmin, hmax, if_false]
      rw [if_pos (by omega)]

end

end Connection
