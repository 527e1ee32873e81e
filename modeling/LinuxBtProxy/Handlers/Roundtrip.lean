import LinuxBtProxy.Handlers
import LinuxBtProxy.Proto.Stream

/-!
# LinuxBtProxy.Handlers.Roundtrip

What `encodeResponse` writes, `nextMessage` reads back, in front of anything
and in any number.
-/

namespace LinuxBtProxy

open Base128 Incremental

/-! ## Encoded varints make a frame -/

/-- The frame of a message, as `encodeVarint` spells it. -/
def encodedFrame (t : UInt32) (payload : List UInt8) : List UInt8 :=
  frameBytes (encodeVarint (UInt64.ofNat payload.length)) (encodeVarint t.toUInt64) payload

/-- A frame is its start byte, two varints and its payload. -/
theorem length_encodedFrame (t : UInt32) (payload : List UInt8) :
    (encodedFrame t payload).length =
      1 + (encodeVarint (UInt64.ofNat payload.length)).length +
        (encodeVarint t.toUInt64).length + payload.length :=
  length_frameBytes ..

/-- What is encoded is a frame of the protocol. -/
theorem isFrame_encoded {t : UInt32} {payload : List UInt8}
    (hfit : (encodedFrame t payload).length < 2 ^ 64) :
    IsFrame (encodeVarint (UInt64.ofNat payload.length)) (encodeVarint t.toUInt64) payload where
  len_terminated := terminated_encodeVarint _
  len_le := length_encodeVarint_le _
  type_terminated := terminated_encodeVarint _
  type_le := length_encodeVarint_le _
  len_value := by
    rw [length_encodedFrame] at hfit
    rw [value_encodeVarint, UInt64.toNat_ofNat']
    omega
  size_lt := hfit

/-- A frame is read back, whatever follows it. -/
theorem nextMessage_encodedFrame {t : UInt32} {payload : List UInt8}
    (hfit : (encodedFrame t payload).length < 2 ^ 64) (rest : List UInt8) :
    nextMessage (encodedFrame t payload ++ rest) = .ok (some (t, payload), rest) := by
  have h := (isFrame_encoded hfit).nextMessage_append rest
  rw [value_encodeVarint, UInt64.ofNat_toNat, UInt32.toUInt32_toUInt64] at h
  exact h

/-! ## Responses -/

/-- What is assumed of rust-protobuf: `compute_size` is the number of bytes
`write_to_writer` appends. -/
def Sized {M : Type} [Message M] (message : M) : Prop :=
  (Message.computeSize message).toNat = (Message.writeToWriter message).length

/-- With its size cached right, a response is encoded as a frame. -/
theorem encodeResponse_eq {M : Type} [Message M] (t : UInt32) {message : M}
    (hsize : Sized message) :
    encodeResponse t message = encodedFrame t (Message.writeToWriter message) := by
  simp only [encodeResponse, encodedFrame, frameBytes]
  rw [hsize]
  simp

/-- **Decoding undoes encoding**: a response frame comes off the buffer as the
message it was made of, and a stream of them drains to the messages, in order,
with nothing left. -/
theorem nextMessage_encodeResponse {M : Type} [Message M] :
    (∀ (t : UInt32) (message : M) (rest : List UInt8), Sized message →
      (encodeResponse t message).length < 2 ^ 64 →
        nextMessage (encodeResponse t message ++ rest) =
          .ok (some (t, Message.writeToWriter message), rest)) ∧
      ∀ messages : List (UInt32 × M),
        (∀ m ∈ messages, Sized m.2 ∧ (encodeResponse m.1 m.2).length < 2 ^ 64) →
          drain nextMessageParser (messages.map fun m => encodeResponse m.1 m.2).flatten =
            (messages.map fun m => (m.1, Message.writeToWriter m.2), [], none) := by
  have hone : ∀ (t : UInt32) (message : M) (rest : List UInt8), Sized message →
      (encodeResponse t message).length < 2 ^ 64 →
        nextMessage (encodeResponse t message ++ rest) =
          .ok (some (t, Message.writeToWriter message), rest) := by
    intro t message rest hsize hfit
    rw [encodeResponse_eq t hsize] at hfit ⊢
    exact nextMessage_encodedFrame hfit rest
  refine ⟨hone, fun messages hall => ?_⟩
  have hdrain := drain_flatten (P := nextMessageParser)
    (fun m : UInt32 × M => encodeResponse m.1 m.2)
    (fun m => (m.1, Message.writeToWriter m.2))
    (fun m hm rest => hone m.1 m.2 rest (hall m hm).1 (hall m hm).2) []
  simpa [drain_idle idle_nil] using hdrain

/-- A message that is its own encoding. -/
structure Encoded where
  bytes : List UInt8

/-- A message that is the bytes of its encoding. -/
instance messageEncoded : Message Encoded where
  computeSize message := UInt64.ofNat message.bytes.length
  writeToWriter message := message.bytes

/-- Its cached size is right. -/
theorem sized_encoded (message : Encoded) (h : message.bytes.length < 2 ^ 63) (t : UInt32) :
    Sized message ∧ (encodeResponse t message).length < 2 ^ 64 := by
  have hsize : Sized message := by
    show (UInt64.ofNat message.bytes.length).toNat = message.bytes.length
    rw [UInt64.toNat_ofNat']
    omega
  have hl := length_encodeVarint_le (UInt64.ofNat message.bytes.length)
  have ht := length_encodeVarint_le t.toUInt64
  have hlen := length_encodedFrame t message.bytes
  have heq : encodeResponse t message = encodedFrame t message.bytes := encodeResponse_eq t hsize
  rw [heq]
  exact ⟨hsize, by omega⟩

/-- Two responses in a row are read back. -/
theorem nextMessage_encodeResponse_two :
    nextMessage (encodeResponse 0x02 (⟨[0x08, 0x01]⟩ : Encoded) ++ [0x00]) =
        .ok (some (0x02, [0x08, 0x01]), [0x00]) ∧
      drain nextMessageParser
          ([(0x08, ⟨[]⟩), (0x02, ⟨[0x08, 0x01]⟩)].map fun m : UInt32 × Encoded =>
            encodeResponse m.1 m.2).flatten =
        ([(0x08, []), (0x02, [0x08, 0x01])], [], none) := by
  have htwo := sized_encoded ⟨[0x08, 0x01]⟩ (by decide) 0x02
  have hnone := sized_encoded ⟨[]⟩ (by decide) 0x08
  obtain ⟨hone, hall⟩ := nextMessage_encodeResponse (M := Encoded)
  refine ⟨hone 0x02 _ [0x00] htwo.1 htwo.2, hall _ fun m hm => ?_⟩
  simp only [List.mem_cons, List.not_mem_nil, or_false] at hm
  rcases hm with rfl | rfl
  · exact hnone
  · exact htwo

end LinuxBtProxy
