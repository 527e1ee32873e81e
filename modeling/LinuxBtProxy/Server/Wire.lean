import LinuxBtProxy.Server
import LinuxBtProxy.Handlers.Roundtrip

/-!
# LinuxBtProxy.Server.Wire

What a decoded message says about the bytes it was decoded from.  The type
varint is read as a `u64` and returned as a `u32`, so the message determines the
wire type exactly on the frames whose type is below `2 ^ 32`.
-/

namespace LinuxBtProxy

open Base128 Incremental

/-- The message taken off the buffer is the frame that was taken off: one length
varint that reads as the payload's length, one type varint that reads as the
message type, the payload.  Encoding the message again gives a frame of the same
message. -/
def FrameSound (buf : List UInt8) : Prop :=
  ∀ t payload rest, nextMessage buf = .ok (some (t, payload), rest) →
    (∃ lenBytes typeBytes length msgType,
      buf = frameBytes lenBytes typeBytes payload ++ rest ∧
        decodeVarint lenBytes = .ok (length, lenBytes.length) ∧
        length.toNat = payload.length ∧
        decodeVarint typeBytes = .ok (msgType, typeBytes.length) ∧
        msgType.toNat = t.toNat) ∧
      nextMessage (encodedFrame t payload) = .ok (some (t, payload), [])

/-- The type varint of a complete frame at the front of the buffer reads below
`2 ^ 32`. -/
def TypeFits (buf : List UInt8) : Prop :=
  ∀ lenBytes typeBytes payload rest, IsFrame lenBytes typeBytes payload →
    buf = frameBytes lenBytes typeBytes payload ++ rest →
    ∀ msgType, decodeVarint typeBytes = .ok (msgType, typeBytes.length) → msgType.toNat < 2 ^ 32

/-- The type on the wire of a complete frame at the front of the buffer. -/
def WireType (buf : List UInt8) (msgType : UInt64) : Prop :=
  ∃ lenBytes typeBytes payload rest, IsFrame lenBytes typeBytes payload ∧
    buf = frameBytes lenBytes typeBytes payload ++ rest ∧
    decodeVarint typeBytes = .ok (msgType, typeBytes.length)

/-- The first message of the buffer reaches a handler of `handle_client`. -/
def ReachesHandler (buf : List UInt8) (r : Route) : Prop :=
  r ≠ .unknown ∧ ∃ t payload rest, nextMessage buf = .ok (some (t, payload), rest) ∧ route t = r

/-! ## The parts of an accepted frame are determined by its bytes -/

/-- A varint that is read to its end is a complete one. -/
theorem terminated_of_decodeVarint_self {w : List UInt8} {v : UInt64}
    (h : decodeVarint w = .ok (v, w.length)) : Terminated w := by
  obtain ⟨w', rest, hw, hterm, -, -, hlen⟩ := decodeVarint_ok_iff.mp h
  have hrest : rest = [] := by
    have hsum := congrArg List.length hw
    rw [List.length_append] at hsum
    exact List.eq_nil_of_length_eq_zero (by omega)
  rw [hw, hrest, List.append_nil]
  exact hterm

theorem decodeVarint_self {w : List UInt8} (hw : Terminated w) (hlen : w.length ≤ 10) :
    decodeVarint w = .ok (UInt64.ofNat (value w), w.length) := by
  have h := decodeVarint_terminated hw hlen []
  rwa [List.append_nil] at h

/-- The encoder's frame of a received message is no longer than the frame it
came in. -/
theorem IsFrame.encoded_le {lenBytes typeBytes payload : List UInt8}
    (hf : IsFrame lenBytes typeBytes payload) :
    (encodedFrame (UInt64.ofNat (value typeBytes)).toUInt32 payload).length < 2 ^ 64 := by
  have hsize := hf.size_lt
  have hlen := hf.len_value
  rw [length_frameBytes] at hsize
  have h1 : (encodeVarint (UInt64.ofNat payload.length)).length ≤ lenBytes.length := by
    refine length_encodeVarint_le_of_value hf.len_terminated ?_
    rw [UInt64.toNat_ofNat', ← hlen]
    exact Nat.le_trans (Nat.mod_le _ _) (Nat.mod_le _ _)
  have h2 : (encodeVarint (UInt64.ofNat (value typeBytes)).toUInt32.toUInt64).length ≤
      typeBytes.length := by
    refine length_encodeVarint_le_of_value hf.type_terminated ?_
    rw [UInt32.toNat_toUInt64, UInt64.toNat_toUInt32, UInt64.toNat_ofNat']
    exact Nat.le_trans (Nat.mod_le _ _) (Nat.mod_le _ _)
  rw [length_encodedFrame]
  omega

/-! ## Narrowing -/

theorem frameSound_iff (buf : List UInt8) : FrameSound buf ↔ TypeFits buf := by
  constructor
  · intro hs lenBytes typeBytes payload rest hf hbuf msgType hread
    have hn := nextMessage_eq_some_iff.mpr ⟨lenBytes, typeBytes, hf, rfl, hbuf⟩
    obtain ⟨⟨lenBytes', typeBytes', length, msgType', hbuf', hlen, -, htype, heq⟩, -⟩ :=
      hs _ _ _ hn
    -- the two readings of the buffer agree on the type varint
    rw [hbuf, frameBytes_append, frameBytes_append] at hbuf'
    obtain ⟨-, rfl, -⟩ := frameBytes_inj hf.len_terminated hf.type_terminated
      (terminated_of_decodeVarint_self hlen) (terminated_of_decodeVarint_self htype) hbuf'
    rw [hread] at htype
    obtain ⟨rfl, -⟩ := by simpa using htype
    rw [heq]
    exact UInt32.toNat_lt _
  · intro ht t payload rest hn
    obtain ⟨lenBytes, typeBytes, hf, rfl, hbuf⟩ := nextMessage_eq_some_iff.mp hn
    have htype := decodeVarint_self hf.type_terminated hf.type_le
    have hlt := ht lenBytes typeBytes payload rest hf hbuf _ htype
    refine ⟨⟨lenBytes, typeBytes, _, _, hbuf, decodeVarint_self hf.len_terminated hf.len_le, ?_,
      htype, ?_⟩, ?_⟩
    · rw [toNat_ofNat_value, hf.len_value]
    · rw [UInt64.toNat_toUInt32, Nat.mod_eq_of_lt hlt]
    · have h := nextMessage_encodedFrame hf.encoded_le []
      rwa [List.append_nil] at h

/-- Each handler serves one message type. -/
theorem route_injective {t u : UInt32} (ht : route t ≠ .unknown) (h : route t = route u) :
    t = u := by
  unfold route at ht h
  split at h <;> split at h <;> simp_all

theorem wireType_of_reaches {buf : List UInt8} {r : Route} (hr : ReachesHandler buf r)
    (hfit : TypeFits buf) {w : UInt64} (hw : WireType buf w) :
    ∃ t, route t = r ∧ w.toNat = t.toNat := by
  obtain ⟨-, t, payload, rest, hn, hroute⟩ := hr
  obtain ⟨lenBytes, typeBytes, hf, rfl, hbuf⟩ := nextMessage_eq_some_iff.mp hn
  obtain ⟨lenBytes', typeBytes', payload', rest', hf', hbuf', hread⟩ := hw
  rw [hbuf, frameBytes_append, frameBytes_append] at hbuf'
  obtain ⟨rfl, rfl, -⟩ := frameBytes_inj hf.len_terminated hf.type_terminated
    hf'.len_terminated hf'.type_terminated hbuf'
  have hlt := hfit lenBytes typeBytes payload rest hf hbuf w hread
  rw [decodeVarint_self hf.type_terminated hf.type_le] at hread
  obtain ⟨rfl⟩ := by simpa using hread
  exact ⟨_, hroute, by rw [UInt64.toNat_toUInt32, Nat.mod_eq_of_lt hlt]⟩

/-- **Soundness of frame decoding, and where it ends**: a buffer is decoded
soundly exactly when the type of the frame at its front is below `2 ^ 32`, and
frames of different such types never reach the same handler. -/
theorem frame_decoding_sound_iff (buf : List UInt8) :
    (FrameSound buf ↔ TypeFits buf) ∧
      ∀ buf' w w' r, TypeFits buf → TypeFits buf' → WireType buf w → WireType buf' w' →
        ReachesHandler buf r → ReachesHandler buf' r → w = w' := by
  refine ⟨frameSound_iff buf, fun buf' w w' r hfit hfit' hw hw' hr hr' => ?_⟩
  obtain ⟨t, ht, hwt⟩ := wireType_of_reaches hr hfit hw
  obtain ⟨t', ht', hwt'⟩ := wireType_of_reaches hr' hfit' hw'
  have hsame : t = t' := route_injective (ht ▸ hr.1) (ht.trans ht'.symm)
  exact UInt64.toNat_inj.mp (by rw [hwt, hwt', hsame])

/-- A frame of type `2 ^ 32 + 1`: decoded as type 1, it reaches the handler of
`HelloRequest`. -/
theorem not_frameSound_wide_type :
    ¬ FrameSound [0x00, 0x00, 0x81, 0x80, 0x80, 0x80, 0x10] ∧
      ReachesHandler [0x00, 0x00, 0x81, 0x80, 0x80, 0x80, 0x10] .hello ∧
      ReachesHandler [0x00, 0x00, 0x01] .hello := by
  refine ⟨fun h => ?_, ⟨by decide, 0x01, [], [], rfl, rfl⟩, ⟨by decide, 0x01, [], [], rfl, rfl⟩⟩
  have hfit := (frameSound_iff _).mp h
  have hf : IsFrame [0x00] [0x81, 0x80, 0x80, 0x80, 0x10] [] :=
    ⟨by decide, by decide, by decide, by decide, by decide, by decide⟩
  have hlt := hfit _ _ _ [] hf rfl 0x100000001 rfl
  exact absurd hlt (by decide)

end LinuxBtProxy
