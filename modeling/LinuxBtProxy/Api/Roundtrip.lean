import LinuxBtProxy.Api.Generated
import LinuxBtProxy.Lib.Scalar
import LinuxBtProxy.Handlers.Roundtrip

/-!
# LinuxBtProxy.Api.Roundtrip

What the generated code writes is what a peer reads, and what the proxy makes of
the records of a request.

* `response_roundtrip` — a response is parsed back under its id, and its size is
  the number of its bytes;
* `received_responseFrames` and `received_part` — a stream of response frames is
  read as the responses, however much of it has come through;
* `parses_records` and `parseSubscribe_records` — requests are records in any
  order, with unknown ones among them.
-/

namespace LinuxBtProxy

open Wire Incremental

section

variable [ProtobufRuntime]

open ProtobufRuntime

/-! ## Responses -/

namespace Response

/-- The values of the response fit their wire types, and its size fits the 32
bits that rust-protobuf caches. -/
def Fits (r : Response) : Prop :=
  r.typed.schema.Fits r.typed.message ∧ r.writeTo.length < 2 ^ 32

instance : DecidablePred Fits :=
  fun r => inferInstanceAs
    (Decidable (r.typed.schema.Fits r.typed.message ∧ r.writeTo.length < 2 ^ 32))

theorem sized {r : Response} (h : r.Fits) : Sized r := by
  obtain ⟨hfits, hlt⟩ := h
  show (r.typed.schema.computeSize r.typed.message).toNat = r.writeTo.length
  rw [r.typed.schema.computeSize_eq hfits, UInt64.toNat_ofNat', Nat.mod_eq_of_lt]
  · rfl
  · exact Nat.lt_trans hlt (by decide)

theorem parse_writeTo {r : Response} (h : r.Fits) :
    parse r.messageId.toUInt32 r.writeTo = some r := by
  have hone := r.typed.schema.parse_writeTo h.1
  cases r <;> exact congrArg (Option.map _) hone

end Response

/-- **Round trip**: the size of a response is the number of bytes written, and
what is written is parsed back under its id. -/
theorem response_roundtrip {r : Response} (h : r.Fits) :
    Sized r ∧ Response.parse r.messageId.toUInt32 (Message.writeToWriter r) = some r :=
  ⟨Response.sized h, Response.parse_writeTo h⟩

/-- What a peer makes of the bytes it has received: the messages of the complete
frames. -/
def received (bytes : List UInt8) : List (Option Response) :=
  (drain nextMessageParser bytes).1.map fun m => Response.parse m.1 m.2

theorem length_responseFrame_lt {r : Response} (h : r.Fits) :
    (responseFrame r).length < 2 ^ 64 := by
  have hlt : (Message.writeToWriter r).length < 2 ^ 32 := h.2
  have hlen := length_encodeVarint_le (UInt64.ofNat (Message.writeToWriter r).length)
  have htype := length_encodeVarint_le r.messageId.toUInt32.toUInt64
  rw [responseFrame, encodeResponse_eq _ (Response.sized h), length_encodedFrame]
  omega

theorem nextMessage_responseFrame {r : Response} (h : r.Fits) (rest : List UInt8) :
    nextMessage (responseFrame r ++ rest) =
      .ok (some (r.messageId.toUInt32, Message.writeToWriter r), rest) := by
  have hlen := length_responseFrame_lt h
  rw [responseFrame, encodeResponse_eq _ (Response.sized h)] at hlen ⊢
  exact nextMessage_encodedFrame hlen rest

/-- The frames of responses are read as the responses. -/
theorem received_responseFrames {responses : List Response} (h : ∀ r ∈ responses, r.Fits) :
    received (responses.map responseFrame).flatten = responses.map some := by
  have hdrain := drain_flatten (P := nextMessageParser) responseFrame
    (fun r => (r.messageId.toUInt32, Message.writeToWriter r))
    (fun r hr rest => nextMessage_responseFrame (h r hr) rest) []
  rw [List.append_nil, drain_idle idle_nil, List.append_nil] at hdrain
  rw [received, hdrain, List.map_map]
  exact List.map_congr_left fun r hr => Response.parse_writeTo (h r hr)

/-- Of a part of the frames the first responses are read, whatever is lost behind
it. -/
theorem received_part {responses : List Response} (h : ∀ r ∈ responses, r.Fits)
    {bytes lost : List UInt8} (hsplit : bytes ++ lost = (responses.map responseFrame).flatten) :
    received bytes <+: responses.map some := by
  rw [← received_responseFrames h, ← hsplit, received, received]
  exact (drain_prefix_append stable_nextMessage bytes lost).map _

/-! ## Requests -/

/-- A record of the wire format, with UTF-8 in the text fields of a message type
and 32 bits in its number fields. -/
structure Readable (texts numbers : List Nat) (r : Record) : Prop where
  valid : ValidNumber r.number
  fits : r.payload.Fits
  text : r.number ∈ texts → ∀ bytes, r.payload = .delimited bytes →
    ∃ s : String, bytes = s.toUTF8.data.toList
  number : r.number ∈ numbers → ∀ n, r.payload = .varint n → n < 2 ^ 32

omit [ProtobufRuntime] in
theorem readable_varint {texts numbers : List Nat} {number n : Nat} (hn : ValidNumber number)
    (hlt : n < 2 ^ 32) : Readable texts numbers ⟨number, .varint n⟩ where
  valid := hn
  fits := Nat.lt_trans hlt (by decide)
  text _ bytes h := Payload.noConfusion h
  number _ m h := Payload.varint.inj h ▸ hlt

theorem wireType_uint32 : uint32.wireType = 0 := by
  rw [← uint32.wireType_image 0, uint32_image]
  rfl

theorem wireType_string : string.wireType = 2 := by
  rw [← string.wireType_image "", string_image]
  rfl

section

variable {M : Type} {S : Schema M} {lens : Lens M UInt32} {lens' : Lens M String}

/-- A number in a record of a `uint32` field is stored. -/
theorem means_uint32 {number : Nat} (hf : .singular number lens uint32 0 ∈ S.fields) {n : Nat}
    (hn : n < 2 ^ 32) : S.Means ⟨number, .varint n⟩ (lens.set (UInt32.ofNat n)) := by
  have himage : uint32.image (UInt32.ofNat n) = .varint n := by
    rw [uint32_image, UInt32.toNat_ofNat_of_lt' hn]
  rw [← himage]
  exact .value hf (if_pos rfl) (uint32_fits _)

/-- A text in a record of a `string` field is stored. -/
theorem means_string {number : Nat} (hf : .singular number lens' string "" ∈ S.fields) {s : String}
    (hs : s.toUTF8.data.toList.length < 2 ^ 32) :
    S.Means ⟨number, .delimited s.toUTF8.data.toList⟩ (lens'.set s) := by
  rw [← string_image]
  exact .value hf (if_pos rfl) (string_fits hs)

/-- A message type with text and number fields reads every record. -/
theorem reads_of_readable {texts numbers : List Nat}
    (hfields : ∀ f ∈ S.fields,
      (∃ number lens, f = .singular number lens string "" ∧ number ∈ texts) ∨
        ∃ number lens, f = .singular number lens uint32 0 ∧ number ∈ numbers)
    {r : Record} (h : Readable texts numbers r) : S.Reads r := by
  by_cases hunknown : ∀ f ∈ S.fields, r.number = f.number → f.arm r.payload.wireType = none
  · exact ⟨id, .unknown h.valid h.fits (armOf_eq_none hunknown)⟩
  · obtain ⟨f, hf, hnumber, harm⟩ : ∃ f ∈ S.fields, r.number = f.number ∧
        f.arm r.payload.wireType ≠ none := by
      simpa only [not_forall, exists_prop] using hunknown
    obtain ⟨_, payload⟩ := r
    obtain ⟨number, lens, rfl, htext⟩ | ⟨number, lens, rfl, hint⟩ := hfields f hf
    · obtain rfl : _ = number := hnumber
      obtain ⟨bytes, rfl⟩ :=
        Payload.eq_delimited ((Field.wireType_of_arm harm).trans wireType_string)
      obtain ⟨s, rfl⟩ := h.text htext bytes rfl
      exact ⟨_, means_string hf h.fits⟩
    · obtain rfl : _ = number := hnumber
      obtain ⟨n, rfl⟩ := Payload.eq_varint ((Field.wireType_of_arm harm).trans wireType_uint32)
      exact ⟨_, means_uint32 hf (h.number hint n rfl)⟩

end

namespace RequestType

/-- The text fields of the request. -/
def texts : RequestType → List Nat
  | .hello | .connect => [1]
  | _ => []

/-- The number fields of the request. -/
def numbers : RequestType → List Nat
  | .hello => [2, 3]
  | _ => []

end RequestType

/-- **Requests are records in any order**: a request is parsed whatever records
it is made of, with fields missing, repeated or unknown. -/
theorem parses_records (req : RequestType) {records : List Record}
    (h : ∀ r ∈ records, Readable req.texts req.numbers r) :
    Protobuf.parses req (records.flatMap Record.encode) = true := by
  cases req with
  | hello =>
      refine HelloRequest.schema.parse_records fun r hr => reads_of_readable ?_ (h r hr)
      simp [HelloRequest.schema, RequestType.texts, RequestType.numbers]
  | connect =>
      refine ConnectRequest.schema.parse_records fun r hr => reads_of_readable ?_ (h r hr)
      simp [ConnectRequest.schema, RequestType.texts, RequestType.numbers]
  | disconnect | ping | deviceInfo | listEntities | subscribeBluetoothConnectionsFree =>
      refine Schema.parse_records _ fun r hr => reads_of_readable ?_ (h r hr)
      exact fun f hf => absurd hf List.not_mem_nil

/-- The flags that a record sets in a subscription. -/
def flagsOf : Record → Option UInt32
  | ⟨1, .varint n⟩ => some (UInt32.ofNat n)
  | _ => none

/-- What a record does to a subscription. -/
def setFlags (r : Record) (req : SubscribeBluetoothLEAdvertisementsRequest) :
    SubscribeBluetoothLEAdvertisementsRequest :=
  (flagsOf r).elim req fun flags => { req with flags }

theorem means_setFlags {r : Record} (h : Readable [] [1] r) :
    SubscribeBluetoothLEAdvertisementsRequest.schema.Means r (setFlags r) := by
  obtain ⟨number, payload⟩ := r
  by_cases hflags : number = 1 ∧ payload.wireType = 0
  · obtain ⟨rfl, hwire⟩ := hflags
    obtain ⟨n, rfl⟩ := Payload.eq_varint hwire
    have hn := h.number List.mem_cons_self n rfl
    exact means_uint32 (S := SubscribeBluetoothLEAdvertisementsRequest.schema)
      List.mem_cons_self hn
  · have harm : armOf SubscribeBluetoothLEAdvertisementsRequest.schema.fields
        (Record.tag ⟨number, payload⟩) = none := by
      refine armOf_eq_none fun f hf hnumber => ?_
      obtain rfl := List.mem_singleton.mp hf
      exact if_neg fun hwire => hflags ⟨hnumber, hwire.trans wireType_uint32⟩
    have hnone : flagsOf ⟨number, payload⟩ = none := by
      unfold flagsOf
      split
      · next n heq =>
          obtain ⟨rfl, rfl⟩ := Record.mk.inj heq
          exact absurd ⟨rfl, rfl⟩ hflags
      · rfl
    have hid : setFlags ⟨number, payload⟩ = id := by
      funext req
      rw [setFlags, hnone]
      rfl
    rw [hid]
    exact .unknown h.valid h.fits harm

omit [ProtobufRuntime] in
theorem foldl_setFlags (records : List Record) (req : SubscribeBluetoothLEAdvertisementsRequest) :
    records.foldl (fun req r => setFlags r req) req =
      { flags := (records.reverse.findSome? flagsOf).getD req.flags } := by
  induction records generalizing req with
  | nil => rfl
  | cons r records ih =>
      rw [List.foldl_cons, ih, List.reverse_cons, List.findSome?_append]
      cases hlast : records.reverse.findSome? flagsOf with
      | some flags => rfl
      | none => cases hr : flagsOf r <;> simp [setFlags, hr]

/-- **The last flags win**: a subscription with records in any order asks for
the flags of its last flags record, and for `0` without one; other records
change nothing. -/
theorem parseSubscribe_records {records : List Record}
    (h : ∀ r ∈ records, Readable [] [1] r) :
    Protobuf.parseSubscribe (records.flatMap Record.encode) =
      some { flags := (records.reverse.findSome? flagsOf).getD 0 } := by
  have hmerge := SubscribeBluetoothLEAdvertisementsRequest.schema.mergeFrom_records
    (fun r hr => means_setFlags (h r hr)) {}
  rw [foldl_setFlags] at hmerge
  exact hmerge

end

/-! ## Concrete surroundings -/

/-- rust-protobuf on the canonical encodings. -/
@[reducible] def canonicalRuntime : ProtobufRuntime where
  toRuntime := Runtime.canonical
  bool := Scalar.bool
  uint32 := Scalar.uint32
  uint64 := Scalar.uint64
  sint32 := Scalar.sint32
  bytes := Scalar.bytes
  string := Scalar.string
  packedUint32 := Scalar.packed UInt32.toNat UInt32.ofNat fun _ => UInt32.ofNat_toNat
  packedUint64 := Scalar.packed UInt64.toNat UInt64.ofNat fun _ => UInt64.ofNat_toNat
  packedUint32_nil _ := ⟨rfl, rfl⟩
  packedUint64_nil _ := ⟨rfl, rfl⟩
  bool_fits _ := trivial
  bool_image _ := rfl
  uint32_fits _ := trivial
  uint32_image _ := rfl
  uint64_fits _ := trivial
  uint64_image _ := rfl
  sint32_fits _ := trivial
  sint32_image _ := rfl
  bytes_fits h := h
  bytes_image _ := rfl
  string_fits h := h
  string_image _ := rfl

/-- An advertisement with a name, a negative signal strength and a service. -/
def sampleAdvertisement : BluetoothLEAdvertisementResponse where
  address := 0xAABBCCDDEEFF
  name := "Sensor".toUTF8.data.toList
  rssi := -60
  serviceUuids := ["0000180f-0000-1000-8000-00805f9b34fb"]
  serviceData := [{ uuid := "0x181a", data := [1, 2, 3] }]

theorem response_roundtrip_sample :
    @Sized _ (@messageResponse (@generatedProtobuf canonicalRuntime))
        (.bluetoothLEAdvertisement sampleAdvertisement) ∧
      @Response.parse canonicalRuntime 67 (@Response.writeTo canonicalRuntime
        (.bluetoothLEAdvertisement sampleAdvertisement)) =
          some (.bluetoothLEAdvertisement sampleAdvertisement) :=
  @response_roundtrip canonicalRuntime (.bluetoothLEAdvertisement sampleAdvertisement)
    (by decide +kernel)

/-- A client name, and a field that the message type does not have. -/
def sampleRecords : List Record :=
  [⟨1, .delimited "ha".toUTF8.data.toList⟩, ⟨9, .varint 5⟩, ⟨2, .varint 1⟩]

theorem parses_records_sample :
    @Protobuf.parses (@generatedProtobuf canonicalRuntime) .hello
      (sampleRecords.flatMap Record.encode) = true := by
  have hname : Readable [1] [2, 3] ⟨1, .delimited "ha".toUTF8.data.toList⟩ :=
    { valid := by decide
      fits := show "ha".toUTF8.data.toList.length < 2 ^ 32 by decide
      text := fun _ bytes h => ⟨"ha", (Payload.delimited.inj h).symm⟩
      number := fun h => absurd h (by decide) }
  refine @parses_records canonicalRuntime .hello sampleRecords fun r hr => ?_
  simp only [sampleRecords, List.mem_cons, List.not_mem_nil, or_false] at hr
  rcases hr with rfl | rfl | rfl
  · exact hname
  · exact readable_varint (by decide) (by decide)
  · exact readable_varint (by decide) (by decide)

/-- Raw advertisements are asked for and then taken back, with a field behind
that the message type does not have. -/
theorem parseSubscribe_records_sample :
    @Protobuf.parseSubscribe (@generatedProtobuf canonicalRuntime)
        (([⟨1, .varint 1⟩, ⟨1, .varint 0⟩, ⟨2, .varint 1⟩] : List Record).flatMap Record.encode) =
      some { flags := 0 } := by
  refine @parseSubscribe_records canonicalRuntime _ fun r hr => ?_
  simp only [List.mem_cons, List.not_mem_nil, or_false] at hr
  rcases hr with rfl | rfl | rfl <;> exact readable_varint (by decide) (by decide)

end LinuxBtProxy
