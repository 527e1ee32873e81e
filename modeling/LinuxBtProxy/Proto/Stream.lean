import LinuxBtProxy.Proto.Frame

/-!
# LinuxBtProxy.Proto.Stream

Streams of frames, cut into reads.

A `Frame` is a frame as a client of the protocol writes it: two varints that
spell `u64` values without loss, the type below `2 ^ 32`, and the payload the
length announces.  The read loop (`feed nextMessageParser`) delivers a stream of
them exactly, except that a read may not end where a frame is `Premature`: there
the completeness test passes although the frame is incomplete
(`delivers_iff`; `Server.Arrivals` says the same of a connection).
-/

namespace LinuxBtProxy

open Base128 Incremental

/-! ## Well-formed frames -/

/-- A varint of the protocol: a numeral of at most ten bytes whose value fits
64 bits. -/
structure Varint where
  bytes : List UInt8
  terminated : Terminated bytes
  length_le : bytes.length ≤ 10
  value_lt : value bytes < 2 ^ 64

/-- A frame of the protocol. -/
structure Frame where
  len : Varint
  msgType : Varint
  payload : List UInt8
  len_eq : value len.bytes = payload.length
  type_lt : value msgType.bytes < 2 ^ 32

namespace Frame

/-- The frame as it is sent. -/
def bytes (f : Frame) : List UInt8 := frameBytes f.len.bytes f.msgType.bytes f.payload

/-- What the frame is decoded to. -/
def message (f : Frame) : UInt32 × List UInt8 := (UInt32.ofNat (value f.msgType.bytes), f.payload)

/-- The size of the frame is a `usize`. -/
def Representable (f : Frame) : Prop := f.bytes.length < 2 ^ 64

/-- The first `n` bytes hold both varints, and no more than the size of the
type varint is missing at the end of the frame. -/
def Premature (f : Frame) (n : Nat) : Prop :=
  1 + f.len.bytes.length + f.msgType.bytes.length ≤ n ∧
    1 + f.len.bytes.length + f.payload.length ≤ n

instance decidablePremature (f : Frame) (n : Nat) : Decidable (f.Premature n) :=
  inferInstanceAs (Decidable (_ ∧ _))

instance decidableRepresentable (f : Frame) : Decidable f.Representable :=
  inferInstanceAs (Decidable (_ < _))

/-- The parts of a frame add up. -/
theorem length_bytes (f : Frame) :
    f.bytes.length =
      1 + f.len.bytes.length + f.msgType.bytes.length + f.payload.length :=
  length_frameBytes ..

/-- The length varint tells the payload's length. -/
theorem len_mod (f : Frame) : value f.len.bytes % 2 ^ 64 = f.payload.length := by
  rw [Nat.mod_eq_of_lt f.len.value_lt, f.len_eq]

/-- A frame whose size is a `usize` is one of the protocol. -/
theorem isFrame {f : Frame} (hf : f.Representable) :
    IsFrame f.len.bytes f.msgType.bytes f.payload where
  len_terminated := f.len.terminated
  len_le := f.len.length_le
  type_terminated := f.msgType.terminated
  type_le := f.msgType.length_le
  len_value := f.len_mod
  size_lt := hf

/-- A frame on the wire comes off the buffer as its message. -/
theorem next_bytes {f : Frame} (hf : f.Representable) (rest : List UInt8) :
    nextMessageParser.next (f.bytes ++ rest) = .ok (some f.message, rest) := by
  have hnarrow : (UInt64.ofNat (value f.msgType.bytes)).toUInt32 =
      UInt32.ofNat (value f.msgType.bytes) := by
    apply UInt32.toNat_inj.mp
    rw [UInt64.toNat_toUInt32, UInt64.toNat_ofNat', UInt32.toNat_ofNat']
    omega
  have h := (isFrame hf).nextMessage_append rest
  rw [hnarrow] at h
  exact h

end Frame

/-! ## Cuts inside a frame -/

/-- Without a header the buffer waits. -/
theorem idle_of_parseHeader {buf : List UInt8} (hh : parseHeader buf = .ok none) :
    nextMessageParser.Idle buf := nextMessage_of_header_none hh

/-- A cut inside the length varint. -/
theorem take_frameBytes_of_lt {lenBytes typeBytes payload : List UInt8} {n : Nat}
    (hn : n < lenBytes.length) :
    (frameBytes lenBytes typeBytes payload).take (n + 1) = 0x00 :: lenBytes.take n := by
  rw [frameBytes, List.take_succ_cons, List.take_append_of_le_length (by omega)]

/-- A cut inside the type varint. -/
theorem take_frameBytes_of_type_lt {lenBytes typeBytes payload : List UInt8} {n : Nat}
    (hn : n < typeBytes.length) :
    (frameBytes lenBytes typeBytes payload).take (1 + lenBytes.length + n) =
      0x00 :: (lenBytes ++ typeBytes.take n) := by
  rw [frameBytes, Nat.add_assoc, Nat.add_comm 1, List.take_succ_cons, List.take_append,
    List.take_of_length_le (by omega), Nat.add_sub_cancel_left,
    List.take_append_of_le_length (by omega)]

/-- A cut inside the payload. -/
theorem take_frameBytes_of_ge (lenBytes typeBytes payload : List UInt8) (n : Nat) :
    (frameBytes lenBytes typeBytes payload).take (1 + lenBytes.length + typeBytes.length + n) =
      frameBytes lenBytes typeBytes (payload.take n) := by
  rw [frameBytes, frameBytes, Nat.add_assoc, Nat.add_assoc, Nat.add_comm 1, List.take_succ_cons,
    List.take_append, List.take_of_length_le (by omega), Nat.add_sub_cancel_left,
    List.take_append, List.take_of_length_le (by omega), Nat.add_sub_cancel_left]

namespace Frame

/-- Both varints are there, so the header is complete as soon as the buffer
passes the completeness test. -/
theorem parseHeader_take {f : Frame} (hf : f.Representable) {k : Nat}
    (hk : k < f.payload.length) :
    parseHeader (f.bytes.take (1 + f.len.bytes.length + f.msgType.bytes.length + k)) =
      if f.Premature (1 + f.len.bytes.length + f.msgType.bytes.length + k) then
        .ok (some ⟨1 + f.len.bytes.length + f.msgType.bytes.length, f.payload.length,
          UInt64.ofNat (value f.msgType.bytes)⟩)
      else .ok none := by
  have hsize := hf
  rw [Representable, length_bytes] at hsize
  have hshort : (f.payload.take k).length = k := by
    rw [List.length_take]
    omega
  rw [bytes, take_frameBytes_of_ge, parseHeader_frameBytes f.len.terminated f.len.length_le
    f.msgType.terminated f.msgType.length_le, hshort, f.len_mod, usizeAdd_of_lt (by omega)]
  by_cases hp : f.Premature (1 + f.len.bytes.length + f.msgType.bytes.length + k)
  · rw [if_pos hp, if_neg (by have := hp.2; omega)]
  · rw [if_neg hp, if_pos]
    rw [Premature] at hp
    omega

/-- A cut at a premature position panics: the test of step 3 passes and the
split asks for bytes that are not there. -/
theorem next_take_of_premature {f : Frame} (hf : f.Representable) {n : Nat}
    (hn : n < f.bytes.length) (hp : f.Premature n) :
    ∃ e, nextMessageParser.next (f.bytes.take n) = .error e := by
  rw [length_bytes] at hn
  obtain ⟨k, rfl⟩ := Nat.exists_eq_add_of_le hp.1
  have hh := parseHeader_take hf (k := k) (by omega)
  rw [if_pos hp] at hh
  refine nextMessage_of_not_fits hh ?_
  rintro ⟨-, hle⟩
  rw [List.length_take, length_bytes] at hle
  simp only at hle
  omega

/-- At every other position inside a frame the parser waits. -/
theorem idle_take_of_not_premature {f : Frame} (hf : f.Representable) {n : Nat}
    (hn : n < f.bytes.length) (hp : ¬ f.Premature n) :
    nextMessageParser.Idle (f.bytes.take n) := by
  rw [length_bytes] at hn
  have hlen10 := f.len.length_le
  have htype10 := f.msgType.length_le
  rcases Nat.eq_zero_or_pos n with rfl | hpos
  · exact idle_nil
  by_cases hlen : n ≤ f.len.bytes.length
  · -- inside the length varint
    obtain ⟨k, rfl⟩ : ∃ k, n = k + 1 := ⟨n - 1, by omega⟩
    rw [bytes, take_frameBytes_of_lt (by omega)]
    exact idle_of_parseHeader (parseHeader_of_length_error
      (decodeVarint_continued (continued_take f.len.terminated (by omega))
        (by rw [List.length_take]; omega)))
  by_cases htype : n < 1 + f.len.bytes.length + f.msgType.bytes.length
  · -- inside the type varint
    obtain ⟨k, rfl⟩ := Nat.exists_eq_add_of_le (show 1 + f.len.bytes.length ≤ n by omega)
    rw [bytes, take_frameBytes_of_type_lt (by omega)]
    have hl := decodeVarint_terminated f.len.terminated f.len.length_le (f.msgType.bytes.take k)
    have ht := decodeVarint_continued (continued_take f.msgType.terminated (r := k) (by omega))
      (by rw [List.length_take]; omega)
    refine idle_of_parseHeader ?_
    rw [parseHeader_of_length hl, List.drop_left, ht]
    split <;> rfl
  · -- inside the payload
    obtain ⟨k, rfl⟩ := Nat.exists_eq_add_of_le (Nat.le_of_not_lt htype)
    have hh := parseHeader_take hf (k := k) (by omega)
    rw [if_neg hp] at hh
    exact idle_of_parseHeader hh

end Frame

/-! ## Accepted frames -/

/-- What the parser accepts as a frame. -/
structure AcceptedFrame where
  lenBytes : List UInt8
  typeBytes : List UInt8
  payload : List UInt8
  isFrame : IsFrame lenBytes typeBytes payload

namespace AcceptedFrame

def bytes (f : AcceptedFrame) : List UInt8 := frameBytes f.lenBytes f.typeBytes f.payload

def message (f : AcceptedFrame) : UInt32 × List UInt8 :=
  ((UInt64.ofNat (value f.typeBytes)).toUInt32, f.payload)

/-- An accepted frame is taken off the buffer. -/
theorem next_bytes (f : AcceptedFrame) (rest : List UInt8) :
    nextMessageParser.next (f.bytes ++ rest) = .ok (some f.message, rest) :=
  f.isFrame.nextMessage_append rest

end AcceptedFrame

/-- A run of calls consumes accepted frames and nothing else. -/
theorem frames_of_consumes {buf rest : List UInt8} {msgs : List (UInt32 × List UInt8)}
    (h : Consumes nextMessageParser buf msgs rest) :
    ∃ frames : List AcceptedFrame, msgs = frames.map AcceptedFrame.message ∧
      buf = (frames.map AcceptedFrame.bytes).flatten ++ rest := by
  induction h with
  | refl buf => exact ⟨[], rfl, rfl⟩
  | @message buf m later msgs last hn _ ih =>
      obtain ⟨frames, hmsgs, hlater⟩ := ih
      obtain ⟨t, payload⟩ := m
      obtain ⟨lenBytes, typeBytes, hf, rfl, rfl⟩ := nextMessage_eq_some_iff.mp hn
      refine ⟨⟨lenBytes, typeBytes, payload, hf⟩ :: frames, ?_, ?_⟩
      · rw [List.map_cons, ← hmsgs]
        rfl
      · rw [List.map_cons, List.flatten_cons, List.append_assoc, ← hlater]
        rfl

/-- What was found is a sequence of accepted frames in front of the rest. -/
theorem frames_of_drain {buf rest : List UInt8} {msgs : List (UInt32 × List UInt8)}
    (h : drain nextMessageParser buf = (msgs, rest, none)) :
    ∃ frames : List AcceptedFrame, msgs = frames.map AcceptedFrame.message ∧
      buf = (frames.map AcceptedFrame.bytes).flatten ++ rest := by
  have hrun := drain_consumes nextMessageParser buf
  rw [h] at hrun
  exact frames_of_consumes hrun

/-- Accepted frames are found one after the other. -/
theorem drain_accepted (frames : List AcceptedFrame) (tail : List UInt8) :
    drain nextMessageParser ((frames.map AcceptedFrame.bytes).flatten ++ tail) =
      (frames.map AcceptedFrame.message ++ (drain nextMessageParser tail).1,
        (drain nextMessageParser tail).2) :=
  drain_flatten _ _ (fun f _ rest => f.next_bytes rest) tail

/-! ## Delivery -/

/-- The read loop delivers exactly these frames, with an empty buffer at the end
and no panic on the way. -/
def Delivers (frames : List Frame) (reads : List (List UInt8)) : Prop :=
  feed nextMessageParser [] reads = (frames.map Frame.message, [], none)

/-- The parser never gets past a frame whose size is no `usize`. -/
theorem representable_of_drain {frames : List Frame}
    (h : drain nextMessageParser (frames.map Frame.bytes).flatten =
      (frames.map Frame.message, [], none)) :
    ∀ f ∈ frames, f.Representable := by
  induction frames with
  | nil => simp
  | cons f frames ih =>
      rw [List.map_cons, List.flatten_cons] at h
      by_cases hf : f.Representable
      · rw [drain_message (Frame.next_bytes hf _), List.map_cons] at h
        simp only [Prod.mk.injEq, List.cons.injEq, true_and] at h
        have htail := ih (Prod.ext h.1 h.2)
        simpa using ⟨hf, htail⟩
      · -- a message taken off here would be a frame of the same varints
        cases hn : nextMessageParser.next (f.bytes ++ (frames.map Frame.bytes).flatten) with
        | error e => simp [drain_crash hn] at h
        | ok r =>
            obtain ⟨_ | ⟨t, payload⟩, rest⟩ := r
            · simp [drain_idle (FrontParser.idle_of_next hn)] at h
            · obtain ⟨lenBytes, typeBytes, hframe, -, hbytes⟩ := nextMessage_eq_some_iff.mp hn
              rw [Frame.bytes, frameBytes_append, frameBytes_append] at hbytes
              obtain ⟨rfl, rfl, -⟩ := frameBytes_inj f.len.terminated f.msgType.terminated
                hframe.len_terminated hframe.type_terminated hbytes
              have hsize := hframe.size_lt
              have hpayload := hframe.len_value
              rw [f.len_mod] at hpayload
              rw [Frame.Representable, Frame.length_bytes] at hf
              rw [length_frameBytes] at hsize
              omega

/-- The frames are representable, and no read ends at a premature position. -/
def CutCleanly (frames : List Frame) (reads : List (List UInt8)) : Prop :=
  (∀ f ∈ frames, f.Representable) ∧
    ∀ first, first <+: reads →
      CleanCut Frame.bytes Frame.Premature frames first.flatten.length

/-- The read loop on the bytes of frames, cut into reads. -/
theorem feed_frames_iff {frames : List Frame} {reads : List (List UInt8)}
    (hreads : reads.flatten = (frames.map Frame.bytes).flatten) :
    feed nextMessageParser [] reads = (frames.map Frame.message, [], none) ↔
      CutCleanly frames reads := by
  rw [CutCleanly, feed_eq_iff stable_nextMessage idle_nil, List.nil_append, hreads]
  have htake : ∀ first, first <+: reads →
      [] ++ first.flatten = (frames.map Frame.bytes).flatten.take first.flatten.length := by
    intro first hfirst
    obtain ⟨later, rfl⟩ := hfirst
    rw [← hreads, List.flatten_append, List.take_left, List.nil_append]
  have hcut : (∀ f ∈ frames, f.Representable) → ∀ first, first <+: reads →
      ((drain nextMessageParser ([] ++ first.flatten)).2.2 = none ↔
        CleanCut Frame.bytes Frame.Premature frames first.flatten.length) := by
    intro hrep first hfirst
    rw [htake first hfirst]
    exact drain_take_crash_iff Frame.bytes Frame.message idle_nil
      (fun f hf => Frame.next_bytes (hrep f hf))
      (fun f hf _ hr hp => Frame.next_take_of_premature (hrep f hf) hr hp)
      (fun f hf _ hr hp => Frame.idle_take_of_not_premature (hrep f hf) hr hp) _
  constructor
  · rintro ⟨hall, hfirst⟩
    have hrep := representable_of_drain hall
    exact ⟨hrep, fun first hpre => (hcut hrep first hpre).mp (hfirst first hpre)⟩
  · rintro ⟨hrep, hfirst⟩
    refine ⟨?_, fun first hpre => (hcut hrep first hpre).mpr (hfirst first hpre)⟩
    have hdrain := drain_flatten (P := nextMessageParser) Frame.bytes Frame.message
      (fun f hf => Frame.next_bytes (hrep f hf)) []
    simpa [drain_idle idle_nil] using hdrain

/-- **Chunk independence, and where it ends**: however the bytes of the frames
are cut into reads, the read loop delivers the frames exactly when they are
representable and no read ends at a premature position. -/
theorem delivers_iff (frames : List Frame) (reads : List (List UInt8))
    (hreads : reads.flatten = (frames.map Frame.bytes).flatten) :
    Delivers frames reads ↔
      (∀ f ∈ frames, f.Representable) ∧
        ∀ first, first <+: reads →
          CleanCut Frame.bytes Frame.Premature frames first.flatten.length :=
  feed_frames_iff hreads

/-- A frame of type 7 without a payload. -/
def emptyFrame : Frame where
  len := ⟨[0x00], by decide, by decide, by decide⟩
  msgType := ⟨[0x07], by decide, by decide, by decide⟩
  payload := []
  len_eq := rfl
  type_lt := by decide

/-- A frame of type 7 with one byte of payload. -/
def byteFrame : Frame where
  len := ⟨[0x01], by decide, by decide, by decide⟩
  msgType := ⟨[0x07], by decide, by decide, by decide⟩
  payload := [0x2A]
  len_eq := rfl
  type_lt := by decide

/-- Two frames cut inside the first header and the second one. -/
theorem delivers_two_frames :
    Delivers [emptyFrame, byteFrame] [[0x00, 0x00], [0x07, 0x00, 0x01], [0x07, 0x2A]] := by
  refine (delivers_iff [emptyFrame, byteFrame] [[0x00, 0x00], [0x07, 0x00, 0x01], [0x07, 0x2A]]
    rfl).mpr ⟨by decide, fun first hfirst => ?_⟩
  simp only [List.prefix_cons_iff, List.prefix_nil] at hfirst
  rcases hfirst with rfl | ⟨_, rfl, rfl | ⟨_, rfl, rfl | ⟨_, rfl, rfl⟩⟩⟩ <;> decide

/-- The payload arrives in a read of its own: the first read already panics. -/
theorem not_delivers_late_payload :
    [[0x00, 0x01, 0x07], [0x2A]].flatten = ([byteFrame].map Frame.bytes).flatten ∧
      ¬ Delivers [byteFrame] [[0x00, 0x01, 0x07], [0x2A]] := by
  refine ⟨rfl, fun h => ?_⟩
  have hpanic : drain nextMessageParser ([] ++ [0x00, 0x01, 0x07]) =
      ([], [0x00, 0x01, 0x07], some .splitTo) := drain_crash rfl
  rw [Delivers, feed_cons_of_crash hpanic] at h
  simp at h

end LinuxBtProxy
