import LinuxBtProxy.Proto.Varint
import LinuxBtProxy.Lib.Incremental

/-!
# LinuxBtProxy.Proto.Frame

One call of `nextMessage`.

* `parseHeader_eq_some_iff` and `nextMessage_of_fits` / `nextMessage_of_not_fits`
  say what a call does on every buffer: it waits, takes exactly one frame off
  the front, or panics in one of its two splits;
* `nextMessage_eq_some_iff` is the first of these in terms of the bytes: a
  message comes back exactly when the buffer starts with a complete frame whose
  size is a `usize`;
* `nextMessageParser` packs the call as a `FrontParser`, and
  `stable_nextMessage` says that bytes behind a complete frame do not matter.

The completeness test of step 3 uses the offset before the type varint, so a
buffer that lacks at most as many bytes as the type varint takes passes it and
panics.
-/

namespace LinuxBtProxy

open Base128 Incremental

/-! ## The header -/

/-- A varint takes between one and ten of the bytes there are. -/
theorem decodeVarint_size {buf : List UInt8} {v : UInt64} {n : Nat}
    (h : decodeVarint buf = .ok (v, n)) : 0 < n ∧ n ≤ 10 ∧ n ≤ buf.length := by
  obtain ⟨w, rest, rfl, hw, hlen, -, rfl⟩ := decodeVarint_ok_iff.mp h
  have hpos := length_pos_of_terminated hw
  rw [List.length_append]
  omega

/-- The header of a buffer whose length varint is complete: the completeness
test, then the type varint. -/
theorem parseHeader_of_length {rest : List UInt8} {length : UInt64} {lenSize : Nat}
    (hl : decodeVarint rest = .ok (length, lenSize)) :
    parseHeader (0x00 :: rest) =
      if rest.length + 1 < usizeAdd (1 + lenSize) length.toNat then .ok none
      else match decodeVarint (rest.drop lenSize) with
        | .error _ => .ok none
        | .ok (msgType, typeSize) =>
            .ok (some ⟨1 + lenSize + typeSize, length.toNat, msgType⟩) := by
  have hsize := decodeVarint_size hl
  have hfirst : sliceFrom (0x00 :: rest) 1 = .ok rest := by
    rw [sliceFrom_of_le (by simp)]
    rfl
  have hsecond : sliceFrom (0x00 :: rest) (1 + lenSize) = .ok (rest.drop lenSize) := by
    rw [sliceFrom_of_le (by rw [List.length_cons]; omega), Nat.add_comm, List.drop_succ_cons]
  simp only [parseHeader, hfirst]
  rw [if_neg (by simp)]
  by_cases hshort : rest.length + 1 < usizeAdd (1 + lenSize) length.toNat
  · simp [bind, Except.bind, hl, hshort, pure, Except.pure]
  · cases htype : decodeVarint (rest.drop lenSize) <;>
      simp [bind, Except.bind, hl, hsecond, hshort, htype, pure, Except.pure]

/-- Without a length there is no header. -/
theorem parseHeader_of_length_error {rest : List UInt8} {e : Error}
    (hl : decodeVarint rest = .error e) : parseHeader (0x00 :: rest) = .ok none := by
  have hfirst : sliceFrom (0x00 :: rest) 1 = .ok rest := by
    rw [sliceFrom_of_le (by simp)]
    rfl
  simp only [parseHeader, hfirst]
  rw [if_neg (by simp)]
  simp only [bind, Except.bind, hl, pure, Except.pure]

/-- Another start byte is no header. -/
theorem parseHeader_of_start_ne {start : UInt8} (rest : List UInt8) (h : start ≠ 0x00) :
    parseHeader (start :: rest) = .ok none := by
  simp [parseHeader, h]

/-- The header is complete when both varints are and the buffer passes the
completeness test. -/
theorem parseHeader_eq_some_iff {buf : List UInt8} {h : Header} :
    parseHeader buf = .ok (some h) ↔
      ∃ rest length lenSize msgType typeSize, buf = 0x00 :: rest ∧
        decodeVarint rest = .ok (length, lenSize) ∧
        usizeAdd (1 + lenSize) length.toNat ≤ buf.length ∧
        decodeVarint (rest.drop lenSize) = .ok (msgType, typeSize) ∧
        h = ⟨1 + lenSize + typeSize, length.toNat, msgType⟩ := by
  constructor
  · intro hh
    cases buf with
    | nil => simp [parseHeader] at hh
    | cons start rest =>
        by_cases hs : start = 0x00
        · subst hs
          cases hl : decodeVarint rest with
          | error e =>
              simp [parseHeader_of_length_error hl] at hh
          | ok r =>
              obtain ⟨length, lenSize⟩ := r
              rw [parseHeader_of_length hl] at hh
              split at hh
              · simp at hh
              · next htest =>
                  cases ht : decodeVarint (rest.drop lenSize) with
                  | error e => simp [ht] at hh
                  | ok r =>
                      obtain ⟨msgType, typeSize⟩ := r
                      refine ⟨rest, length, lenSize, msgType, typeSize, rfl, hl, ?_, ht, ?_⟩
                      · rw [List.length_cons]
                        omega
                      · simpa [ht] using hh.symm
        · simp [parseHeader_of_start_ne rest hs] at hh
  · rintro ⟨rest, length, lenSize, msgType, typeSize, rfl, hl, htest, ht, rfl⟩
    rw [List.length_cons] at htest
    rw [parseHeader_of_length hl, if_neg (by omega), ht]

/-- The slices of steps 2 and 4 are in bounds. -/
theorem parseHeader_returns (buf : List UInt8) : ∃ o, parseHeader buf = .ok o := by
  cases buf with
  | nil => exact ⟨none, rfl⟩
  | cons start rest =>
      by_cases hs : start = 0x00
      · subst hs
        cases hl : decodeVarint rest with
        | error e => exact ⟨none, parseHeader_of_length_error hl⟩
        | ok r =>
            rw [parseHeader_of_length hl]
            split
            · exact ⟨none, rfl⟩
            · split
              · exact ⟨none, rfl⟩
              · exact ⟨_, rfl⟩
      · exact ⟨none, parseHeader_of_start_ne rest hs⟩

/-- The payload starts within the buffer, behind at least three bytes. -/
theorem offset_le_of_parseHeader {buf : List UInt8} {h : Header}
    (hh : parseHeader buf = .ok (some h)) :
    3 ≤ h.offset ∧ h.offset ≤ buf.length ∧ h.payloadLen < 2 ^ 64 := by
  obtain ⟨rest, length, lenSize, msgType, typeSize, rfl, hl, -, ht, rfl⟩ :=
    parseHeader_eq_some_iff.mp hh
  have hls := decodeVarint_size hl
  have hts := decodeVarint_size ht
  have hlt := length.toNat_lt
  rw [List.length_drop] at hts
  simp only [List.length_cons]
  omega

/-! ## The splits -/

/-- The whole frame is in the buffer, and its size is a `usize`. -/
def Header.Fits (h : Header) (buf : List UInt8) : Prop :=
  h.offset + h.payloadLen < 2 ^ 64 ∧ h.offset + h.payloadLen ≤ buf.length

/-- Without a header nothing is taken. -/
theorem nextMessage_of_header_none {buf : List UInt8} (hh : parseHeader buf = .ok none) :
    nextMessage buf = .ok (none, buf) := by
  simp [nextMessage, hh, bind, Except.bind, pure, Except.pure]

/-- A message that the buffer holds is taken off its front. -/
theorem nextMessage_of_fits {buf : List UInt8} {h : Header}
    (hh : parseHeader buf = .ok (some h)) (hfit : h.Fits buf) :
    nextMessage buf =
      .ok (some (h.msgType.toUInt32, (buf.drop h.offset).take h.payloadLen),
        buf.drop (h.offset + h.payloadLen)) := by
  have hsum : usizeAdd h.offset h.payloadLen = h.offset + h.payloadLen := usizeAdd_of_lt hfit.1
  have hhead : h.offset ≤ (buf.take (h.offset + h.payloadLen)).length := by
    rw [List.length_take]
    have := hfit.2
    omega
  simp only [nextMessage, hh, bind, Except.bind, hsum, splitTo_of_le hfit.2,
    splitOff_of_le hhead, pure, Except.pure]
  rw [List.drop_take, Nat.add_sub_cancel_left]

/-- A wrapped sum is smaller than the offset, so the second split fails; an
honest one is longer than the buffer, so the first does. -/
theorem nextMessage_of_not_fits {buf : List UInt8} {h : Header}
    (hh : parseHeader buf = .ok (some h)) (hfit : ¬ h.Fits buf) :
    ∃ e, nextMessage buf = .error e := by
  obtain ⟨-, hoff, hlen⟩ := offset_le_of_parseHeader hh
  by_cases hsplit : usizeAdd h.offset h.payloadLen ≤ buf.length
  · have hwrap : usizeAdd h.offset h.payloadLen < h.offset := by
      rw [Header.Fits] at hfit
      rw [usizeAdd] at hsplit ⊢
      omega
    have hhead : (buf.take (usizeAdd h.offset h.payloadLen)).length < h.offset := by
      rw [List.length_take]
      omega
    refine ⟨.splitOff, ?_⟩
    simp only [nextMessage, hh, bind, Except.bind, splitTo_of_le hsplit, splitOff_of_gt hhead]
  · refine ⟨.splitTo, ?_⟩
    simp only [nextMessage, hh, bind, Except.bind, splitTo_of_gt (Nat.lt_of_not_le hsplit)]

/-- Every call waits with the buffer untouched, takes a frame that fits off the
buffer, or panics over one that does not. -/
theorem nextMessage_cases (buf : List UInt8) :
    (parseHeader buf = .ok none ∧ nextMessage buf = .ok (none, buf)) ∨
      (∃ h, parseHeader buf = .ok (some h) ∧ h.Fits buf ∧
        nextMessage buf =
          .ok (some (h.msgType.toUInt32, (buf.drop h.offset).take h.payloadLen),
            buf.drop (h.offset + h.payloadLen))) ∨
      ∃ h e, parseHeader buf = .ok (some h) ∧ ¬ h.Fits buf ∧ nextMessage buf = .error e := by
  obtain ⟨_ | h, hh⟩ := parseHeader_returns buf
  · exact Or.inl ⟨hh, nextMessage_of_header_none hh⟩
  · by_cases hfit : h.Fits buf
    · exact Or.inr (Or.inl ⟨h, hh, hfit, nextMessage_of_fits hh hfit⟩)
    · obtain ⟨e, he⟩ := nextMessage_of_not_fits hh hfit
      exact Or.inr (Or.inr ⟨h, e, hh, hfit, he⟩)

/-- Where nothing is found the buffer is as it was. -/
theorem nextMessage_keeps {buf rest : List UInt8} (h : nextMessage buf = .ok (none, rest)) :
    rest = buf := by
  rcases nextMessage_cases buf with ⟨-, hn⟩ | ⟨hd, -, -, hn⟩ | ⟨hd, e, -, -, hn⟩
  · rw [hn] at h
    simpa using h.symm
  · rw [hn] at h
    simp at h
  · rw [hn] at h
    contradiction

/-- A message comes from a complete header whose frame fits. -/
theorem header_of_nextMessage {buf rest : List UInt8} {m : UInt32 × List UInt8}
    (h : nextMessage buf = .ok (some m, rest)) :
    ∃ hd, parseHeader buf = .ok (some hd) ∧ hd.Fits buf ∧
      m = (hd.msgType.toUInt32, (buf.drop hd.offset).take hd.payloadLen) ∧
      rest = buf.drop (hd.offset + hd.payloadLen) := by
  rcases nextMessage_cases buf with ⟨-, hn⟩ | ⟨hd, hh, hfit, hn⟩ | ⟨hd, e, -, -, hn⟩
  · rw [hn] at h
    simp at h
  · rw [hn] at h
    simp only [Except.ok.injEq, Prod.mk.injEq, Option.some.injEq] at h
    exact ⟨hd, hh, hfit, h.1.symm, h.2.symm⟩
  · rw [hn] at h
    contradiction

/-- A message takes at least three bytes off the buffer. -/
theorem nextMessage_shrinks {buf rest : List UInt8} {m : UInt32 × List UInt8}
    (h : nextMessage buf = .ok (some m, rest)) : rest.length + 3 ≤ buf.length := by
  obtain ⟨hd, hh, hfit, -, rfl⟩ := header_of_nextMessage h
  obtain ⟨hoff, -, -⟩ := offset_le_of_parseHeader hh
  have hle := hfit.2
  rw [List.length_drop]
  omega

/-! ## Messages and frames -/

/-- The bytes of a frame with the given varints and payload. -/
def frameBytes (lenBytes typeBytes payload : List UInt8) : List UInt8 :=
  0x00 :: (lenBytes ++ (typeBytes ++ payload))

/-- The parts of a frame add up. -/
@[simp] theorem length_frameBytes (lenBytes typeBytes payload : List UInt8) :
    (frameBytes lenBytes typeBytes payload).length =
      1 + lenBytes.length + typeBytes.length + payload.length := by
  simp only [frameBytes, List.length_cons, List.length_append]
  omega

/-- What follows a frame follows its payload. -/
theorem frameBytes_append (lenBytes typeBytes payload rest : List UInt8) :
    frameBytes lenBytes typeBytes payload ++ rest =
      frameBytes lenBytes typeBytes (payload ++ rest) := by
  simp [frameBytes]

/-- A buffer starts with two complete varints in at most one way. -/
theorem frameBytes_inj {lenBytes typeBytes body lenBytes' typeBytes' body' : List UInt8}
    (hl : Terminated lenBytes) (ht : Terminated typeBytes) (hl' : Terminated lenBytes')
    (ht' : Terminated typeBytes')
    (h : frameBytes lenBytes typeBytes body = frameBytes lenBytes' typeBytes' body') :
    lenBytes = lenBytes' ∧ typeBytes = typeBytes' ∧ body = body' := by
  rw [frameBytes, frameBytes, List.cons.injEq] at h
  obtain ⟨rfl, htail⟩ := terminated_append_inj hl hl' h.2
  obtain ⟨rfl, rfl⟩ := terminated_append_inj ht ht' htail
  exact ⟨rfl, rfl, rfl⟩

/-- Two complete varints and the payload that the first one announces, together
no longer than a `usize` can say. -/
structure IsFrame (lenBytes typeBytes payload : List UInt8) : Prop where
  len_terminated : Terminated lenBytes
  len_le : lenBytes.length ≤ 10
  type_terminated : Terminated typeBytes
  type_le : typeBytes.length ≤ 10
  len_value : value lenBytes % 2 ^ 64 = payload.length
  size_lt : (frameBytes lenBytes typeBytes payload).length < 2 ^ 64

/-- Lengths and types are read modulo `2 ^ 64`. -/
theorem toNat_ofNat_value (w : List UInt8) : (UInt64.ofNat (value w)).toNat = value w % 2 ^ 64 :=
  UInt64.toNat_ofNat' ..

/-- The header of a buffer that starts with two complete varints. -/
theorem parseHeader_frameBytes {lenBytes typeBytes : List UInt8} (hl : Terminated lenBytes)
    (hl10 : lenBytes.length ≤ 10) (ht : Terminated typeBytes) (ht10 : typeBytes.length ≤ 10)
    (body : List UInt8) :
    parseHeader (frameBytes lenBytes typeBytes body) =
      if 1 + lenBytes.length + typeBytes.length + body.length <
          usizeAdd (1 + lenBytes.length) (value lenBytes % 2 ^ 64) then .ok none
      else .ok (some ⟨1 + lenBytes.length + typeBytes.length, value lenBytes % 2 ^ 64,
        UInt64.ofNat (value typeBytes)⟩) := by
  have hlen := decodeVarint_terminated hl hl10 (typeBytes ++ body)
  have htype := decodeVarint_terminated ht ht10 body
  rw [frameBytes, parseHeader_of_length hlen, List.drop_left, htype, toNat_ofNat_value]
  simp only [List.length_append]
  rw [show lenBytes.length + (typeBytes.length + body.length) + 1 =
    1 + lenBytes.length + typeBytes.length + body.length by omega]

/-- Behind the two varints comes the payload. -/
theorem drop_frameBytes (lenBytes typeBytes body : List UInt8) :
    (frameBytes lenBytes typeBytes body).drop (1 + lenBytes.length + typeBytes.length) = body := by
  rw [frameBytes, Nat.add_assoc, Nat.add_comm 1, List.drop_succ_cons, ← List.append_assoc,
    List.drop_left' (by simp)]

/-- A part of the payload behind the two varints. -/
theorem drop_frameBytes_add (lenBytes typeBytes body : List UInt8) (n : Nat) :
    (frameBytes lenBytes typeBytes body).drop (1 + lenBytes.length + typeBytes.length + n) =
      body.drop n := by
  rw [← List.drop_drop, drop_frameBytes]

/-- A complete frame comes off the buffer, whatever follows it. -/
theorem IsFrame.nextMessage_append {lenBytes typeBytes payload : List UInt8}
    (hf : IsFrame lenBytes typeBytes payload) (rest : List UInt8) :
    nextMessage (frameBytes lenBytes typeBytes payload ++ rest) =
      .ok (some ((UInt64.ofNat (value typeBytes)).toUInt32, payload), rest) := by
  have hfit := hf.size_lt
  rw [length_frameBytes] at hfit
  have hheader := parseHeader_frameBytes hf.len_terminated hf.len_le hf.type_terminated
    hf.type_le (payload ++ rest)
  rw [List.length_append, hf.len_value, usizeAdd_of_lt (by omega), if_neg (by omega)] at hheader
  have hsize : (frameBytes lenBytes typeBytes (payload ++ rest)).length =
      1 + lenBytes.length + typeBytes.length + payload.length + rest.length := by
    rw [length_frameBytes, List.length_append]
    omega
  rw [frameBytes_append, nextMessage_of_fits hheader ⟨by simp only; omega, by simp only; omega⟩]
  simp only [drop_frameBytes_add, drop_frameBytes, List.take_left, List.drop_left]

/-- **Soundness and completeness of one call**: it returns a message exactly
when the buffer starts with a complete frame whose size is a `usize`. -/
theorem nextMessage_eq_some_iff {buf rest payload : List UInt8} {t : UInt32} :
    nextMessage buf = .ok (some (t, payload), rest) ↔
      ∃ lenBytes typeBytes, IsFrame lenBytes typeBytes payload ∧
        t = (UInt64.ofNat (value typeBytes)).toUInt32 ∧
        buf = frameBytes lenBytes typeBytes payload ++ rest := by
  constructor
  · intro h
    rcases nextMessage_cases buf with ⟨-, hn⟩ | ⟨hd, hh, hfit, hn⟩ | ⟨hd, e, -, -, hn⟩
    · rw [hn] at h
      simp at h
    · obtain ⟨tail, length, lenSize, msgType, typeSize, rfl, hl, -, ht, rfl⟩ :=
        parseHeader_eq_some_iff.mp hh
      obtain ⟨lenBytes, tail, rfl, hlt, hl10, rfl, rfl⟩ := decodeVarint_ok_iff.mp hl
      rw [List.drop_left] at ht
      obtain ⟨typeBytes, body, rfl, htt, ht10, rfl, rfl⟩ := decodeVarint_ok_iff.mp ht
      have hbuf : (0x00 :: (lenBytes ++ (typeBytes ++ body)) : List UInt8) =
          frameBytes lenBytes typeBytes body := rfl
      rw [hbuf] at hn hfit h
      rw [hn] at h
      simp only [drop_frameBytes_add, drop_frameBytes, toNat_ofNat_value, Except.ok.injEq,
        Prod.mk.injEq, Option.some.injEq] at h
      obtain ⟨⟨rfl, rfl⟩, rfl⟩ := h
      simp only [Header.Fits, length_frameBytes, toNat_ofNat_value] at hfit
      have hpay : (body.take (value lenBytes % 2 ^ 64)).length = value lenBytes % 2 ^ 64 := by
        rw [List.length_take]
        omega
      refine ⟨lenBytes, typeBytes, ⟨hlt, hl10, htt, ht10, hpay.symm, ?_⟩, rfl, ?_⟩
      · rw [length_frameBytes, hpay]
        exact hfit.1
      · rw [frameBytes_append, List.take_append_drop, hbuf]
    · rw [hn] at h
      contradiction
  · rintro ⟨lenBytes, typeBytes, hf, rfl, rfl⟩
    exact hf.nextMessage_append rest

/-- `next_message` as the front parser of the read loop. -/
def nextMessageParser : FrontParser (UInt32 × List UInt8) UInt8 Panic where
  next := nextMessage
  shrinks h := by
    have := nextMessage_shrinks h
    omega
  keeps := nextMessage_keeps

/-- Bytes that come later change nothing about a message that was found. -/
theorem stable_nextMessage : nextMessageParser.Stable := by
  intro buf m rest h more
  obtain ⟨t, payload⟩ := m
  obtain ⟨lenBytes, typeBytes, hf, htype, rfl⟩ := nextMessage_eq_some_iff.mp h
  exact nextMessage_eq_some_iff.mpr
    ⟨lenBytes, typeBytes, hf, htype, by rw [List.append_assoc]⟩

/-- An empty buffer waits. -/
theorem idle_nil : nextMessageParser.Idle [] := rfl

end LinuxBtProxy
