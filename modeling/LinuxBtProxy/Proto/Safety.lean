import LinuxBtProxy.Proto.Frame

/-!
# LinuxBtProxy.Proto.Safety

Which buffers `nextMessage` survives.  The bounds check of step 3 and the
splits disagree on the offset, so the answer is a condition on the buffer
(`ShortOrComplete`), not `True`.
-/

namespace LinuxBtProxy

/-- One call returns, and every sum and split it makes on the way is honest:
no sum of an offset and a length wraps, `split_to` finds the exact number of
bytes it asks for, and `split_off` finds the head long enough. -/
structure CrashFree (buf : List UInt8) : Prop where
  returns : ∃ r, nextMessage buf = .ok r
  length_sum : ∀ rest length lenSize, buf = 0x00 :: rest →
    decodeVarint rest = .ok (length, lenSize) → 1 + lenSize + length.toNat < 2 ^ 64
  split_sum : ∀ h, parseHeader buf = .ok (some h) → h.offset + h.payloadLen < 2 ^ 64
  split_to : ∀ h, parseHeader buf = .ok (some h) → h.offset + h.payloadLen ≤ buf.length
  split_off : ∀ h head rest, parseHeader buf = .ok (some h) →
    splitTo buf (usizeAdd h.offset h.payloadLen) = .ok (head, rest) → h.offset ≤ head.length

/-- Behind a complete length varint: the declared size does not overflow, and a
buffer long enough for the payload without the type varint, in which the type
varint is complete, is long enough for both. -/
def ShortOrComplete (buf : List UInt8) : Prop :=
  ∀ rest length lenSize, buf = 0x00 :: rest → decodeVarint rest = .ok (length, lenSize) →
    1 + lenSize + length.toNat < 2 ^ 64 ∧
      (1 + lenSize + length.toNat ≤ buf.length →
        ∀ msgType typeSize, decodeVarint (rest.drop lenSize) = .ok (msgType, typeSize) →
          1 + lenSize + typeSize + length.toNat < 2 ^ 64 ∧
            1 + lenSize + typeSize + length.toNat ≤ buf.length)

/-- In a `ShortOrComplete` buffer every complete header fits. -/
theorem ShortOrComplete.fits {buf : List UInt8} (hs : ShortOrComplete buf) {h : Header}
    (hh : parseHeader buf = .ok (some h)) : h.Fits buf := by
  obtain ⟨rest, length, lenSize, msgType, typeSize, hbuf, hl, htest, ht, rfl⟩ :=
    parseHeader_eq_some_iff.mp hh
  obtain ⟨hsum, henough⟩ := hs rest length lenSize hbuf hl
  rw [usizeAdd_of_lt hsum] at htest
  exact henough htest msgType typeSize ht

/-- **Crash freedom**: a call is safe exactly on the `ShortOrComplete` buffers. -/
theorem crashFree_iff (buf : List UInt8) : CrashFree buf ↔ ShortOrComplete buf := by
  constructor
  · intro hc rest length lenSize hbuf hl
    have hsum := hc.length_sum rest length lenSize hbuf hl
    refine ⟨hsum, fun htest msgType typeSize ht => ?_⟩
    have hh : parseHeader buf =
        .ok (some ⟨1 + lenSize + typeSize, length.toNat, msgType⟩) :=
      parseHeader_eq_some_iff.mpr ⟨rest, length, lenSize, msgType, typeSize, hbuf, hl,
        by rw [usizeAdd_of_lt hsum]; exact htest, ht, rfl⟩
    exact ⟨hc.split_sum _ hh, hc.split_to _ hh⟩
  · intro hs
    refine ⟨?_, fun rest length lenSize hbuf hl => (hs rest length lenSize hbuf hl).1,
      fun h hh => (hs.fits hh).1, fun h hh => (hs.fits hh).2, ?_⟩
    · rcases nextMessage_cases buf with ⟨-, hn⟩ | ⟨h, -, -, hn⟩ | ⟨h, e, hh, hfit, -⟩
      · exact ⟨_, hn⟩
      · exact ⟨_, hn⟩
      · exact absurd (hs.fits hh) hfit
    · intro h head rest hh hsplit
      obtain ⟨hlt, hle⟩ := hs.fits hh
      rw [usizeAdd_of_lt hlt, splitTo_of_le hle] at hsplit
      obtain ⟨rfl, -⟩ := by simpa using hsplit
      rw [List.length_take]
      omega

/-- Three bytes of a four-byte frame: the type varint is there, its payload is
not, and `split_to` asks for a byte the buffer does not hold. -/
theorem not_crashFree_truncated : ¬ CrashFree [0x00, 0x01, 0x07] := by
  intro hc
  obtain ⟨r, hr⟩ := hc.returns
  have hpanic : nextMessage [0x00, 0x01, 0x07] = .error .splitTo := by rfl
  rw [hpanic] at hr
  contradiction

end LinuxBtProxy
