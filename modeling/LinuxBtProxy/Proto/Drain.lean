import LinuxBtProxy.Proto.Stream

/-!
# LinuxBtProxy.Proto.Drain

The loop `while let Some(..) = next_message(&mut buf)`, with any body: it loses
no byte, and since every message takes at least three bytes off the buffer it
stops.  The loop has no counter, so the messages it dispatches are counted in a
log beside the state of the body (`Incremental.logged`).
-/

namespace LinuxBtProxy

open Incremental

/-! ## One call -/

/-- What a call does to the buffer: a message comes off the front, as long as
its length varint says; without one nothing changes; and a length that wraps a
sum of the call gives no message. -/
structure CallConserves (buf : List UInt8) : Prop where
  takes : ∀ t payload rest, nextMessage buf = .ok (some (t, payload), rest) →
    ∃ header tail length lenSize, buf = header ++ payload ++ rest ∧
      3 ≤ (header ++ payload).length ∧ buf = 0x00 :: tail ∧
      decodeVarint tail = .ok (length, lenSize) ∧ payload.length = length.toNat
  keeps : ∀ rest, nextMessage buf = .ok (none, rest) → rest = buf
  length_sum : ∀ tail length lenSize, buf = 0x00 :: tail →
    decodeVarint tail = .ok (length, lenSize) → 2 ^ 64 ≤ 1 + lenSize + length.toNat →
    ∀ m rest, nextMessage buf ≠ .ok (some m, rest)
  split_sum : ∀ tail length lenSize msgType typeSize, buf = 0x00 :: tail →
    decodeVarint tail = .ok (length, lenSize) →
    decodeVarint (tail.drop lenSize) = .ok (msgType, typeSize) →
    2 ^ 64 ≤ 1 + lenSize + typeSize + length.toNat →
    ∀ m rest, nextMessage buf ≠ .ok (some m, rest)

/-- A call that returns a message computed honest sums. -/
theorem sum_lt_of_nextMessage {tail rest : List UInt8} {length : UInt64} {lenSize : Nat}
    {m : UInt32 × List UInt8} (hl : decodeVarint tail = .ok (length, lenSize))
    (h : nextMessage (0x00 :: tail) = .ok (some m, rest)) :
    ∃ msgType typeSize, decodeVarint (tail.drop lenSize) = .ok (msgType, typeSize) ∧
      1 + lenSize + typeSize + length.toNat < 2 ^ 64 := by
  obtain ⟨hd, hh, hfit, -, -⟩ := header_of_nextMessage h
  obtain ⟨tail', length', lenSize', msgType, typeSize, htail, hl', -, ht, rfl⟩ :=
    parseHeader_eq_some_iff.mp hh
  obtain ⟨-, rfl⟩ := List.cons.inj htail
  rw [hl] at hl'
  obtain ⟨rfl, rfl⟩ := by simpa using hl'
  exact ⟨msgType, typeSize, ht, hfit.1⟩

/-- Every call conserves the buffer's bytes. -/
theorem callConserves (buf : List UInt8) : CallConserves buf where
  takes t payload rest h := by
    obtain ⟨hd, hh, hfit, hm, rfl⟩ := header_of_nextMessage h
    obtain ⟨-, rfl⟩ := Prod.mk.inj hm
    have hle := hfit.2
    have hthree := (offset_le_of_parseHeader hh).1
    have hsplit : buf = buf.take hd.offset ++ (buf.drop hd.offset).take hd.payloadLen ++
        buf.drop (hd.offset + hd.payloadLen) := by
      rw [List.append_assoc, ← List.drop_drop, List.take_append_drop, List.take_append_drop]
    have hpayload : ((buf.drop hd.offset).take hd.payloadLen).length = hd.payloadLen := by
      rw [List.length_take, List.length_drop]
      omega
    have hheader : 3 ≤ (buf.take hd.offset ++ (buf.drop hd.offset).take hd.payloadLen).length := by
      rw [List.length_append, List.length_take]
      omega
    obtain ⟨tail, length, lenSize, msgType, typeSize, hbuf, hl, -, -, hhd⟩ :=
      parseHeader_eq_some_iff.mp hh
    exact ⟨_, tail, length, lenSize, hsplit, hheader, hbuf, hl, by rw [hpayload, hhd]⟩
  keeps rest h := nextMessage_keeps h
  length_sum tail length lenSize hbuf hl hwrap m rest h := by
    subst hbuf
    obtain ⟨msgType, typeSize, -, hlt⟩ := sum_lt_of_nextMessage hl h
    omega
  split_sum tail length lenSize msgType typeSize hbuf hl ht hwrap m rest h := by
    subst hbuf
    obtain ⟨msgType', typeSize', ht', hlt⟩ := sum_lt_of_nextMessage hl h
    rw [ht] at ht'
    obtain ⟨rfl, rfl⟩ := by simpa using ht'
    omega

/-! ## The loop -/

/-- What the loop does to the buffer, for every body.  The first component of
the result is the body's state and the log of the messages it was run on; the
last one says why the loop stopped. -/
structure LoopConserves (buf : List UInt8) : Prop where
  bounded : ∀ msgs rest, Consumes nextMessageParser buf msgs rest → msgs.length ≤ buf.length / 3
  dispatches : ∀ {σ ω : Type} (body : σ → UInt32 × List UInt8 → σ × Option ω) (s : σ),
    ∃ s' log rest stop, drainLoop nextMessageParser body s buf = (s', rest, stop) ∧
      drainLoop nextMessageParser (logged body) (s, []) buf = ((s', log), rest, stop) ∧
      log.length ≤ buf.length / 3 ∧
      ((∀ e, stop ≠ .crash e) → ∃ frames : List AcceptedFrame,
        log = frames.map AcceptedFrame.message ∧
        buf = (frames.map AcceptedFrame.bytes).flatten ++ rest) ∧
      (stop = .wait → nextMessage rest = .ok (none, rest) ∧
        ∀ t, drainLoop nextMessageParser (logged body) (t, []) rest = ((t, []), rest, .wait))

/-- A message takes at least three bytes. -/
theorem length_le_of_consumes {buf rest : List UInt8} {msgs : List (UInt32 × List UInt8)}
    (h : Consumes nextMessageParser buf msgs rest) : msgs.length ≤ buf.length / 3 := by
  have hle := h.length_le (k := 3) nextMessage_shrinks
  omega

/-- The loop conserves the buffer's bytes, call by call. -/
theorem loopConserves (buf : List UInt8) : LoopConserves buf where
  bounded msgs rest h := length_le_of_consumes h
  dispatches body s := by
    obtain ⟨log, hrun, hlogged⟩ := drainLoop_logged nextMessageParser body s [] buf
    refine ⟨_, log, _, _, rfl, hlogged, length_le_of_consumes hrun,
      fun _ => frames_of_consumes hrun, fun hwait => ?_⟩
    have hidle := idle_of_wait (Prod.ext rfl (Prod.ext rfl hwait))
    exact ⟨hidle, fun t => drainLoop_idle hidle⟩

/-- **Conservation**: the calls and the loop around them lose no byte of the
buffer, and the loop ends after at most one message for three bytes. -/
theorem drain_conserves (buf : List UInt8) : CallConserves buf ∧ LoopConserves buf :=
  ⟨callConserves buf, loopConserves buf⟩

end LinuxBtProxy
