import LinuxBtProxy.Proto.Stream

/-!
# LinuxBtProxy.Proto.Wedge

Buffers the read loop waits on.  `nextMessage` answers `none` to a frame that is
not complete yet and to bytes that can never become one, and the read loop
treats both alike: it keeps the bytes and waits.  `Hopeless` lists the second
kind; `completable_iff` shows that there is no other, and
`completable_iff_not_malformed` carries the distinction to the bytes a client
has sent.
-/

namespace LinuxBtProxy

open Base128 Incremental

/-- Some continuation makes the parser return a message. -/
def Completable (buf : List UInt8) : Prop :=
  ∃ more m rest, nextMessage (buf ++ more) = .ok (some m, rest)

/-- Bytes at the start of which no frame can ever be read. -/
inductive Hopeless : List UInt8 → Prop
  /-- The framing byte is wrong. -/
  | start {b : UInt8} {rest : List UInt8} (hb : b ≠ 0x00) : Hopeless (b :: rest)
  /-- The length varint is over-long. -/
  | length {rest : List UInt8} (hlong : 10 ≤ rest.length) (hc : Continued (rest.take 10)) :
      Hopeless (0x00 :: rest)
  /-- The type varint is over-long. -/
  | msgType {lenBytes rest : List UInt8} (hl : Terminated lenBytes) (hl10 : lenBytes.length ≤ 10)
      (hlong : 10 ≤ rest.length) (hc : Continued (rest.take 10)) :
      Hopeless (0x00 :: (lenBytes ++ rest))
  /-- The type varint is not finished, and even if its next byte is its last the
  size of the frame is no `usize`. -/
  | hugeUnfinished {lenBytes rest : List UInt8} (hl : Terminated lenBytes)
      (hl10 : lenBytes.length ≤ 10) (hc : Continued rest)
      (hsize : 2 ^ 64 ≤ 1 + lenBytes.length + (rest.length + 1) + value lenBytes % 2 ^ 64) :
      Hopeless (0x00 :: (lenBytes ++ rest))
  /-- The size of the frame is no `usize`. -/
  | huge {lenBytes typeBytes body : List UInt8} (hl : Terminated lenBytes)
      (hl10 : lenBytes.length ≤ 10) (ht : Terminated typeBytes)
      (hsize : 2 ^ 64 ≤ 1 + lenBytes.length + typeBytes.length + value lenBytes % 2 ^ 64) :
      Hopeless (frameBytes lenBytes typeBytes body)

/-! ## No continuation helps a hopeless buffer -/

/-- Ten continuation bytes are not the start of a numeral of ten bytes. -/
theorem not_terminated_of_long {rest more w s : List UInt8} (hlong : 10 ≤ rest.length)
    (hc : Continued (rest.take 10)) (hw : Terminated w) (hw10 : w.length ≤ 10)
    (h : rest ++ more = w ++ s) : False := by
  have happ : rest.take 10 ++ (rest.drop 10 ++ more) = w ++ s := by
    rw [← List.append_assoc, List.take_append_drop, h]
  have hlt := length_lt_of_continued hc hw happ
  rw [List.length_take] at hlt
  omega

theorem not_completable_of_hopeless {buf : List UInt8} (hb : Hopeless buf) :
    ¬ Completable buf := by
  rintro ⟨more, ⟨t, payload⟩, rest, hn⟩
  obtain ⟨lenBytes, typeBytes, hf, -, hbytes⟩ := nextMessage_eq_some_iff.mp hn
  have hsize := hf.size_lt
  have hlen := hf.len_value
  rw [length_frameBytes] at hsize
  rw [frameBytes_append] at hbytes
  cases hb with
  | start hb =>
      rw [frameBytes, List.cons_append, List.cons.injEq] at hbytes
      exact hb hbytes.1
  | length hlong hc =>
      rw [frameBytes, List.cons_append, List.cons.injEq] at hbytes
      exact not_terminated_of_long hlong hc hf.len_terminated hf.len_le hbytes.2
  | msgType hl hl10 hlong hc =>
      rw [frameBytes, List.cons_append, List.cons.injEq, List.append_assoc] at hbytes
      obtain ⟨-, htail⟩ := terminated_append_inj hl hf.len_terminated hbytes.2
      exact not_terminated_of_long hlong hc hf.type_terminated hf.type_le htail
  | hugeUnfinished hl hl10 hc hhuge =>
      rw [frameBytes, List.cons_append, List.cons.injEq, List.append_assoc] at hbytes
      obtain ⟨rfl, htail⟩ := terminated_append_inj hl hf.len_terminated hbytes.2
      have hlt := length_lt_of_continued hc hf.type_terminated htail
      omega
  | huge hl hl10 ht hhuge =>
      rw [frameBytes_append] at hbytes
      obtain ⟨rfl, rfl, -⟩ := frameBytes_inj hl ht hf.len_terminated hf.type_terminated hbytes
      omega

/-! ## Every other buffer can be completed -/

theorem completable_of_frame {buf lenBytes typeBytes payload : List UInt8}
    (more rest : List UInt8) (hf : IsFrame lenBytes typeBytes payload)
    (h : buf ++ more = frameBytes lenBytes typeBytes payload ++ rest) : Completable buf :=
  ⟨more, _, rest, by rw [h]; exact hf.nextMessage_append rest⟩

/-- Both varints are there: the missing payload completes the frame. -/
theorem completable_of_varints {lenBytes typeBytes : List UInt8} (hl : Terminated lenBytes)
    (hl10 : lenBytes.length ≤ 10) (ht : Terminated typeBytes) (ht10 : typeBytes.length ≤ 10)
    (hsize : 1 + lenBytes.length + typeBytes.length + value lenBytes % 2 ^ 64 < 2 ^ 64)
    (body : List UInt8) : Completable (frameBytes lenBytes typeBytes body) := by
  obtain ⟨n, hn⟩ : ∃ n, n = value lenBytes % 2 ^ 64 := ⟨_, rfl⟩
  have hpayload : ((body ++ List.replicate n 0x00).take n).length = n := by
    rw [List.length_take, List.length_append, List.length_replicate]
    omega
  have hf : IsFrame lenBytes typeBytes ((body ++ List.replicate n 0x00).take n) :=
    ⟨hl, hl10, ht, ht10, by rw [hpayload, hn], by rw [length_frameBytes, hpayload]; omega⟩
  refine completable_of_frame (List.replicate n 0x00) ((body ++ List.replicate n 0x00).drop n)
    hf ?_
  rw [frameBytes_append, frameBytes_append, List.take_append_drop]

/-- A completion of a longer buffer completes its prefixes. -/
theorem Completable.of_append {buf : List UInt8} (more : List UInt8)
    (h : Completable (buf ++ more)) : Completable buf := by
  obtain ⟨later, m, rest, hn⟩ := h
  exact ⟨more ++ later, m, rest, by rwa [← List.append_assoc]⟩

/-- An unfinished type varint is closed by a zero byte. -/
theorem completable_of_continued_type {lenBytes rest : List UInt8} (hl : Terminated lenBytes)
    (hl10 : lenBytes.length ≤ 10) (hc : Continued rest) (hlt : rest.length < 10)
    (hsize : 1 + lenBytes.length + (rest.length + 1) + value lenBytes % 2 ^ 64 < 2 ^ 64) :
    Completable (0x00 :: (lenBytes ++ rest)) := by
  have hclose : (0x00 :: (lenBytes ++ rest) : List UInt8) ++ [0x00] =
      frameBytes lenBytes (rest ++ [0x00]) [] := by simp [frameBytes]
  have hlen : (rest ++ [0x00]).length = rest.length + 1 := by simp
  refine Completable.of_append [0x00] ?_
  rw [hclose]
  exact completable_of_varints hl hl10 (terminated_append_singleton hc (by decide)) (by omega)
    (by omega) []

/-- An unfinished length varint is closed by a zero byte, and a type follows. -/
theorem completable_of_continued_length {rest : List UInt8} (hc : Continued rest)
    (hlt : rest.length < 10) : Completable (0x00 :: rest) := by
  have hclose : (0x00 :: rest : List UInt8) ++ [0x00, 0x00] =
      frameBytes (rest ++ [0x00]) [0x00] [] := by simp [frameBytes]
  have hlen : (rest ++ [0x00]).length = rest.length + 1 := by simp
  have hvalue : value (rest ++ [0x00]) < 2 ^ 63 := by
    have hv := value_lt rest
    have hpow : 128 ^ rest.length ≤ 128 ^ 9 := Nat.pow_le_pow_right (by decide) (by omega)
    rw [value_append]
    simp
    omega
  refine Completable.of_append [0x00, 0x00] ?_
  rw [hclose]
  refine completable_of_varints (terminated_append_singleton hc (by decide)) (by omega)
    (by decide) (by decide) ?_ []
  rw [hlen, List.length_singleton]
  omega

/-- **Which buffers can still become a message.** -/
theorem completable_iff (buf : List UInt8) : Completable buf ↔ ¬ Hopeless buf := by
  refine ⟨fun h hb => not_completable_of_hopeless hb h, fun hb => ?_⟩
  cases buf with
  | nil => exact ⟨[0x00, 0x00, 0x00], _, [], rfl⟩
  | cons b rest =>
      by_cases h0 : b = 0x00
      · subst h0
        rcases decodeVarint_cases rest with ⟨lenBytes, tail, rfl, hl, hl10⟩ | ⟨hc, hlt⟩ |
          ⟨hlong, hc⟩
        · rcases decodeVarint_cases tail with ⟨typeBytes, body, rfl, ht, ht10⟩ | ⟨hc, hlt⟩ |
            ⟨hlong, hc⟩
          · -- both varints are complete
            have hsize := Nat.lt_of_not_le fun hsize => hb (Hopeless.huge hl hl10 ht hsize)
            exact completable_of_varints hl hl10 ht ht10 hsize body
          · have hsize := Nat.lt_of_not_le fun hsize =>
              hb (Hopeless.hugeUnfinished hl hl10 hc hsize)
            exact completable_of_continued_type hl hl10 hc hlt hsize
          · exact absurd (Hopeless.msgType hl hl10 hlong hc) hb
        · exact completable_of_continued_length hc hlt
        · exact absurd (Hopeless.length hlong hc) hb
      · exact absurd (Hopeless.start h0) hb

/-! ## The read loop -/

/-- The bytes sent so far are accepted frames followed by a hopeless tail. -/
def Malformed (stream : List UInt8) : Prop :=
  ∃ (frames : List AcceptedFrame) (tail : List UInt8),
    stream = (frames.map AcceptedFrame.bytes).flatten ++ tail ∧ Hopeless tail

/-- **A waiting connection**: after any sequence of reads, the buffer the read
loop waits on can become a message exactly when the bytes sent so far are not
malformed. -/
theorem completable_iff_not_malformed {reads : List (List UInt8)}
    {msgs : List (UInt32 × List UInt8)} {buf : List UInt8}
    (h : feed nextMessageParser [] reads = (msgs, buf, none)) :
    Completable buf ↔ ¬ Malformed reads.flatten := by
  have hdrain := drain_of_feed stable_nextMessage idle_nil h
  rw [List.nil_append] at hdrain
  constructor
  · rintro hc ⟨frames, tail, hstream, htail⟩
    -- the drain stops at the hopeless tail, so the tail is the buffer
    have hno := not_completable_of_hopeless htail
    rw [hstream, drain_accepted] at hdrain
    cases hn : nextMessageParser.next tail with
    | error e => simp [drain_crash hn] at hdrain
    | ok r =>
        obtain ⟨_ | m, rest⟩ := r
        · rw [drain_idle (FrontParser.idle_of_next hn)] at hdrain
          obtain ⟨-, rfl, -⟩ := by simpa using hdrain
          exact hno hc
        · exact hno ⟨[], m, rest, by rw [List.append_nil]; exact hn⟩
  · intro hm
    obtain ⟨frames, -, hstream⟩ := frames_of_drain hdrain
    exact (completable_iff buf).mpr fun hb => hm ⟨frames, buf, hstream, hb⟩

end LinuxBtProxy
