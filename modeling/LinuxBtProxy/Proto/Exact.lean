import LinuxBtProxy.Proto.Varint

/-!
# LinuxBtProxy.Proto.Exact

How exact the varint codec is:

* the encoder writes the shortest input on which the decoder returns the value,
  and nothing shorter than all of it is accepted (`encodeVarint_shortest`);
* the decoder returns the sum of the groups it reads, except that the tenth
  group has one bit of room and is cut to it (`exactOn_iff`).
-/

namespace LinuxBtProxy

open Base128

/-! ## The encoder -/

/-- `encodeVarint v` is the shortest self-delimiting input that decodes to `v`. -/
structure ShortestInverse (v : UInt64) : Prop where
  decodes : ∀ tail, decodeVarint (encodeVarint v ++ tail) = .ok (v, (encodeVarint v).length)
  length_le : (encodeVarint v).length ≤ 10
  length_le_of_u32 : v.toNat < 2 ^ 32 → (encodeVarint v).length ≤ 5
  no_prefix : ∀ init next tail, encodeVarint v = init ++ next :: tail →
    ∀ u n, decodeVarint init ≠ .ok (u, n)
  shortest : ∀ buf n, decodeVarint buf = .ok (v, n) → (encodeVarint v).length ≤ n

theorem decodeVarint_encodeVarint_append (v : UInt64) (tail : List UInt8) :
    decodeVarint (encodeVarint v ++ tail) = .ok (v, (encodeVarint v).length) := by
  rw [decodeVarint_terminated (terminated_encodeVarint v) (length_encodeVarint_le v),
    value_encodeVarint, UInt64.ofNat_toNat]

/-- Every proper prefix of an encoding asks for more bytes. -/
theorem decodeVarint_prefix_encodeVarint {v : UInt64} {init tail : List UInt8} {next : UInt8}
    (h : encodeVarint v = init ++ next :: tail) :
    decodeVarint init = .error incompleteVarint := by
  have hlength := congrArg List.length h
  rw [List.length_append, List.length_cons] at hlength
  have hlt : init.length < (encodeVarint v).length := by omega
  have hcont : Continued init := by
    have htake := continued_take (terminated_encodeVarint v) hlt
    rwa [h, List.take_left] at htake
  have hle := length_encodeVarint_le v
  exact decodeVarint_continued hcont (by omega)

/-- **Shortest encoding**: the varint encoder is the shortest self-delimiting
inverse of the decoder. -/
theorem encodeVarint_shortest (v : UInt64) : ShortestInverse v where
  decodes := decodeVarint_encodeVarint_append v
  length_le := length_encodeVarint_le v
  length_le_of_u32 h := by
    rw [encodeVarint_eq_numeral]
    exact length_numeral_le (by decide) (by omega)
  no_prefix init next tail h u n hok := by
    rw [decodeVarint_prefix_encodeVarint h] at hok
    contradiction
  shortest buf n h := by
    obtain ⟨w, rest, -, hw, -, rfl, rfl⟩ := decodeVarint_ok_iff.mp h
    have hle : (UInt64.ofNat (value w)).toNat ≤ value w := by
      rw [UInt64.toNat_ofNat']
      exact Nat.mod_le _ _
    exact length_encodeVarint_le_of_value hw hle

/-! ## The decoder -/

/-- The decoder accepts exactly the slices whose groups spell a 64-bit number,
with that number, and tells a short slice from a malformed one. -/
structure ExactOn (b : List UInt8) : Prop where
  ok_iff : ∀ v n, decodeVarint b = .ok (v, n) ↔
    EndsAt b n ∧ n ≤ 10 ∧ groupSum b n < 2 ^ 64 ∧ v.toNat = groupSum b n
  incomplete_iff : decodeVarint b = .error incompleteVarint ↔ b.length < 10 ∧ Continued b
  other : (¬ ∃ n, EndsAt b n ∧ n ≤ 10 ∧ groupSum b n < 2 ^ 64) → ∃ e, decodeVarint b = .error e

/-- Nine continuation bytes, then a last byte with a bit above the word. -/
def WideTenthByte (b : List UInt8) : Prop :=
  ∃ nine last rest, b = nine ++ last :: rest ∧ nine.length = 9 ∧ Continued nine ∧
    2 ≤ last.toNat ∧ last.toNat < 128

/-- The value read is the sum of the groups, modulo the word. -/
theorem decodeVarint_ok_iff_groupSum {b : List UInt8} {v : UInt64} {n : Nat} :
    decodeVarint b = .ok (v, n) ↔
      EndsAt b n ∧ n ≤ 10 ∧ v.toNat = groupSum b n % 2 ^ 64 := by
  have hword (w rest : List UInt8) (v : UInt64) :
      v = UInt64.ofNat (value w) ↔ v.toNat = groupSum (w ++ rest) w.length % 2 ^ 64 := by
    rw [groupSum_eq_value, List.take_left, ← UInt64.toNat_inj, UInt64.toNat_ofNat']
  rw [decodeVarint_ok_iff, endsAt_iff]
  constructor
  · rintro ⟨w, rest, rfl, hw, hlen, hv, rfl⟩
    exact ⟨⟨w, rest, rfl, hw, rfl⟩, hlen, (hword w rest v).mp hv⟩
  · rintro ⟨⟨w, rest, rfl, hw, rfl⟩, hlen, hv⟩
    exact ⟨w, rest, rfl, hw, hlen, (hword w rest v).mpr hv, rfl⟩

/-- Nine groups always fit the word; the tenth has room for one bit. -/
theorem groupSum_lt_of_not_wide {b : List UInt8} {n : Nat} (hend : EndsAt b n) (hn : n ≤ 10)
    (hwide : ¬ WideTenthByte b) : groupSum b n < 2 ^ 64 := by
  obtain ⟨init, last, rest, rfl, hinit, hlast, rfl⟩ := hend
  have hinitValue := value_lt init
  rcases Nat.lt_or_ge init.length 9 with hlt | hge
  · have hvalue := value_lt ((init ++ last :: rest).take (init.length + 1))
    have hpow : 128 ^ ((init ++ last :: rest).take (init.length + 1)).length ≤ 128 ^ 9 :=
      Nat.pow_le_pow_right (by decide) (by rw [List.length_take]; omega)
    rw [groupSum_eq_value]
    omega
  · have hnine : init.length = 9 := by omega
    have hbit : last.toNat < 2 := by
      rcases Nat.lt_or_ge last.toNat 2 with hlt | hge
      · exact hlt
      · exact absurd ⟨init, last, rest, rfl, hnine, hinit, hge, hlast⟩ hwide
    rw [groupSum_closing init rest hlast, hnine]
    rw [hnine] at hinitValue
    omega

theorem le_groupSum_of_wide {b : List UInt8} (hwide : WideTenthByte b) :
    EndsAt b 10 ∧ 2 ^ 64 ≤ groupSum b 10 := by
  obtain ⟨nine, last, rest, rfl, hnine, hcont, hge, hlt⟩ := hwide
  refine ⟨⟨nine, last, rest, rfl, hcont, hlt, by omega⟩, ?_⟩
  have hsum := groupSum_closing nine rest hlt
  rw [hnine] at hsum
  rw [hsum]
  omega

/-- **Exactness of the decoder**: the slices on which it is not exact are those
with a tenth byte that carries more than the one bit left. -/
theorem exactOn_iff (b : List UInt8) : ExactOn b ↔ ¬ WideTenthByte b := by
  constructor
  · intro hexact hwide
    obtain ⟨hend, hge⟩ := le_groupSum_of_wide hwide
    have hok : decodeVarint b = .ok (UInt64.ofNat (groupSum b 10), 10) :=
      decodeVarint_ok_iff_groupSum.mpr ⟨hend, by decide, UInt64.toNat_ofNat' ..⟩
    have hlt := ((hexact.ok_iff _ _).mp hok).2.2.1
    omega
  · intro hwide
    have hok (v : UInt64) (n : Nat) : decodeVarint b = .ok (v, n) ↔
        EndsAt b n ∧ n ≤ 10 ∧ groupSum b n < 2 ^ 64 ∧ v.toNat = groupSum b n := by
      rw [decodeVarint_ok_iff_groupSum]
      refine and_congr_right fun hend => and_congr_right fun hn => ?_
      have hlt := groupSum_lt_of_not_wide hend hn hwide
      rw [Nat.mod_eq_of_lt hlt]
      exact (and_iff_right hlt).symm
    refine ⟨hok, ?_, fun hnone => ?_⟩
    · rcases decodeVarint_cases b with ⟨w, rest, rfl, hw, hlen⟩ | ⟨hc, hlen⟩ | ⟨hlen, hc⟩
      · rw [decodeVarint_terminated hw hlen]
        simp [not_continued_append rest hw]
      · simp [decodeVarint_continued hc hlen, hc, hlen]
      · rw [decodeVarint_tooLong hlen hc]
        simp [varintTooLong, incompleteVarint]
        omega
    · cases hb : decodeVarint b with
      | error e => exact ⟨e, rfl⟩
      | ok r =>
          obtain ⟨hend, hn, hlt, -⟩ := (hok r.1 r.2).mp hb
          exact absurd ⟨r.2, hend, hn, hlt⟩ hnone

/-- Ten bytes that spell `2 ^ 64` are read as zero. -/
theorem not_exactOn_two_pow_64 :
    ¬ ExactOn [0x80, 0x80, 0x80, 0x80, 0x80, 0x80, 0x80, 0x80, 0x80, 0x02] := by
  intro hexact
  have hok : decodeVarint [0x80, 0x80, 0x80, 0x80, 0x80, 0x80, 0x80, 0x80, 0x80, 0x02] =
      .ok (0, 10) := by rfl
  have hsum := ((hexact.ok_iff 0 10).mp hok).2.2.1
  revert hsum
  decide

end LinuxBtProxy
