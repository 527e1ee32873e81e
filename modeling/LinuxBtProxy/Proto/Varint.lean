import LinuxBtProxy.Proto

/-!
# LinuxBtProxy.Proto.Varint

What `decodeVarint` and `encodeVarint` do, in terms of base-128 numerals:

* the decoder reads a terminated numeral of at most ten bytes and returns its
  value modulo `2 ^ 64` (`decodeVarint_terminated`), asks for more bytes on a
  short buffer that still continues (`decodeVarint_continued`), and gives up on
  ten continuation bytes (`decodeVarint_tooLong`); there is no fourth case
  (`decodeVarint_cases`);
* the encoder writes the shortest numeral (`encodeVarint_eq_numeral`).
-/

namespace LinuxBtProxy

open Base128

/-! ## One step of the decoder -/

/-- The low seven bits of a byte are its group. -/
theorem toNat_and_0x7F (b : UInt8) : (b &&& 0x7F).toNat = b.toNat % 128 := by
  rw [UInt8.toNat_and]
  exact Nat.and_two_pow_sub_one_eq_mod b.toNat 7

/-- The top bit is clear exactly below 128. -/
theorem and_0x80_eq_zero_iff (b : UInt8) : b &&& 0x80 = 0 ↔ b.toNat < 128 := by
  have hall : ∀ n : Fin 256, (UInt8.ofNat n.val &&& 0x80 = 0 ↔ n.val < 128) := by decide +kernel
  have hb := hall ⟨b.toNat, b.toNat_lt⟩
  simpa using hb

/-- OR-ing a group in above the bits read so far adds it, modulo the word. -/
theorem toNat_or_shiftLeft {result : UInt64} {shift : Nat} (hshift : shift ≤ 63)
    (hresult : result.toNat < 2 ^ shift) (b : UInt8) :
    (result ||| (b &&& 0x7F).toUInt64 <<< UInt64.ofNat shift).toNat =
      (result.toNat + 2 ^ shift * (b.toNat % 128)) % 2 ^ 64 := by
  have hval : (b &&& 0x7F).toUInt64.toNat = b.toNat % 128 := by
    rw [UInt8.toNat_toUInt64, toNat_and_0x7F]
  have hamount : (UInt64.ofNat shift).toNat % 64 = shift := by
    rw [UInt64.toNat_ofNat']
    omega
  have hword : 2 ^ 64 = 2 ^ shift * 2 ^ (64 - shift) := by
    rw [← Nat.pow_add, Nat.add_sub_cancel' (by omega)]
  have hgroup : ((b &&& 0x7F).toUInt64 <<< UInt64.ofNat shift).toNat =
      2 ^ shift * (b.toNat % 128 % 2 ^ (64 - shift)) := by
    rw [UInt64.toNat_shiftLeft, hval, hamount, Nat.shiftLeft_eq, Nat.mul_comm, hword,
      Nat.mul_mod_mul_left]
  have hsum : (result.toNat + 2 ^ shift * (b.toNat % 128)) % 2 ^ 64 =
      result.toNat + 2 ^ shift * (b.toNat % 128 % 2 ^ (64 - shift)) := by
    rw [hword, Nat.mod_mul, Nat.add_mul_mod_self_left, Nat.mod_eq_of_lt hresult,
      Nat.add_mul_div_left _ _ (Nat.two_pow_pos shift), Nat.div_eq_of_lt hresult, Nat.zero_add]
  rw [UInt64.toNat_or, hgroup, hsum, Nat.or_comm, ← Nat.two_pow_add_eq_or_of_lt hresult,
    Nat.add_comm]

/-- A group that leaves room for another one is added without loss. -/
theorem toNat_or_shiftLeft_of_le {result : UInt64} {shift : Nat} (hshift : shift + 7 ≤ 63)
    (hresult : result.toNat < 2 ^ shift) (b : UInt8) :
    (result ||| (b &&& 0x7F).toUInt64 <<< UInt64.ofNat shift).toNat =
        result.toNat + 2 ^ shift * (b.toNat % 128) ∧
      result.toNat + 2 ^ shift * (b.toNat % 128) < 2 ^ (shift + 7) := by
  have hb : b.toNat % 128 ≤ 127 := by omega
  have hmul : 2 ^ shift * (b.toNat % 128) ≤ 2 ^ shift * 127 := Nat.mul_le_mul_left _ hb
  have hpow : 2 ^ (shift + 7) = 2 ^ shift * 128 := Nat.pow_add 2 shift 7
  have hlt : result.toNat + 2 ^ shift * (b.toNat % 128) < 2 ^ (shift + 7) := by omega
  have hword : 2 ^ (shift + 7) ≤ 2 ^ 64 := Nat.pow_le_pow_right (by decide) (by omega)
  rw [toNat_or_shiftLeft (by omega) hresult, Nat.mod_eq_of_lt (by omega)]
  exact ⟨rfl, hlt⟩

/-- A byte without the continuation bit ends the loop with its group added. -/
theorem decodeVarintLoop_last {result : UInt64} {shift i : Nat} {b : UInt8} (hb : b.toNat < 128)
    (rest : List UInt8) :
    decodeVarintLoop result shift i (b :: rest) =
      .ok (result ||| (b &&& 0x7F).toUInt64 <<< UInt64.ofNat shift, i + 1) := by
  rw [decodeVarintLoop, if_pos ((and_0x80_eq_zero_iff b).mpr hb)]

/-- A byte with the continuation bit adds its group, and the loop goes on while
the shift allows. -/
theorem decodeVarintLoop_more {result : UInt64} {shift i : Nat} {b : UInt8} (hb : 128 ≤ b.toNat)
    (hshift : shift + 7 ≤ 63) (rest : List UInt8) :
    decodeVarintLoop result shift i (b :: rest) =
      decodeVarintLoop (result ||| (b &&& 0x7F).toUInt64 <<< UInt64.ofNat shift) (shift + 7)
        (i + 1) rest := by
  have htop : b &&& 0x80 ≠ 0 := fun h => by
    have := (and_0x80_eq_zero_iff b).mp h
    omega
  rw [decodeVarintLoop, if_neg htop, if_neg (by omega)]

/-- A continuation bit on the tenth byte is an error. -/
theorem decodeVarintLoop_overlong {result : UInt64} {shift i : Nat} {b : UInt8}
    (hb : 128 ≤ b.toNat) (hshift : 63 < shift + 7) (rest : List UInt8) :
    decodeVarintLoop result shift i (b :: rest) = .error varintTooLong := by
  have htop : b &&& 0x80 ≠ 0 := fun h => by
    have := (and_0x80_eq_zero_iff b).mp h
    omega
  rw [decodeVarintLoop, if_neg htop, if_pos hshift]

/-! ## The loop

The invariant of the loop: before the byte at shift `s`, the result holds the
value of the groups read so far, which is below `2 ^ s`. -/

/-- The loop over a terminated numeral of at most ten bytes adds its value modulo
`2 ^ 64`, since the tenth group is shifted out in part. -/
theorem decodeVarintLoop_terminated {w : List UInt8} (hw : Terminated w) (rest : List UInt8)
    {result : UInt64} {shift i : Nat} (hresult : result.toNat < 2 ^ shift)
    (hfit : shift + 7 * w.length ≤ 70) :
    decodeVarintLoop result shift i (w ++ rest) =
      .ok (UInt64.ofNat (result.toNat + 2 ^ shift * value w), i + w.length) := by
  induction w generalizing result shift i with
  | nil => exact absurd hw not_terminated_nil
  | cons b w ih =>
      rw [List.length_cons] at hfit
      rw [List.cons_append]
      by_cases hb : b.toNat < 128
      · rw [terminated_cons_of_lt hb] at hw
        subst hw
        rw [decodeVarintLoop_last hb]
        have hword := toNat_or_shiftLeft (by omega) hresult b
        simp only [value_cons, value_nil, List.length_singleton, Nat.mul_zero, Nat.add_zero]
        rw [← UInt64.toNat_inj.mp (hword.trans (UInt64.toNat_ofNat' ..).symm)]
      · rw [terminated_cons_of_ge (by omega)] at hw
        have hpos := length_pos_of_terminated hw
        have hshift : shift + 7 ≤ 63 := by omega
        obtain ⟨hstep, hlt⟩ := toNat_or_shiftLeft_of_le hshift hresult b
        rw [decodeVarintLoop_more (by omega) (by omega), ih hw (by omega) (by omega), hstep,
          value_cons, List.length_cons, Nat.pow_add, Nat.mul_add, Nat.mul_assoc, Nat.add_assoc,
          Nat.add_assoc, Nat.add_comm 1 w.length]

/-- The loop runs out of bytes behind fewer than ten that all go on. -/
theorem decodeVarintLoop_continued {bs : List UInt8} (hbs : Continued bs)
    {result : UInt64} {shift i : Nat} (hfit : shift + 7 * bs.length ≤ 63) :
    decodeVarintLoop result shift i bs = .error incompleteVarint := by
  induction bs generalizing result shift i with
  | nil => rfl
  | cons b bs ih =>
      rw [continued_cons] at hbs
      rw [List.length_cons] at hfit
      rw [decodeVarintLoop_more hbs.1 (by omega), ih hbs.2 (by omega)]

/-- Ten bytes that all go on are an error, whatever follows. -/
theorem decodeVarintLoop_tooLong {bs : List UInt8} (hbs : Continued bs) (rest : List UInt8)
    {result : UInt64} {shift i : Nat} (hshift : shift ≤ 63) (hlong : 63 < shift + 7 * bs.length) :
    decodeVarintLoop result shift i (bs ++ rest) = .error varintTooLong := by
  induction bs generalizing result shift i with
  | nil => simp at hlong; omega
  | cons b bs ih =>
      rw [continued_cons] at hbs
      rw [List.length_cons] at hlong
      rw [List.cons_append]
      by_cases hlast : 63 < shift + 7
      · rw [decodeVarintLoop_overlong hbs.1 hlast]
      · rw [decodeVarintLoop_more hbs.1 (by omega), ih hbs.2 (by omega) (by omega)]

/-! ## The decoder -/

/-- A terminated numeral of at most ten bytes is decoded to its value modulo `2 ^
64`. -/
theorem decodeVarint_terminated {w : List UInt8} (hw : Terminated w) (hlen : w.length ≤ 10)
    (rest : List UInt8) :
    decodeVarint (w ++ rest) = .ok (UInt64.ofNat (value w), w.length) := by
  rw [decodeVarint, decodeVarintLoop_terminated hw rest (by decide) (by omega)]
  simp

/-- Fewer than ten bytes that all go on are incomplete. -/
theorem decodeVarint_continued {bs : List UInt8} (hbs : Continued bs) (hlen : bs.length < 10) :
    decodeVarint bs = .error incompleteVarint :=
  decodeVarintLoop_continued hbs (by omega)

/-- Ten bytes that all go on are too long. -/
theorem decodeVarint_tooLong {bs : List UInt8} (hlen : 10 ≤ bs.length)
    (hbs : Continued (bs.take 10)) : decodeVarint bs = .error varintTooLong := by
  have hlong : 63 < 0 + 7 * (bs.take 10).length := by rw [List.length_take]; omega
  have h : decodeVarintLoop 0 0 0 (bs.take 10 ++ bs.drop 10) = .error varintTooLong :=
    decodeVarintLoop_tooLong hbs _ (by decide) hlong
  rwa [List.take_append_drop] at h

/-- A buffer starts with a numeral of at most ten bytes, or is a short run of
continuation bytes, or starts with ten of them. -/
theorem decodeVarint_cases (buf : List UInt8) :
    (∃ w rest, buf = w ++ rest ∧ Terminated w ∧ w.length ≤ 10) ∨
      (Continued buf ∧ buf.length < 10) ∨ (10 ≤ buf.length ∧ Continued (buf.take 10)) := by
  rcases continued_or_terminated buf with hc | ⟨w, rest, rfl, hw⟩
  · by_cases hlen : buf.length < 10
    · exact Or.inr (Or.inl ⟨hc, hlen⟩)
    · refine Or.inr (Or.inr ⟨by omega, ?_⟩)
      exact fun b hb => hc b (List.mem_of_mem_take hb)
  · by_cases hlen : w.length ≤ 10
    · exact Or.inl ⟨w, rest, rfl, hw, hlen⟩
    · refine Or.inr (Or.inr ⟨by rw [List.length_append]; omega, ?_⟩)
      rw [List.take_append_of_le_length (by omega)]
      exact continued_take hw (by omega)

/-- What `decode_varint` accepts: a terminated numeral of at most ten bytes. -/
theorem decodeVarint_ok_iff {buf : List UInt8} {v : UInt64} {n : Nat} :
    decodeVarint buf = .ok (v, n) ↔
      ∃ w rest, buf = w ++ rest ∧ Terminated w ∧ w.length ≤ 10 ∧
        v = UInt64.ofNat (value w) ∧ n = w.length := by
  constructor
  · intro h
    rcases decodeVarint_cases buf with ⟨w, rest, rfl, hw, hlen⟩ | ⟨hc, hlen⟩ | ⟨hlen, hc⟩
    · rw [decodeVarint_terminated hw hlen] at h
      obtain ⟨rfl, rfl⟩ := by simpa using h
      exact ⟨w, rest, rfl, hw, hlen, rfl, rfl⟩
    · rw [decodeVarint_continued hc hlen] at h
      contradiction
    · rw [decodeVarint_tooLong hlen hc] at h
      contradiction
  · rintro ⟨w, rest, rfl, hw, hlen, rfl, rfl⟩
    exact decodeVarint_terminated hw hlen rest

/-! ## The encoder -/

/-- The group that `encode_varint` takes from the low end. -/
theorem toNat_group (v : UInt64) : (v &&& 0x7F).toUInt8.toNat = v.toNat % 128 := by
  have h : (v &&& 0x7F).toNat = v.toNat % 128 := by
    rw [UInt64.toNat_and]
    exact Nat.and_two_pow_sub_one_eq_mod v.toNat 7
  rw [UInt64.toNat_toUInt8, h]
  omega

/-- The continuation bit adds 128 to a group. -/
theorem toNat_or_0x80 {b : UInt8} (h : b.toNat < 128) : (b ||| 0x80).toNat = b.toNat + 128 := by
  have hor := Nat.two_pow_add_eq_or_of_lt (i := 7) (b := b.toNat) (by omega) 1
  simp only [Nat.mul_one, Nat.reducePow] at hor
  rw [UInt8.toNat_or, Nat.or_comm]
  show 128 ||| b.toNat = b.toNat + 128
  omega

/-- The encoder writes the shortest numeral of the value. -/
theorem encodeVarint_eq_numeral (v : UInt64) : encodeVarint v = numeral v.toNat := by
  induction hn : v.toNat using Nat.strongRecOn generalizing v with
  | ind n ih =>
      have hshift := toNat_shiftRight_seven v
      rw [encodeVarint]
      by_cases hlast : v >>> 7 = 0
      · have hlt : v.toNat < 128 := by
          rw [hlast] at hshift
          simp at hshift
          omega
        rw [dif_neg (by simpa using hlast), ← hn, numeral_of_lt hlt]
        congr 1
        apply UInt8.toNat_inj.mp
        rw [toNat_group, UInt8.toNat_ofNat']
        omega
      · have hge : 128 ≤ v.toNat := by
          have hne : (v >>> 7).toNat ≠ 0 := fun h => hlast (UInt64.toNat_inj.mp h)
          omega
        rw [dif_pos hlast, ← hn, numeral_of_ge hge,
          ih (v >>> 7).toNat (by omega) (v >>> 7) rfl, hshift]
        congr 1
        apply UInt8.toNat_inj.mp
        rw [toNat_or_0x80 (by rw [toNat_group]; omega), toNat_group, UInt8.toNat_ofNat']
        omega

/-- What `encode_varint` writes is a terminated numeral. -/
theorem terminated_encodeVarint (v : UInt64) : Terminated (encodeVarint v) := by
  rw [encodeVarint_eq_numeral]
  exact terminated_numeral _

/-- What `encode_varint` writes has the value it was given. -/
@[simp] theorem value_encodeVarint (v : UInt64) : value (encodeVarint v) = v.toNat := by
  rw [encodeVarint_eq_numeral, value_numeral]

/-- A `u64` takes at most ten bytes. -/
theorem length_encodeVarint_le (v : UInt64) : (encodeVarint v).length ≤ 10 := by
  rw [encodeVarint_eq_numeral]
  have := v.toNat_lt
  exact length_numeral_le (by decide) (by omega)

/-- No numeral is shorter than the encoding of a value up to its own. -/
theorem length_encodeVarint_le_of_value {w : List UInt8} (hw : Terminated w) {v : UInt64}
    (hv : v.toNat ≤ value w) : (encodeVarint v).length ≤ w.length := by
  rw [encodeVarint_eq_numeral]
  exact Nat.le_trans (length_numeral_mono hv) (length_numeral_value_le hw)

end LinuxBtProxy
