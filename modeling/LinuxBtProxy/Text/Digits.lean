import LinuxBtProxy.Text

/-!
# LinuxBtProxy.Text.Digits

Which text `u8::from_str_radix(_, 16)` reads, and as what
(`fromStrRadix16_eq_some_iff`): a number below 256 in hexadecimal digits, with
any number of leading zeros, and a `+` in front of it or not.
-/

namespace LinuxBtProxy

/-! ## Digits -/

/-- The digits that radix sixteen accepts, of either case. -/
def IsHex (c : Char) : Prop := (hexDigit c).isSome

instance (c : Char) : Decidable (IsHex c) :=
  inferInstanceAs (Decidable ((hexDigit c).isSome = true))

/-- Every character is a hexadecimal digit. -/
def AllHex (s : List Char) : Prop := ∀ c ∈ s, IsHex c

instance (s : List Char) : Decidable (AllHex s) := List.decidableBAll IsHex s

/-- The value of a digit. -/
def digitValue (c : Char) : Nat := (hexDigit c).getD 0

/-- The number that digits spell behind the digits of `acc`. -/
def hexValueFrom (acc : Nat) (s : List Char) : Nat :=
  s.foldl (fun acc c => acc * 16 + digitValue c) acc

/-- The number that digits spell. -/
def hexValue (s : List Char) : Nat := hexValueFrom 0 s

/-- A text of digits begins with one. -/
theorem allHex_cons {c : Char} {s : List Char} : AllHex (c :: s) ↔ IsHex c ∧ AllHex s :=
  List.forall_mem_cons

/-- A digit is read as its value. -/
theorem hexDigit_of_isHex {c : Char} (h : IsHex c) : hexDigit c = some (digitValue c) := by
  obtain ⟨d, hd⟩ := Option.isSome_iff_exists.mp h
  rw [digitValue, hd, Option.getD_some]

/-- Other characters are not read. -/
theorem hexDigit_eq_none {c : Char} (h : ¬ IsHex c) : hexDigit c = none :=
  Option.not_isSome_iff_eq_none.mp h

/-- What is read is a digit. -/
theorem isHex_of_hexDigit {c : Char} {n : Nat} (h : hexDigit c = some n) :
    IsHex c ∧ digitValue c = n := by
  constructor
  · exact Option.isSome_iff_exists.mpr ⟨n, h⟩
  · rw [digitValue, h, Option.getD_some]

/-- Facts about the first 128 characters can be checked one by one. -/
theorem forall_ascii {P : Char → Prop} (h : ∀ n : Fin 128, P (Char.ofNat n.val)) {c : Char}
    (hc : c.toNat < 128) : P c := by
  have hn := h ⟨c.toNat, hc⟩
  rwa [Char.ofNat_toNat] at hn

/-- Digits are ASCII. -/
theorem toNat_lt_of_isHex {c : Char} (h : IsHex c) : c.toNat < 128 := by
  have hle {a b : Char} (hab : a ≤ b) : a.toNat ≤ b.toNat := hab
  unfold IsHex hexDigit at h
  split at h
  · next hc => exact Nat.lt_of_le_of_lt (hle hc.2) (by decide)
  · split at h
    · next hc => exact Nat.lt_of_le_of_lt (hle hc.2) (by decide)
    · split at h
      · next hc => exact Nat.lt_of_le_of_lt (hle hc.2) (by decide)
      · simp at h

/-- A digit is worth less than sixteen. -/
theorem digitValue_lt {c : Char} (h : IsHex c) : digitValue c < 16 := by
  have hall : ∀ n : Fin 128, digitValue (Char.ofNat n.val) < 16 := by decide +kernel
  exact forall_ascii (P := fun c => digitValue c < 16) hall (toNat_lt_of_isHex h)

/-- An ASCII character is one byte. -/
theorem utf8Size_of_ascii {c : Char} (h : c.toNat < 128) : c.utf8Size = 1 := by
  have hall : ∀ n : Fin 128, (Char.ofNat n.val).utf8Size = 1 := by decide +kernel
  exact forall_ascii (P := fun c => c.utf8Size = 1) hall h

/-- The sign that `from_str_radix` accepts is no digit. -/
theorem not_isHex_plus : ¬ IsHex '+' := by decide

/-- The dash of a canonical UUID is no digit. -/
theorem not_isHex_dash : ¬ IsHex '-' := by decide

/-! ## Numbers -/

/-- A digit shifts what was read by four bits. -/
theorem hexValueFrom_cons (acc : Nat) (c : Char) (s : List Char) :
    hexValueFrom acc (c :: s) = hexValueFrom (acc * 16 + digitValue c) s := rfl

/-- The value of one digit. -/
theorem hexValue_singleton (a : Char) : hexValue [a] = digitValue a := by
  simp [hexValue, hexValueFrom]

/-- The value of the two digits of a byte. -/
theorem hexValue_pair (a b : Char) : hexValue [a, b] = digitValue a * 16 + digitValue b := by
  simp [hexValue, hexValueFrom]

/-- Reading more digits makes the value no smaller. -/
theorem le_hexValueFrom (acc : Nat) (s : List Char) : acc ≤ hexValueFrom acc s := by
  induction s generalizing acc with
  | nil => exact Nat.le_refl acc
  | cons c s ih =>
      have hstep := ih (acc * 16 + digitValue c)
      rw [hexValueFrom_cons]
      omega

/-- The digit loop reads digits whose number is below 256. -/
theorem parseHexDigits_eq_some_iff {acc : Nat} (hacc : acc < 256) {s : List Char} {b : UInt8} :
    parseHexDigits acc s = some b ↔ AllHex s ∧ hexValueFrom acc s = b.toNat := by
  induction s generalizing acc with
  | nil =>
      rw [parseHexDigits, Option.some.injEq, ← UInt8.toNat_inj, UInt8.toNat_ofNat',
        Nat.mod_eq_of_lt hacc]
      simp [AllHex, hexValueFrom]
  | cons c s ih =>
      rw [allHex_cons, hexValueFrom_cons]
      by_cases hc : IsHex c
      · by_cases hlt : acc * 16 + digitValue c < 256
        · simp [parseHexDigits, hexDigit_of_isHex hc, hlt, ih hlt, hc]
        · have hbig := le_hexValueFrom (acc * 16 + digitValue c) s
          have hb := b.toNat_lt
          simp only [parseHexDigits, hexDigit_of_isHex hc, Option.bind_eq_bind, Option.bind_some,
            if_neg hlt]
          constructor
          · intro h
            contradiction
          · intro h
            omega
      · simp [parseHexDigits, hexDigit_eq_none hc, hc]

/-- **The language of `from_str_radix`**: digits of a byte, with a `+` in front
of them or not. -/
theorem fromStrRadix16_eq_some_iff {s : List Char} {b : UInt8} :
    fromStrRadix16 s = some b ↔
      ∃ digits, (s = digits ∨ s = '+' :: digits) ∧ digits ≠ [] ∧ AllHex digits ∧
        hexValue digits = b.toNat := by
  have hparse (digits : List Char) : parseHexDigits 0 digits = some b ↔
      AllHex digits ∧ hexValue digits = b.toNat := parseHexDigits_eq_some_iff (by decide)
  unfold fromStrRadix16
  split
  · simp
  · simp [AllHex, not_isHex_plus]
  · simp [AllHex, not_isHex_dash]
  · next digits hne =>
      rw [hparse]
      constructor
      · intro h
        exact ⟨digits, .inr rfl, hne, h⟩
      · rintro ⟨digits', rfl | hcons, -, h⟩
        · exact absurd (allHex_cons.mp h.1).1 not_isHex_plus
        · obtain ⟨-, rfl⟩ := List.cons.inj hcons
          exact h
  · next hnil _ _ hplus =>
      rw [hparse]
      constructor
      · intro h
        exact ⟨s, .inl rfl, hnil, h⟩
      · rintro ⟨digits, rfl | rfl, -, h⟩
        · exact h
        · exact absurd rfl (hplus digits)

/-- Two digits are read as the byte they spell. -/
theorem fromStrRadix16_digits {a b : Char} {byte : UInt8} (ha : IsHex a) (hb : IsHex b)
    (h : digitValue a * 16 + digitValue b = byte.toNat) : fromStrRadix16 [a, b] = some byte := by
  refine fromStrRadix16_eq_some_iff.mpr ⟨[a, b], .inl rfl, by simp, ?_, ?_⟩
  · simp [AllHex, ha, hb]
  · rw [hexValue_pair, h]

/-- A byte is read back from the digits of its two halves. -/
theorem fromStrRadix16_nibbles {hi lo : Char} {b : UInt8}
    (hhi : hexDigit hi = some (b.toNat / 16)) (hlo : hexDigit lo = some (b.toNat % 16)) :
    fromStrRadix16 [hi, lo] = some b := by
  obtain ⟨hhex, hhiValue⟩ := isHex_of_hexDigit hhi
  obtain ⟨hlex, hloValue⟩ := isHex_of_hexDigit hlo
  refine fromStrRadix16_digits hhex hlex ?_
  rw [hhiValue, hloValue]
  omega

end LinuxBtProxy
