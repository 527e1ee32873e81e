import LinuxBtProxy.Text.Digits

/-!
# LinuxBtProxy.Text.Hex

Bytes written as lower-case hexadecimal text, and their digits read back.
-/

namespace LinuxBtProxy

/-! ## Digits -/

/-- A digit that is written is read back. -/
theorem hexDigit_lowerHexDigit {n : Nat} (h : n < 16) : hexDigit (lowerHexDigit n) = some n := by
  have hall : ∀ n : Fin 16, hexDigit (lowerHexDigit n) = some n.val := by decide
  exact hall ⟨n, h⟩

/-- Two digits read back as their byte. -/
theorem fromStrRadix16_lowerHex2 (b : UInt8) : fromStrRadix16 (lowerHex2 b) = some b := by
  have hb := b.toNat_lt
  have hhi := hexDigit_lowerHexDigit (n := b.toNat / 16) (by omega)
  have hlo := hexDigit_lowerHexDigit (n := b.toNat % 16) (by omega)
  exact fromStrRadix16_nibbles hhi hlo

/-! ## Bytes as text -/

/-- Bytes as lower-case hexadecimal digits. -/
def hexText (bytes : List UInt8) : List Char := bytes.flatMap lowerHex2

/-- Bytes are written one after the other. -/
@[simp] theorem hexText_append (bytes bytes' : List UInt8) :
    hexText (bytes ++ bytes') = hexText bytes ++ hexText bytes' := List.flatMap_append

/-- A byte is written as two digits. -/
@[simp] theorem hexText_cons (b : UInt8) (bytes : List UInt8) :
    hexText (b :: bytes) = lowerHex2 b ++ hexText bytes := List.flatMap_cons

/-- A hexadecimal text has digits only. -/
theorem allHex_hexText (bytes : List UInt8) : AllHex (hexText bytes) := by
  intro c hc
  obtain ⟨b, -, hmem⟩ := List.mem_flatMap.mp hc
  have hb := b.toNat_lt
  simp only [lowerHex2, List.mem_cons, List.not_mem_nil, or_false] at hmem
  obtain rfl | rfl := hmem
  · exact (isHex_of_hexDigit (hexDigit_lowerHexDigit (by omega))).1
  · exact (isHex_of_hexDigit (hexDigit_lowerHexDigit (by omega))).1

/-- No dash is among the digits. -/
theorem filter_dash_hexText (bytes : List UInt8) :
    (hexText bytes).filter (· != '-') = hexText bytes := by
  rw [List.filter_eq_self]
  intro c hc
  have hne : c ≠ '-' := by
    rintro rfl
    exact not_isHex_dash (allHex_hexText bytes _ hc)
  simpa using hne

end LinuxBtProxy
