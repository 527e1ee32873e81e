import Mathlib.Algebra.Group.Nat.Defs

/-!
# LinuxBtProxy.Lib.Endian

Numbers as bytes in both orders.  `beValue` reads the most significant byte
first, `leBytes n` writes `n` bytes, the least significant first; writing what
was read reverses the bytes (`leBytes_beValue`).
-/

namespace Endian

/-- The number whose bytes these are, the most significant first. -/
def beValue (bytes : List UInt8) : Nat :=
  bytes.foldl (fun acc b => acc * 256 + b.toNat) 0

/-- The number whose bytes these are, the least significant first. -/
def leValue : List UInt8 → Nat
  | [] => 0
  | b :: bytes => b.toNat + 256 * leValue bytes

/-- The lowest `n` bytes of a number, the least significant first. -/
def leBytes : Nat → Nat → List UInt8
  | 0, _ => []
  | n + 1, v => UInt8.ofNat (v % 256) :: leBytes n (v / 256)

/-- As many bytes are written as asked for. -/
@[simp] theorem length_leBytes (n v : Nat) : (leBytes n v).length = n := by
  induction n generalizing v with
  | zero => rfl
  | succ n ih => simp [leBytes, ih]

/-- The last byte is the most significant one. -/
theorem leValue_append_singleton (bytes : List UInt8) (b : UInt8) :
    leValue (bytes ++ [b]) = leValue bytes + 256 ^ bytes.length * b.toNat := by
  induction bytes with
  | nil => simp [leValue]
  | cons c bytes ih =>
      rw [List.cons_append, leValue, ih, leValue, List.length_cons, Nat.pow_succ,
        Nat.mul_add]
      grind

/-- Both orders read the same number off reversed bytes. -/
theorem beValue_eq_leValue_reverse (bytes : List UInt8) :
    beValue bytes = leValue bytes.reverse := by
  suffices h : ∀ acc, bytes.foldl (fun acc b => acc * 256 + b.toNat) acc =
      acc * 256 ^ bytes.length + leValue bytes.reverse by
    simpa [beValue] using h 0
  induction bytes with
  | nil => simp [leValue]
  | cons b bytes ih =>
      intro acc
      rw [List.foldl_cons, ih, List.reverse_cons, leValue_append_singleton, List.length_reverse,
        List.length_cons, Nat.pow_succ]
      grind

/-- The value fits its bytes. -/
theorem leValue_lt (bytes : List UInt8) : leValue bytes < 256 ^ bytes.length := by
  induction bytes with
  | nil => simp [leValue]
  | cons b bytes ih =>
      have hb := b.toNat_lt
      rw [leValue, List.length_cons, Nat.pow_succ]
      omega

/-- Bytes are written back from their value. -/
theorem leBytes_leValue (bytes : List UInt8) : leBytes bytes.length (leValue bytes) = bytes := by
  induction bytes with
  | nil => rfl
  | cons b bytes ih =>
      have hb := b.toNat_lt
      have hmod : (b.toNat + 256 * leValue bytes) % 256 = b.toNat := by omega
      have hdiv : (b.toNat + 256 * leValue bytes) / 256 = leValue bytes := by omega
      rw [List.length_cons, leBytes, leValue, hmod, hdiv, ih, UInt8.ofNat_toNat]

/-- A value that fits is read back. -/
theorem leValue_leBytes {n v : Nat} (h : v < 256 ^ n) : leValue (leBytes n v) = v := by
  induction n generalizing v with
  | zero => simp [leBytes, leValue]; omega
  | succ n ih =>
      have hdiv : v / 256 < 256 ^ n := by
        rw [Nat.pow_succ] at h
        omega
      have hbyte : (UInt8.ofNat (v % 256)).toNat = v % 256 := by
        rw [UInt8.toNat_ofNat']
        omega
      rw [leBytes, leValue, ih hdiv, hbyte]
      omega

/-- The value fits its bytes. -/
theorem beValue_lt (bytes : List UInt8) : beValue bytes < 256 ^ bytes.length := by
  have h := leValue_lt bytes.reverse
  rwa [List.length_reverse, ← beValue_eq_leValue_reverse] at h

/-- Writing a number in the other order reverses its bytes. -/
theorem leBytes_beValue (bytes : List UInt8) :
    leBytes bytes.length (beValue bytes) = bytes.reverse := by
  have h := leBytes_leValue bytes.reverse
  rwa [List.length_reverse, ← beValue_eq_leValue_reverse] at h

end Endian
