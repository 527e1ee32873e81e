import LinuxBtProxy.Lib.Base128

/-!
# LinuxBtProxy.Lib.Wire

The protobuf wire format: a message is a sequence of records, each a tag with a
field number and a wire type, and a payload of that type.  Numbers are base-128
numerals, signed ones in zigzag form.

`readPayload` reads a payload back in front of anything (`readPayload_encode`).
-/

namespace Wire

open Base128

/-! ## Records -/

/-- What stands behind a tag. -/
inductive Payload where
  | varint (n : Nat)
  | fixed64 (bytes : Vector UInt8 8)
  | delimited (bytes : List UInt8)
  | fixed32 (bytes : Vector UInt8 4)

namespace Payload

/-- The three low bits of a tag that announce the payload. -/
def wireType : Payload → Nat
  | .varint _ => 0
  | .fixed64 _ => 1
  | .delimited _ => 2
  | .fixed32 _ => 5

/-- The bytes of a payload behind its tag. -/
def encode : Payload → List UInt8
  | .varint n => numeral n
  | .fixed64 bytes => bytes.toList
  | .delimited bytes => numeral bytes.length ++ bytes
  | .fixed32 bytes => bytes.toList

/-- Numbers of 64 bits, and byte strings with a length of 32 bits. -/
def Fits : Payload → Prop
  | .varint n => n < 2 ^ 64
  | .delimited bytes => bytes.length < 2 ^ 32
  | .fixed64 _ | .fixed32 _ => True

/-- Wire types take three bits. -/
theorem wireType_lt (p : Payload) : p.wireType < 8 := by
  cases p <;> simp [wireType]

/-- A payload announced as a varint is one. -/
theorem eq_varint {p : Payload} (h : p.wireType = 0) : ∃ n, p = .varint n := by
  cases p <;> simp_all [wireType]

/-- A payload announced as delimited is one. -/
theorem eq_delimited {p : Payload} (h : p.wireType = 2) : ∃ bytes, p = .delimited bytes := by
  cases p <;> simp_all [wireType]

end Payload

/-- The tag in front of the payload. -/
def tag (number wireType : Nat) : Nat := number * 8 + wireType

/-- The field number of a tag. -/
theorem tag_div {number wireType : Nat} (h : wireType < 8) : tag number wireType / 8 = number := by
  rw [tag]
  omega

/-- The wire type of a tag. -/
theorem tag_mod {number wireType : Nat} (h : wireType < 8) :
    tag number wireType % 8 = wireType := by
  rw [tag]
  omega

/-- The field numbers of the format. -/
def ValidNumber (number : Nat) : Prop := 0 < number ∧ number < 2 ^ 29

instance (number : Nat) : Decidable (ValidNumber number) :=
  inferInstanceAs (Decidable (0 < number ∧ number < 2 ^ 29))

/-- A field of a message: its number and its payload. -/
structure Record where
  number : Nat
  payload : Payload

namespace Record

def tag (r : Record) : Nat := Wire.tag r.number r.payload.wireType

/-- The bytes of a field. -/
def encode (r : Record) : List UInt8 := numeral r.tag ++ r.payload.encode

end Record

/-! ## Signed numbers -/

/-- Signed numbers in the order `0, -1, 1, -2, 2, …`. -/
def zigzag (i : Int) : Nat := if 0 ≤ i then 2 * i.toNat else 2 * (-i).toNat - 1

/-- The integer that a zigzag code stands for. -/
def unzigzag (n : Nat) : Int := if n % 2 = 0 then ↑(n / 2) else -↑((n + 1) / 2)

/-- Zigzag codes are undone. -/
theorem unzigzag_zigzag (i : Int) : unzigzag (zigzag i) = i := by
  unfold unzigzag zigzag
  split <;> split <;> omega

/-! ## Reading -/

/-- The number at the front of a stream. -/
def readNumeral : List UInt8 → Option (Nat × List UInt8)
  | [] => none
  | b :: is =>
      if b.toNat < 128 then some (b.toNat, is)
      else (readNumeral is).map fun r => (b.toNat % 128 + 128 * r.1, r.2)

/-- A terminated numeral is read up to its last byte. -/
theorem readNumeral_append {w : List UInt8} (hw : Terminated w) (rest : List UInt8) :
    readNumeral (w ++ rest) = some (value w, rest) := by
  induction w with
  | nil => exact absurd hw not_terminated_nil
  | cons b w ih =>
      rw [List.cons_append, readNumeral]
      by_cases hb : b.toNat < 128
      · rw [terminated_cons_of_lt hb] at hw
        subst hw
        rw [if_pos hb, value_cons, value_nil, Nat.mod_eq_of_lt hb]
        rfl
      · rw [terminated_cons_of_ge (by omega)] at hw
        rw [if_neg hb, ih hw, value_cons]
        rfl

/-- The shortest numeral of a number is read back. -/
theorem readNumeral_numeral (n : Nat) (rest : List UInt8) :
    readNumeral (numeral n ++ rest) = some (n, rest) := by
  rw [readNumeral_append (terminated_numeral n), value_numeral]

/-- A numeral has a byte. -/
theorem numeral_append_ne_nil (n : Nat) (rest : List UInt8) : numeral n ++ rest ≠ [] := by
  rw [numeral]
  split <;> simp

/-- Reading a numeral takes a byte, so a reader that goes on behind it terminates.
-/
theorem length_lt_of_readNumeral {is rest : List UInt8} {n : Nat}
    (h : readNumeral is = some (n, rest)) : rest.length < is.length := by
  induction is generalizing n rest with
  | nil => simp [readNumeral] at h
  | cons b is ih =>
      rw [readNumeral] at h
      split at h
      · obtain ⟨-, rfl⟩ := by simpa using h
        simp
      · obtain ⟨r, hr, heq⟩ := Option.map_eq_some_iff.mp h
        obtain ⟨-, rfl⟩ := Prod.mk.inj heq
        have hlt := ih hr
        rw [List.length_cons]
        omega

/-- The next `n` bytes of a stream. -/
def readBytes (n : Nat) (is : List UInt8) : Option (List UInt8 × List UInt8) :=
  if n ≤ is.length then some (is.take n, is.drop n) else none

/-- As many bytes as announced are read, and no more. -/
theorem readBytes_append (bytes rest : List UInt8) :
    readBytes bytes.length (bytes ++ rest) = some (bytes, rest) := by
  rw [readBytes, if_pos (by simp), List.take_left, List.drop_left]

/-- What is left behind the bytes is no longer than the input. -/
theorem length_le_of_readBytes {n : Nat} {is bytes rest : List UInt8}
    (h : readBytes n is = some (bytes, rest)) : rest.length ≤ is.length := by
  unfold readBytes at h
  split at h
  · obtain ⟨-, rfl⟩ := by simpa using h
    rw [List.length_drop]
    omega
  · contradiction

/-- A byte string with its length in front. -/
def readDelimited (is : List UInt8) : Option (List UInt8 × List UInt8) :=
  (readNumeral is).bind fun r => readBytes r.1 r.2

/-- Bytes behind their length are read back. -/
theorem readDelimited_append (bytes rest : List UInt8) :
    readDelimited (numeral bytes.length ++ bytes ++ rest) = some (bytes, rest) := by
  rw [readDelimited, List.append_assoc, readNumeral_numeral, Option.bind_some, readBytes_append]

/-- What is left behind delimited bytes is no longer than the input. -/
theorem length_le_of_readDelimited {is bytes rest : List UInt8}
    (h : readDelimited is = some (bytes, rest)) : rest.length ≤ is.length := by
  obtain ⟨r, hr, hbytes⟩ := Option.bind_eq_some_iff.mp h
  have hlt := length_lt_of_readNumeral hr
  have hle := length_le_of_readBytes hbytes
  omega

/-- The next `n` bytes of a stream, as a field of that width. -/
def readVector (n : Nat) (is : List UInt8) : Option (Vector UInt8 n × List UInt8) :=
  if h : n ≤ is.length then some (⟨(is.take n).toArray, by simp [h]⟩, is.drop n) else none

/-- A fixed number of bytes is read back. -/
theorem readVector_append {n : Nat} (bytes : Vector UInt8 n) (rest : List UInt8) :
    readVector n (bytes.toList ++ rest) = some (bytes, rest) := by
  have htake : (bytes.toList ++ rest).take n = bytes.toList := by
    rw [List.take_append_of_le_length (by simp), List.take_of_length_le (by simp)]
  have hdrop : (bytes.toList ++ rest).drop n = rest := by
    rw [List.drop_append_of_le_length (by simp), List.drop_of_length_le (by simp),
      List.nil_append]
  rw [readVector, dif_pos (by simp)]
  simp only [htake, hdrop]
  rfl

/-- What is left behind a fixed number of bytes is no longer than the input. -/
theorem length_le_of_readVector {n : Nat} {is rest : List UInt8} {bytes : Vector UInt8 n}
    (h : readVector n is = some (bytes, rest)) : rest.length ≤ is.length := by
  unfold readVector at h
  split at h
  · obtain ⟨-, rfl⟩ := by simpa using h
    rw [List.length_drop]
    omega
  · contradiction

/-- The payload of a wire type. -/
def readPayload (wireType : Nat) (is : List UInt8) : Option (Payload × List UInt8) :=
  match wireType with
  | 0 => (readNumeral is).map fun r => (.varint r.1, r.2)
  | 1 => (readVector 8 is).map fun r => (.fixed64 r.1, r.2)
  | 2 => (readDelimited is).map fun r => (.delimited r.1, r.2)
  | 5 => (readVector 4 is).map fun r => (.fixed32 r.1, r.2)
  | _ => none

/-- A payload is read back under its wire type. -/
theorem readPayload_encode (p : Payload) (rest : List UInt8) :
    readPayload p.wireType (p.encode ++ rest) = some (p, rest) := by
  cases p with
  | varint n => simp [readPayload, Payload.wireType, Payload.encode, readNumeral_numeral]
  | fixed64 bytes => simp [readPayload, Payload.wireType, Payload.encode, readVector_append]
  | delimited bytes =>
      have hread := readDelimited_append bytes rest
      simp only [readPayload, Payload.wireType, Payload.encode, hread, Option.map_some]
  | fixed32 bytes => simp [readPayload, Payload.wireType, Payload.encode, readVector_append]

/-- What is left behind a payload is no longer than the input. -/
theorem length_le_of_readPayload {wireType : Nat} {is rest : List UInt8} {p : Payload}
    (h : readPayload wireType is = some (p, rest)) : rest.length ≤ is.length := by
  unfold readPayload at h
  split at h
  · obtain ⟨r, hr, heq⟩ := Option.map_eq_some_iff.mp h
    obtain ⟨-, rfl⟩ := Prod.mk.inj heq
    have hlt := length_lt_of_readNumeral hr
    omega
  · obtain ⟨r, hr, heq⟩ := Option.map_eq_some_iff.mp h
    obtain ⟨-, rfl⟩ := Prod.mk.inj heq
    exact length_le_of_readVector hr
  · obtain ⟨r, hr, heq⟩ := Option.map_eq_some_iff.mp h
    obtain ⟨-, rfl⟩ := Prod.mk.inj heq
    exact length_le_of_readDelimited hr
  · obtain ⟨r, hr, heq⟩ := Option.map_eq_some_iff.mp h
    obtain ⟨-, rfl⟩ := Prod.mk.inj heq
    exact length_le_of_readVector hr
  · contradiction

end Wire
