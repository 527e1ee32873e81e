import LinuxBtProxy.Lib.Schema

/-!
# LinuxBtProxy.Lib.Scalar

The scalar types of protobuf, and a runtime for generated code.

* `Codec.ofPayload` — a codec from the payload that a value stands for;
* `Scalar.uint32`, `Scalar.string` and so on — the canonical codecs;
* `Runtime.canonical` — a runtime that reads and writes canonical encodings.
-/

namespace Wire

open Base128

/-! ## Codecs from payloads -/

/-- A value is read and written as the payload it stands for. -/
def Codec.ofPayload {α : Type} (wireType : Nat) (image : α → Payload) (ofImage : Payload → Option α)
    (Fits : α → Prop) [DecidablePred Fits] (wireType_image : ∀ a, (image a).wireType = wireType)
    (ofImage_image : ∀ {a}, Fits a → ofImage (image a) = some a) : Codec α where
  wireType
  image
  Fits
  decidableFits := inferInstance
  wireType_image
  write number a := numeral (tag number wireType) ++ (image a).encode
  size number a := tagSize number + UInt64.ofNat (image a).encode.length
  read is := (readPayload wireType is).bind fun r => (ofImage r.1).map fun a => (a, r.2)
  write_eq _ _ := rfl
  size_eq _ _ := rfl
  read_image := by
    intro a h rest
    have hread := readPayload_encode (image a) rest
    rw [wireType_image] at hread
    rw [hread, Option.bind_some, ofImage_image h]
    rfl
  read_le := by
    intro is a rest h
    obtain ⟨r, hr, hmap⟩ := Option.bind_eq_some_iff.mp h
    obtain ⟨a', -, heq⟩ := Option.map_eq_some_iff.mp hmap
    obtain ⟨-, rfl⟩ := Prod.mk.inj heq
    exact length_le_of_readPayload hr

namespace Payload

/-- The number of a payload that is a varint. -/
def asVarint : Payload → Option Nat
  | .varint n => some n
  | _ => none

/-- The bytes of a payload that is delimited. -/
def asDelimited : Payload → Option (List UInt8)
  | .delimited bytes => some bytes
  | _ => none

end Payload

/-! ## Packed numbers -/

/-- The numbers that a byte string is made of. -/
def readNumerals (bytes : List UInt8) : Option (List Nat) :=
  if bytes = [] then some []
  else
    match _ : readNumeral bytes with
    | none => none
    | some (n, rest) => (readNumerals rest).map (n :: ·)
termination_by bytes.length
decreasing_by exact length_lt_of_readNumeral (by assumption)

/-- A packed list is read back. -/
theorem readNumerals_flatMap (ns : List Nat) : readNumerals (ns.flatMap numeral) = some ns := by
  induction ns with
  | nil => rw [List.flatMap_nil, readNumerals, if_pos rfl]
  | cons n ns ih =>
      have hread := readNumeral_numeral n (ns.flatMap numeral)
      rw [List.flatMap_cons, readNumerals, if_neg (numeral_append_ne_nil n _)]
      split
      · next h => simp [hread] at h
      · next m rest h =>
          obtain ⟨rfl, rfl⟩ := by simpa [hread] using h
          rw [ih]
          rfl

/-! ## Scalar types -/

namespace Scalar

/-- Zero and one; every other number is read as true. -/
def bool : Codec Bool :=
  .ofPayload 0 (fun b => .varint b.toNat) (fun p => p.asVarint.map (· != 0)) (fun _ => True)
    (fun _ => rfl) (by rintro (_ | _) _ <;> rfl)

/-- Numbers are read modulo `2 ^ 32`. -/
def uint32 : Codec UInt32 :=
  .ofPayload 0 (fun v => .varint v.toNat) (fun p => p.asVarint.map UInt32.ofNat) (fun _ => True)
    (fun _ => rfl) (by simp [Payload.asVarint])

/-- Numbers are read modulo `2 ^ 64`. -/
def uint64 : Codec UInt64 :=
  .ofPayload 0 (fun v => .varint v.toNat) (fun p => p.asVarint.map UInt64.ofNat) (fun _ => True)
    (fun _ => rfl) (by simp [Payload.asVarint])

/-- Signed numbers are zigzag coded. -/
def sint32 : Codec Int32 :=
  .ofPayload 0 (fun v => .varint (zigzag v.toInt))
    (fun p => p.asVarint.map fun n => Int32.ofInt (unzigzag n)) (fun _ => True)
    (fun _ => rfl) (by simp [Payload.asVarint, unzigzag_zigzag])

/-- Bytes whose length fits the varint that the generated code reads. -/
def bytes : Codec (List UInt8) :=
  .ofPayload 2 .delimited Payload.asDelimited (fun bytes => bytes.length < 2 ^ 32)
    (fun _ => rfl) (fun _ => rfl)

/-- A string is what its bytes decode to. -/
theorem fromUTF8?_bytes (s : String) :
    String.fromUTF8? ⟨s.toUTF8.data.toList.toArray⟩ = some s :=
  dif_pos s.isValidUTF8

/-- The bytes of a text; bytes that are no UTF-8 are refused. -/
def string : Codec String :=
  .ofPayload 2 (fun s => .delimited s.toUTF8.data.toList)
    (fun p => p.asDelimited.bind fun bytes => String.fromUTF8? ⟨bytes.toArray⟩)
    (fun s => s.toUTF8.data.toList.length < 2 ^ 32)
    (fun _ => rfl) (fun {s} _ => fromUTF8?_bytes s)

/-- A list of numbers in one payload; no numbers are not written at all. -/
def packed {α : Type} (toNat : α → Nat) (ofNat : Nat → α) (ofNat_toNat : ∀ a, ofNat (toNat a) = a) :
    Codec (List α) :=
  let payload : Codec (List α) :=
    .ofPayload 2 (fun as => .delimited ((as.map toNat).flatMap numeral))
      (fun p => p.asDelimited.bind fun bytes => (readNumerals bytes).map (List.map ofNat))
      (fun as => as ≠ [] ∧ ((as.map toNat).flatMap numeral).length < 2 ^ 32)
      (fun _ => rfl) (by
        intro as _
        have hid : ofNat ∘ toNat = id := funext ofNat_toNat
        simp only [Payload.asDelimited, Option.bind_some, readNumerals_flatMap, Option.map_some,
          List.map_map, hid, List.map_id])
  { payload with
    write := fun number as => if as = [] then [] else payload.write number as
    size := fun number as => if as = [] then 0 else payload.size number as
    write_eq := by
      intro number as hn h
      rw [if_neg h.1]
      exact payload.write_eq hn h
    size_eq := by
      intro number as hn h
      rw [if_neg h.1]
      exact payload.size_eq hn h }

end Scalar

/-! ## A runtime -/

/-- The runtime that reads and writes the format as it is described. -/
@[reducible] def Runtime.canonical : Runtime where
  readRawTagOrEof is :=
    if is = [] then some (none, []) else (readNumeral is).map fun r => (some r.1, r.2)
  readUnknownOrSkipGroup t is := (readPayload (t % 8) is).map Prod.snd
  writeTag number wireType := numeral (tag number wireType)
  writeRawVarint32 v := numeral v.toNat
  computeRawVarint64Size v := UInt64.ofNat (numeral v.toNat).length
  readLimited := readDelimited
  mergeTarget new _ := new
  readRawTagOrEof_nil := rfl
  readRawTagOrEof_tag := by
    intro number wireType _ _ rest
    rw [if_neg (numeral_append_ne_nil _ rest), readNumeral_numeral]
    rfl
  readRawTagOrEof_lt := by
    intro is t rest h
    split at h
    · exact absurd h (by simp)
    · obtain ⟨r, hr, heq⟩ := Option.map_eq_some_iff.mp h
      obtain ⟨-, rfl⟩ := Prod.mk.inj heq
      exact length_lt_of_readNumeral hr
  readUnknown_encode := by
    intro number p _ _ rest
    rw [tag_mod p.wireType_lt, readPayload_encode]
    rfl
  readUnknown_le := by
    intro t is rest h
    obtain ⟨r, hr, rfl⟩ := Option.map_eq_some_iff.mp h
    exact length_le_of_readPayload hr
  writeTag_eq _ _ := rfl
  writeRawVarint32_eq _ := rfl
  computeRawVarint64Size_eq _ := rfl
  readLimited_delimited _ rest := readDelimited_append _ rest
  readLimited_le := length_le_of_readDelimited
  mergeTarget_none _ := rfl

end Wire
