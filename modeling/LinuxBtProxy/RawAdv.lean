import LinuxBtProxy.Text
import LinuxBtProxy.Zvariant
import LinuxBtProxy.Lib.AdStructure

/-!
# LinuxBtProxy.RawAdv

Advertising data rebuilt from the properties of a device (`src/raw_adv.rs`).

`AdBuf` is the output vector together with the AD structures that were pushed;
its field `bytes_eq` says that the bytes are those of the structures.
-/

namespace LinuxBtProxy

open AdStructure

/-! ## UUIDs -/

/-- The twelve bytes that short UUIDs share. -/
def BASE_UUID_SUFFIX : List UInt8 :=
  [0x00, 0x00, 0x10, 0x00, 0x80, 0x00, 0x00, 0x80, 0x5F, 0x9B, 0x34, 0xFB]

/-- A UUID in the shortest of its three forms. -/
inductive ShortUuid where
  | bit16 (id : UInt16)
  | bit32 (id : UInt32)
  | bit128 (bytes : Vector UInt8 16)
deriving DecidableEq

/-- The loop over the bytes: byte `n` is read off the hexadecimal text at byte
position `2 * n`. -/
def parseUuidBytes (hex : List Char) : (n : Nat) → Except Panic (Option (Vector UInt8 n))
  | 0 => .ok (some #v[])
  | n + 1 => do
      match ← parseUuidBytes hex n with
      | none => return none
      | some bytes =>
          match fromStrRadix16 (← strSlice hex (n * 2) (n * 2 + 2)) with
          | none => return none
          | some byte => return some (bytes.push byte)

/-- The 16- or 32-bit form of a UUID that follows the Bluetooth base UUID. -/
def shrink (bytes : Vector UInt8 16) : ShortUuid :=
  if bytes.toList.drop 4 = BASE_UUID_SUFFIX then
    if bytes[0] = 0 ∧ bytes[1] = 0 then .bit16 (u16FromBeBytes [bytes[2], bytes[3]])
    else .bit32 (u32FromBeBytes [bytes[0], bytes[1], bytes[2], bytes[3]])
  else .bit128 bytes

/-- `parse_uuid`: its slices panic where a pair of bytes ends inside a character. -/
def parseUuid (uuidStr : String) : Except Panic (Option ShortUuid) := do
  let hex := uuidStr.toList.filter (· != '-')
  if utf8Len hex ≠ 32 then return none
  match ← parseUuidBytes hex 16 with
  | none => return none
  | some bytes => return some (shrink bytes)

/-! ## The output -/

/-- The buffer that the AD structures are pushed to, with what was pushed. -/
structure AdBuf where
  bytes : List UInt8
  /-- The arguments of the calls of `push_ad`, in order. -/
  pushed : List Ad
  bytes_eq : bytes = (pushed.map encode).flatten

namespace AdBuf

/-- `Vec::new()`. -/
def empty : AdBuf where
  bytes := []
  pushed := []
  bytes_eq := rfl

end AdBuf

/-- The length byte wraps: `(payload.len() + 1) as u8`. -/
def pushAd (out : AdBuf) (adType : UInt8) (payload : List UInt8) : AdBuf where
  bytes := out.bytes ++ [UInt8.ofNat (payload.length + 1)] ++ [adType] ++ payload
  pushed := out.pushed ++ [(adType, payload)]
  bytes_eq := by simp [out.bytes_eq, encode]

/-- The three vectors of `push_uuid_list_ad`. -/
structure UuidLists where
  bit16 : List UInt8
  bit32 : List UInt8
  bit128 : List UInt8

/-- The UUIDs in three lists, by their form; those that do not parse are skipped. -/
def collectUuids (lists : UuidLists) : List String → Except Panic UuidLists
  | [] => .ok lists
  | uuid :: uuids => do
      match ← parseUuid uuid with
      | some (.bit16 id) =>
          collectUuids { lists with bit16 := lists.bit16 ++ u16ToLeBytes id } uuids
      | some (.bit32 id) =>
          collectUuids { lists with bit32 := lists.bit32 ++ u32ToLeBytes id } uuids
      | some (.bit128 bytes) =>
          collectUuids { lists with bit128 := lists.bit128 ++ bytes.toList.reverse } uuids
      | none => collectUuids lists uuids

/-- One complete list of UUIDs for each form that occurs. -/
def pushUuidListAd (out : AdBuf) (uuids : List String) : Except Panic AdBuf := do
  let lists ← collectUuids ⟨[], [], []⟩ uuids
  let out := if lists.bit16.isEmpty then out else pushAd out 0x03 lists.bit16
  let out := if lists.bit32.isEmpty then out else pushAd out 0x05 lists.bit32
  let out := if lists.bit128.isEmpty then out else pushAd out 0x07 lists.bit128
  return out

section

variable {V : Type} [Variant V]

/-- One structure for each entry whose key parses and whose value is bytes. -/
def pushServiceDataEntries (out : AdBuf) : List (V × V) → Except Panic AdBuf
  | [] => .ok out
  | (k, v) :: entries =>
      match Variant.downcastString k, Variant.downcastBytes v with
      | some uuidStr, some data => do
          match ← parseUuid uuidStr with
          | some (.bit16 id) =>
              pushServiceDataEntries (pushAd out 0x16 (u16ToLeBytes id ++ data)) entries
          | some (.bit32 id) =>
              pushServiceDataEntries (pushAd out 0x20 (u32ToLeBytes id ++ data)) entries
          | some (.bit128 bytes) =>
              pushServiceDataEntries (pushAd out 0x21 (bytes.toList.reverse ++ data)) entries
          | none => pushServiceDataEntries out entries
      | _, _ => pushServiceDataEntries out entries

/-- Nothing is pushed for a value that is no dictionary. -/
def pushServiceDataAd (out : AdBuf) (valueOpt : Option V) : Except Panic AdBuf :=
  match valueOpt with
  | none => .ok out
  | some v =>
      match Variant.tryDict v with
      | none => .ok out
      | some dict => pushServiceDataEntries out dict

/-- One structure for each entry with an id and bytes. -/
def pushManufacturerDataEntries (out : AdBuf) : List (V × V) → AdBuf
  | [] => out
  | (k, v) :: entries =>
      match Variant.downcastU16 k, Variant.downcastBytes v with
      | some companyId, some data =>
          pushManufacturerDataEntries (pushAd out 0xFF (u16ToLeBytes companyId ++ data)) entries
      | _, _ => pushManufacturerDataEntries out entries

/-- Nothing is pushed for a value that is no dictionary. -/
def pushManufacturerDataAd (out : AdBuf) (valueOpt : Option V) : AdBuf :=
  match valueOpt with
  | none => out
  | some v =>
      match Variant.tryDict v with
      | none => out
      | some dict => pushManufacturerDataEntries out dict

/-- Each `if let Some(..)` is an `Option.elim` that leaves the output alone
without a value. -/
def buildRawAdvertisementData (props : Props V) : Except Panic AdBuf := do
  let out := AdBuf.empty
  let out := ((props "Name").bind Variant.downcastRefString).elim out fun name =>
    pushAd out 0x09 name.toUTF8.data.toList
  let out ← ((props "UUIDs").bind Variant.tryStrings).elim (pure out) fun uuids =>
    pushUuidListAd out uuids
  let out ← pushServiceDataAd out (props "ServiceData")
  let out := pushManufacturerDataAd out (props "ManufacturerData")
  let out := ((props "TxPower").bind Variant.downcastRefI16).elim out fun txPower =>
    (i8TryFrom txPower).elim out fun txPowerI8 => pushAd out 0x0A [txPowerI8.toUInt8]
  return out

end

end LinuxBtProxy
