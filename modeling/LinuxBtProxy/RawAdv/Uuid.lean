import LinuxBtProxy.RawAdv.Parse
import LinuxBtProxy.Lib.AdItem

/-!
# LinuxBtProxy.RawAdv.Uuid

`parse_uuid` on canonical UUID text: it reads the sixteen bytes that were
written, and the short form it picks is the narrowest one, with its bytes in
the order of the air (`parseUuid_uuidText`, `shrink_spec`).
-/

namespace LinuxBtProxy

open AdItem

/-! ## Forms -/

namespace ShortUuid

/-- The form of a UUID. -/
def width : ShortUuid → Width
  | .bit16 _ => .bit16
  | .bit32 _ => .bit32
  | .bit128 _ => .bit128

/-- The bytes on the air. -/
def leBytes : ShortUuid → List UInt8
  | .bit16 id => u16ToLeBytes id
  | .bit32 id => u32ToLeBytes id
  | .bit128 bytes => bytes.toList.reverse

/-- The bytes of a form are as many as its width says. -/
theorem length_leBytes (u : ShortUuid) : u.leBytes.length = u.width.bytes := by
  cases u <;> simp [leBytes, u16ToLeBytes, u32ToLeBytes, width, Width.bytes]

end ShortUuid

/-- The bytes of a UUID by their index. -/
theorem toList_uuid (u : Uuid) : u.toList = (List.finRange 16).map u.get := by
  apply List.ext_getElem
  · simp
  · intro i h _
    rw [List.getElem_map, List.getElem_finRange]
    rfl

/-- The short form is the narrowest one, with the bytes of the air. -/
theorem shrink_spec (u : Uuid) :
    (shrink u).width = narrowest u ∧ (shrink u).leBytes = (narrowest u).leBytes u := by
  have hlist := toList_uuid u
  have htake : u.toList.take 2 = [u[0], u[1]] := by
    rw [hlist]
    rfl
  have hzero : u.toList.take 2 = [0x00, 0x00] ↔ u[0] = 0 ∧ u[1] = 0 := by
    rw [htake]
    simp
  by_cases hsuffix : u.toList.drop 4 = baseSuffix
  · have hsuffix' : u.toList.drop 4 = BASE_UUID_SUFFIX := hsuffix
    by_cases h0 : u[0] = 0 ∧ u[1] = 0
    · rw [narrowest, if_pos hsuffix, if_pos (hzero.mpr h0), shrink, if_pos hsuffix', if_pos h0]
      simp only [ShortUuid.width, ShortUuid.leBytes, Width.leBytes, hlist, true_and]
      exact u16ToLeBytes_fromBeBytes rfl
    · rw [narrowest, if_pos hsuffix, if_neg (mt hzero.mp h0), shrink, if_pos hsuffix', if_neg h0]
      simp only [ShortUuid.width, ShortUuid.leBytes, Width.leBytes, hlist, true_and]
      exact u32ToLeBytes_fromBeBytes rfl
  · have hsuffix' : ¬ u.toList.drop 4 = BASE_UUID_SUFFIX := hsuffix
    rw [narrowest, if_neg hsuffix, shrink, if_neg hsuffix']
    exact ⟨rfl, rfl⟩

/-! ## Canonical text -/

/-- The canonical text of a UUID: lower-case digits with dashes after the 4th,
6th, 8th and 10th byte. -/
def uuidText (u : Uuid) : String :=
  let bytes := u.toList
  String.ofList (hexText (bytes.take 4) ++ ['-'] ++ hexText ((bytes.drop 4).take 2) ++ ['-'] ++
    hexText ((bytes.drop 6).take 2) ++ ['-'] ++ hexText ((bytes.drop 8).take 2) ++ ['-'] ++
    hexText (bytes.drop 10))

/-- The form of a UUID string, if it is one. -/
def uuidForm (uuidStr : String) : Option ShortUuid :=
  match parseUuid uuidStr with
  | .ok form => form
  | .error _ => none

/-- Where `parse_uuid` returns, it returns the form of the text. -/
theorem uuidForm_of_parseUuid {uuidStr : String} {form : Option ShortUuid}
    (h : parseUuid uuidStr = .ok form) : uuidForm uuidStr = form := by
  rw [uuidForm, h]

/-- A canonical text without its dashes is thirty-two digits. -/
theorem filter_dash_uuidText (u : Uuid) :
    (uuidText u).toList.filter (· != '-') = hexText u.toList := by
  have hsplit : u.toList = u.toList.take 4 ++ (u.toList.drop 4).take 2 ++
      (u.toList.drop 6).take 2 ++ (u.toList.drop 8).take 2 ++ u.toList.drop 10 := by
    rw [toList_uuid]
    rfl
  have hdash : ['-'].filter (· != '-') = [] := by decide
  rw [uuidText, String.toList_ofList]
  simp only [List.filter_append, filter_dash_hexText, hdash, List.append_nil]
  conv => rhs; rw [hsplit]
  simp only [hexText_append]

/-- **Canonical text parses** to the short form of its bytes. -/
theorem parseUuid_uuidText (u : Uuid) : parseUuid (uuidText u) = .ok (some (shrink u)) := by
  apply parseUuid_of_readPairs
  rw [undashed, filter_dash_uuidText, readPairs_hexText]

/-- A canonical text spells its UUID. -/
theorem uuidForm_uuidText (u : Uuid) : uuidForm (uuidText u) = some (shrink u) :=
  uuidForm_of_parseUuid (parseUuid_uuidText u)

/-- Canonical texts spell their UUIDs in order. -/
theorem filterMap_uuidForm_uuidText (us : List Uuid) :
    (us.map uuidText).filterMap uuidForm = us.map shrink := by
  rw [List.filterMap_map, ← List.filterMap_eq_map]
  simp only [Function.comp_def, uuidForm_uuidText]

end LinuxBtProxy
