import LinuxBtProxy.Lib.AdStructure
import LinuxBtProxy.Lib.Endian

/-!
# LinuxBtProxy.Lib.AdItem

The content of advertising data: names, service UUIDs, service and manufacturer
data, transmission power.

A UUID has 128 bits; the air format also has 16- and 32-bit forms, which stand
for UUIDs with the Bluetooth base suffix.  `parse` reads an AD structure,
`Item.encode` writes one, and `decode_encode` reads back any sequence of
well-formed items.

Of the forms of a UUID, `narrowest` is lossless (`expand_leBytes`), and no other
one that is has fewer bytes (`narrowest_le`).
-/

namespace AdItem

open AdStructure

/-! ## UUIDs -/

/-- A UUID, the most significant byte first. -/
abbrev Uuid := Vector UInt8 16

/-- The last twelve bytes of `xxxxxxxx-0000-1000-8000-00805f9b34fb`. -/
def baseSuffix : List UInt8 :=
  [0x00, 0x00, 0x10, 0x00, 0x80, 0x00, 0x00, 0x80, 0x5F, 0x9B, 0x34, 0xFB]

/-- The forms of a UUID on the air. -/
inductive Width where
  | bit16
  | bit32
  | bit128
deriving Repr, DecidableEq

namespace Width

/-- The bytes of a UUID of this form. -/
def bytes : Width → Nat
  | .bit16 => 2
  | .bit32 => 4
  | .bit128 => 16

/-- The type of a complete list of service UUIDs of this width. -/
def listType : Width → UInt8
  | .bit16 => 0x03
  | .bit32 => 0x05
  | .bit128 => 0x07

/-- The type of service data with a UUID of this width. -/
def serviceType : Width → UInt8
  | .bit16 => 0x16
  | .bit32 => 0x20
  | .bit128 => 0x21

/-- The bytes of a UUID in the form of this width, the least significant
first. -/
def leBytes (w : Width) (u : Uuid) : List UInt8 :=
  match w with
  | .bit16 => ((u.toList.drop 2).take 2).reverse
  | .bit32 => (u.toList.take 4).reverse
  | .bit128 => u.toList.reverse

/-- A UUID takes the bytes of its form. -/
theorem length_leBytes (w : Width) (u : Uuid) : (w.leBytes u).length = w.bytes := by
  cases w <;> simp [leBytes, bytes]

/-- Every form has bytes. -/
theorem bytes_pos (w : Width) : 0 < w.bytes := by
  cases w <;> simp [bytes]

end Width

/-- The narrowest form that a UUID has. -/
def narrowest (u : Uuid) : Width :=
  if u.toList.drop 4 = baseSuffix then
    if u.toList.take 2 = [0x00, 0x00] then .bit16 else .bit32
  else .bit128

/-- Sixteen bytes are a UUID. -/
def ofList? (bytes : List UInt8) : Option Uuid :=
  if h : bytes.length = 16 then some ⟨bytes.toArray, by simpa using h⟩ else none

/-- The UUID that a form stands for. -/
def expand (w : Width) (le : List UInt8) : Option Uuid :=
  match w with
  | .bit16 => ofList? ([0x00, 0x00] ++ le.reverse ++ baseSuffix)
  | .bit32 => ofList? (le.reverse ++ baseSuffix)
  | .bit128 => ofList? le.reverse

/-- The bytes of a UUID are read back. -/
@[simp] theorem ofList?_toList (u : Uuid) : ofList? u.toList = some u := by
  simp [ofList?, Vector.toList]

/-- **The narrowest form is lossless.** -/
theorem expand_leBytes {u : Uuid} {w : Width} (h : narrowest u = w) :
    expand w (w.leBytes u) = some u := by
  unfold narrowest at h
  have hsplit : u.toList.take 4 = u.toList.take 2 ++ (u.toList.drop 2).take 2 := by
    rw [← List.take_add]
  split at h
  · next hsuffix =>
      have hall : u.toList.take 4 ++ baseSuffix = u.toList := by
        rw [← hsuffix, List.take_append_drop]
      split at h
      · next hzero =>
          subst h
          rw [hsplit, hzero] at hall
          simp only [expand, Width.leBytes, List.reverse_reverse]
          rw [hall, ofList?_toList]
      · subst h
        simp only [expand, Width.leBytes, List.reverse_reverse]
        rw [hall, ofList?_toList]
  · subst h
    simp only [expand, Width.leBytes, List.reverse_reverse, ofList?_toList]

/-- The UUID that was read has the bytes it was read from. -/
theorem toList_of_ofList? {bytes : List UInt8} {u : Uuid} (h : ofList? bytes = some u) :
    u.toList = bytes := by
  unfold ofList? at h
  split at h
  · obtain rfl := Option.some.inj h
    rfl
  · contradiction

/-- No form of a UUID is narrower than `narrowest`. -/
theorem narrowest_le {u : Uuid} {w : Width} {le : List UInt8} (h : expand w le = some u) :
    (narrowest u).bytes ≤ w.bytes := by
  have hlength : u.toList.length = 16 := Vector.length_toList
  cases w with
  | bit16 =>
      have hlist := toList_of_ofList? h
      have hle : le.reverse.length = 2 := by
        rw [hlist] at hlength
        simp [baseSuffix] at hlength ⊢
        omega
      have hsuffix : u.toList.drop 4 = baseSuffix := by
        rw [hlist, List.drop_left' (by simp [hle])]
      have hzero : u.toList.take 2 = [0x00, 0x00] := by
        rw [hlist, List.append_assoc]
        rfl
      have hnarrowest : narrowest u = .bit16 := by
        rw [narrowest, if_pos hsuffix, if_pos hzero]
      exact Nat.le_of_eq (congrArg Width.bytes hnarrowest)
  | bit32 =>
      have hlist := toList_of_ofList? h
      have hle : le.reverse.length = 4 := by
        rw [hlist] at hlength
        simp [baseSuffix] at hlength ⊢
        omega
      have hsuffix : u.toList.drop 4 = baseSuffix := by
        rw [hlist, List.drop_left' hle]
      rw [narrowest, if_pos hsuffix]
      split <;> decide
  | bit128 => cases narrowest u <;> decide

/-- Bytes in blocks of equal length; an incomplete last block is dropped. -/
def blocks (n : Nat) (bytes : List UInt8) : List (List UInt8) :=
  if n = 0 ∨ bytes.length < n then []
  else bytes.take n :: blocks n (bytes.drop n)
termination_by bytes.length
decreasing_by rw [List.length_drop]; omega

/-- Blocks of one length are read back from their concatenation. -/
theorem blocks_flatten {n : Nat} (hn : 0 < n) {bs : List (List UInt8)}
    (h : ∀ b ∈ bs, b.length = n) : blocks n bs.flatten = bs := by
  induction bs with
  | nil =>
      rw [blocks]
      simp [hn]
  | cons b bs ih =>
      obtain ⟨hb, hbs⟩ := List.forall_mem_cons.mp h
      have hlen : ¬ (n = 0 ∨ (b ++ bs.flatten).length < n) := by
        rw [List.length_append]
        omega
      rw [List.flatten_cons, blocks, if_neg hlen, ← hb, List.take_left, List.drop_left, hb, ih hbs]

/-! ## Items -/

/-- What an AD structure says. -/
inductive Item where
  | name (bytes : List UInt8)
  | uuids (w : Width) (us : List Uuid)
  | serviceData (w : Width) (u : Uuid) (data : List UInt8)
  | manufacturerData (id : UInt16) (data : List UInt8)
  | txPower (level : Int8)
deriving DecidableEq

namespace Item

/-- The structure that says it. -/
def encode : Item → Ad
  | .name bytes => (0x09, bytes)
  | .uuids w us => (w.listType, us.flatMap w.leBytes)
  | .serviceData w u data => (w.serviceType, w.leBytes u ++ data)
  | .manufacturerData id data => (0xFF, Endian.leBytes 2 id.toNat ++ data)
  | .txPower level => (0x0A, [level.toUInt8])

/-- Every UUID is in its narrowest form. -/
def Narrow : Item → Prop
  | .uuids w us => ∀ u ∈ us, narrowest u = w
  | .serviceData w u _ => narrowest u = w
  | _ => True

end Item

/-- A list of UUIDs in blocks of their form; a remainder is dropped. -/
def parseUuids (w : Width) (payload : List UInt8) : Item :=
  .uuids w ((blocks w.bytes payload).filterMap (expand w))

/-- A UUID and the data behind it. -/
def parseServiceData (w : Width) (payload : List UInt8) : Option Item :=
  (expand w (payload.take w.bytes)).map fun u => .serviceData w u (payload.drop w.bytes)

/-- Read an AD structure; one of any other type is skipped. -/
def parse (ad : Ad) : Option Item :=
  match ad.1 with
  | 0x08 | 0x09 => some (.name ad.2)
  | 0x02 | 0x03 => some (parseUuids .bit16 ad.2)
  | 0x04 | 0x05 => some (parseUuids .bit32 ad.2)
  | 0x06 | 0x07 => some (parseUuids .bit128 ad.2)
  | 0x16 => parseServiceData .bit16 ad.2
  | 0x20 => parseServiceData .bit32 ad.2
  | 0x21 => parseServiceData .bit128 ad.2
  | 0xFF =>
      match ad.2 with
      | lo :: hi :: data => some (.manufacturerData (UInt16.ofNat (Endian.leValue [lo, hi])) data)
      | _ => none
  | 0x0A =>
      match ad.2 with
      | [level] => some (.txPower level.toInt8)
      | _ => none
  | _ => none

/-- UUIDs listed in their shortest form are read back. -/
theorem parseUuids_encode {w : Width} {us : List Uuid} (h : ∀ u ∈ us, narrowest u = w) :
    parseUuids w (us.flatMap w.leBytes) = .uuids w us := by
  have hblocks : blocks w.bytes (us.flatMap w.leBytes) = us.map w.leBytes := by
    rw [List.flatMap_def]
    apply blocks_flatten w.bytes_pos
    simp [Width.length_leBytes]
  have hexpand : (us.map w.leBytes).filterMap (expand w) = us := by
    clear hblocks
    induction us with
    | nil => rfl
    | cons u us ih =>
        obtain ⟨hu, hus⟩ := List.forall_mem_cons.mp h
        rw [List.map_cons, List.filterMap_cons_some (expand_leBytes hu), ih hus]
  rw [parseUuids, hblocks, hexpand]

/-- Service data under the shortest form of its UUID is read back. -/
theorem parseServiceData_encode {w : Width} {u : Uuid} (h : narrowest u = w)
    (data : List UInt8) :
    parseServiceData w (w.leBytes u ++ data) = some (.serviceData w u data) := by
  have hlen := w.length_leBytes u
  rw [parseServiceData, List.take_left' hlen, List.drop_left' hlen, expand_leBytes h]
  rfl

/-- What is said in the shortest form is read back. -/
theorem parse_encode {item : Item} (h : item.Narrow) : parse item.encode = some item := by
  cases item with
  | name bytes => rfl
  | uuids w us =>
      have hus := parseUuids_encode h
      cases w <;> exact congrArg some hus
  | serviceData w u data =>
      have hdata := parseServiceData_encode h data
      cases w <;> exact hdata
  | manufacturerData id data =>
      have hid : UInt16.ofNat (Endian.leValue (Endian.leBytes 2 id.toNat)) = id := by
        rw [Endian.leValue_leBytes id.toNat_lt, UInt16.ofNat_toNat]
      have hparse : parse (Item.manufacturerData id data).encode = some (.manufacturerData
          (UInt16.ofNat (Endian.leValue (Endian.leBytes 2 id.toNat))) data) :=
        rfl
      rw [hparse, hid]
  | txPower level => simp [parse, Item.encode]

/-! ## Advertising data -/

/-- The items of advertising data. -/
def decode (data : List UInt8) : Option (List Item) :=
  (walk data).map (·.filterMap parse)

/-- **Reading back**: items in their narrowest forms whose payloads fit their
length bytes are decoded as they were written. -/
theorem decode_encode {items : List Item} (hnarrow : ∀ item ∈ items, item.Narrow)
    (hfit : ∀ item ∈ items, item.encode.2.length ≤ maxPayload) :
    decode ((items.map Item.encode).map AdStructure.encode).flatten = some items := by
  have hwalk := (walk_flatten_iff (items.map Item.encode)).mpr (by simpa using hfit)
  have hparse : (items.map Item.encode).filterMap parse = items := by
    clear hwalk hfit
    induction items with
    | nil => rfl
    | cons item items ih =>
        obtain ⟨hitem, hitems⟩ := List.forall_mem_cons.mp hnarrow
        rw [List.map_cons, List.filterMap_cons_some (parse_encode hitem), ih hitems]
  rw [decode, hwalk, Option.map_some, hparse]

/-! ## What a scanner reports -/

namespace Item

/-- The name that a structure gives. -/
def name? : Item → Option (List UInt8)
  | .name bytes => some bytes
  | _ => none

/-- The UUIDs that a list of this form gives. -/
def uuidsOf (w : Width) : Item → List Uuid
  | .uuids w' us => if w' = w then us else []
  | _ => []

/-- The service data that a structure gives. -/
def serviceData? : Item → Option (Uuid × List UInt8)
  | .serviceData _ u data => some (u, data)
  | _ => none

/-- The manufacturer data that a structure gives. -/
def manufacturerData? : Item → Option (UInt16 × List UInt8)
  | .manufacturerData id data => some (id, data)
  | _ => none

/-- The transmit power that a structure gives. -/
def txPower? : Item → Option Int8
  | .txPower level => some level
  | _ => none

end Item

/-- The name, empty if there is none. -/
def localName (items : List Item) : List UInt8 := (items.filterMap Item.name?).head?.getD []

/-- The service UUIDs of one width, in order. -/
def serviceUuids (w : Width) (items : List Item) : List Uuid := items.flatMap (Item.uuidsOf w)

/-- All service data, in order. -/
def serviceData (items : List Item) : List (Uuid × List UInt8) :=
  items.filterMap Item.serviceData?

/-- All manufacturer data, in order. -/
def manufacturerData (items : List Item) : List (UInt16 × List UInt8) :=
  items.filterMap Item.manufacturerData?

/-- The first transmit power. -/
def txPower (items : List Item) : Option Int8 := (items.filterMap Item.txPower?).head?

end AdItem
