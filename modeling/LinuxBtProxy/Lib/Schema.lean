import LinuxBtProxy.Lib.Wire

/-!
# LinuxBtProxy.Lib.Schema

Messages of the protobuf wire format, as generated code treats them: a message
type is a list of fields, each with a codec for its values, and everything the
code does with a message is done field by field.

* `Runtime` — the library that generated code is linked with, as a parameter;
* `Schema` — a message type, `Schema.writeTo`, `Schema.computeSize` and
  `Schema.mergeFrom`;
* `Schema.parse_writeTo` — a message that is written is read back;
* `Schema.computeSize_eq` — the size is the number of bytes written;
* `Schema.mergeFrom_records` — a stream of records is the updates they stand for,
  one after the other, and unknown records are none.
-/

namespace Wire

open Base128

/-! ## The runtime -/

/-- The size of a tag: generated code has it as a constant. -/
def tagSize (number : Nat) : UInt64 := UInt64.ofNat (numeral (tag number 0)).length

/-- How the values of a type are written and sized with the tag of a field in
front, and read behind it.  A value that fits stands for a payload. -/
structure Codec (α : Type) where
  wireType : Nat
  write : Nat → α → List UInt8
  size : Nat → α → UInt64
  read : List UInt8 → Option (α × List UInt8)
  Fits : α → Prop
  decidableFits : DecidablePred Fits
  image : α → Payload
  wireType_image : ∀ a, (image a).wireType = wireType
  write_eq : ∀ {number a}, ValidNumber number → Fits a →
    write number a = numeral (tag number wireType) ++ (image a).encode
  size_eq : ∀ {number a}, ValidNumber number → Fits a →
    size number a = tagSize number + UInt64.ofNat (image a).encode.length
  read_image : ∀ {a}, Fits a → ∀ rest, read ((image a).encode ++ rest) = some (a, rest)
  read_le : ∀ {is a rest}, read is = some (a, rest) → rest.length ≤ is.length

/-- A codec whose values can also be read into a field that has one. -/
structure Slot (α : Type) extends Codec α where
  readInto : Option α → List UInt8 → Option (α × List UInt8)
  readInto_none : readInto none = read
  readInto_le : ∀ {old is a rest}, readInto old is = some (a, rest) → rest.length ≤ is.length

/-- What generated code calls for tags, unknown fields and submessages. -/
class Runtime where
  readRawTagOrEof : List UInt8 → Option (Option Nat × List UInt8)
  readUnknownOrSkipGroup : Nat → List UInt8 → Option (List UInt8)
  writeTag : Nat → Nat → List UInt8
  writeRawVarint32 : UInt32 → List UInt8
  computeRawVarint64Size : UInt64 → UInt64
  /-- The stream up to the limit that a length in front sets, and behind it. -/
  readLimited : List UInt8 → Option (List UInt8 × List UInt8)
  /-- The message that a submessage is merged into: a new one or the old one. -/
  mergeTarget : {N : Type} → N → Option N → N
  readRawTagOrEof_nil : readRawTagOrEof [] = some (none, [])
  readRawTagOrEof_tag : ∀ {number wireType}, ValidNumber number → wireType < 8 → ∀ rest,
    readRawTagOrEof (numeral (tag number wireType) ++ rest) =
      some (some (tag number wireType), rest)
  readRawTagOrEof_lt : ∀ {is t rest}, readRawTagOrEof is = some (some t, rest) →
    rest.length < is.length
  readUnknown_encode : ∀ {number} {p : Payload}, ValidNumber number → p.Fits → ∀ rest,
    readUnknownOrSkipGroup (tag number p.wireType) (p.encode ++ rest) = some rest
  readUnknown_le : ∀ {t is rest}, readUnknownOrSkipGroup t is = some rest →
    rest.length ≤ is.length
  writeTag_eq : ∀ {number wireType}, ValidNumber number → wireType < 8 →
    writeTag number wireType = numeral (tag number wireType)
  writeRawVarint32_eq : ∀ v, writeRawVarint32 v = numeral v.toNat
  computeRawVarint64Size_eq : ∀ v,
    computeRawVarint64Size v = UInt64.ofNat (numeral v.toNat).length
  readLimited_delimited : ∀ {bytes : List UInt8}, bytes.length < 2 ^ 32 → ∀ rest,
    readLimited (numeral bytes.length ++ bytes ++ rest) = some (bytes, rest)
  readLimited_le : ∀ {is bytes rest}, readLimited is = some (bytes, rest) →
    rest.length ≤ is.length
  mergeTarget_none : ∀ {N : Type} (new : N), mergeTarget new none = new

instance {α : Type} (c : Codec α) : DecidablePred c.Fits := c.decidableFits

theorem Codec.wireType_lt {α : Type} (c : Codec α) (a : α) : c.wireType < 8 := by
  rw [← c.wireType_image a]
  exact (c.image a).wireType_lt

/-- The wire type does not change the size of a tag. -/
theorem length_numeral_tag (number : Nat) {wireType : Nat} (h : wireType < 8) :
    (numeral (tag number wireType)).length = (numeral (tag number 0)).length := by
  have hdiv : tag number wireType / 128 = tag number 0 / 128 := by
    unfold tag
    omega
  by_cases hsmall : tag number 0 < 128
  · have hsmall' : tag number wireType < 128 := by
      unfold tag at *
      omega
    rw [numeral_of_lt hsmall, numeral_of_lt hsmall']
    rfl
  · have hlarge : 128 ≤ tag number wireType := by
      unfold tag at *
      omega
    have hlarge0 : 128 ≤ tag number 0 := by omega
    rw [numeral_of_ge hlarge0, numeral_of_ge hlarge, hdiv]
    rfl

theorem Codec.size_write {α : Type} (c : Codec α) {number : Nat} (hn : ValidNumber number) {a : α}
    (h : c.Fits a) : c.size number a = UInt64.ofNat (c.write number a).length := by
  rw [c.size_eq hn h, c.write_eq hn h, List.length_append, UInt64.ofNat_add,
    length_numeral_tag number (c.wireType_lt a), tagSize]

/-! ## Fields -/

/-- A field of a structure, with the laws that fields of structures have. -/
structure Lens (M α : Type) where
  get : M → α
  set : α → M → M
  get_set : ∀ a m, get (set a m) = a := by intros; rfl
  set_get : ∀ m, set (get m) m = m := by intros; rfl
  set_set : ∀ a b m, set b (set a m) = set b m := by intros; rfl

/-- A field of a message type.  A singular field is written unless it has its
default value; a packed one is read in either form. -/
inductive Field (M : Type) : Type 1 where
  | singular {α : Type} [DecidableEq α] (number : Nat) (lens : Lens M α) (c : Codec α)
      (default : α)
  | repeated {α : Type} (number : Nat) (lens : Lens M (List α)) (c : Codec α)
  | packed {α : Type} (number : Nat) (lens : Lens M (List α)) (list : Codec (List α))
      (c : Codec α) (write_nil : list.write number [] = []) (size_nil : list.size number [] = 0)
  | optional {α : Type} (number : Nat) (lens : Lens M (Option α)) (c : Slot α)

section

variable {M : Type}

/-- An arm of the match on tags: reads a value and stores it. -/
abbrev Arm (M : Type) := M → List UInt8 → Option (M × List UInt8)

/-- The arm that reads a value and stores it. -/
def Codec.arm {α : Type} (c : Codec α) (store : α → M → M) : Arm M :=
  fun m is => (c.read is).map fun r => (store r.1 m, r.2)

namespace Field

def number : Field M → Nat
  | @singular _ _ _ number _ _ _ | .repeated number _ _ | .packed number _ _ _ _ _
  | .optional number _ _ => number

/-- The arm for the tag of the field and the wire type. -/
def arm (wireType : Nat) : Field M → Option (Arm M)
  | @singular _ _ _ _ lens c _ => if wireType = c.wireType then some (c.arm lens.set) else none
  | .repeated _ lens c =>
      if wireType = c.wireType then some (c.arm fun a m => lens.set (lens.get m ++ [a]) m) else none
  | .packed _ lens list c _ _ =>
      if wireType = list.wireType then
        some (list.arm fun as m => lens.set (lens.get m ++ as) m)
      else if wireType = c.wireType then
        some (c.arm fun a m => lens.set (lens.get m ++ [a]) m)
      else none
  | .optional _ lens c =>
      if wireType = c.wireType then
        some fun m is => (c.readInto (lens.get m) is).map fun r => (lens.set (some r.1) m, r.2)
      else none

def write (m : M) : Field M → List UInt8
  | @singular _ _ _ number lens c default =>
      if lens.get m ≠ default then c.write number (lens.get m) else []
  | .repeated number lens c => (lens.get m).flatMap (c.write number)
  | .packed number lens list _ _ _ => list.write number (lens.get m)
  | .optional number lens c =>
      match lens.get m with
      | none => []
      | some a => c.write number a

/-- What the field adds to the size. -/
def addSize (m : M) (mySize : UInt64) : Field M → UInt64
  | @singular _ _ _ number lens c default =>
      if lens.get m ≠ default then mySize + c.size number (lens.get m) else mySize
  | .repeated number lens c => (lens.get m).foldl (fun mySize a => mySize + c.size number a) mySize
  | .packed number lens list _ _ _ => mySize + list.size number (lens.get m)
  | .optional number lens c =>
      match lens.get m with
      | none => mySize
      | some a => mySize + c.size number a

/-- The field of `m`, in another message. -/
def copy (m : M) : Field M → M → M
  | @singular _ _ _ _ lens _ _ => lens.set (lens.get m)
  | .repeated _ lens _ => lens.set (lens.get m)
  | .packed _ lens _ _ _ _ => lens.set (lens.get m)
  | .optional _ lens _ => lens.set (lens.get m)

/-- The field is as in a new message. -/
def Fresh (m : M) : Field M → Prop
  | @singular _ _ _ _ lens _ default => lens.get m = default
  | .repeated _ lens _ => lens.get m = []
  | .packed _ lens _ _ _ _ => lens.get m = []
  | .optional _ lens _ => lens.get m = none

/-- The values of the field fit. -/
def Fits (m : M) : Field M → Prop
  | @singular _ _ _ _ lens c _ => c.Fits (lens.get m)
  | .repeated _ lens c => ∀ a ∈ lens.get m, c.Fits a
  | .packed _ lens list _ _ _ => lens.get m ≠ [] → list.Fits (lens.get m)
  | .optional _ lens c => ∀ a ∈ lens.get m, c.Fits a

instance decidableFits (m : M) : DecidablePred (Field.Fits m)
  | @singular _ _ _ _ lens c _ => c.decidableFits (lens.get m)
  | .repeated _ lens c => inferInstanceAs (Decidable (∀ a ∈ lens.get m, c.Fits a))
  | .packed _ lens list _ _ _ =>
      inferInstanceAs (Decidable (lens.get m ≠ [] → list.Fits (lens.get m)))
  | .optional _ lens c => inferInstanceAs (Decidable (∀ a ∈ lens.get m, c.Fits a))

theorem arm_le {f : Field M} {wireType : Nat} {arm : Arm M} (h : f.arm wireType = some arm)
    {m m' : M} {is rest : List UInt8} (hrun : arm m is = some (m', rest)) :
    rest.length ≤ is.length := by
  have hcodec {α : Type} (c : Codec α) (store : α → M → M)
      (hrun : c.arm store m is = some (m', rest)) : rest.length ≤ is.length := by
    obtain ⟨r, hr, heq⟩ := Option.map_eq_some_iff.mp hrun
    obtain ⟨-, rfl⟩ := Prod.mk.inj heq
    exact c.read_le hr
  cases f with
  | singular number lens c default =>
      obtain ⟨-, rfl⟩ := by simpa [Field.arm] using h
      exact hcodec _ _ hrun
  | repeated number lens c =>
      obtain ⟨-, rfl⟩ := by simpa [Field.arm] using h
      exact hcodec _ _ hrun
  | packed number lens list c =>
      rw [Field.arm] at h
      split at h
      · obtain rfl := Option.some.inj h
        exact hcodec _ _ hrun
      · obtain ⟨-, rfl⟩ := by simpa using h
        exact hcodec _ _ hrun
  | optional number lens c =>
      obtain ⟨-, rfl⟩ := by simpa [Field.arm] using h
      obtain ⟨r, hr, heq⟩ := Option.map_eq_some_iff.mp hrun
      obtain ⟨-, rfl⟩ := Prod.mk.inj heq
      exact c.readInto_le hr

/-- A singular field is read from records of one wire type. -/
theorem wireType_of_arm {α : Type} [DecidableEq α] {number wireType : Nat} {lens : Lens M α}
    {c : Codec α} {default : α} (h : (singular number lens c default).arm wireType ≠ none) :
    wireType = c.wireType :=
  Decidable.byContradiction fun hne => h (if_neg hne)

end Field

variable [Runtime]

/-! ## The merge loop -/

/-- The arm of the match for a tag. -/
def armOf (fields : List (Field M)) (t : Nat) : Option (Arm M) :=
  fields.findSome? fun f => if t / 8 = f.number then f.arm (t % 8) else none

/-- The match on the tag. -/
def mergeTag (fields : List (Field M)) (m : M) (t : Nat) (is : List UInt8) :
    Option (M × List UInt8) :=
  match armOf fields t with
  | some arm => arm m is
  | none => (Runtime.readUnknownOrSkipGroup t is).map fun is => (m, is)

theorem mergeTag_le {fields : List (Field M)} {m m' : M} {t : Nat} {is rest : List UInt8}
    (h : mergeTag fields m t is = some (m', rest)) : rest.length ≤ is.length := by
  unfold mergeTag at h
  split at h
  · next arm harm =>
      obtain ⟨f, -, hf⟩ := List.exists_of_findSome?_eq_some harm
      split at hf
      · exact Field.arm_le hf h
      · contradiction
  · obtain ⟨is', hskip, heq⟩ := Option.map_eq_some_iff.mp h
    obtain ⟨-, rfl⟩ := Prod.mk.inj heq
    exact Runtime.readUnknown_le hskip

/-- `while let Some(tag) = is.read_raw_tag_or_eof()?`. -/
def mergeFrom (fields : List (Field M)) (m : M) (is : List UInt8) : Option M :=
  match _ : Runtime.readRawTagOrEof is with
  | none => none
  | some (none, _) => some m
  | some (some t, is') =>
      match _ : mergeTag fields m t is' with
      | none => none
      | some (m', is'') => mergeFrom fields m' is''
termination_by is.length
decreasing_by
  have hlt := Runtime.readRawTagOrEof_lt (by assumption)
  have hle := mergeTag_le (by assumption)
  omega

theorem mergeFrom_nil (fields : List (Field M)) (m : M) : mergeFrom fields m [] = some m := by
  rw [mergeFrom]
  split
  · next h => simp [Runtime.readRawTagOrEof_nil] at h
  · rfl
  · next h => simp [Runtime.readRawTagOrEof_nil] at h

theorem mergeFrom_tag {fields : List (Field M)} {m m' : M} {number wireType : Nat}
    {is is' : List UInt8} (hn : ValidNumber number) (hw : wireType < 8)
    (h : mergeTag fields m (tag number wireType) is = some (m', is')) :
    mergeFrom fields m (numeral (tag number wireType) ++ is) = mergeFrom fields m' is' := by
  have hread := Runtime.readRawTagOrEof_tag hn hw is
  rw [mergeFrom]
  split
  · next hr => simp [hread] at hr
  · next hr => simp [hread] at hr
  · next t is₁ hr =>
      rw [hread] at hr
      obtain ⟨ht, rfl⟩ := by simpa using hr
      subst ht
      split
      · next hm => simp [h] at hm
      · next hm =>
          rw [h] at hm
          obtain ⟨rfl, rfl⟩ := by simpa using hm
          rfl

/-! ## Message types -/

/-- Every field is as in a new message until it is copied, and with all of them
copied the message is `m`. -/
def Covers (m : M) : List (Field M) → M → Prop
  | [], acc => acc = m
  | f :: fields, acc => f.Fresh acc ∧ Covers m fields (f.copy m acc)

variable (M) in
structure Schema where
  fields : List (Field M)
  new : M
  valid : ∀ f ∈ fields, ValidNumber f.number := by simp [Field.number, ValidNumber]
  nodup : (fields.map Field.number).Nodup := by simp [Field.number]
  covers : ∀ m, Covers m fields new := by simp [Covers, Field.Fresh, Field.copy]

namespace Schema

/-- A message type without fields. -/
def empty (new : M) (eq_new : ∀ m, new = m) : Schema M where
  fields := []
  new
  covers := eq_new

def writeTo (S : Schema M) (m : M) : List UInt8 := S.fields.flatMap (Field.write m)

def computeSize (S : Schema M) (m : M) : UInt64 :=
  S.fields.foldl (fun mySize f => f.addSize m mySize) 0

/-- `M::parse_from_bytes`. -/
def parse (S : Schema M) (is : List UInt8) : Option M := mergeFrom S.fields S.new is

def Fits (S : Schema M) (m : M) : Prop := ∀ f ∈ S.fields, f.Fits m

instance decidableFits (S : Schema M) : DecidablePred S.Fits :=
  fun m => inferInstanceAs (Decidable (∀ f ∈ S.fields, f.Fits m))

end Schema

/-! ## Reading records -/

omit [Runtime] in
theorem armOf_of_mem {fields : List (Field M)} (hn : (fields.map Field.number).Nodup)
    {f : Field M} (hf : f ∈ fields) {wireType : Nat} (hw : wireType < 8) {arm : Arm M}
    (harm : f.arm wireType = some arm) : armOf fields (tag f.number wireType) = some arm := by
  unfold armOf
  rw [tag_div hw, tag_mod hw]
  induction fields with
  | nil => simp at hf
  | cons g fields ih =>
      obtain ⟨hg, htail⟩ := List.nodup_cons.mp hn
      rw [List.findSome?_cons]
      rcases List.mem_cons.mp hf with rfl | hmem
      · rw [if_pos rfl, harm]
      · have hne : f.number ≠ g.number := by
          intro heq
          exact hg (heq ▸ List.mem_map_of_mem hmem)
        rw [if_neg hne]
        exact ih htail hmem

omit [Runtime] in
/-- A record that no field has an arm for is unknown. -/
theorem armOf_eq_none {fields : List (Field M)} {r : Record}
    (h : ∀ f ∈ fields, r.number = f.number → f.arm r.payload.wireType = none) :
    armOf fields r.tag = none := by
  unfold armOf
  rw [Record.tag, tag_div r.payload.wireType_lt, tag_mod r.payload.wireType_lt,
    List.findSome?_eq_none_iff]
  intro f hf
  split
  · next hnumber => exact h f hf hnumber
  · rfl

namespace Schema

variable (S : Schema M)

/-- What an arm reads behind its tag is stored. -/
theorem mergeFrom_arm {f : Field M} (hf : f ∈ S.fields) {wireType : Nat} (hw : wireType < 8)
    {arm : Arm M} (harm : f.arm wireType = some arm) {m m' : M} {is rest : List UInt8}
    (hread : arm m is = some (m', rest)) :
    mergeFrom S.fields m (numeral (tag f.number wireType) ++ is) = mergeFrom S.fields m' rest := by
  have htag : mergeTag S.fields m (tag f.number wireType) is = some (m', rest) := by
    rw [mergeTag, armOf_of_mem S.nodup hf hw harm]
    exact hread
  exact mergeFrom_tag (S.valid f hf) hw htag

/-- A value of a field at the front of the stream is read and stored. -/
theorem mergeFrom_value {f : Field M} (hf : f ∈ S.fields) {α : Type} {c : Codec α}
    {store : α → M → M} (harm : f.arm c.wireType = some (c.arm store)) {a : α} (ha : c.Fits a)
    (m : M) (rest : List UInt8) :
    mergeFrom S.fields m (c.write f.number a ++ rest) = mergeFrom S.fields (store a m) rest := by
  rw [c.write_eq (S.valid f hf) ha, List.append_assoc]
  refine S.mergeFrom_arm hf (c.wireType_lt a) harm ?_
  rw [Codec.arm, c.read_image ha]
  rfl

/-- An unknown record at the front of the stream is skipped. -/
theorem mergeFrom_unknown {r : Record} (hn : ValidNumber r.number) (hp : r.payload.Fits)
    (hr : armOf S.fields r.tag = none) (m : M) (rest : List UInt8) :
    mergeFrom S.fields m (r.encode ++ rest) = mergeFrom S.fields m rest := by
  have htag : mergeTag S.fields m (tag r.number r.payload.wireType) (r.payload.encode ++ rest) =
      some (m, rest) := by
    have harm : armOf S.fields (tag r.number r.payload.wireType) = none := hr
    rw [mergeTag, harm]
    dsimp only
    rw [Runtime.readUnknown_encode hn hp]
    rfl
  rw [Record.encode, Record.tag, List.append_assoc, mergeFrom_tag hn r.payload.wireType_lt htag]

/-- What a record does to a message. -/
inductive Means : Record → (M → M) → Prop
  | unknown {r : Record} (hn : ValidNumber r.number) (hp : r.payload.Fits)
      (hr : armOf S.fields r.tag = none) : Means r id
  | value {f : Field M} (hf : f ∈ S.fields) {α : Type} {c : Codec α} {store : α → M → M}
      (harm : f.arm c.wireType = some (c.arm store)) {a : α} (ha : c.Fits a) :
      Means ⟨f.number, c.image a⟩ (store a)

variable {S} in
theorem Means.merge {r : Record} {effect : M → M} (h : S.Means r effect) (m : M)
    (rest : List UInt8) :
    mergeFrom S.fields m (r.encode ++ rest) = mergeFrom S.fields (effect m) rest := by
  cases h with
  | unknown hn hp hr => exact S.mergeFrom_unknown hn hp hr m rest
  | @value f hf _ c store harm a ha =>
      have hone := S.mergeFrom_value hf harm ha m rest
      rw [c.write_eq (S.valid f hf) ha] at hone
      rw [Record.encode, Record.tag, c.wireType_image]
      exact hone

/-- **Records are updates**: a stream of records in any order is read as the
updates they stand for, one after the other. -/
theorem mergeFrom_records {records : List Record} {effect : Record → M → M}
    (h : ∀ r ∈ records, S.Means r (effect r)) (m : M) :
    mergeFrom S.fields m (records.flatMap Record.encode) =
      some (records.foldl (fun m r => effect r m) m) := by
  induction records generalizing m with
  | nil => exact mergeFrom_nil S.fields m
  | cons r records ih =>
      obtain ⟨hr, hrecords⟩ := List.forall_mem_cons.mp h
      rw [List.flatMap_cons, List.foldl_cons, hr.merge, ih hrecords]

/-- The record is read. -/
def Reads (r : Record) : Prop := ∃ effect, S.Means r effect

theorem parse_records {records : List Record} (h : ∀ r ∈ records, S.Reads r) :
    (S.parse (records.flatMap Record.encode)).isSome = true := by
  have heffect : ∀ r, ∃ effect, r ∈ records → S.Means r effect := by
    intro r
    by_cases hr : r ∈ records
    · obtain ⟨effect, hmeans⟩ := h r hr
      exact ⟨effect, fun _ => hmeans⟩
    · exact ⟨id, fun hmem => absurd hmem hr⟩
  obtain ⟨effect, hmeans⟩ := Classical.axiomOfChoice heffect
  rw [parse, S.mergeFrom_records hmeans]
  rfl

/-! ## Round trip -/

/-- The values of a repeated field are read one after the other. -/
theorem mergeFrom_values {α : Type} {number : Nat} {lens : Lens M (List α)} {c : Codec α}
    (hf : Field.repeated number lens c ∈ S.fields) {as : List α} (has : ∀ a ∈ as, c.Fits a)
    (acc : M) (rest : List UInt8) :
    mergeFrom S.fields acc (as.flatMap (c.write number) ++ rest) =
      mergeFrom S.fields (lens.set (lens.get acc ++ as) acc) rest := by
  induction as generalizing acc with
  | nil => simp [lens.set_get]
  | cons a as ih =>
      obtain ⟨ha, has⟩ := List.forall_mem_cons.mp has
      have hone := S.mergeFrom_value hf (if_pos rfl) ha acc (as.flatMap (c.write number) ++ rest)
      rw [Field.number] at hone
      rw [List.flatMap_cons, List.append_assoc, hone, ih has, lens.get_set, lens.set_set,
        List.append_assoc, List.singleton_append]

/-- A field that is written into a stream is read back into a message that does
not have it yet. -/
theorem mergeFrom_write {f : Field M} (hf : f ∈ S.fields) {m acc : M} (hfresh : f.Fresh acc)
    (hfits : f.Fits m) (rest : List UInt8) :
    mergeFrom S.fields acc (f.write m ++ rest) = mergeFrom S.fields (f.copy m acc) rest := by
  cases f with
  | singular number lens c default =>
      rw [Field.write, Field.copy]
      split
      · exact S.mergeFrom_value hf (if_pos rfl) hfits acc rest
      · next hdefault =>
          have hsame : lens.get m = lens.get acc :=
            (Decidable.not_not.mp hdefault).trans hfresh.symm
          rw [hsame, lens.set_get, List.nil_append]
  | repeated number lens c =>
      have hnil : lens.get acc = [] := hfresh
      rw [Field.write, Field.copy, S.mergeFrom_values hf hfits, hnil, List.nil_append]
  | packed number lens list c write_nil size_nil =>
      have hnil : lens.get acc = [] := hfresh
      rw [Field.write, Field.copy]
      by_cases hget : lens.get m = []
      · rw [hget, write_nil, ← hnil, lens.set_get, List.nil_append]
      · have hone := S.mergeFrom_value hf (if_pos rfl) (hfits hget) acc rest
        rw [hnil, List.nil_append] at hone
        exact hone
  | optional number lens c =>
      have hnone : lens.get acc = none := hfresh
      rw [Field.Fits] at hfits
      rw [Field.write, Field.copy]
      split
      · next hget => rw [hget, ← hnone, lens.set_get, List.nil_append]
      · next a hget =>
          have hn := S.valid _ hf
          rw [Field.number] at hn
          have ha := hfits a hget
          rw [hget, c.write_eq hn ha, List.append_assoc]
          refine S.mergeFrom_arm hf (c.wireType_lt a) (if_pos rfl) ?_
          rw [hnone, c.readInto_none, c.read_image ha]
          rfl

/-- **Round trip**: a message that is written is read back. -/
theorem parse_writeTo {m : M} (h : S.Fits m) : S.parse (S.writeTo m) = some m := by
  have hloop : ∀ fields : List (Field M), (∀ f ∈ fields, f ∈ S.fields) → ∀ acc,
      Covers m fields acc → mergeFrom S.fields acc (fields.flatMap (Field.write m)) = some m := by
    intro fields hfields
    induction fields with
    | nil =>
        rintro acc rfl
        exact mergeFrom_nil S.fields acc
    | cons f fields ih =>
        rintro acc ⟨hfresh, hcovers⟩
        obtain ⟨hf, hfields⟩ := List.forall_mem_cons.mp hfields
        rw [List.flatMap_cons, S.mergeFrom_write hf hfresh (h f hf)]
        exact ih hfields _ hcovers
  exact hloop S.fields (fun _ => id) S.new (S.covers m)

end Schema

/-! ## Sizes -/

omit [Runtime] in
/-- A field adds the bytes it is written as. -/
theorem Field.addSize_eq {f : Field M} (hn : ValidNumber f.number) {m : M} (h : f.Fits m)
    (mySize : UInt64) : f.addSize m mySize = mySize + UInt64.ofNat (f.write m).length := by
  cases f with
  | singular number lens c default =>
      rw [Field.number] at hn
      rw [Field.addSize, Field.write]
      split
      · rw [c.size_write hn h]
      · simp
  | repeated number lens c =>
      rw [Field.number] at hn
      rw [Field.Fits] at h
      rw [Field.addSize, Field.write]
      generalize lens.get m = as at h ⊢
      induction as generalizing mySize with
      | nil => simp
      | cons a as ih =>
          obtain ⟨ha, has⟩ := List.forall_mem_cons.mp h
          rw [List.foldl_cons, ih _ has, c.size_write hn ha, List.flatMap_cons,
            List.length_append, UInt64.ofNat_add, UInt64.add_assoc]
  | packed number lens list c write_nil size_nil =>
      rw [Field.number] at hn
      rw [Field.addSize, Field.write]
      by_cases hget : lens.get m = []
      · rw [hget, size_nil, write_nil]
        simp
      · rw [list.size_write hn (h hget)]
  | optional number lens c =>
      rw [Field.number] at hn
      rw [Field.addSize, Field.write]
      split
      · simp
      · next a hget => rw [c.size_write hn (h a hget)]

omit [Runtime] in
/-- A singular field takes no more than its value. -/
theorem Field.length_write_singular_le {α : Type} [DecidableEq α] {number : Nat} {lens : Lens M α}
    {c : Codec α} {default : α} {m : M} {bound : Nat}
    (h : (c.write number (lens.get m)).length ≤ bound) :
    ((singular number lens c default).write m).length ≤ bound := by
  rw [Field.write]
  split
  · exact h
  · exact Nat.zero_le bound

namespace Schema

variable (S : Schema M)

omit [Runtime] in
/-- **Honest sizes**: the size is the number of bytes that are written. -/
theorem computeSize_eq {m : M} (h : S.Fits m) :
    S.computeSize m = UInt64.ofNat (S.writeTo m).length := by
  have hfold : ∀ fields : List (Field M), (∀ f ∈ fields, f ∈ S.fields) → ∀ mySize : UInt64,
      fields.foldl (fun mySize f => f.addSize m mySize) mySize =
        mySize + UInt64.ofNat (fields.flatMap (Field.write m)).length := by
    intro fields hfields
    induction fields with
    | nil => simp
    | cons f fields ih =>
        intro mySize
        obtain ⟨hf, hfields⟩ := List.forall_mem_cons.mp hfields
        rw [List.foldl_cons, ih hfields, Field.addSize_eq (S.valid f hf) (h f hf),
          List.flatMap_cons, List.length_append, UInt64.ofNat_add, UInt64.add_assoc]
  have hall := hfold S.fields (fun _ => id) 0
  rw [UInt64.zero_add] at hall
  exact hall

omit [Runtime] in
/-- A bound for each field bounds the message. -/
theorem length_writeTo_le {m : M} {bound : Nat}
    (h : ∀ f ∈ S.fields, (f.write m).length ≤ bound) :
    (S.writeTo m).length ≤ S.fields.length * bound := by
  unfold writeTo
  generalize S.fields = fields at h
  induction fields with
  | nil => simp
  | cons f fields ih =>
      obtain ⟨hf, hfields⟩ := List.forall_mem_cons.mp h
      have htail := ih hfields
      rw [List.flatMap_cons, List.length_append, List.length_cons, Nat.succ_mul]
      omega

/-! ## Submessages -/

/-- A message as the value of a field: its length, from the size computed
before, and its fields. -/
def codec : Codec M where
  wireType := 2
  write number m :=
    Runtime.writeTag number 2 ++ Runtime.writeRawVarint32 (S.computeSize m).toUInt32 ++ S.writeTo m
  size number m :=
    tagSize number + Runtime.computeRawVarint64Size (S.computeSize m) + S.computeSize m
  read is := (Runtime.readLimited is).bind fun r => (S.parse r.1).map fun m => (m, r.2)
  Fits m := S.Fits m ∧ (S.writeTo m).length < 2 ^ 32
  decidableFits m := inferInstanceAs (Decidable (S.Fits m ∧ (S.writeTo m).length < 2 ^ 32))
  image m := .delimited (S.writeTo m)
  wireType_image _ := rfl
  write_eq := by
    rintro number m hn ⟨hfits, hlt⟩
    have hlength : (UInt64.ofNat (S.writeTo m).length).toUInt32.toNat = (S.writeTo m).length := by
      rw [UInt64.toNat_toUInt32, UInt64.toNat_ofNat']
      omega
    rw [Runtime.writeTag_eq hn (by decide), Runtime.writeRawVarint32_eq, S.computeSize_eq hfits,
      hlength, List.append_assoc]
    rfl
  size_eq := by
    rintro number m hn ⟨hfits, hlt⟩
    have hlength : (UInt64.ofNat (S.writeTo m).length).toNat = (S.writeTo m).length := by
      rw [UInt64.toNat_ofNat']
      omega
    rw [Runtime.computeRawVarint64Size_eq, S.computeSize_eq hfits, hlength, Payload.encode,
      List.length_append, UInt64.ofNat_add, UInt64.add_assoc]
  read_image := by
    rintro m ⟨hfits, hlt⟩ rest
    rw [Payload.encode, Runtime.readLimited_delimited hlt, Option.bind_some,
      S.parse_writeTo hfits]
    rfl
  read_le := by
    intro is m rest h
    obtain ⟨r, hr, hparse⟩ := Option.bind_eq_some_iff.mp h
    obtain ⟨m', -, heq⟩ := Option.map_eq_some_iff.mp hparse
    obtain ⟨-, rfl⟩ := Prod.mk.inj heq
    exact Runtime.readLimited_le hr

/-- A message in a field that has one or none. -/
def slot : Slot M where
  toCodec := S.codec
  readInto old is := (Runtime.readLimited is).bind fun r =>
    (mergeFrom S.fields (Runtime.mergeTarget S.new old) r.1).map fun m => (m, r.2)
  readInto_none := by
    funext is
    rw [Runtime.mergeTarget_none]
    rfl
  readInto_le := by
    intro old is m rest h
    obtain ⟨r, hr, hparse⟩ := Option.bind_eq_some_iff.mp h
    obtain ⟨m', -, heq⟩ := Option.map_eq_some_iff.mp hparse
    obtain ⟨-, rfl⟩ := Prod.mk.inj heq
    exact Runtime.readLimited_le hr

end Schema

end

end Wire
