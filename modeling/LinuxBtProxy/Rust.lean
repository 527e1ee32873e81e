import LinuxBtProxy.Lib.Endian

/-!
# LinuxBtProxy.Rust

The parts of Rust's standard library and of the `bytes` crate that the program
rests on: panics as values, `usize` arithmetic of a 64-bit release build,
slicing and the two splits of `BytesMut`, byte orders, checked conversions and
durations.

A buffer is a `List UInt8`.  `usize` values are `Nat`s, with the wrap of an
addition written out (`usizeAdd`).
-/

namespace LinuxBtProxy

/-- Panics end the task they occur in. -/
inductive Panic where
  | sliceIndex
  | charBoundary
  | splitTo
  | splitOff
deriving Repr, DecidableEq

/-- `a + b` on a 64-bit `usize`: a release build wraps. -/
def usizeAdd (a b : Nat) : Nat := (a + b) % 2 ^ 64

/-- A sum that fits does not wrap. -/
theorem usizeAdd_of_lt {a b : Nat} (h : a + b < 2 ^ 64) : usizeAdd a b = a + b :=
  Nat.mod_eq_of_lt h

/-- `&buf[n..]`. -/
def sliceFrom (buf : List UInt8) (n : Nat) : Except Panic (List UInt8) :=
  if n ≤ buf.length then .ok (buf.drop n) else .error .sliceIndex

/-- A slice within its buffer is what follows the index. -/
theorem sliceFrom_of_le {buf : List UInt8} {n : Nat} (h : n ≤ buf.length) :
    sliceFrom buf n = .ok (buf.drop n) := if_pos h

/-- `BytesMut::split_to(n)`: the first `n` bytes, and what stays in the buffer. -/
def splitTo (buf : List UInt8) (n : Nat) : Except Panic (List UInt8 × List UInt8) :=
  if n ≤ buf.length then .ok (buf.take n, buf.drop n) else .error .splitTo

/-- A split within the buffer takes the front off. -/
theorem splitTo_of_le {buf : List UInt8} {n : Nat} (h : n ≤ buf.length) :
    splitTo buf n = .ok (buf.take n, buf.drop n) := if_pos h

/-- A split behind the end panics. -/
theorem splitTo_of_gt {buf : List UInt8} {n : Nat} (h : buf.length < n) :
    splitTo buf n = .error .splitTo := if_neg (by omega)

/-- `BytesMut::split_off(n)`: what stays in the buffer, and the bytes from `n`
on.  The bound is the capacity, which for the result of `split_to` is its
length. -/
def splitOff (buf : List UInt8) (n : Nat) : Except Panic (List UInt8 × List UInt8) :=
  if n ≤ buf.length then .ok (buf.take n, buf.drop n) else .error .splitOff

/-- A split within the buffer takes the back off. -/
theorem splitOff_of_le {buf : List UInt8} {n : Nat} (h : n ≤ buf.length) :
    splitOff buf n = .ok (buf.take n, buf.drop n) := if_pos h

/-- A split behind the end panics. -/
theorem splitOff_of_gt {buf : List UInt8} {n : Nat} (h : buf.length < n) :
    splitOff buf n = .error .splitOff := if_neg (by omega)

/-! ## Integers -/

/-- `u16::from_be_bytes`. -/
def u16FromBeBytes (bytes : List UInt8) : UInt16 := UInt16.ofNat (Endian.beValue bytes)

/-- `u32::from_be_bytes`. -/
def u32FromBeBytes (bytes : List UInt8) : UInt32 := UInt32.ofNat (Endian.beValue bytes)

/-- `u16::to_le_bytes`. -/
def u16ToLeBytes (v : UInt16) : List UInt8 := Endian.leBytes 2 v.toNat

/-- `u32::to_le_bytes`. -/
def u32ToLeBytes (v : UInt32) : List UInt8 := Endian.leBytes 4 v.toNat

/-- `i8::try_from(v).ok()`. -/
def i8TryFrom (v : Int16) : Option Int8 :=
  if -128 ≤ v.toInt ∧ v.toInt ≤ 127 then some (Int8.ofInt v.toInt) else none

/-- The conversion keeps the value. -/
theorem i8TryFrom_eq_some_iff {v : Int16} {level : Int8} :
    i8TryFrom v = some level ↔ v.toInt = level.toInt := by
  have hle := level.le_toInt
  have hlt := level.toInt_lt
  unfold i8TryFrom
  split
  · next h =>
      have hof : (Int8.ofInt v.toInt).toInt = v.toInt :=
        Int8.toInt_ofInt_of_le (by omega) (by omega)
      rw [Option.some.injEq, ← Int8.toInt_inj, hof]
  · next h =>
      constructor
      · intro hn
        simp at hn
      · intro heq
        omega

/-- Reading big-endian and writing little-endian reverses two bytes. -/
theorem u16ToLeBytes_fromBeBytes {bytes : List UInt8} (h : bytes.length = 2) :
    u16ToLeBytes (u16FromBeBytes bytes) = bytes.reverse := by
  have hlt : Endian.beValue bytes < 2 ^ 16 := by
    have hbound := Endian.beValue_lt bytes
    rw [h] at hbound
    exact hbound
  have htrip := Endian.leBytes_beValue bytes
  rw [h] at htrip
  rw [u16ToLeBytes, u16FromBeBytes, UInt16.toNat_ofNat', Nat.mod_eq_of_lt hlt, htrip]

/-- Reading big-endian and writing little-endian reverses four bytes. -/
theorem u32ToLeBytes_fromBeBytes {bytes : List UInt8} (h : bytes.length = 4) :
    u32ToLeBytes (u32FromBeBytes bytes) = bytes.reverse := by
  have hlt : Endian.beValue bytes < 2 ^ 32 := by
    have hbound := Endian.beValue_lt bytes
    rw [h] at hbound
    exact hbound
  have htrip := Endian.leBytes_beValue bytes
  rw [h] at htrip
  rw [u32ToLeBytes, u32FromBeBytes, UInt32.toNat_ofNat', Nat.mod_eq_of_lt hlt, htrip]

/-! ## Durations -/

/-- `std::time::Duration`, in nanoseconds; its seconds are a `u64`. -/
structure Duration where
  nanos : Nat
  bound : nanos < 2 ^ 64 * 10 ^ 9
deriving DecidableEq

namespace Duration

/-- Durations are the same when their nanoseconds are. -/
theorem ext {a b : Duration} (h : a.nanos = b.nanos) : a = b := by
  cases a
  cases b
  simpa using h

instance : LE Duration := ⟨fun a b => a.nanos ≤ b.nanos⟩

instance (a b : Duration) : Decidable (a ≤ b) :=
  inferInstanceAs (Decidable (a.nanos ≤ b.nanos))

instance : Min Duration := ⟨fun a b => if a ≤ b then a else b⟩

/-- The shorter duration has the fewer nanoseconds. -/
theorem nanos_min (a b : Duration) : (min a b).nanos = min a.nanos b.nanos := by
  show (if a.nanos ≤ b.nanos then a else b).nanos = _
  split <;> omega

/-- `Duration::from_secs`. -/
def fromSecs (secs : UInt64) : Duration where
  nanos := secs.toNat * 10 ^ 9
  bound := Nat.mul_lt_mul_of_pos_right secs.toNat_lt (by decide)

/-- `Duration::as_secs`: whole seconds. -/
def asSecs (d : Duration) : UInt64 := UInt64.ofNat (d.nanos / 10 ^ 9)

/-- Whole seconds are read back. -/
theorem asSecs_fromSecs (secs : UInt64) : (fromSecs secs).asSecs = secs := by
  rw [asSecs, fromSecs, Nat.mul_div_cancel _ (by decide), UInt64.ofNat_toNat]

/-- `d * n`; `none` stands for the panic of an overflow. -/
def mul (d : Duration) (n : UInt32) : Option Duration :=
  if h : d.nanos * n.toNat < 2 ^ 64 * 10 ^ 9 then some ⟨d.nanos * n.toNat, h⟩ else none

/-- A product that fits does not panic. -/
theorem mul_of_lt {d : Duration} {n : UInt32} (h : d.nanos * n.toNat < 2 ^ 64 * 10 ^ 9) :
    d.mul n = some ⟨d.nanos * n.toNat, h⟩ := dif_pos h

/-- `d / n`, for `n` that is not zero. -/
def div (d : Duration) (n : UInt32) : Duration where
  nanos := d.nanos / n.toNat
  bound := Nat.lt_of_le_of_lt (Nat.div_le_self _ _) d.bound

end Duration

end LinuxBtProxy
