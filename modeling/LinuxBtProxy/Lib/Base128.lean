import Mathlib.Algebra.Group.Nat.Defs

/-!
# LinuxBtProxy.Lib.Base128

Little-endian base-128 numerals: every byte carries seven bits of the number
and, in its top bit, whether another byte follows.  This module is about byte
strings only:

* a string is `Continued` when every byte announces a successor, `Terminated`
  when its last byte is the first that does not;
* `value` is the number the seven-bit groups spell, and `groupSum` the same
  number as a weighted sum over the first bytes of a buffer;
* `numeral n` is the shortest terminated string that spells `n`.

Terminated strings are prefix-free (`terminated_append_inj`), which is what
lets a reader find the end of one inside a longer buffer.
-/

namespace Base128

/-! ## Strings of groups -/

/-- The number spelled by a string of seven-bit groups, least significant
group first. -/
def value : List UInt8 → Nat
  | [] => 0
  | b :: bs => b.toNat % 128 + 128 * value bs

/-- Every byte announces a successor. -/
def Continued (bs : List UInt8) : Prop := ∀ b ∈ bs, 128 ≤ b.toNat

/-- The last byte is the first one that announces no successor. -/
def Terminated : List UInt8 → Prop
  | [] => False
  | b :: bs => if b.toNat < 128 then bs = [] else Terminated bs

instance decidableContinued (bs : List UInt8) : Decidable (Continued bs) :=
  inferInstanceAs (Decidable (∀ b ∈ bs, 128 ≤ b.toNat))

instance decidableTerminated : (bs : List UInt8) → Decidable (Terminated bs)
  | [] => isFalse id
  | b :: bs =>
      if h : b.toNat < 128 then
        decidable_of_iff (bs = []) (by rw [Terminated, if_pos h])
      else
        have := decidableTerminated bs
        decidable_of_iff (Terminated bs) (by rw [Terminated, if_neg h])

/-- No groups have the value zero. -/
@[simp] theorem value_nil : value [] = 0 := rfl

/-- The first group is the least significant one. -/
@[simp] theorem value_cons (b : UInt8) (bs : List UInt8) :
    value (b :: bs) = b.toNat % 128 + 128 * value bs := rfl

@[simp] theorem continued_nil : Continued [] := by simp [Continued]

/-- Bytes that go on begin with one that does. -/
@[simp] theorem continued_cons (b : UInt8) (bs : List UInt8) :
    Continued (b :: bs) ↔ 128 ≤ b.toNat ∧ Continued bs := by
  simp [Continued]

/-- A numeral has a byte. -/
@[simp] theorem not_terminated_nil : ¬ Terminated [] := id

/-- A byte without the continuation bit is the last. -/
theorem terminated_cons_of_lt {b : UInt8} {bs : List UInt8} (h : b.toNat < 128) :
    Terminated (b :: bs) ↔ bs = [] := by
  rw [Terminated, if_pos h]

/-- A byte with the continuation bit is not the last. -/
theorem terminated_cons_of_ge {b : UInt8} {bs : List UInt8} (h : 128 ≤ b.toNat) :
    Terminated (b :: bs) ↔ Terminated bs := by
  rw [Terminated, if_neg (by omega)]

/-! ## Lengths and bounds -/

/-- A numeral has a byte. -/
theorem length_pos_of_terminated {bs : List UInt8} (h : Terminated bs) : 0 < bs.length := by
  cases bs with
  | nil => exact absurd h not_terminated_nil
  | cons b bs => simp

/-- `k` groups spell a number below `128 ^ k`. -/
theorem value_lt (bs : List UInt8) : value bs < 128 ^ bs.length := by
  induction bs with
  | nil => simp
  | cons b bs ih =>
      have hb : b.toNat % 128 < 128 := Nat.mod_lt _ (by decide)
      rw [value_cons, List.length_cons, Nat.pow_succ]
      omega

/-- The groups behind a front count by its length. -/
theorem value_append (xs ys : List UInt8) :
    value (xs ++ ys) = value xs + 128 ^ xs.length * value ys := by
  induction xs with
  | nil => simp
  | cons x xs ih =>
      simp only [List.cons_append, value_cons, ih, List.length_cons, Nat.pow_succ]
      rw [Nat.mul_add, ← Nat.mul_assoc, Nat.mul_comm 128 (128 ^ xs.length), Nat.add_assoc]

/-- The first `n` groups of a buffer, each weighted by its position. -/
def groupSum (bs : List UInt8) : Nat → Nat
  | 0 => 0
  | n + 1 => groupSum bs n + (bs.getD n 0).toNat % 128 * 2 ^ (7 * n)

/-- The sum of the first groups is their value. -/
theorem groupSum_eq_value (bs : List UInt8) (n : Nat) : groupSum bs n = value (bs.take n) := by
  induction n with
  | zero => simp [groupSum]
  | succ n ih =>
      have hpow : 2 ^ (7 * n) = 128 ^ n := Nat.pow_mul 2 7 n
      rw [groupSum, ih, List.take_add_one, value_append, List.getD_eq_getElem?_getD]
      by_cases hn : n < bs.length
      · rw [List.getElem?_eq_getElem hn, List.length_take, Nat.min_eq_left (by omega), hpow]
        simp [Nat.mul_comm]
      · rw [List.getElem?_eq_none (by omega)]
        simp

/-- The sum up to a closing byte: the groups before it, and its own on top. -/
theorem groupSum_closing (init : List UInt8) {last : UInt8} (rest : List UInt8)
    (hlast : last.toNat < 128) :
    groupSum (init ++ last :: rest) (init.length + 1) =
      value init + 128 ^ init.length * last.toNat := by
  rw [groupSum_eq_value, List.take_length_add_append, List.take_succ_cons, List.take_zero,
    value_append, value_cons, value_nil, Nat.mod_eq_of_lt hlast, Nat.mul_zero, Nat.add_zero]

/-! ## The end of a numeral is determined by its bytes -/

/-- No terminated string is a prefix of another: two readings of one buffer
agree on the numeral and on what follows it. -/
theorem terminated_append_inj {v w r s : List UInt8} (hv : Terminated v) (hw : Terminated w)
    (h : v ++ r = w ++ s) : v = w ∧ r = s := by
  induction v generalizing w with
  | nil => exact absurd hv not_terminated_nil
  | cons b v ih =>
      cases w with
      | nil => exact absurd hw not_terminated_nil
      | cons c w =>
          rw [List.cons_append, List.cons_append, List.cons.injEq] at h
          obtain ⟨rfl, htail⟩ := h
          by_cases hb : b.toNat < 128
          · rw [terminated_cons_of_lt hb] at hv hw
            subst hv hw
            exact ⟨rfl, htail⟩
          · rw [terminated_cons_of_ge (by omega)] at hv hw
            obtain ⟨rfl, hrs⟩ := ih hv hw htail
            exact ⟨rfl, hrs⟩

/-- A terminated string does not continue, whatever follows. -/
theorem not_continued_append {w : List UInt8} (rest : List UInt8) (hw : Terminated w) :
    ¬ Continued (w ++ rest) := by
  induction w with
  | nil => exact absurd hw not_terminated_nil
  | cons b w ih =>
      by_cases hb : b.toNat < 128
      · simp only [List.cons_append, continued_cons]
        omega
      · rw [terminated_cons_of_ge (by omega)] at hw
        simp only [List.cons_append, continued_cons]
        exact fun h => ih hw h.2

/-- A buffer either still continues or starts with a terminated string. -/
theorem continued_or_terminated (bs : List UInt8) :
    Continued bs ∨ ∃ w rest, bs = w ++ rest ∧ Terminated w := by
  induction bs with
  | nil => exact Or.inl continued_nil
  | cons b bs ih =>
      by_cases hb : b.toNat < 128
      · exact Or.inr ⟨[b], bs, rfl, (terminated_cons_of_lt hb).mpr rfl⟩
      · have hge : 128 ≤ b.toNat := by omega
        cases ih with
        | inl hc => exact Or.inl ((continued_cons b bs).mpr ⟨hge, hc⟩)
        | inr ht =>
            obtain ⟨w, rest, rfl, hw⟩ := ht
            exact Or.inr ⟨b :: w, rest, rfl, (terminated_cons_of_ge hge).mpr hw⟩

/-- Every proper prefix of a terminated string continues. -/
theorem continued_take {w : List UInt8} {r : Nat} (hw : Terminated w) (hr : r < w.length) :
    Continued (w.take r) := by
  induction w generalizing r with
  | nil => exact absurd hw not_terminated_nil
  | cons b w ih =>
      cases r with
      | zero => simp
      | succ r =>
          by_cases hb : b.toNat < 128
          · rw [terminated_cons_of_lt hb] at hw
            simp [hw] at hr
          · rw [terminated_cons_of_ge (by omega)] at hw
            rw [List.take_succ_cons, continued_cons]
            exact ⟨by omega, ih hw (by simpa using hr)⟩

/-- A continued string is closed by any byte without the top bit. -/
theorem terminated_append_singleton {bs : List UInt8} {b : UInt8} (hbs : Continued bs)
    (hb : b.toNat < 128) : Terminated (bs ++ [b]) := by
  induction bs with
  | nil => exact (terminated_cons_of_lt hb).mpr rfl
  | cons c bs ih =>
      rw [continued_cons] at hbs
      rw [List.cons_append, terminated_cons_of_ge hbs.1]
      exact ih hbs.2

/-- A terminated string is a continued one and the byte that closes it. -/
theorem exists_of_terminated {w : List UInt8} (hw : Terminated w) :
    ∃ init last, w = init ++ [last] ∧ Continued init ∧ last.toNat < 128 := by
  induction w with
  | nil => exact absurd hw not_terminated_nil
  | cons b w ih =>
      by_cases hb : b.toNat < 128
      · rw [terminated_cons_of_lt hb] at hw
        subst hw
        exact ⟨[], b, rfl, continued_nil, hb⟩
      · rw [terminated_cons_of_ge (by omega)] at hw
        obtain ⟨init, last, rfl, hinit, hlast⟩ := ih hw
        exact ⟨b :: init, last, rfl, (continued_cons b init).mpr ⟨by omega, hinit⟩, hlast⟩

/-- Byte `n - 1` of the buffer is the first one that announces no successor. -/
def EndsAt (bs : List UInt8) (n : Nat) : Prop :=
  ∃ init last rest, bs = init ++ last :: rest ∧ Continued init ∧ last.toNat < 128 ∧
    n = init.length + 1

/-- Where the first numeral ends. -/
theorem endsAt_iff {bs : List UInt8} {n : Nat} :
    EndsAt bs n ↔ ∃ w rest, bs = w ++ rest ∧ Terminated w ∧ n = w.length := by
  constructor
  · rintro ⟨init, last, rest, rfl, hinit, hlast, rfl⟩
    exact ⟨init ++ [last], rest, by simp, terminated_append_singleton hinit hlast, by simp⟩
  · rintro ⟨w, rest, rfl, hw, rfl⟩
    obtain ⟨init, last, rfl, hinit, hlast⟩ := exists_of_terminated hw
    exact ⟨init, last, rest, by simp, hinit, hlast, by simp⟩

/-- A numeral that starts with a continued string outlasts it. -/
theorem length_lt_of_continued {bs w r s : List UInt8} (hbs : Continued bs) (hw : Terminated w)
    (h : bs ++ r = w ++ s) : bs.length < w.length := by
  rcases Nat.lt_or_ge bs.length w.length with hlt | hge
  · exact hlt
  · have hsplit : bs = w ++ bs.drop w.length := by
      have htake := congrArg (List.take bs.length) h
      rw [List.take_left, List.take_append, List.take_of_length_le hge] at htake
      have hdrop := congrArg (List.drop w.length) htake
      rw [List.drop_left] at hdrop
      rw [hdrop]
      exact htake
    rw [hsplit] at hbs
    exact absurd hbs (not_continued_append _ hw)

/-! ## The shortest numeral -/

/-- The shortest terminated string that spells `n`. -/
def numeral (n : Nat) : List UInt8 :=
  if n < 128 then [UInt8.ofNat n] else UInt8.ofNat (n % 128 + 128) :: numeral (n / 128)
termination_by n
decreasing_by omega

/-- A number below 128 takes one byte. -/
theorem numeral_of_lt {n : Nat} (h : n < 128) : numeral n = [UInt8.ofNat n] := by
  rw [numeral, if_pos h]

/-- A larger number goes on behind its lowest group. -/
theorem numeral_of_ge {n : Nat} (h : 128 ≤ n) :
    numeral n = UInt8.ofNat (n % 128 + 128) :: numeral (n / 128) := by
  rw [numeral, if_neg (by omega)]

/-- A numeral ends with its last byte. -/
theorem terminated_numeral (n : Nat) : Terminated (numeral n) := by
  induction n using numeral.induct with
  | case1 n h =>
      rw [numeral_of_lt h]
      exact (terminated_cons_of_lt (by simp; omega)).mpr rfl
  | case2 n h ih =>
      rw [numeral_of_ge (by omega)]
      exact (terminated_cons_of_ge (by simp; omega)).mpr ih

/-- A numeral has the value it was written for. -/
@[simp] theorem value_numeral (n : Nat) : value (numeral n) = n := by
  induction n using numeral.induct with
  | case1 n h =>
      rw [numeral_of_lt h]
      simp
      omega
  | case2 n h ih =>
      rw [numeral_of_ge (by omega), value_cons, ih]
      simp
      omega

/-- Numbers below `128 ^ k` fit `k` groups. -/
theorem length_numeral_le {n k : Nat} (hk : 0 < k) (h : n < 128 ^ k) :
    (numeral n).length ≤ k := by
  induction n using numeral.induct generalizing k with
  | case1 n hn =>
      rw [numeral_of_lt hn]
      simp only [List.length_singleton]; omega
  | case2 n hn ih =>
      obtain ⟨k, rfl⟩ : ∃ j, k = j + 1 := ⟨k - 1, by omega⟩
      have hpos : 0 < k := by
        rcases Nat.eq_zero_or_pos k with rfl | hk0
        · simp at h; omega
        · exact hk0
      have hdiv : n / 128 < 128 ^ k := by
        rw [Nat.div_lt_iff_lt_mul (by decide), ← Nat.pow_succ]
        exact h
      rw [numeral_of_ge (by omega), List.length_cons]
      exact Nat.succ_le_succ (ih hpos hdiv)

/-- No terminated string that spells `n` is shorter than `numeral n`. -/
theorem length_numeral_value_le {w : List UInt8} (hw : Terminated w) :
    (numeral (value w)).length ≤ w.length :=
  length_numeral_le (length_pos_of_terminated hw) (value_lt w)

/-- Numerals of smaller numbers are no longer. -/
theorem length_numeral_mono {m n : Nat} (h : m ≤ n) :
    (numeral m).length ≤ (numeral n).length := by
  have hlt := value_lt (numeral n)
  rw [value_numeral] at hlt
  exact length_numeral_le (length_pos_of_terminated (terminated_numeral n)) (by omega)

end Base128
