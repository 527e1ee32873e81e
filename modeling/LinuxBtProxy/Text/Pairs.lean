import LinuxBtProxy.Text.Hex

/-!
# LinuxBtProxy.Text.Pairs

Hexadecimal text read two bytes at a time.  `readPairs` reads the text by
characters; a reader that slices by byte positions agrees with it until a
position falls inside a character (`SplitsChar`, `slice_cases`).
-/

namespace LinuxBtProxy

/-! ## Text of one-byte characters -/

/-- Every character takes one byte. -/
def OneByte (s : List Char) : Prop := ∀ c ∈ s, c.utf8Size = 1

/-- A text of one-byte characters begins with one. -/
theorem OneByte.cons_iff {c : Char} {s : List Char} :
    OneByte (c :: s) ↔ c.utf8Size = 1 ∧ OneByte s := List.forall_mem_cons

/-- One-byte characters are as many as the bytes. -/
theorem utf8Len_of_oneByte {s : List Char} (h : OneByte s) : utf8Len s = s.length := by
  unfold utf8Len
  induction s with
  | nil => rfl
  | cons c s ih =>
      obtain ⟨hc, hs⟩ := OneByte.cons_iff.mp h
      have ih := ih hs
      simp only [List.map_cons, List.sum_cons, hc, ih, List.length_cons]
      omega

/-! ## Pairs of digits -/

/-- The bytes of the pairs of characters, if every pair is a number. -/
def readPairs : List Char → Option (List UInt8)
  | [] => some []
  | [_] => none
  | a :: b :: rest => do
      let byte ← fromStrRadix16 [a, b]
      let bytes ← readPairs rest
      return byte :: bytes

/-- Behind pairs that are numbers, two bytes that do not end with a character:
the first character is longer, or the second one sticks out. -/
inductive SplitsChar : List Char → Prop
  | wide {c rest} (hc : 3 ≤ c.utf8Size) : SplitsChar (c :: rest)
  | cut {c d rest} (hc : c.utf8Size = 1) (hd : 2 ≤ d.utf8Size) : SplitsChar (c :: d :: rest)
  | pair {a b rest byte} (hbyte : fromStrRadix16 [a, b] = some byte) (h : SplitsChar rest) :
      SplitsChar (a :: b :: rest)

/-- Two characters are a number when the second is a digit and the first a digit
or a sign. -/
theorem fromStrRadix16_pair_isSome_iff (a b : Char) :
    (fromStrRadix16 [a, b]).isSome ↔ (a = '+' ∨ IsHex a) ∧ IsHex b := by
  rw [Option.isSome_iff_exists]
  constructor
  · rintro ⟨byte, h⟩
    obtain ⟨digits, rfl | hcons, -, hall, -⟩ := fromStrRadix16_eq_some_iff.mp h
    · exact ⟨.inr (hall a (by simp)), hall b (by simp)⟩
    · obtain ⟨rfl, rfl⟩ := List.cons.inj hcons
      exact ⟨.inl rfl, hall b (by simp)⟩
  · rintro ⟨rfl | ha, hb⟩
    · have hlt := digitValue_lt hb
      refine ⟨UInt8.ofNat (digitValue b), fromStrRadix16_eq_some_iff.mpr
        ⟨[b], .inr rfl, by simp, by simpa [AllHex] using hb, ?_⟩⟩
      rw [UInt8.toNat_ofNat']
      simp [hexValue, hexValueFrom]
      omega
    · have hlta := digitValue_lt ha
      have hltb := digitValue_lt hb
      refine ⟨UInt8.ofNat (digitValue a * 16 + digitValue b), fromStrRadix16_digits ha hb ?_⟩
      rw [UInt8.toNat_ofNat']
      omega

/-- The characters of a number take one byte each. -/
theorem utf8Size_of_pair {a b : Char} {byte : UInt8} (h : fromStrRadix16 [a, b] = some byte) :
    a.utf8Size = 1 ∧ b.utf8Size = 1 := by
  have hpair := (fromStrRadix16_pair_isSome_iff a b).mp (by rw [h]; rfl)
  obtain ⟨rfl | ha, hb⟩ := hpair
  · exact ⟨by decide, utf8Size_of_ascii (toNat_lt_of_isHex hb)⟩
  · exact ⟨utf8Size_of_ascii (toNat_lt_of_isHex ha), utf8Size_of_ascii (toNat_lt_of_isHex hb)⟩

/-- A text that is read is a list of pairs. -/
theorem readPairs_cons_eq_some_iff {a b : Char} {rest : List Char} {bytes : List UInt8} :
    readPairs (a :: b :: rest) = some bytes ↔
      ∃ byte later, fromStrRadix16 [a, b] = some byte ∧ readPairs rest = some later ∧
        bytes = byte :: later := by
  cases hbyte : fromStrRadix16 [a, b] with
  | none => simp [readPairs, hbyte]
  | some byte =>
      cases hrest : readPairs rest with
      | none => simp [readPairs, hbyte, hrest]
      | some later => simp [readPairs, hbyte, hrest, eq_comm]

/-- Bytes that are written in hexadecimal are read back. -/
theorem readPairs_hexText (bytes : List UInt8) : readPairs (hexText bytes) = some bytes := by
  induction bytes with
  | nil => rfl
  | cons b bytes ih =>
      have hbyte := fromStrRadix16_lowerHex2 b
      rw [hexText_cons]
      exact readPairs_cons_eq_some_iff.mpr ⟨b, bytes, hbyte, ih, rfl⟩

/-- Pairs are read from the front. -/
theorem readPairs_append {pre : List Char} {bytes : List UInt8} (h : readPairs pre = some bytes)
    (rest : List Char) : readPairs (pre ++ rest) = (readPairs rest).map (bytes ++ ·) := by
  induction pre using readPairs.induct generalizing bytes with
  | case1 =>
      obtain rfl : [] = bytes := by simpa [readPairs] using h
      simp
  | case2 c => simp [readPairs] at h
  | case3 a b pre ih =>
      obtain ⟨byte, later, hbyte, hpre, rfl⟩ := readPairs_cons_eq_some_iff.mp h
      have htail := ih hpre
      cases hrest : readPairs rest <;> simp [readPairs, hbyte, htail, hrest]

/-- A pair that was read is two bytes. -/
theorem utf8Len_of_readPairs {pre : List Char} {bytes : List UInt8}
    (h : readPairs pre = some bytes) : utf8Len pre = 2 * bytes.length := by
  induction pre using readPairs.induct generalizing bytes with
  | case1 =>
      obtain rfl : [] = bytes := by simpa [readPairs] using h
      rfl
  | case2 c => simp [readPairs] at h
  | case3 a b pre ih =>
      obtain ⟨byte, later, hbyte, hpre, rfl⟩ := readPairs_cons_eq_some_iff.mp h
      obtain ⟨ha, hb⟩ := utf8Size_of_pair hbyte
      have htail := ih hpre
      simp only [utf8Len, List.map_cons, List.sum_cons, ha, hb, List.length_cons] at htail ⊢
      omega

/-- A pair that was read is two characters. -/
theorem length_of_readPairs {s : List Char} {bytes : List UInt8} (h : readPairs s = some bytes) :
    s.length = 2 * bytes.length := by
  induction s using readPairs.induct generalizing bytes with
  | case1 =>
      obtain rfl : [] = bytes := by simpa [readPairs] using h
      rfl
  | case2 c => simp [readPairs] at h
  | case3 a b rest ih =>
      obtain ⟨byte, later, hbyte, hrest, rfl⟩ := readPairs_cons_eq_some_iff.mp h
      have htail := ih hrest
      simp only [List.length_cons, htail]
      omega

/-- Every pair is a digit, or a sign, and a digit. -/
def SignedPairs : List Char → Prop
  | [] => True
  | [_] => False
  | a :: b :: rest => (a = '+' ∨ IsHex a) ∧ IsHex b ∧ SignedPairs rest

/-- What is read in pairs: digits, each pair with a sign for its first one or not.
-/
theorem readPairs_isSome_iff (s : List Char) : (readPairs s).isSome ↔ SignedPairs s := by
  induction s using readPairs.induct with
  | case1 => simp [readPairs, SignedPairs]
  | case2 c => simp [readPairs, SignedPairs]
  | case3 a b rest ih =>
      have hpair := fromStrRadix16_pair_isSome_iff a b
      rw [SignedPairs, ← and_assoc, ← hpair, ← ih]
      cases hbyte : fromStrRadix16 [a, b] with
      | none => simp [readPairs, hbyte]
      | some byte => cases hrest : readPairs rest <;> simp [readPairs, hbyte, hrest]

/-- Digits are signed pairs without a sign. -/
theorem allHex_iff_signedPairs {s : List Char} (h : s.length % 2 = 0) :
    AllHex s ↔ SignedPairs s ∧ '+' ∉ s := by
  induction s using readPairs.induct with
  | case1 => simp [AllHex, SignedPairs]
  | case2 c => simp at h
  | case3 a b rest ih =>
      rw [List.length_cons, List.length_cons] at h
      rw [allHex_cons, allHex_cons, ih (by omega), SignedPairs, List.mem_cons, List.mem_cons]
      constructor
      · rintro ⟨ha, hb, hrest, hplus⟩
        refine ⟨⟨.inr ha, hb, hrest⟩, ?_⟩
        rintro (rfl | rfl | hmem)
        · exact not_isHex_plus ha
        · exact not_isHex_plus hb
        · exact hplus hmem
      · rintro ⟨⟨ha, hb, hrest⟩, hplus⟩
        refine ⟨?_, hb, hrest, fun hmem => hplus (.inr (.inr hmem))⟩
        rcases ha with rfl | ha
        · exact absurd (.inl rfl) hplus
        · exact ha

/-- The bytes that pairs of digits spell. -/
def spelledBytes : List Char → List UInt8
  | a :: b :: rest => UInt8.ofNat (digitValue a * 16 + digitValue b) :: spelledBytes rest
  | _ => []

/-- Pairs of digits are read as the bytes they spell. -/
theorem readPairs_eq_spelledBytes {s : List Char} {bytes : List UInt8} (hs : AllHex s)
    (h : readPairs s = some bytes) : bytes = spelledBytes s := by
  induction s using readPairs.induct generalizing bytes with
  | case1 => simpa [readPairs, spelledBytes, eq_comm] using h
  | case2 c => simp [readPairs] at h
  | case3 a b rest ih =>
      obtain ⟨ha, hb, hrest⟩ := by simpa only [allHex_cons] using hs
      obtain ⟨byte, later, hbyte, hlater, rfl⟩ := readPairs_cons_eq_some_iff.mp h
      rw [spelledBytes, ih hrest hlater]
      obtain ⟨digits, rfl | hcons, -, -, hvalue⟩ := fromStrRadix16_eq_some_iff.mp hbyte
      · rw [hexValue_pair] at hvalue
        rw [hvalue, UInt8.ofNat_toNat]
      · obtain ⟨rfl, -⟩ := List.cons.inj hcons
        exact absurd ha not_isHex_plus

/-! ## Split characters -/

/-- A pair that is read changes nothing about what splits behind it. -/
theorem splitsChar_pair_iff {a b : Char} {rest : List Char} {byte : UInt8}
    (h : fromStrRadix16 [a, b] = some byte) : SplitsChar (a :: b :: rest) ↔ SplitsChar rest := by
  obtain ⟨ha, hb⟩ := utf8Size_of_pair h
  constructor
  · intro hsplit
    cases hsplit with
    | wide hc => omega
    | cut hc hd => omega
    | pair _ hrest => exact hrest
  · exact .pair h

/-- Pairs that are read change nothing about what splits behind them. -/
theorem splitsChar_append_iff {pre : List Char} {bytes : List UInt8}
    (h : readPairs pre = some bytes) (rest : List Char) :
    SplitsChar (pre ++ rest) ↔ SplitsChar rest := by
  induction pre using readPairs.induct generalizing bytes with
  | case1 => rfl
  | case2 c => simp [readPairs] at h
  | case3 a b pre ih =>
      obtain ⟨byte, later, hbyte, hpre, rfl⟩ := readPairs_cons_eq_some_iff.mp h
      rw [List.cons_append, List.cons_append, splitsChar_pair_iff hbyte, ih hpre]

/-- No character is split in an empty text. -/
theorem not_splitsChar_nil : ¬ SplitsChar [] := by
  intro h
  cases h

/-- No character is split in a text that is read in pairs. -/
theorem not_splitsChar_of_readPairs {s : List Char} {bytes : List UInt8}
    (h : readPairs s = some bytes) : ¬ SplitsChar s := by
  have hiff := splitsChar_append_iff h []
  rw [List.append_nil] at hiff
  exact mt hiff.mp not_splitsChar_nil

/-! ## Slices of two bytes -/

/-- Lengths in bytes add up. -/
theorem utf8Len_append (s t : List Char) : utf8Len (s ++ t) = utf8Len s + utf8Len t := by
  simp [utf8Len]

/-- Only the empty text has no bytes. -/
theorem utf8Len_eq_zero {s : List Char} (h : utf8Len s = 0) : s = [] := by
  cases s with
  | nil => rfl
  | cons c s =>
      have hpos := Char.utf8Size_pos c
      simp [utf8Len] at h
      omega

/-- Dropping the bytes of a front leaves the rest. -/
theorem dropUtf8_append (pre rest : List Char) :
    dropUtf8 (utf8Len pre) (pre ++ rest) = some rest := by
  induction pre with
  | nil => cases rest <;> simp [utf8Len, dropUtf8]
  | cons c pre ih =>
      have hpos := Char.utf8Size_pos c
      have hlen : utf8Len (c :: pre) = c.utf8Size + utf8Len pre := by simp [utf8Len]
      rw [hlen, List.cons_append, dropUtf8, if_neg (by omega), if_pos (by omega),
        Nat.add_sub_cancel_left, ih]

/-- The slice of the next `n` bytes is the text that they are. -/
theorem strSlice_append_of_take (pre : List Char) {rest slice : List Char} {n : Nat}
    (h : takeUtf8 n rest = some slice) :
    strSlice (pre ++ rest) (utf8Len pre) (utf8Len pre + n) = .ok slice := by
  rw [strSlice, dropUtf8_append, Option.bind_some, Nat.add_sub_cancel_left, h]

/-- A slice that ends inside a character panics. -/
theorem strSlice_append_of_cut (pre : List Char) {rest : List Char} {n : Nat}
    (h : takeUtf8 n rest = none) :
    strSlice (pre ++ rest) (utf8Len pre) (utf8Len pre + n) = .error .charBoundary := by
  rw [strSlice, dropUtf8_append, Option.bind_some, Nat.add_sub_cancel_left, h]

/-- No bytes are the empty text. -/
theorem takeUtf8_zero (s : List Char) : takeUtf8 0 s = some [] := by
  cases s <;> simp [takeUtf8]

/-- A character within the bytes is taken. -/
theorem takeUtf8_cons {c : Char} {n : Nat} (hc : c.utf8Size ≤ n) (s : List Char) :
    takeUtf8 n (c :: s) = (takeUtf8 (n - c.utf8Size) s).map (c :: ·) := by
  have hpos := Char.utf8Size_pos c
  rw [takeUtf8, if_neg (by omega), if_pos hc]

/-- A character longer than the bytes is cut. -/
theorem takeUtf8_cons_of_lt {c : Char} {n : Nat} (hn : 0 < n) (hc : n < c.utf8Size)
    (s : List Char) : takeUtf8 n (c :: s) = none := by
  rw [takeUtf8, if_neg (by omega), if_neg (by omega)]

/-- A text that starts with a longer character is no number. -/
theorem fromStrRadix16_of_wide {c : Char} (hc : 2 ≤ c.utf8Size) (s : List Char) :
    fromStrRadix16 (c :: s) = none := by
  rw [Option.eq_none_iff_forall_ne_some]
  intro byte h
  obtain ⟨digits, rfl | hcons, -, hall, -⟩ := fromStrRadix16_eq_some_iff.mp h
  · have h1 := utf8Size_of_ascii (toNat_lt_of_isHex (hall c (by simp)))
    omega
  · obtain ⟨rfl, -⟩ := List.cons.inj hcons
    exact absurd hc (by decide)

/-- A text whose first two characters are no number is not read, and no slice
behind them is made. -/
theorem stops_of_no_pair {c : Char} {rest : List Char} (hwide : c.utf8Size ≤ 2)
    (hcut : ∀ d tail, rest = d :: tail →
      fromStrRadix16 [c, d] = none ∧ (c.utf8Size = 1 → d.utf8Size = 1)) :
    ¬ SplitsChar (c :: rest) ∧ readPairs (c :: rest) = none := by
  constructor
  · intro h
    cases h with
    | wide hc => omega
    | cut hc hd =>
        have h1 := (hcut _ _ rfl).2 hc
        omega
    | pair hbyte _ =>
        rw [(hcut _ _ rfl).1] at hbyte
        contradiction
  · cases rest with
    | nil => rfl
    | cons d tail => simp [readPairs, (hcut d tail rfl).1]

/-- Two bytes of a text: the slice cuts a character, it is no number, or it is a
pair of characters that is one. -/
theorem slice_cases (rest : List Char) (h : 2 ≤ utf8Len rest) :
    (takeUtf8 2 rest = none ∧ SplitsChar rest) ∨
      (∃ slice, takeUtf8 2 rest = some slice ∧ fromStrRadix16 slice = none ∧
        ¬ SplitsChar rest ∧ readPairs rest = none) ∨
      ∃ a b tail byte, rest = a :: b :: tail ∧ takeUtf8 2 rest = some [a, b] ∧
        fromStrRadix16 [a, b] = some byte := by
  cases rest with
  | nil => simp [utf8Len] at h
  | cons c rest =>
      have hpos := Char.utf8Size_pos c
      have hsize : 3 ≤ c.utf8Size ∨ c.utf8Size = 2 ∨ c.utf8Size = 1 := by omega
      rcases hsize with hwide | htwo | hone
      · exact .inl ⟨takeUtf8_cons_of_lt (by decide) (by omega) rest, .wide hwide⟩
      · have hstops : ¬ SplitsChar (c :: rest) ∧ readPairs (c :: rest) = none :=
          stops_of_no_pair (by omega)
            fun d _ _ => ⟨fromStrRadix16_of_wide (by omega) [d], by omega⟩
        refine .inr (.inl ⟨[c], ?_, fromStrRadix16_of_wide (by omega) [], hstops⟩)
        rw [takeUtf8_cons (by omega), htwo, takeUtf8_zero, Option.map_some]
      · cases rest with
        | nil => simp [utf8Len, hone] at h
        | cons d tail =>
            rcases Nat.lt_or_ge d.utf8Size 2 with hd | hd
            · have hdpos := Char.utf8Size_pos d
              have hd1 : d.utf8Size = 1 := by omega
              have htake : takeUtf8 2 (c :: d :: tail) = some [c, d] := by
                rw [takeUtf8_cons (by omega), takeUtf8_cons (by omega), hone, hd1, takeUtf8_zero]
                rfl
              cases hpair : fromStrRadix16 [c, d] with
              | none =>
                  refine .inr (.inl ⟨[c, d], htake, hpair, stops_of_no_pair (by omega) ?_⟩)
                  intro d' tail' hcons
                  obtain ⟨rfl, -⟩ := List.cons.inj hcons
                  exact ⟨hpair, fun _ => hd1⟩
              | some byte => exact .inr (.inr ⟨c, d, tail, byte, rfl, htake, hpair⟩)
            · refine .inl ⟨?_, .cut hone hd⟩
              rw [takeUtf8_cons (by omega), takeUtf8_cons_of_lt (by omega) (by omega)]
              rfl

end LinuxBtProxy
