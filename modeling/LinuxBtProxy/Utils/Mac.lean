import LinuxBtProxy.Utils
import LinuxBtProxy.Text.Digits

/-!
# LinuxBtProxy.Utils.Mac

`parse_mac` on every string.  It reads six groups that are numbers below 256
(`parseMac_returns_iff`); the text of a MAC address is narrower, since
`from_str_radix` takes a sign in front of a group and leading zeros
(`macExact_iff`).
-/

namespace LinuxBtProxy

/-! ## Groups -/

/-- A hexadecimal number below 256, with a sign in front of it or not. -/
def IsByteGroup (g : List Char) : Prop :=
  ∃ digits, (g = digits ∨ g = '+' :: digits) ∧ digits ≠ [] ∧ AllHex digits ∧ hexValue digits < 256

/-- One or two hexadecimal digits. -/
def IsMacGroup (g : List Char) : Prop := AllHex g ∧ (g.length = 1 ∨ g.length = 2)

/-- The text is six groups between single colons. -/
structure SixGroups (P : List Char → Prop) (s : String) (groups : List (List Char)) : Prop where
  text : s.toList = [':'].intercalate groups
  length : groups.length = 6
  each : ∀ g ∈ groups, P g

theorem fromStrRadix16_isSome_iff (g : List Char) :
    (fromStrRadix16 g).isSome ↔ IsByteGroup g := by
  rw [Option.isSome_iff_exists]
  simp only [fromStrRadix16_eq_some_iff]
  constructor
  · rintro ⟨b, digits, hg, hne, hall, hvalue⟩
    exact ⟨digits, hg, hne, hall, by rw [hvalue]; exact b.toNat_lt⟩
  · rintro ⟨digits, hg, hne, hall, hlt⟩
    refine ⟨UInt8.ofNat (hexValue digits), digits, hg, hne, hall, ?_⟩
    rw [UInt8.toNat_ofNat', Nat.mod_eq_of_lt hlt]

/-- No group has a colon in it. -/
theorem IsByteGroup.not_mem_colon {g : List Char} (h : IsByteGroup g) : ':' ∉ g := by
  obtain ⟨digits, hg, -, hall, -⟩ := h
  have hdigits : ':' ∉ digits := fun hmem => absurd (hall ':' hmem) (by decide)
  cases hg with
  | inl hg => rwa [hg]
  | inr hg =>
      rw [hg, List.mem_cons]
      rintro (heq | hmem)
      · exact absurd heq (by decide)
      · exact hdigits hmem

/-- Splitting at the colons finds the groups. -/
theorem SixGroups.splitOn {s : String} {groups : List (List Char)}
    (h : SixGroups IsByteGroup s groups) : s.toList.splitOn ':' = groups := by
  have hne : groups ≠ [] := by
    intro hnil
    have hlength := h.length
    rw [hnil, List.length_nil] at hlength
    exact absurd hlength (by decide)
  rw [h.text]
  exact List.splitOn_intercalate ':' (fun g hg => (h.each g hg).not_mem_colon) hne

/-! ## The parser -/

/-- The loop fills the slots from `i` on with the numbers of the parts. -/
theorem parseMacLoop_eq_ok_iff {mac m : Vector UInt8 6} {i : Nat} {parts : List (List Char)}
    (hi : i + parts.length = 6) :
    parseMacLoop mac i parts = .ok m ↔
      m.toList.take i = mac.toList.take i ∧
        parts.map fromStrRadix16 = (m.toList.drop i).map some := by
  have hm : m.toList.length = 6 := Vector.length_toList
  have hmac : mac.toList.length = 6 := Vector.length_toList
  induction parts generalizing mac i with
  | nil =>
      have h6 : i = 6 := by simpa using hi
      rw [parseMacLoop, List.take_of_length_le (by omega), List.take_of_length_le (by omega),
        List.drop_eq_nil_of_le (by omega), Except.ok.injEq, ← Vector.toList_inj]
      simp [eq_comm]
  | cons part parts ih =>
      rw [List.length_cons] at hi
      have hlt : i < m.toList.length := by omega
      rw [List.drop_eq_getElem_cons hlt]
      cases hpart : fromStrRadix16 part with
      | none => simp [parseMacLoop, hpart]
      | some byte =>
          have hset : (mac.setIfInBounds i byte).toList.take (i + 1) =
              mac.toList.take i ++ [byte] := by
            rw [Vector.toList_setIfInBounds, List.take_add_one, List.take_set_of_le (by omega),
              List.getElem?_set_self (by omega)]
            rfl
          have htake : m.toList.take (i + 1) = m.toList.take i ++ [m.toList[i]] :=
            (List.take_append_getElem hlt).symm
          have hrest : parseMacLoop (mac.setIfInBounds i byte) (i + 1) parts = .ok m ↔ _ :=
            ih (by omega) Vector.length_toList
          rw [parseMacLoop, hpart, List.map_cons, List.map_cons, hpart, List.cons.injEq,
            Option.some.injEq]
          dsimp only
          rw [hrest, hset, htake]
          constructor
          · rintro ⟨hfront, hlater⟩
            obtain ⟨htakes, hbyte⟩ := List.append_inj' hfront rfl
            exact ⟨htakes, (List.cons.inj hbyte).1.symm, hlater⟩
          · rintro ⟨htakes, hbyte, hlater⟩
            rw [htakes, hbyte]
            exact ⟨rfl, hlater⟩

/-- The bytes are the numbers of the parts, in order. -/
theorem parseMac_eq_ok_iff {s : String} {m : Vector UInt8 6} :
    parseMac s = .ok m ↔ (s.toList.splitOn ':').map fromStrRadix16 = m.toList.map some := by
  unfold parseMac
  dsimp only
  split
  · next hlength =>
      constructor
      · intro h
        contradiction
      · intro h
        have hcount := congrArg List.length h
        rw [List.length_map, List.length_map, Vector.length_toList] at hcount
        exact absurd hcount hlength
  · next hlength =>
      rw [parseMacLoop_eq_ok_iff (by omega)]
      simp

theorem parseMac_returns_iff (s : String) :
    (∃ m, parseMac s = .ok m) ↔ ∃ groups, SixGroups IsByteGroup s groups := by
  simp only [parseMac_eq_ok_iff]
  constructor
  · rintro ⟨m, hm⟩
    refine ⟨s.toList.splitOn ':', (List.intercalate_splitOn ':').symm, ?_, ?_⟩
    · have hcount := congrArg List.length hm
      rwa [List.length_map, List.length_map, Vector.length_toList] at hcount
    · intro g hg
      have hmem : fromStrRadix16 g ∈ m.toList.map some := by
        rw [← hm]
        exact List.mem_map_of_mem hg
      obtain ⟨b, -, hb⟩ := List.mem_map.mp hmem
      exact (fromStrRadix16_isSome_iff g).mp (by rw [← hb]; rfl)
  · rintro ⟨groups, hgroups⟩
    let bytes := groups.map fun g => (fromStrRadix16 g).getD 0
    have hsize : bytes.toArray.size = 6 := by
      rw [List.size_toArray, List.length_map, hgroups.length]
    refine ⟨⟨bytes.toArray, hsize⟩, ?_⟩
    show (s.toList.splitOn ':').map fromStrRadix16 = bytes.map some
    rw [hgroups.splitOn, List.map_map]
    refine List.map_congr_left fun g hg => ?_
    obtain ⟨b, hb⟩ := Option.isSome_iff_exists.mp
      ((fromStrRadix16_isSome_iff g).mpr (hgroups.each g hg))
    simp [hb]

/-! ## Digits of MAC addresses -/

theorem hexDigit_upperHexDigit {n : Nat} (h : n < 16) : hexDigit (upperHexDigit n) = some n := by
  have hall : ∀ n : Fin 16, hexDigit (upperHexDigit n) = some n.val := by decide
  exact hall ⟨n, h⟩

theorem upperHexDigit_digitValue {c : Char} (h : IsHex c) :
    upperHexDigit (digitValue c) = c.toUpper := by
  have hall : ∀ n : Fin 128, IsHex (Char.ofNat n.val) →
      upperHexDigit (digitValue (Char.ofNat n.val)) = (Char.ofNat n.val).toUpper := by
    decide +kernel
  exact forall_ascii (P := fun c => IsHex c → upperHexDigit (digitValue c) = c.toUpper) hall
    (toNat_lt_of_isHex h) h

/-- Two digits are one number below 256. -/
theorem IsMacGroup.isByteGroup {g : List Char} (h : IsMacGroup g) : IsByteGroup g := by
  obtain ⟨hall, hlength⟩ := h
  refine ⟨g, .inl rfl, ?_, hall, ?_⟩
  · rintro rfl
    simp at hlength
  · match g, hall, hlength with
    | [a], hall, _ =>
        have ha := digitValue_lt (hall a (by simp))
        rw [hexValue_singleton]
        omega
    | [a, b], hall, _ =>
        have ha := digitValue_lt (hall a (by simp))
        have hb := digitValue_lt (hall b (by simp))
        rw [hexValue_pair]
        omega

/-- A number that is no two digits long has a sign or more digits. -/
theorem IsByteGroup.isMacGroup {g : List Char} (h : IsByteGroup g) (hsign : g.head? ≠ some '+')
    (hlength : g.length ≤ 2) : IsMacGroup g := by
  obtain ⟨digits, rfl | rfl, hne, hall, -⟩ := h
  · have hpos := List.length_pos_iff.mpr hne
    exact ⟨hall, by omega⟩
  · exact absurd rfl hsign

/-- Upper-case letters, and a zero in front of a single digit. -/
def canonicalGroup (g : List Char) : List Char :=
  List.replicate (2 - g.length) '0' ++ g.map Char.toUpper

theorem upperHex2_of_macGroup {g : List Char} (h : IsMacGroup g) {b : UInt8}
    (hb : hexValue g = b.toNat) : upperHex2 b = canonicalGroup g := by
  obtain ⟨hall, hlength⟩ := h
  match g, hall, hlength with
  | [a], hall, _ =>
      have ha := hall a (by simp)
      have hlt := digitValue_lt ha
      have hdigit := upperHexDigit_digitValue ha
      rw [hexValue_singleton] at hb
      have hhi : b.toNat / 16 = 0 := by omega
      have hlo : b.toNat % 16 = digitValue a := by omega
      rw [upperHex2, hhi, hlo, hdigit]
      rfl
  | [a, c], hall, _ =>
      have ha := hall a (by simp)
      have hc := hall c (by simp)
      have hlta := digitValue_lt ha
      have hltc := digitValue_lt hc
      rw [hexValue_pair] at hb
      have hhi : b.toNat / 16 = digitValue a := by omega
      have hlo : b.toNat % 16 = digitValue c := by omega
      rw [upperHex2, hhi, hlo, upperHexDigit_digitValue ha, upperHexDigit_digitValue hc]
      rfl

theorem fromStrRadix16_upperHex2 (b : UInt8) : fromStrRadix16 (upperHex2 b) = some b := by
  have hb := b.toNat_lt
  have hhi := hexDigit_upperHexDigit (n := b.toNat / 16) (by omega)
  have hlo := hexDigit_upperHexDigit (n := b.toNat % 16) (by omega)
  exact fromStrRadix16_nibbles hhi hlo

/-! ## Exactness -/

/-- Accepts the text of MAC addresses and nothing else, with the value of each
group, and is inverse to `formatMac`. -/
structure MacExact (s : String) : Prop where
  accepts_iff : (∃ m, parseMac s = .ok m) ↔ ∃ groups, SixGroups IsMacGroup s groups
  values : ∀ groups m, SixGroups IsMacGroup s groups → parseMac s = .ok m →
    m.toList.map UInt8.toNat = groups.map hexValue
  canonical : ∀ groups m, SixGroups IsMacGroup s groups → parseMac s = .ok m →
    formatMac m.toList ":" = String.ofList ([':'].intercalate (groups.map canonicalGroup))
  inverts : ∀ m : Vector UInt8 6, parseMac (formatMac m.toList ":") = .ok m

/-- Six groups that are numbers, one of which has a sign or more than two
characters. -/
def SloppyMac (s : String) : Prop :=
  ∃ groups, SixGroups IsByteGroup s groups ∧ ∃ g ∈ groups, g.head? = some '+' ∨ 2 < g.length

theorem SixGroups.mono {P Q : List Char → Prop} {s : String} {groups : List (List Char)}
    (h : SixGroups P s groups) (hPQ : ∀ g ∈ groups, P g → Q g) : SixGroups Q s groups :=
  ⟨h.text, h.length, fun g hg => hPQ g hg (h.each g hg)⟩

/-- The numbers of the groups of a MAC address are their values, and are written
as the canonical groups. -/
theorem macGroups_values {groups : List (List Char)} {bytes : List UInt8}
    (h : ∀ g ∈ groups, IsMacGroup g) (hbytes : groups.map fromStrRadix16 = bytes.map some) :
    bytes.map UInt8.toNat = groups.map hexValue ∧
      bytes.map upperHex2 = groups.map canonicalGroup := by
  induction groups generalizing bytes with
  | nil =>
      obtain rfl : bytes = [] := List.map_eq_nil_iff.mp hbytes.symm
      exact ⟨rfl, rfl⟩
  | cons g groups ih =>
      obtain ⟨hg, hgroups⟩ := List.forall_mem_cons.mp h
      cases bytes with
      | nil => simp at hbytes
      | cons b bytes =>
          obtain ⟨hb, hlater⟩ := List.cons.inj hbytes
          obtain ⟨hvalues, htexts⟩ := ih hgroups hlater
          have hvalue : hexValue g = b.toNat := by
            obtain ⟨digits, rfl | rfl, -, -, hvalue⟩ := fromStrRadix16_eq_some_iff.mp hb
            · exact hvalue
            · exact absurd (hg.1 '+' (by simp)) not_isHex_plus
          rw [List.map_cons, List.map_cons, List.map_cons, List.map_cons, hvalues, htexts, hvalue,
            upperHex2_of_macGroup hg hvalue]
          exact ⟨rfl, rfl⟩

theorem parseMac_macGroups {s : String} {groups : List (List Char)} {m : Vector UInt8 6}
    (h : SixGroups IsMacGroup s groups) (hm : parseMac s = .ok m) :
    m.toList.map UInt8.toNat = groups.map hexValue ∧
      m.toList.map upperHex2 = groups.map canonicalGroup := by
  have hsplit := (h.mono fun g _ => IsMacGroup.isByteGroup).splitOn
  rw [parseMac_eq_ok_iff, hsplit] at hm
  exact macGroups_values h.each hm

/-- Six groups that read back as the bytes, between colons. -/
theorem parseMac_intercalate {write : UInt8 → List Char}
    (hwrite : ∀ b, fromStrRadix16 (write b) = some b) (m : Vector UInt8 6) :
    parseMac (String.ofList ([':'].intercalate (m.toList.map write))) = .ok m := by
  have hcolon (b : UInt8) : ':' ∉ write b := by
    have hgroup := (fromStrRadix16_isSome_iff (write b)).mp (by
      rw [hwrite]
      rfl)
    exact hgroup.not_mem_colon
  have hgroups : ∀ g ∈ m.toList.map write, ':' ∉ g := by
    intro g hg
    obtain ⟨b, -, rfl⟩ := List.mem_map.mp hg
    exact hcolon b
  have hne : m.toList.map write ≠ [] := by
    intro hnil
    have hlength := congrArg List.length hnil
    rw [List.length_map, Vector.length_toList, List.length_nil] at hlength
    exact absurd hlength (by decide)
  rw [parseMac_eq_ok_iff, String.toList_ofList, List.splitOn_intercalate ':' hgroups hne,
    List.map_map]
  exact List.map_congr_left fun b _ => hwrite b

theorem parseMac_formatMac (m : Vector UInt8 6) : parseMac (formatMac m.toList ":") = .ok m :=
  parseMac_intercalate fromStrRadix16_upperHex2 m

/-- **Exactness on MAC addresses**: `parse_mac` is exact on a text unless it has
six groups that are numbers, one of them with a sign or with further zeros. -/
theorem macExact_iff (s : String) : MacExact s ↔ ¬ SloppyMac s := by
  constructor
  · rintro hexact ⟨groups, hgroups, g, hg, hsloppy⟩
    obtain ⟨groups', hgroups'⟩ :=
      hexact.accepts_iff.mp ((parseMac_returns_iff s).mpr ⟨groups, hgroups⟩)
    have hsame : groups' = groups := by
      rw [← hgroups.splitOn, (hgroups'.mono fun g _ => IsMacGroup.isByteGroup).splitOn]
    obtain ⟨hall, hlength⟩ := hgroups'.each g (by rw [hsame]; exact hg)
    cases hsloppy with
    | inl hsign => exact not_isHex_plus (hall '+' (List.mem_of_head? hsign))
    | inr hlong => omega
  · intro hneat
    refine ⟨?_, ?_, ?_, parseMac_formatMac⟩
    · rw [parseMac_returns_iff]
      constructor
      · rintro ⟨groups, hgroups⟩
        refine ⟨groups, hgroups.mono fun g hg hbyte => hbyte.isMacGroup ?_ ?_⟩
        · exact fun hsign => hneat ⟨groups, hgroups, g, hg, .inl hsign⟩
        · rcases Nat.lt_or_ge 2 g.length with hlong | hle
          · exact absurd ⟨groups, hgroups, g, hg, .inr hlong⟩ hneat
          · exact hle
      · rintro ⟨groups, hgroups⟩
        exact ⟨groups, hgroups.mono fun g _ => IsMacGroup.isByteGroup⟩
    · intro groups m hgroups hm
      exact (parseMac_macGroups hgroups hm).1
    · intro groups m hgroups hm
      have hsep : ":".toList = [':'] := by rfl
      rw [formatMac, hsep, (parseMac_macGroups hgroups hm).2]

/-- A sign is accepted. -/
theorem not_macExact_sign : ¬ MacExact "+1:02:03:04:05:06" := by
  intro hexact
  have hok : parseMac "+1:02:03:04:05:06" = .ok #v[0x01, 0x02, 0x03, 0x04, 0x05, 0x06] :=
    parseMac_eq_ok_iff.mpr (by decide +kernel)
  obtain ⟨groups, hgroups⟩ := hexact.accepts_iff.mp ⟨_, hok⟩
  have hsplit := (hgroups.mono fun g _ => IsMacGroup.isByteGroup).splitOn
  have hmem : ['+', '1'] ∈ groups := by
    rw [← hsplit]
    decide +kernel
  exact not_isHex_plus ((hgroups.each _ hmem).1 '+' (by simp))

end LinuxBtProxy
