import LinuxBtProxy.RawAdv.Uuid

/-!
# LinuxBtProxy.RawAdv.Exact

How exact `parse_uuid` is on ASCII text.  No slice cuts a character there, and
UUIDs are read without loss into their narrowest form.  The text that is
accepted has more than UUIDs, though (`parsesExactly_iff`): `from_str_radix`
takes a sign for the first digit of a pair.
-/

namespace LinuxBtProxy

open AdItem

/-- Accepts the text of UUIDs and nothing else, and returns the narrowest form
that expands to the bytes of the text. -/
structure ParsesExactly (uuidStr : String) : Prop where
  accepts_iff : (∃ form, parseUuid uuidStr = .ok (some form)) ↔
    (undashed uuidStr).length = 32 ∧ AllHex (undashed uuidStr)
  lossless : ∀ form, parseUuid uuidStr = .ok (some form) →
    ∃ u, expand form.width form.leBytes = some u ∧ u.toList = spelledBytes (undashed uuidStr)
  narrowest : ∀ form other : ShortUuid, parseUuid uuidStr = .ok (some form) →
    expand other.width other.leBytes = expand form.width form.leBytes →
    form.width.bytes ≤ other.width.bytes

/-- ASCII text without its dashes has characters of one byte. -/
theorem oneByte_undashed {uuidStr : String} (h : ∀ c ∈ uuidStr.toList, c.toNat < 128) :
    OneByte (undashed uuidStr) :=
  fun c hc => utf8Size_of_ascii (h c ((List.mem_filter.mp hc).1))

/-- On ASCII text, a UUID is returned for sixteen pairs that are numbers. -/
theorem parseUuid_ascii_iff {uuidStr : String} (h : ∀ c ∈ uuidStr.toList, c.toNat < 128)
    (form : ShortUuid) :
    parseUuid uuidStr = .ok (some form) ↔
      ∃ u : Uuid, (undashed uuidStr).length = 32 ∧ readPairs (undashed uuidStr) = some u.toList ∧
        form = shrink u := by
  have hlen := utf8Len_of_oneByte (oneByte_undashed h)
  constructor
  · intro hform
    rcases parseUuid_cases uuidStr with ⟨-, hp⟩ | ⟨-, hp, -⟩ | ⟨u, -, hp, hlen32, hread⟩
    · rw [hp] at hform
      contradiction
    · rw [hp] at hform
      simp at hform
    · rw [hp] at hform
      exact ⟨u, hlen ▸ hlen32, hread, by simpa using hform.symm⟩
  · rintro ⟨u, -, hread, rfl⟩
    exact parseUuid_of_readPairs hread

/-- What is parsed: thirty-two digits, in pairs that may begin with a sign. -/
theorem parseUuid_ascii_isSome_iff {uuidStr : String}
    (h : ∀ c ∈ uuidStr.toList, c.toNat < 128) :
    (∃ form, parseUuid uuidStr = .ok (some form)) ↔
      (undashed uuidStr).length = 32 ∧ SignedPairs (undashed uuidStr) := by
  simp only [parseUuid_ascii_iff h]
  constructor
  · rintro ⟨-, u, hlength, hread, -⟩
    exact ⟨hlength, (readPairs_isSome_iff (undashed uuidStr)).mp (by rw [hread]; rfl)⟩
  · rintro ⟨hlength, hpairs⟩
    obtain ⟨u, hread⟩ := readPairs_of_signedPairs hlength hpairs
    exact ⟨_, u, hlength, hread, rfl⟩

/-- **Exactness on ASCII text**: `parse_uuid` is exact on a string unless it has
the length of a UUID and a sign in the place of a first digit. -/
theorem parsesExactly_iff (uuidStr : String) (h : ∀ c ∈ uuidStr.toList, c.toNat < 128) :
    ParsesExactly uuidStr ↔
      ¬ ((undashed uuidStr).length = 32 ∧ SignedPairs (undashed uuidStr) ∧
        '+' ∈ undashed uuidStr) := by
  have hsome := parseUuid_ascii_isSome_iff h
  constructor
  · rintro hexact ⟨hlength, hpairs, hplus⟩
    have hhex := (hexact.accepts_iff.mp (hsome.mpr ⟨hlength, hpairs⟩)).2
    exact not_isHex_plus (hhex '+' hplus)
  · intro hsign
    have hdigits : (∃ form, parseUuid uuidStr = .ok (some form)) ↔
        (undashed uuidStr).length = 32 ∧ AllHex (undashed uuidStr) := by
      rw [hsome]
      refine and_congr_right fun hlength => ?_
      rw [allHex_iff_signedPairs (by rw [hlength])]
      exact ⟨fun hpairs => ⟨hpairs, fun hplus => hsign ⟨hlength, hpairs, hplus⟩⟩, fun h => h.1⟩
    have hexpand (form : ShortUuid) (hform : parseUuid uuidStr = .ok (some form)) :
        ∃ u : Uuid, u.toList = spelledBytes (undashed uuidStr) ∧
          form.width = AdItem.narrowest u ∧ expand form.width form.leBytes = some u := by
      obtain ⟨u, -, hread, rfl⟩ := (parseUuid_ascii_iff h form).mp hform
      obtain ⟨hwidth, hbytes⟩ := shrink_spec u
      refine ⟨u, readPairs_eq_spelledBytes (hdigits.mp ⟨_, hform⟩).2 hread, hwidth, ?_⟩
      rw [hbytes, hwidth, expand_leBytes rfl]
    refine ⟨hdigits, ?_, ?_⟩
    · intro form hform
      obtain ⟨u, hlist, -, hu⟩ := hexpand form hform
      exact ⟨u, hu, hlist⟩
    · intro form other hform hother
      obtain ⟨u, -, hwidth, hu⟩ := hexpand form hform
      rw [hu] at hother
      rw [hwidth]
      exact narrowest_le hother

/-- The battery service. -/
theorem parsesExactly_battery_service :
    ParsesExactly "0000180f-0000-1000-8000-00805f9b34fb" := by
  have hall : "0000180f-0000-1000-8000-00805f9b34fb".toList.all (·.toNat < 128) = true := by
    decide +kernel
  have hascii : ∀ c ∈ "0000180f-0000-1000-8000-00805f9b34fb".toList, c.toNat < 128 :=
    fun c hc => of_decide_eq_true (List.all_eq_true.mp hall c hc)
  have hplus : '+' ∉ undashed "0000180f-0000-1000-8000-00805f9b34fb" := by decide +kernel
  exact (parsesExactly_iff _ hascii).mpr fun hsign => hplus hsign.2.2

/-- Sixteen pairs of a sign and a digit are accepted. -/
theorem not_parsesExactly_signs :
    ¬ ParsesExactly "+f+f+f+f-+f+f-+f+f-+f+f-+f+f+f+f+f+f" := by
  intro hexact
  have hsome : (uuidForm "+f+f+f+f-+f+f-+f+f-+f+f-+f+f+f+f+f+f").isSome = true := by
    decide +kernel
  have hdigits : ¬ AllHex (undashed "+f+f+f+f-+f+f-+f+f-+f+f-+f+f+f+f+f+f") := by decide +kernel
  unfold uuidForm at hsome
  cases hp : parseUuid "+f+f+f+f-+f+f-+f+f-+f+f-+f+f+f+f+f+f" with
  | error p => simp [hp] at hsome
  | ok form =>
      rw [hp] at hsome
      obtain ⟨u, hu⟩ := Option.isSome_iff_exists.mp hsome
      have hform : form = some u := hu
      exact hdigits (hexact.accepts_iff.mp ⟨u, by rw [hp, hform]⟩).2

end LinuxBtProxy
