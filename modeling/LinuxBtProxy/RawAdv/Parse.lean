import LinuxBtProxy.RawAdv
import LinuxBtProxy.Text.Pairs

/-!
# LinuxBtProxy.RawAdv.Parse

`parse_uuid` on every string (`parseUuid_cases`).  The characters are filtered,
the length is counted in bytes and the slices are taken by byte positions, so a
text of 32 bytes may have a slice that cuts a character; that panics.
-/

namespace LinuxBtProxy

/-- The characters that `parse_uuid` looks at. -/
def undashed (uuidStr : String) : List Char := uuidStr.toList.filter (· != '-')

/-- The loop reads pairs until one is no number or a slice cuts a character. -/
theorem parseUuidBytes_cases (hex : List Char) (n : Nat) (h : 2 * n ≤ utf8Len hex) :
    (∃ bytes pre rest, parseUuidBytes hex n = .ok (some bytes) ∧ hex = pre ++ rest ∧
        readPairs pre = some bytes.toList) ∨
      (parseUuidBytes hex n = .ok none ∧ ¬ SplitsChar hex ∧ readPairs hex = none) ∨
      (parseUuidBytes hex n = .error .charBoundary ∧ SplitsChar hex) := by
  induction n with
  | zero => exact .inl ⟨#v[], [], hex, rfl, rfl, rfl⟩
  | succ n ih =>
      rcases ih (by omega) with ⟨bytes, pre, rest, hbytes, rfl, hpre⟩ | ⟨hnone, hread⟩ |
        ⟨herror, hsplit⟩
      · have hlen := utf8Len_of_readPairs hpre
        rw [Vector.length_toList] at hlen
        rw [utf8Len_append, hlen] at h
        have hstart : n * 2 = utf8Len pre := by omega
        have hsplit := splitsChar_append_iff hpre rest
        have hread := readPairs_append hpre rest
        rcases slice_cases rest (by omega) with ⟨htake, hs⟩ |
          ⟨slice, htake, hbyte, hs, hr⟩ | ⟨a, b, tail, byte, rfl, htake, hbyte⟩
        · have hslice := strSlice_append_of_cut pre htake
          rw [← hstart] at hslice
          refine .inr (.inr ⟨?_, hsplit.mpr hs⟩)
          simp [parseUuidBytes, hbytes, hslice, bind, Except.bind]
        · have hslice := strSlice_append_of_take pre htake
          rw [← hstart] at hslice
          refine .inr (.inl ⟨?_, mt hsplit.mp hs, by rw [hread, hr]; rfl⟩)
          simp [parseUuidBytes, hbytes, hslice, hbyte, bind, Except.bind, pure, Except.pure]
        · have hslice := strSlice_append_of_take pre htake
          rw [← hstart] at hslice
          refine .inl ⟨bytes.push byte, pre ++ [a, b], tail, ?_, by simp, ?_⟩
          · simp [parseUuidBytes, hbytes, hslice, hbyte, bind, Except.bind, pure, Except.pure]
          · rw [readPairs_append hpre, readPairs, hbyte, Vector.toList_push]
            rfl
      · refine .inr (.inl ⟨?_, hread⟩)
        simp [parseUuidBytes, hnone, bind, Except.bind, pure, Except.pure]
      · refine .inr (.inr ⟨?_, hsplit⟩)
        simp [parseUuidBytes, herror, bind, Except.bind]

/-- The text has the length of a UUID, and a slice that is taken of it cuts a
character. -/
def SplitsUuid (uuidStr : String) : Prop :=
  utf8Len (undashed uuidStr) = 32 ∧ SplitsChar (undashed uuidStr)

/-- `parse_uuid` panics on a slice that cuts a character; it returns nothing for
a text of another length or with a pair that is no number, and otherwise the
short form of the bytes of the pairs. -/
theorem parseUuid_cases (uuidStr : String) :
    (SplitsUuid uuidStr ∧ parseUuid uuidStr = .error .charBoundary) ∨
      (¬ SplitsUuid uuidStr ∧ parseUuid uuidStr = .ok none ∧
        (utf8Len (undashed uuidStr) = 32 → readPairs (undashed uuidStr) = none)) ∨
      ∃ u : Vector UInt8 16, ¬ SplitsUuid uuidStr ∧ parseUuid uuidStr = .ok (some (shrink u)) ∧
        utf8Len (undashed uuidStr) = 32 ∧ readPairs (undashed uuidStr) = some u.toList := by
  have hparse : parseUuid uuidStr =
      if utf8Len (undashed uuidStr) ≠ 32 then .ok none
      else (parseUuidBytes (undashed uuidStr) 16).map (·.map shrink) := by
    unfold parseUuid undashed
    dsimp only
    split
    · rfl
    · rcases parseUuidBytes (uuidStr.toList.filter (· != '-')) 16 with p | (_ | bytes) <;> rfl
  by_cases hlen : utf8Len (undashed uuidStr) = 32
  · rw [if_neg (not_not_intro hlen)] at hparse
    rcases parseUuidBytes_cases (undashed uuidStr) 16 (by omega) with
      ⟨u, pre, rest, hu, hsplit, hpre⟩ | ⟨hnone, hs, hread⟩ | ⟨herror, hs⟩
    · have hrest : rest = [] := by
        have hlenPre := utf8Len_of_readPairs hpre
        rw [hsplit, utf8Len_append, hlenPre, Vector.length_toList] at hlen
        exact utf8Len_eq_zero (by omega)
      rw [hrest, List.append_nil] at hsplit
      rw [← hsplit] at hpre
      have hs := not_splitsChar_of_readPairs hpre
      rw [hu] at hparse
      exact .inr (.inr ⟨u, fun h => hs h.2, hparse, hlen, hpre⟩)
    · rw [hnone] at hparse
      exact .inr (.inl ⟨fun h => hs h.2, hparse, fun _ => hread⟩)
    · rw [herror] at hparse
      exact .inl ⟨⟨hlen, hs⟩, hparse⟩
  · rw [if_pos hlen] at hparse
    exact .inr (.inl ⟨fun h => hlen h.1, hparse, fun h => absurd h hlen⟩)

theorem parseUuid_returns_iff (uuidStr : String) :
    (∃ form, parseUuid uuidStr = .ok form) ↔ ¬ SplitsUuid uuidStr := by
  rcases parseUuid_cases uuidStr with ⟨hs, hp⟩ | ⟨hs, hp, -⟩ | ⟨u, hs, hp, -⟩
  · simp [hp, hs]
  · simp [hp, hs]
  · simp [hp, hs]

/-- Sixteen signed pairs are read as sixteen bytes. -/
theorem readPairs_of_signedPairs {hex : List Char} (hlen : hex.length = 32)
    (h : SignedPairs hex) : ∃ u : Vector UInt8 16, readPairs hex = some u.toList := by
  obtain ⟨bytes, hread⟩ := Option.isSome_iff_exists.mp ((readPairs_isSome_iff hex).mpr h)
  have hcount := length_of_readPairs hread
  have hsize : bytes.toArray.size = 16 := by
    rw [List.size_toArray]
    omega
  exact ⟨⟨bytes.toArray, hsize⟩, hread⟩

/-- A text of sixteen pairs that are numbers is a UUID. -/
theorem parseUuid_of_readPairs {uuidStr : String} {u : Vector UInt8 16}
    (h : readPairs (undashed uuidStr) = some u.toList) :
    parseUuid uuidStr = .ok (some (shrink u)) := by
  have hlen := utf8Len_of_readPairs h
  rw [Vector.length_toList] at hlen
  rcases parseUuid_cases uuidStr with ⟨hs, -⟩ | ⟨-, -, hread⟩ | ⟨u', -, hp, -, hread⟩
  · exact absurd hs.2 (not_splitsChar_of_readPairs h)
  · rw [hread hlen] at h
    contradiction
  · rw [hread] at h
    have huv : u' = u := Vector.toList_inj.mp (Option.some.inj h)
    rw [hp, huv]

end LinuxBtProxy
