/-!
# LinuxBtProxy.Lib.AdStructure

Advertising data as a sequence of AD structures: a length byte, a type byte and
a payload, where the length counts the type and the payload.

* `walk` — read the structures off by their length bytes; a length of zero, or
  one beyond the end, fails;
* `walk_eq_some_iff` — what `walk` accepts is the concatenation of the
  structures it returns, and their payloads are at most 254 bytes long.
-/

namespace AdStructure

/-- One structure: its type and its payload. -/
abbrev Ad := UInt8 × List UInt8

/-- The longest payload whose length byte does not wrap. -/
def maxPayload : Nat := 254

/-- The bytes of a structure, with the length narrowed to a byte. -/
def encode (ad : Ad) : List UInt8 :=
  UInt8.ofNat (ad.2.length + 1) :: ad.1 :: ad.2

/-- The structures from the front of the data to its end. -/
def walk : List UInt8 → Option (List Ad)
  | [] => some []
  | [_] => none
  | len :: adType :: rest =>
      if len.toNat = 0 ∨ rest.length + 1 < len.toNat then none
      else (walk (rest.drop (len.toNat - 1))).map ((adType, rest.take (len.toNat - 1)) :: ·)
termination_by data => data.length
decreasing_by
  rw [List.length_drop, List.length_cons, List.length_cons]
  omega

theorem toNat_length {n : Nat} (h : n ≤ maxPayload) : (UInt8.ofNat (n + 1)).toNat = n + 1 := by
  rw [UInt8.toNat_ofNat']
  unfold maxPayload at h
  omega

theorem walk_encode_append {ad : Ad} (h : ad.2.length ≤ maxPayload) (rest : List UInt8) :
    walk (encode ad ++ rest) = (walk rest).map (ad :: ·) := by
  obtain ⟨adType, payload⟩ := ad
  have hlen : (UInt8.ofNat (payload.length + 1)).toNat = payload.length + 1 := toNat_length h
  rw [encode, List.cons_append, List.cons_append, walk, hlen, if_neg (by simp)]
  simp

/-- One step of the walk: the structure at the front, and the walk of the
rest. -/
theorem walk_cons {data : List UInt8} {ad : Ad} {ads : List Ad} (h : walk data = some (ad :: ads)) :
    ∃ rest, data = encode ad ++ rest ∧ ad.2.length ≤ maxPayload ∧ walk rest = some ads := by
  unfold walk at h
  split at h
  · simp at h
  · simp at h
  · next len adType rest =>
      have hlt := len.toNat_lt
      split at h
      · simp at h
      · next hok =>
          obtain ⟨later, hwalk, heq⟩ := Option.map_eq_some_iff.mp h
          obtain ⟨rfl, rfl⟩ := List.cons.inj heq
          have htake : (rest.take (len.toNat - 1)).length = len.toNat - 1 := by
            rw [List.length_take]
            omega
          refine ⟨rest.drop (len.toNat - 1), ?_, ?_, hwalk⟩
          · have hbyte : UInt8.ofNat (len.toNat - 1 + 1) = len := by
              rw [Nat.sub_add_cancel (by omega), UInt8.ofNat_toNat]
            simp only [encode, htake, hbyte, List.cons_append, List.take_append_drop]
          · simp only [htake, maxPayload]
            omega

theorem eq_nil_of_walk {data : List UInt8} (h : walk data = some []) : data = [] := by
  unfold walk at h
  split at h
  · rfl
  · simp at h
  · split at h <;> simp at h

/-- **What the walk accepts**: exactly the encodings of the structures it
returns, none of which has an over-long payload. -/
theorem walk_eq_some_iff {data : List UInt8} {ads : List Ad} :
    walk data = some ads ↔
      data = (ads.map encode).flatten ∧ ∀ ad ∈ ads, ad.2.length ≤ maxPayload := by
  induction ads generalizing data with
  | nil =>
      constructor
      · intro h
        simp [eq_nil_of_walk h]
      · rintro ⟨rfl, -⟩
        simp [walk]
  | cons ad ads ih =>
      constructor
      · intro h
        obtain ⟨rest, rfl, had, hwalk⟩ := walk_cons h
        obtain ⟨rfl, hads⟩ := ih.mp hwalk
        exact ⟨by simp, List.forall_mem_cons.mpr ⟨had, hads⟩⟩
      · rintro ⟨rfl, hads⟩
        have hrest := ih.mpr ⟨rfl, fun ad h => hads ad (List.mem_cons_of_mem _ h)⟩
        rw [List.map_cons, List.flatten_cons, walk_encode_append (hads ad List.mem_cons_self),
          hrest]
        rfl

/-- The walk finds the structures that were written exactly when none of them
is too long for its length byte. -/
theorem walk_flatten_iff (ads : List Ad) :
    walk (ads.map encode).flatten = some ads ↔ ∀ ad ∈ ads, ad.2.length ≤ maxPayload := by
  rw [walk_eq_some_iff]
  simp

end AdStructure
