import ProxyForge.Hex

/-!
# What a text of hexadecimal digits is read as

Reading forgets the case of the digits and nothing else: a text is read as a byte string exactly when its lower-case
form is what is written for that byte string (`decode_eq_ok_iff`). So reading inverts every spelling, and a text can
be read exactly when it is an even number of digits (`exists_decode_iff`).
-/

namespace ProxyForge.Hex

/-- A lower-case digit. -/
def IsLowerDigit (c : Char) : Prop :=
  ('0' ≤ c ∧ c ≤ '9') ∨ ('a' ≤ c ∧ c ≤ 'f')

instance : DecidablePred IsLowerDigit :=
  fun c => inferInstanceAs (Decidable (('0' ≤ c ∧ c ≤ '9') ∨ ('a' ≤ c ∧ c ≤ 'f')))

/-- A text of whole bytes: digits of either case, two for each byte. -/
structure IsBytes (cs : List Char) : Prop where
  even : cs.length % 2 = 0
  digits : ∀ c ∈ cs, IsLowerDigit c ∨ ('A' ≤ c ∧ c ≤ 'F')

/-! ## One digit -/

theorem le_iff_toNat (a b : Char) : a ≤ b ↔ a.toNat ≤ b.toNat := by
  rw [Char.le_def, UInt32.le_iff_toNat_le]
  rfl

/-- Lower-casing moves the capitals by the distance of the two alphabets. -/
theorem toNat_toLower (c : Char) :
    c.toLower.toNat = if 65 ≤ c.toNat ∧ c.toNat ≤ 90 then c.toNat + 32 else c.toNat := by
  unfold Char.toLower
  split
  · rename_i up
    obtain ⟨low, high⟩ : 65 ≤ c.toNat ∧ c.toNat ≤ 90 := up
    rw [if_pos ⟨low, high⟩]
    show (c.val + 32).toNat = c.val.toNat + 32
    have small : c.val.toNat ≤ 90 := high
    rw [UInt32.toNat_add]
    simp
    omega
  · rename_i up
    rw [if_neg fun range : 65 ≤ c.toNat ∧ c.toNat ≤ 90 => up range]

theorem toLower_toLower (c : Char) : c.toLower.toLower = c.toLower := by
  refine Char.toNat_inj.1 ?_
  rw [toNat_toLower c.toLower, toNat_toLower c]
  split
  · rw [if_neg (by omega)]
  · rfl

theorem toNat_digit {n : Nat} (h : n < 16) : (digit n).toNat = if n < 10 then 48 + n else 87 + n := by
  have table : ∀ n ∈ List.range 16, (digit n).toNat = if n < 10 then 48 + n else 87 + n := by decide
  exact table n (List.mem_range.2 h)

/-- The three ranges of digits, by their numbers. -/
theorem value?_eq_some_iff_range {c : Char} {v : Nat} :
    value? c = some v ↔ (48 ≤ c.toNat ∧ c.toNat ≤ 57 ∧ v = c.toNat - 48) ∨
      (97 ≤ c.toNat ∧ c.toNat ≤ 102 ∧ v = c.toNat - 87) ∨ (65 ≤ c.toNat ∧ c.toNat ≤ 70 ∧ v = c.toNat - 55) := by
  simp only [value?]
  split
  · rw [Option.some.injEq]; omega
  · split
    · rw [Option.some.injEq]; omega
    · split
      · rw [Option.some.injEq]; omega
      · simp only [reduceCtorEq, false_iff]; omega

/-- A character is worth the value whose digit it is in lower case. -/
theorem value?_eq_some_iff {c : Char} {v : Nat} : value? c = some v ↔ v < 16 ∧ c.toLower = digit v := by
  have lower := toNat_toLower c
  rw [value?_eq_some_iff_range]
  constructor
  · intro range
    have small : v < 16 := by omega
    refine ⟨small, Char.toNat_inj.1 ?_⟩
    rw [lower, toNat_digit small]
    split <;> split <;> omega
  · rintro ⟨small, same⟩
    rw [same, toNat_digit small] at lower
    split at lower <;> split at lower <;> omega

theorem exists_value?_iff {c : Char} :
    (∃ v, value? c = some v) ↔ IsLowerDigit c ∨ ('A' ≤ c ∧ c ≤ 'F') := by
  simp only [value?_eq_some_iff_range, IsLowerDigit, le_iff_toNat]
  constructor
  · rintro ⟨v, range⟩
    simp only [Char.reduceToNat]
    omega
  · intro range
    simp only [Char.reduceToNat] at range
    rcases range with (range | range) | range
    · exact ⟨c.toNat - 48, by omega⟩
    · exact ⟨c.toNat - 87, by omega⟩
    · exact ⟨c.toNat - 55, by omega⟩

theorem utf8Size_of_value? {c : Char} {v : Nat} (h : value? c = some v) : c.utf8Size = 1 := by
  have range := value?_eq_some_iff_range.1 h
  have small : c.toNat ≤ 127 := by omega
  rw [Char.utf8Size_eq_one_iff, UInt32.le_iff_toNat_le]
  exact small

/-! ## Digits of whole bytes -/

/-- Reading digits reads each of them. -/
theorem values_eq_ok_iff {position : Nat} {cs : List Char} {vs : List Nat} :
    values position cs = .ok vs ↔ cs.map value? = vs.map some := by
  induction cs generalizing position vs with
  | nil => cases vs <;> simp [values]
  | cons c cs ih =>
    cases hc : value? c with
    | none => cases vs <;> simp [values, hc]
    | some v =>
      cases vs with
      | nil => cases hr : values (position + 1) cs <;> simp [values, hc, hr, Except.map]
      | cons w vs =>
        rw [List.map_cons, List.map_cons, hc, List.cons.injEq, ← @ih (position + 1), values, hc]
        cases hr : values (position + 1) cs <;> simp [Except.map]

/-- Two values a byte, the bytes of values are written with the digits of the values. -/
theorem encode_pack {vs : List Nat} (even : vs.length % 2 = 0) (small : ∀ v ∈ vs, v < 16) :
    encode (pack vs) = vs.map digit := by
  induction vs using pack.induct with
  | case1 hi lo rest ih =>
    have hhi : hi < 16 := small hi (by simp)
    have hlo : lo < 16 := small lo (by simp)
    have byte : (UInt8.ofNat (16 * hi + lo)).toNat = 16 * hi + lo := by
      rw [UInt8.toNat_ofNat']
      omega
    have tail := ih (by simp only [List.length_cons] at even; omega) fun v hv => small v (by simp [hv])
    rw [pack, encode, tail, byte, show (16 * hi + lo) / 16 = hi by omega, show (16 * hi + lo) % 16 = lo by omega]
    rfl
  | case2 vs short =>
    rcases vs with _ | ⟨hi, _ | ⟨lo, rest⟩⟩
    · rfl
    · simp at even
    · exact absurd rfl (short hi lo rest)

theorem map_toLower_of_values {cs : List Char} {vs : List Nat} (h : cs.map value? = vs.map some) :
    cs.map Char.toLower = vs.map digit ∧ (∀ v ∈ vs, v < 16) ∧ Text.utf8Length cs = vs.length := by
  induction cs generalizing vs with
  | nil => cases vs <;> simp_all [Text.utf8Length]
  | cons c cs ih =>
    cases vs with
    | nil => simp at h
    | cons v vs =>
      obtain ⟨hc, hcs⟩ := List.cons.inj h
      obtain ⟨lower, small, length⟩ := ih hcs
      obtain ⟨hv, same⟩ := value?_eq_some_iff.1 hc
      refine ⟨by simp [same, lower], by simpa using ⟨hv, small⟩, ?_⟩
      rw [Text.utf8Length, utf8Size_of_value? hc, length, List.length_cons]
      omega

theorem value?_toLower (c : Char) : value? c.toLower = value? c := by
  refine Option.ext fun v => ?_
  rw [value?_eq_some_iff, value?_eq_some_iff, toLower_toLower]

/-- The digits of a byte string, in whatever case, are worth its half bytes. -/
theorem map_value?_of_toLower {cs : List Char} {bs : List UInt8} (h : cs.map Char.toLower = encode bs) :
    cs.map value? = (bs.flatMap fun b => [b.toNat / 16, b.toNat % 16]).map some := by
  rw [← values_eq_ok_iff.1 (values_encode 0 bs), ← h, List.map_map]
  exact List.map_congr_left fun c _ => (value?_toLower c).symm

theorem utf8Length_of_toLower {cs : List Char} {bs : List UInt8} (h : cs.map Char.toLower = encode bs) :
    Text.utf8Length cs = 2 * bs.length := by
  have worth := map_value?_of_toLower h
  have same := congrArg List.length worth
  have count := congrArg List.length h
  rw [List.length_map, List.length_map] at same
  rw [List.length_map, length_encode] at count
  rw [(map_toLower_of_values worth).2.2, ← same, count]

/-- A text is read as the byte string that its lower-case form is written for, and as no other. -/
theorem decode_eq_ok_iff {cs : List Char} {bs : List UInt8} :
    decode cs = .ok bs ↔ cs.map Char.toLower = encode bs := by
  constructor
  · intro h
    rw [decode] at h
    split at h
    · cases h
    · rename_i even
      cases hv : values 0 cs with
      | error fault => rw [hv] at h; cases h
      | ok vs =>
        rw [hv] at h
        cases h
        obtain ⟨lower, small, length⟩ := map_toLower_of_values (values_eq_ok_iff.1 hv)
        rw [lower, encode_pack (by omega) small]
  · intro h
    have length := utf8Length_of_toLower h
    rw [decode, if_neg (by omega), values_eq_ok_iff.2 (map_value?_of_toLower h)]
    simp [Except.map, pack_halves]

/-- A text can be read exactly when it is digits of whole bytes. -/
theorem exists_decode_iff {cs : List Char} : (∃ bs, decode cs = .ok bs) ↔ IsBytes cs := by
  constructor
  · rintro ⟨bs, h⟩
    have lower := decode_eq_ok_iff.1 h
    have count := congrArg List.length lower
    rw [List.length_map, length_encode] at count
    refine ⟨by omega, fun c hc => exists_value?_iff.1 ?_⟩
    have worth : value? c ∈ (bs.flatMap fun b => [b.toNat / 16, b.toNat % 16]).map some := by
      rw [← map_value?_of_toLower lower]
      exact List.mem_map_of_mem hc
    obtain ⟨v, _, hv⟩ := List.mem_map.1 worth
    exact ⟨v, hv.symm⟩
  · intro h
    let vs := cs.map fun c => (value? c).getD 0
    have worth : cs.map value? = vs.map some := by
      rw [List.map_map]
      refine List.map_congr_left fun c hc => ?_
      obtain ⟨v, hv⟩ := exists_value?_iff.2 (h.digits c hc)
      simp [hv]
    obtain ⟨lower, small, length⟩ := map_toLower_of_values worth
    have same := congrArg List.length worth
    simp only [List.length_map] at same
    have even := h.even
    exact ⟨pack vs, decode_eq_ok_iff.2 (by rw [lower, encode_pack (by omega) small])⟩

theorem exists_digit_of_mem_encode {bs : List UInt8} {c : Char} (h : c ∈ encode bs) : ∃ n < 16, c = digit n := by
  induction bs with
  | nil => cases h
  | cons b bs ih =>
    have hb := b.toNat_lt
    rcases List.mem_cons.1 h with rfl | h
    · exact ⟨b.toNat / 16, by omega, rfl⟩
    · rcases List.mem_cons.1 h with rfl | h
      · exact ⟨b.toNat % 16, by omega, rfl⟩
      · exact ih h

theorem isLowerDigit_of_mem_encode {bs : List UInt8} {c : Char} (h : c ∈ encode bs) : IsLowerDigit c := by
  have table : ∀ n ∈ List.range 16, ('0' ≤ digit n ∧ digit n ≤ '9') ∨ ('a' ≤ digit n ∧ digit n ≤ 'f') := by decide
  obtain ⟨n, small, rfl⟩ := exists_digit_of_mem_encode h
  exact table n (List.mem_range.2 small)

end ProxyForge.Hex
