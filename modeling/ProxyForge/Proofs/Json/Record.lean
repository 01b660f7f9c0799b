import Mathlib.Data.List.Nodup
import ProxyForge.Json.Record
import ProxyForge.Proofs.Json.Tokens

/-!
# What is in a record

A record has each of its fields at most once (`fitsObject_iff`), so what is found under a name is all that was written
under it (`head?_valuesUnder_eq_some_iff`). A strict record has no other members (`fitsObject_strict_iff`), so a string
that is no text can only stand in the value of a field (`exists_field_of_string_none`).
-/

namespace ProxyForge.Json

/-! ## Members of records -/

theorem mem_valuesUnder_iff {name : String} {members : List (Option String × Json)} {v : Json} :
    v ∈ valuesUnder name members ↔ (some name, v) ∈ members := by
  simp only [valuesUnder, List.mem_map, List.mem_filter, beq_iff_eq]
  constructor
  · rintro ⟨m, ⟨mem, named⟩, rfl⟩
    rwa [← named]
  · intro mem
    exact ⟨_, ⟨mem, rfl⟩, rfl⟩

theorem length_valuesUnder (name : String) (members : List (Option String × Json)) :
    (valuesUnder name members).length = (members.map Prod.fst).count (some name) := by
  rw [valuesUnder, List.length_map, List.count_eq_countP, List.countP_map, List.countP_eq_length_filter]
  rfl

/-- Members have the form of a strict record exactly if each is one of its fields and none is repeated. -/
theorem fitsObject_strict_iff {fields : List String} {required : Nat} {members : List (Option String × Json)} :
    RecordShape.fitsObject ⟨fields, required, true⟩ members = true ↔
      (∀ m ∈ members, ∃ name ∈ fields, m.1 = some name) ∧ (members.map Prod.fst).Nodup := by
  have field (m : Option String × Json) :
      m.1.any (fields.contains ·) = true ↔ ∃ name ∈ fields, m.1 = some name := by
    cases m.1 <;> simp
  simp only [RecordShape.fitsObject, namesAreTexts, Bool.and_eq_true, List.all_eq_true, decide_eq_true_eq,
    Bool.not_true, Bool.false_or, length_valuesUnder, List.nodup_iff_count_le_one, field]
  constructor
  · rintro ⟨⟨-, once⟩, known⟩
    refine ⟨known, fun name => ?_⟩
    by_cases mem : name ∈ members.map Prod.fst
    · obtain ⟨m, hm, rfl⟩ := List.mem_map.1 mem
      obtain ⟨name, isField, named⟩ := known m hm
      rw [named]
      exact once name isField
    · rw [List.count_eq_zero.2 mem]
      exact Nat.zero_le 1
  · rintro ⟨known, once⟩
    refine ⟨⟨fun m hm => ?_, fun name _ => once (some name)⟩, known⟩
    obtain ⟨name, -, named⟩ := known m hm
    rw [named]
    rfl

/-- Members have the form of a record that is not strict exactly if their names are texts and no field is repeated. -/
theorem fitsObject_iff {fields : List String} {required : Nat} {members : List (Option String × Json)} :
    RecordShape.fitsObject ⟨fields, required, false⟩ members = true ↔
      none ∉ members.map Prod.fst ∧ ∀ name ∈ fields, (members.map Prod.fst).count (some name) ≤ 1 := by
  have texts : namesAreTexts members = true ↔ none ∉ members.map Prod.fst := by
    simp only [namesAreTexts, List.all_eq_true, Option.isSome_iff_ne_none, List.mem_map, not_exists, not_and, ne_eq]
  simp only [RecordShape.fitsObject, Bool.and_eq_true, texts, List.all_eq_true, decide_eq_true_eq, Bool.not_false,
    Bool.true_or, and_true, length_valuesUnder]

/-- Of a name that is not repeated the only value is found. -/
theorem head?_valuesUnder_eq_some_iff {name : String} {members : List (Option String × Json)}
    (once : (members.map Prod.fst).count (some name) ≤ 1) {v : Json} :
    (valuesUnder name members).head? = some v ↔ (some name, v) ∈ members := by
  rw [← length_valuesUnder] at once
  rw [← mem_valuesUnder_iff]
  match found : valuesUnder name members with
  | [] => simp
  | [w] => simp [eq_comm]
  | w :: x :: rest => simp [found] at once

/-! ## Fields that may be left out -/

/-- A value that is not null is read as the value of an optional field. -/
theorem optional?_some {α : Type} {read : Json → Option α} {v : Json} (given : v ≠ .null) :
    optional? read (some v) = (read v).map some := by
  cases v <;> first | rfl | exact absurd rfl given

/-! ## Strings of strict records -/

theorem string_mem_itemTokens {items : List Json} {content : Option String}
    (mem : Token.string content ∈ itemTokens items) : ∃ item ∈ items, .string content ∈ item.tokens := by
  induction items with
  | nil => simp [itemTokens] at mem
  | cons item items ih =>
    simp only [itemTokens, List.cons_append, List.mem_cons, List.mem_append, reduceCtorEq, false_or] at mem
    rcases mem with inside | further
    · exact ⟨item, List.mem_cons_self, inside⟩
    · obtain ⟨other, hm, inside⟩ := ih further
      exact ⟨other, List.mem_cons_of_mem _ hm, inside⟩

theorem string_mem_memberTokens {members : List (Option String × Json)} {content : Option String}
    (mem : Token.string content ∈ memberTokens members) :
    ∃ m ∈ members, content = m.1 ∨ .string content ∈ m.2.tokens := by
  induction members with
  | nil => simp [memberTokens] at mem
  | cons m members ih =>
    obtain ⟨name, value⟩ := m
    simp only [memberTokens, List.cons_append, List.mem_cons, List.mem_append, reduceCtorEq, false_or,
      Token.string.injEq] at mem
    rcases mem with named | inside | further
    · exact ⟨_, List.mem_cons_self, .inl named⟩
    · exact ⟨_, List.mem_cons_self, .inr inside⟩
    · obtain ⟨other, hm, inside⟩ := ih further
      exact ⟨other, List.mem_cons_of_mem _ hm, inside⟩

/-- A string in an array is one in an item. -/
theorem string_mem_tokens_array {items : List Json} {content : Option String}
    (mem : Token.string content ∈ (array items).tokens) : ∃ item ∈ items, .string content ∈ item.tokens := by
  cases items with
  | nil => simp [tokens] at mem
  | cons item items =>
    apply string_mem_itemTokens
    simpa [tokens, itemTokens] using mem

/-- A string in an object is the name of a member or one in its value. -/
theorem string_mem_tokens_object {members : List (Option String × Json)} {content : Option String}
    (mem : Token.string content ∈ (object members).tokens) :
    ∃ m ∈ members, content = m.1 ∨ .string content ∈ m.2.tokens := by
  cases members with
  | nil => simp [tokens] at mem
  | cons m members =>
    obtain ⟨name, value⟩ := m
    apply string_mem_memberTokens
    simpa [tokens, memberTokens] using mem

/-- A string in a strict record that is no text stands in one of its fields. -/
theorem exists_field_of_string_none {fields : List String} {required : Nat} {value : Json}
    {values : List (Option Json)} (found : value.fields? ⟨fields, required, true⟩ = some values)
    (mem : Token.string none ∈ value.tokens) : ∃ v, some v ∈ values ∧ .string none ∈ v.tokens := by
  cases value with
  | array items =>
    obtain ⟨item, hm, inside⟩ := string_mem_tokens_array mem
    simp only [fields?] at found
    split at found
    · rw [← Option.some.inj found]
      exact ⟨item, List.mem_append_left _ (List.mem_map_of_mem hm), inside⟩
    · cases found
  | object members =>
    simp only [fields?] at found
    split at found
    · rename_i fits
      obtain ⟨known, once⟩ := fitsObject_strict_iff.1 fits
      obtain ⟨m, hm, inside⟩ := string_mem_tokens_object mem
      obtain ⟨name, field, named⟩ := known m hm
      rw [named] at inside
      have short := List.nodup_iff_count_le_one.1 once (some name)
      have only := (head?_valuesUnder_eq_some_iff short).2 (show (some name, m.2) ∈ members from named ▸ hm)
      rw [← Option.some.inj found]
      exact ⟨m.2, List.mem_map.2 ⟨name, field, only⟩, inside.resolve_left nofun⟩
    · cases found
  | _ => cases found

end ProxyForge.Json
