import Mathlib.Logic.Relation
import ProxyForge.Proofs.Json.Record

/-!
# Edits that readers of records do not see

A reader of nested records, maps and lists is told by its layout. A value is edited by reordering the members of one of
its records or by adding a field that the record does not have (`Edit`), and the closure of edits under steps back and
forth also takes such fields away. An edit leaves the form of a record and each of its fields as it was, except for the
field whose value is edited itself (`Edit.fields?`). So a reader that is made of readers which do not see the edits of
their parts does not see those of the whole (`Ignores`).
-/

namespace ProxyForge.Json

/-! ## Edits -/

/-- Where the records are in a value that is read. -/
inductive Layout where
  | anything
  | record (fields : List (String × Layout))
  | map (values : Layout)
  | list (items : Layout)

/-- One edit of a value: the members of a record are put into another order, a field of another name is added to a
record, or what stands in a field, in a map or in a list is edited. -/
inductive Edit : Layout → Json → Json → Prop where
  | reorder {fields : List (String × Layout)} {members others : List (Option String × Json)}
      (reordered : members.Perm others) : Edit (.record fields) (.object members) (.object others)
  | add {fields : List (String × Layout)} {members : List (Option String × Json)} {name : String} {value : Json}
      (unknown : name ∉ fields.map Prod.fst) :
      Edit (.record fields) (.object members) (.object ((some name, value) :: members))
  | field {fields : List (String × Layout)} {front back : List (Option String × Json)} {name : String}
      {layout : Layout} {v w : Json} (known : (name, layout) ∈ fields) (edit : Edit layout v w) :
      Edit (.record fields) (.object (front ++ (some name, v) :: back)) (.object (front ++ (some name, w) :: back))
  | entry {values : Layout} {front back : List (Option String × Json)} {name : Option String} {v w : Json}
      (edit : Edit values v w) :
      Edit (.map values) (.object (front ++ (name, v) :: back)) (.object (front ++ (name, w) :: back))
  | item {items : Layout} {front back : List Json} {v w : Json} (edit : Edit items v w) :
      Edit (.list items) (.array (front ++ v :: back)) (.array (front ++ w :: back))

/-- What an edit of a record does to one of its fields. -/
inductive FieldEdit (layout : Layout) : Option Json → Option Json → Prop where
  | same (v : Option Json) : FieldEdit layout v v
  | value {v w : Json} (edit : Edit layout v w) : FieldEdit layout (some v) (some w)

/-- A reader that does not see the edits of a layout. -/
def Ignores {α : Type} (read : Json → Option α) (layout : Layout) : Prop :=
  ∀ v w, Edit layout v w → read v = read w

/-! ## Edits of records -/

/-- What stands under a name that is not repeated is told by the members. -/
theorem head?_valuesUnder_congr {name : String} {members others : List (Option String × Json)}
    (once : (members.map Prod.fst).count (some name) ≤ 1) (still : (others.map Prod.fst).count (some name) ≤ 1)
    (same : ∀ v, (some name, v) ∈ members ↔ (some name, v) ∈ others) :
    (valuesUnder name members).head? = (valuesUnder name others).head? := by
  apply Option.ext
  intro v
  rw [head?_valuesUnder_eq_some_iff once, head?_valuesUnder_eq_some_iff still, same]

/-- What edits leave as it was of the members of a record: whether all names are texts, how often each field stands
there, and up to an edit what stands there. -/
structure Keeps (fields : List (String × Layout)) (members others : List (Option String × Json)) : Prop where
  texts : none ∈ members.map Prod.fst ↔ none ∈ others.map Prod.fst
  count : ∀ field ∈ fields, (members.map Prod.fst).count (some field.1) = (others.map Prod.fst).count (some field.1)
  value : ∀ field ∈ fields, (members.map Prod.fst).count (some field.1) ≤ 1 →
    FieldEdit field.2 (valuesUnder field.1 members).head? (valuesUnder field.1 others).head?

theorem keeps_of_perm (fields : List (String × Layout)) {members others : List (Option String × Json)}
    (reordered : members.Perm others) : Keeps fields members others := by
  have names := reordered.map Prod.fst
  refine ⟨names.mem_iff, fun field _ => names.count_eq _, fun field _ once => ?_⟩
  rw [head?_valuesUnder_congr once (names.count_eq _ ▸ once) fun v => reordered.mem_iff]
  exact .same _

theorem keeps_cons {fields : List (String × Layout)} {name : String} (unknown : name ∉ fields.map Prod.fst)
    (value : Json) (members : List (Option String × Json)) : Keeps fields members ((some name, value) :: members) := by
  have other (field : String × Layout) (known : field ∈ fields) : name ≠ field.1 := by
    rintro rfl
    exact unknown (List.mem_map_of_mem known)
  have count (field : String × Layout) (known : field ∈ fields) :
      (members.map Prod.fst).count (some field.1) =
        (((some name, value) :: members).map Prod.fst).count (some field.1) := by
    rw [List.map_cons, List.count_cons_of_ne (by simpa using other field known)]
  refine ⟨by simp, count, fun field known once => ?_⟩
  rw [head?_valuesUnder_congr once (count field known ▸ once) fun v => by simp [Ne.symm (other field known)]]
  exact .same _

theorem keeps_field {fields : List (String × Layout)} (distinct : (fields.map Prod.fst).Nodup) {name : String}
    {layout : Layout} (known : (name, layout) ∈ fields) {v w : Json} (edit : Edit layout v w)
    (front back : List (Option String × Json)) :
    Keeps fields (front ++ (some name, v) :: back) (front ++ (some name, w) :: back) := by
  have names : (front ++ (some name, v) :: back).map Prod.fst = (front ++ (some name, w) :: back).map Prod.fst := by
    simp
  refine ⟨by rw [names], fun field _ => by rw [names], fun field mem once => ?_⟩
  have still := once
  rw [names] at still
  by_cases same : field.1 = name
  · have only := List.inj_on_of_nodup_map distinct mem known same
    subst only
    have first := (head?_valuesUnder_eq_some_iff once).2 (List.mem_append_right front List.mem_cons_self)
    have second := (head?_valuesUnder_eq_some_iff still).2 (List.mem_append_right front List.mem_cons_self)
    rw [first, second]
    exact .value edit
  · rw [head?_valuesUnder_congr once still fun v => by simp [same]]
    exact .same _

/-- An edit of a record changes at most one of its fields, and that by an edit. -/
theorem Edit.keeps {fields : List (String × Layout)} (distinct : (fields.map Prod.fst).Nodup) {v w : Json}
    (edit : Edit (.record fields) v w) :
    ∃ members others, v = .object members ∧ w = .object others ∧ Keeps fields members others := by
  cases edit with
  | reorder reordered => exact ⟨_, _, rfl, rfl, keeps_of_perm fields reordered⟩
  | add unknown => exact ⟨_, _, rfl, rfl, keeps_cons unknown _ _⟩
  | field known edit => exact ⟨_, _, rfl, rfl, keeps_field distinct known edit _ _⟩

theorem Keeps.fitsObject {fields : List (String × Layout)} {members others : List (Option String × Json)}
    (kept : Keeps fields members others) (required : Nat) :
    RecordShape.fitsObject ⟨fields.map Prod.fst, required, false⟩ members =
      RecordShape.fitsObject ⟨fields.map Prod.fst, required, false⟩ others := by
  rw [Bool.eq_iff_iff, fitsObject_iff, fitsObject_iff, kept.texts, List.forall_mem_map, List.forall_mem_map]
  refine and_congr_right fun _ => forall₂_congr fun field known => ?_
  rw [kept.count field known]

/-- An edit of a record is one of its fields. -/
theorem Edit.fields? {fields : List (String × Layout)} (distinct : (fields.map Prod.fst).Nodup) {v w : Json}
    (edit : Edit (.record fields) v w) (shape : RecordShape) (names : shape.fields = fields.map Prod.fst)
    (lax : shape.strict = false) :
    (v.fields? shape = none ∧ w.fields? shape = none) ∨
    ∃ f g : String → Option Json, v.fields? shape = some (shape.fields.map f) ∧
      w.fields? shape = some (shape.fields.map g) ∧ ∀ field ∈ fields, FieldEdit field.2 (f field.1) (g field.1) := by
  obtain ⟨_, required, _⟩ := shape
  subst names lax
  obtain ⟨members, others, rfl, rfl, kept⟩ := edit.keeps distinct
  have form := kept.fitsObject required
  by_cases fits : RecordShape.fitsObject ⟨fields.map Prod.fst, required, false⟩ members = true
  · refine .inr ⟨_, _, if_pos fits, if_pos (form ▸ fits), fun field known => kept.value field known ?_⟩
    exact (fitsObject_iff.1 fits).2 _ (List.mem_map_of_mem known)
  · exact .inl ⟨if_neg fits, if_neg (form ▸ fits)⟩

/-! ## Readers of parts -/

section Readers

variable {α : Type} {read : Json → Option α} {layout : Layout}

theorem ignores_anything (read : Json → Option α) : Ignores read .anything :=
  nofun

/-- Null is not edited, nor is anything edited to null. -/
theorem Edit.ne_null {v w : Json} (edit : Edit layout v w) : v ≠ .null ∧ w ≠ .null := by
  cases edit <;> exact ⟨nofun, nofun⟩

theorem FieldEdit.optional? {v w : Option Json} (edit : FieldEdit layout v w) (ignores : Ignores read layout) :
    optional? read v = optional? read w := by
  cases edit with
  | same => rfl
  | value edit => rw [optional?_some edit.ne_null.1, optional?_some edit.ne_null.2, ignores _ _ edit]

theorem FieldEdit.required? {v w : Option Json} (edit : FieldEdit layout v w) (ignores : Ignores read layout) :
    required? read v = required? read w := by
  cases edit with
  | same => rfl
  | value edit => exact ignores _ _ edit

theorem readAll_congr {v w : Json} (same : read v = read w) (front back : List Json) :
    readAll read (front ++ v :: back) = readAll read (front ++ w :: back) := by
  induction front with
  | nil => simp only [List.nil_append, readAll, same]
  | cons u front ih => simp only [List.cons_append, readAll, ih]

theorem entries?_congr {v w : Json} (same : read v = read w) (name : Option String)
    (front back : List (Option String × Json)) :
    entries? read (front ++ (name, v) :: back) = entries? read (front ++ (name, w) :: back) := by
  induction front with
  | nil => simp only [List.nil_append, entries?, same]
  | cons m front ih => simp only [List.cons_append, entries?, ih]

theorem Ignores.list? (ignores : Ignores read layout) : Ignores (list? read) (.list layout) := by
  intro v w edit
  cases edit with
  | item edit => exact readAll_congr (ignores _ _ edit) _ _

theorem Ignores.map? (ignores : Ignores read layout) : Ignores (map? read) (.map layout) := by
  intro v w edit
  cases edit with
  | entry edit => exact congrArg (Option.map NameMap.ofList) (entries?_congr (ignores _ _ edit) _ _ _)

/-- A reader that does not see an edit does not see edits in a row, back and forth. -/
theorem Ignores.of_edits (ignores : Ignores read layout) {v w : Json} (edits : Relation.EqvGen (Edit layout) v w) :
    read v = read w := by
  induction edits with
  | rel v w edit => exact ignores v w edit
  | refl v => rfl
  | symm v w _ ih => exact ih.symm
  | trans u v w _ _ first second => exact first.trans second

end Readers

end ProxyForge.Json
