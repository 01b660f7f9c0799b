/-!
# Values under names

A `NameMap` holds values under distinct names in ascending order of the names, so two maps with the same
values under the same names are equal. Names are ordered by their characters, which is also the order of their
UTF-8 bytes. `insert` replaces what stands under a name; a map built from a list keeps the last value of
each name.
-/

namespace ProxyForge

/-- Values under distinct names, in ascending order of the names. -/
structure NameMap (α : Type) where
  entries : List (String × α)
  ascending : entries.Pairwise (fun a b => a.1 < b.1)

namespace NameMap

variable {α β : Type}

/-- Puts a value into a list in ascending order of the names, in place of one under the same name. -/
def insertEntry (name : String) (value : α) : List (String × α) → List (String × α)
  | [] => [(name, value)]
  | (n, v) :: rest =>
    if name < n then (name, value) :: (n, v) :: rest
    else if name = n then (name, value) :: rest
    else (n, v) :: insertEntry name value rest

/-- The value under a name in a list of entries. -/
def findEntry (name : String) : List (String × α) → Option α
  | [] => none
  | (n, v) :: rest => if n = name then some v else findEntry name rest

theorem mem_insertEntry {name : String} {value : α} {e : String × α} {l : List (String × α)}
    (h : e ∈ insertEntry name value l) : e = (name, value) ∨ e ∈ l := by
  induction l with
  | nil => simpa [insertEntry] using h
  | cons d l ih =>
    rw [insertEntry] at h
    split at h
    · simpa using h
    · split at h
      · exact (List.mem_cons.1 h).imp id (List.mem_cons_of_mem _)
      · rcases List.mem_cons.1 h with rfl | h
        · exact .inr List.mem_cons_self
        · exact (ih h).imp id (List.mem_cons_of_mem _)

theorem pairwise_insertEntry (name : String) (value : α) {l : List (String × α)}
    (h : l.Pairwise (fun a b => a.1 < b.1)) : (insertEntry name value l).Pairwise (fun a b => a.1 < b.1) := by
  induction l with
  | nil => simp [insertEntry]
  | cons d l ih =>
    obtain ⟨hd, hl⟩ := List.pairwise_cons.1 h
    rw [insertEntry]
    split
    · rename_i hlt
      refine List.pairwise_cons.2 ⟨fun e he => ?_, h⟩
      rcases List.mem_cons.1 he with rfl | he
      · exact hlt
      · exact String.lt_trans hlt (hd e he)
    · split
      · rename_i heq
        exact List.pairwise_cons.2 ⟨fun e he => by simpa [heq] using hd e he, hl⟩
      · rename_i hlt hne
        refine List.pairwise_cons.2 ⟨fun e he => ?_, ih hl⟩
        rcases mem_insertEntry he with rfl | he
        · exact Std.lt_of_le_of_ne (Std.not_lt.1 hlt) (Ne.symm hne)
        · exact hd e he

/-- The map without a name. -/
def empty : NameMap α :=
  ⟨[], List.Pairwise.nil⟩

/-- The map with a value under a name, in place of the one that stood there. -/
def insert (m : NameMap α) (name : String) (value : α) : NameMap α :=
  ⟨insertEntry name value m.entries, pairwise_insertEntry name value m.ascending⟩

/-- The map of a list of entries; of several under one name the last counts. -/
def ofList (entries : List (String × α)) : NameMap α :=
  entries.foldl (fun m e => m.insert e.1 e.2) empty

/-- The value under a name. -/
def get? (m : NameMap α) (name : String) : Option α :=
  findEntry name m.entries

/-- The names, in ascending order. -/
def names (m : NameMap α) : List String :=
  m.entries.map Prod.fst

/-- The number of names. -/
def size (m : NameMap α) : Nat :=
  m.entries.length

/-- The map of the images of the values under the same names. -/
def map (f : α → β) (m : NameMap α) : NameMap β :=
  ⟨m.entries.map fun e => (e.1, f e.2), m.ascending.map _ fun _ _ h => h⟩

/-- The map with one name. -/
def singleton (name : String) (value : α) : NameMap α :=
  empty.insert name value

theorem ext {m n : NameMap α} (h : m.entries = n.entries) : m = n := by
  cases m; cases n; cases h; rfl

@[simp] theorem entries_singleton (name : String) (value : α) :
    (singleton name value).entries = [(name, value)] := rfl

theorem entries_ofList_pair {first second : String} (less : first < second) (a b : α) :
    (ofList [(first, a), (second, b)]).entries = [(first, a), (second, b)] := by
  have behind : ¬ second < first := Std.not_lt.2 (Std.le_of_lt less)
  have other : second ≠ first := by
    rintro rfl
    exact Std.lt_irrefl less
  simp [ofList, insert, insertEntry, empty, behind, other]

/-- A list in ascending order has one value under a name at most, and it is found. -/
theorem findEntry_eq_some_iff {name : String} {value : α} {l : List (String × α)}
    (h : l.Pairwise (fun a b => a.1 < b.1)) : findEntry name l = some value ↔ (name, value) ∈ l := by
  induction l with
  | nil => simp [findEntry]
  | cons d l ih =>
    obtain ⟨hd, hl⟩ := List.pairwise_cons.1 h
    rw [findEntry, List.mem_cons, ← ih hl]
    split
    · rename_i same
      have fresh : findEntry name l ≠ some value := by
        intro found
        have less := hd _ ((ih hl).1 found)
        rw [same] at less
        exact Std.lt_irrefl less
      rw [Option.some.injEq, Prod.ext_iff, or_iff_left fresh]
      exact ⟨fun value => ⟨same.symm, value.symm⟩, fun both => both.2.symm⟩
    · rename_i other
      have not_here : (name, value) ≠ d := fun here => other (congrArg Prod.fst here).symm
      rw [or_iff_right not_here]

theorem get?_eq_some_iff {m : NameMap α} {name : String} {value : α} :
    m.get? name = some value ↔ (name, value) ∈ m.entries :=
  findEntry_eq_some_iff m.ascending

theorem nodup_names (m : NameMap α) : m.names.Nodup := by
  rw [names, List.Nodup, List.pairwise_map]
  apply m.ascending.imp
  intro a b less same
  rw [same] at less
  exact Std.lt_irrefl less

end NameMap

end ProxyForge
