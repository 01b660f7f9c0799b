import Mathlib.Data.FinEnum
import Mathlib.Data.Fintype.Pigeonhole
import Mathlib.Data.Fintype.Prod
import Mathlib.Data.Set.Function
import ProxyForge.Proofs.Storage.Encodings

/-!
# Entries and their preimages

The preimage of a mapping's entry has two halves of 32 bytes: the key behind twelve zeros, and the mapping's own slot.
It stands for no other entry (`entryOf?_eq_some_iff`), so two entries have one slot only where the hash takes two
preimages to one word (`mappingSlot_eq_iff_collide`). Some entries do: there are more of them than words
(`exists_collide`), and so what is said of slots is said of the entries and of a collision between them, not of a hash
without any.
-/

namespace ProxyForge.Storage

/-! ## One preimage, one entry -/

theorem preimage_eq (key : Address) (base : Word) :
    preimage key base = List.replicate 12 0 ++ (key.bytes ++ base.bytes) := by
  rw [preimage, Address.bytes_toWord, List.append_assoc]

/-- The key and the mapping of a preimage. A byte string of another length, or with other bytes in front, is the
preimage of no entry. -/
def entryOf? (bytes : List UInt8) : Option (Address × Word) :=
  if bytes.length = 64 ∧ bytes.take 12 = List.replicate 12 0 then
    some (Address.ofBytes ((bytes.drop 12).take 20), Word.ofBytes (bytes.drop 32))
  else none

theorem take_preimage (key : Address) (base : Word) :
    (preimage key base).take 32 = List.replicate 12 0 ++ key.bytes := by
  rw [preimage, ← Address.bytes_toWord, List.take_left' (Word.length_bytes _)]

theorem drop_preimage (key : Address) (base : Word) : (preimage key base).drop 32 = base.bytes := by
  rw [preimage, List.drop_left' (Word.length_bytes _)]

theorem entryOf?_preimage (key : Address) (base : Word) : entryOf? (preimage key base) = some (key, base) := by
  have zeros : (preimage key base).take 12 = List.replicate 12 0 := by
    rw [preimage_eq, List.take_left' (by simp)]
  have inside : ((preimage key base).drop 12).take 20 = key.bytes := by
    rw [preimage_eq, List.drop_left' (by simp), List.take_left' key.length_bytes]
  rw [entryOf?, if_pos ⟨length_preimage key base, zeros⟩, inside, drop_preimage, Address.ofBytes_bytes,
    Word.ofBytes_bytes]

theorem preimage_of_entryOf? {bytes : List UInt8} {key : Address} {base : Word}
    (h : entryOf? bytes = some (key, base)) : bytes = preimage key base := by
  rw [entryOf?] at h
  split at h
  · rename_i shape
    obtain ⟨length, zeros⟩ := shape
    obtain ⟨rfl, rfl⟩ := Prod.mk.inj (Option.some.inj h)
    have keyBytes : (Address.ofBytes ((bytes.drop 12).take 20)).bytes = (bytes.drop 12).take 20 :=
      Address.bytes_ofBytes (by simp [length])
    have baseBytes : (Word.ofBytes (bytes.drop 32)).bytes = bytes.drop 32 :=
      Word.bytes_ofBytes (by simp [length])
    rw [preimage_eq, keyBytes, baseBytes, ← zeros, ← List.drop_drop (i := 20) (j := 12), List.take_append_drop,
      List.take_append_drop]
  · cases h

/-- The entry that a preimage stands for can be read back from it, and only preimages stand for entries. -/
theorem entryOf?_eq_some_iff {bytes : List UInt8} {key : Address} {base : Word} :
    entryOf? bytes = some (key, base) ↔ bytes = preimage key base :=
  ⟨preimage_of_entryOf?, fun h => h ▸ entryOf?_preimage key base⟩

theorem preimage_inj {k₁ k₂ : Address} {b₁ b₂ : Word} : preimage k₁ b₁ = preimage k₂ b₂ ↔ k₁ = k₂ ∧ b₁ = b₂ := by
  constructor
  · intro same
    have read := entryOf?_preimage k₁ b₁
    rw [same, entryOf?_preimage] at read
    exact ⟨(congrArg Prod.fst (Option.some.inj read)).symm, (congrArg Prod.snd (Option.some.inj read)).symm⟩
  · rintro ⟨rfl, rfl⟩
    rfl

/-! ## Collisions -/

/-- Two inputs of 64 bytes that a hash takes to one word. -/
structure Collide (hash : Hash) (left right : List UInt8) : Prop where
  length_left : left.length = 64
  length_right : right.length = 64
  ne : left ≠ right
  same : hash left = hash right

theorem mappingSlot_eq_iff {hash : Hash} {k₁ k₂ : Address} {b₁ b₂ : Word} :
    mappingSlot hash k₁ b₁ = mappingSlot hash k₂ b₂ ↔
      (k₁ = k₂ ∧ b₁ = b₂) ∨ Collide hash (preimage k₁ b₁) (preimage k₂ b₂) := by
  constructor
  · intro same
    by_cases entry : k₁ = k₂ ∧ b₁ = b₂
    · exact .inl entry
    · have other : preimage k₁ b₁ ≠ preimage k₂ b₂ := fun h => entry (preimage_inj.1 h)
      exact .inr ⟨length_preimage k₁ b₁, length_preimage k₂ b₂, other, same⟩
  · rintro (⟨rfl, rfl⟩ | collide)
    · rfl
    · exact collide.same

/-- Of any entries the slots are different from each other exactly if the hash has no collision among their
preimages. -/
theorem injOn_mappingSlot_iff (hash : Hash) (entries : Set (Address × Word)) :
    Set.InjOn (fun e => mappingSlot hash e.1 e.2) entries ↔
      Set.InjOn hash ((fun e => preimage e.1 e.2) '' entries) := by
  constructor
  · rintro slots _ ⟨e₁, in₁, rfl⟩ _ ⟨e₂, in₂, rfl⟩ same
    rw [slots in₁ in₂ same]
  · intro words e₁ in₁ e₂ in₂ same
    obtain ⟨key, base⟩ := preimage_inj.1 (words ⟨e₁, in₁, rfl⟩ ⟨e₂, in₂, rfl⟩ same)
    exact Prod.ext key base

/-- What is hashed for an entry are 64 bytes, the key behind twelve zeros and the big-endian number of the mapping's
slot, and the entry can be read back from them. So two entries have one slot only if they are one entry or their
preimages collide, and the slots of any entries are as different as the words of their preimages. -/
theorem mappingSlot_eq_iff_collide (hash : Hash) :
    (∀ (key : Address) (base : Word),
      mappingSlot hash key base = hash (preimage key base) ∧
      (preimage key base).length = 64 ∧
      (preimage key base).take 32 = List.replicate 12 0 ++ key.bytes ∧
      (preimage key base).drop 32 = base.bytes ∧ ofBigEndian base.bytes = base.toNat) ∧
    (∀ bytes key base, entryOf? bytes = some (key, base) ↔ bytes = preimage key base) ∧
    (∀ k₁ k₂ b₁ b₂, mappingSlot hash k₁ b₁ = mappingSlot hash k₂ b₂ ↔
      (k₁ = k₂ ∧ b₁ = b₂) ∨ Collide hash (preimage k₁ b₁) (preimage k₂ b₂)) ∧
    (∀ entries : Set (Address × Word), Set.InjOn (fun e => mappingSlot hash e.1 e.2) entries ↔
      Set.InjOn hash ((fun e => preimage e.1 e.2) '' entries)) := by
  refine ⟨fun key base => ?_, fun _ _ _ => entryOf?_eq_some_iff, fun _ _ _ _ => mappingSlot_eq_iff,
    injOn_mappingSlot_iff hash⟩
  exact ⟨rfl, length_preimage key base, take_preimage key base, drop_preimage key base, base.ofBigEndian_bytes⟩

/-- Every hash has a collision between two entries, since there are more entries than words. -/
theorem exists_collide (hash : Hash) :
    ∃ (k₁ : Address) (b₁ : Word) (k₂ : Address) (b₂ : Word), Collide hash (preimage k₁ b₁) (preimage k₂ b₂) := by
  have accounts : 1 < Fintype.card Address := Fintype.one_lt_card_iff.2 ⟨0, 1, by decide⟩
  have more : Fintype.card Word < Fintype.card (Address × Word) := by
    rw [Fintype.card_prod]
    exact (Nat.lt_mul_iff_one_lt_left (Fintype.card_pos_iff.2 ⟨0⟩)).2 accounts
  obtain ⟨⟨k₁, b₁⟩, ⟨k₂, b₂⟩, ne, same⟩ :=
    Fintype.exists_ne_map_eq_of_card_lt (fun e : Address × Word => mappingSlot hash e.1 e.2) more
  rcases mappingSlot_eq_iff.1 same with ⟨rfl, rfl⟩ | collide
  · exact absurd rfl ne
  · exact ⟨k₁, b₁, k₂, b₂, collide⟩

end ProxyForge.Storage
