import ProxyForge.Proofs.Compiler.Artifact
import ProxyForge.Proofs.Text.ByteOrder

/-!
# The paths of the contracts

A response lists each of its contracts once, in the order of the bytes of its source unit and then of its name
(`pairwise_contractNames`, `mem_contractNames_iff`). A path does not tell the two apart when a name may have a colon in
it; when none has, the last colon of a path parts them (`contractPath_inj`), so a contract is found exactly if its path is
listed.
-/

namespace ProxyForge.Compiler

/-- The source unit and the name of one contract come before those of another in the order of their bytes. -/
def Precedes (a b : String × String) : Prop :=
  Text.utf8 a.1.toList < Text.utf8 b.1.toList ∨ a.1 = b.1 ∧ Text.utf8 a.2.toList < Text.utf8 b.2.toList

namespace Response

/-- A response has a contract under a name in a source unit. -/
def Has (r : Response) (file name : String) : Prop :=
  ∃ files contracts contract, r.contracts = some files ∧ (file, contracts) ∈ files.entries ∧
    (name, contract) ∈ contracts.entries

/-- The source units and names of all contracts. -/
def contractNames (r : Response) : List (String × String) :=
  match r.contracts with
  | none => []
  | some files => files.entries.flatMap fun f => f.2.names.map (f.1, ·)

theorem contractPaths_eq (r : Response) : r.contractPaths = r.contractNames.map fun c => contractPath c.1 c.2 := by
  unfold contractPaths contractNames
  cases r.contracts with
  | none => rfl
  | some files =>
    simp only [List.map_flatMap, List.map_map]
    rfl

theorem has_iff {r : Response} {file name : String} :
    r.Has file name ↔ ∃ contract, r.contract? file name = some contract := by
  simp only [Has, contract?_eq_some_iff]
  constructor
  · rintro ⟨files, contracts, contract, found⟩
    exact ⟨contract, files, contracts, found⟩
  · rintro ⟨contract, files, contracts, found⟩
    exact ⟨files, contracts, contract, found⟩

theorem mem_contractNames_iff {r : Response} {file name : String} :
    (file, name) ∈ r.contractNames ↔ r.Has file name := by
  unfold contractNames Has
  cases r.contracts with
  | none => simp
  | some files =>
    constructor
    · intro h
      obtain ⟨f, hf, hn⟩ := List.mem_flatMap.1 h
      obtain ⟨_, hn, same⟩ := List.mem_map.1 hn
      obtain ⟨c, hc, rfl⟩ := List.mem_map.1 hn
      cases same
      exact ⟨files, f.2, c.2, rfl, hf, hc⟩
    · rintro ⟨_, contracts, contract, ⟨⟩, hf, hc⟩
      exact List.mem_flatMap.2 ⟨_, hf, List.mem_map_of_mem (List.mem_map_of_mem hc)⟩

/-- Names come in the order of their bytes. -/
theorem pairwise_contractNames (r : Response) : r.contractNames.Pairwise Precedes := by
  unfold contractNames
  cases r.contracts with
  | none => exact List.Pairwise.nil
  | some files =>
    refine List.pairwise_flatMap.2 ⟨?_, ?_⟩
    · intro f _
      rw [NameMap.names, List.map_map, List.pairwise_map]
      apply f.2.ascending.imp
      intro a b less
      exact .inr ⟨rfl, Text.utf8_lt_iff.2 less⟩
    · apply files.ascending.imp
      intro f g less c hc d hd
      obtain ⟨_, _, rfl⟩ := List.mem_map.1 hc
      obtain ⟨_, _, rfl⟩ := List.mem_map.1 hd
      exact .inl (Text.utf8_lt_iff.2 less)

end Response

/-! ## Paths -/

theorem eq_nil_of_cons_eq_append {α : Type} {c : α} {bs more es : List α} (last : c ∉ bs)
    (same : c :: bs = more ++ c :: es) : more = [] := by
  cases more with
  | nil => rfl
  | cons d more =>
    have rest := (List.cons.inj same).2
    exact absurd (rest ▸ List.mem_append_right more List.mem_cons_self) last

/-- A mark that stands last in a list parts the list in one way only. -/
theorem append_cons_inj_of_not_mem {α : Type} {c : α} {as bs ds es : List α} (hb : c ∉ bs) (he : c ∉ es) :
    as ++ c :: bs = ds ++ c :: es ↔ as = ds ∧ bs = es := by
  constructor
  · intro same
    rcases List.append_eq_append_iff.1 same with ⟨more, front, rest⟩ | ⟨more, front, rest⟩
    · rw [eq_nil_of_cons_eq_append hb rest] at front rest
      exact ⟨by simpa using front.symm, (List.cons.inj rest).2⟩
    · rw [eq_nil_of_cons_eq_append he rest] at front rest
      exact ⟨by simpa using front, (List.cons.inj rest).2.symm⟩
  · rintro ⟨rfl, rfl⟩
    rfl

/-- Paths of names without a colon are those of one contract only if source units and names are the same. -/
theorem contractPath_inj {file name file' name' : String} (plain : ':' ∉ name.toList) (plain' : ':' ∉ name'.toList) :
    contractPath file name = contractPath file' name' ↔ file = file' ∧ name = name' := by
  have text : ∀ file name : String, (contractPath file name).toList = file.toList ++ ':' :: name.toList := by
    intro file name
    simp [contractPath]
  rw [← String.toList_inj, text, text, append_cons_inj_of_not_mem plain plain', String.toList_inj, String.toList_inj]

example : contractPath "a" "b:c" = contractPath "a:b" "c" := by decide

namespace Response

/-- A contract that is there is listed. -/
theorem mem_contractPaths {r : Response} {file name : String} (h : r.Has file name) :
    contractPath file name ∈ r.contractPaths := by
  rw [contractPaths_eq]
  exact List.mem_map.2 ⟨(file, name), mem_contractNames_iff.2 h, rfl⟩

/-- Without colons in names only contracts that are there are listed. -/
theorem has_of_mem_contractPaths {r : Response} {file name : String}
    (plain : ∀ file' name', r.Has file' name' → ':' ∉ name'.toList) (plain' : ':' ∉ name.toList)
    (h : contractPath file name ∈ r.contractPaths) : r.Has file name := by
  rw [contractPaths_eq] at h
  obtain ⟨⟨file', name'⟩, listed, same⟩ := List.mem_map.1 h
  have there := mem_contractNames_iff.1 listed
  obtain ⟨rfl, rfl⟩ := (contractPath_inj (plain file' name' there) plain').1 same
  exact there

/-- A contract is reported as missing exactly if it is and no diagnostic is an error, and the report lists all contracts
that are there. -/
theorem bytes_eq_noContract_iff {r : Response} {file name : String} {found : List String} :
    r.bytes file name = .error (.noContract found) ↔
      r.errorMessages = [] ∧ ¬ r.Has file name ∧ found = r.contractPaths := by
  constructor
  · intro h
    unfold bytes at h
    split at h
    · cases h
    · rename_i quiet
      split at h
      · rename_i missing
        cases h
        refine ⟨by simpa using quiet, fun there => ?_, rfl⟩
        obtain ⟨contract, present⟩ := has_iff.1 there
        rw [missing] at present
        cases present
      · -- A contract that is there has other faults only.
        repeat' split at h
        all_goals cases h
  · rintro ⟨quiet, absent, rfl⟩
    have missing : r.contract? file name = none := by
      apply Option.eq_none_iff_forall_ne_some.2
      intro contract present
      exact absent (has_iff.2 ⟨contract, present⟩)
    simp [bytes, quiet, missing]

/-- The paths of a response are those of its contracts, each of them once, in the order of the bytes of their source units
and then of their names. A contract that is not there is reported as missing, unless a diagnostic is an error, and the
report lists these paths. If no name has a colon, neither the one asked for nor one of a contract that is there, then a
contract is found exactly if its path is listed, so a report never lists the path of the contract that it says is
missing. -/
theorem contractPaths_list_contracts (r : Response) :
    (∃ contracts : List (String × String), r.contractPaths = contracts.map (fun c => contractPath c.1 c.2) ∧
      contracts.Pairwise Precedes ∧ ∀ file name, (file, name) ∈ contracts ↔ r.Has file name) ∧
    (∀ file name found, r.bytes file name = .error (.noContract found) ↔
      r.errorMessages = [] ∧ ¬ r.Has file name ∧ found = r.contractPaths) ∧
    ∀ file name, (∀ file' name', r.Has file' name' → ':' ∉ name'.toList) → ':' ∉ name.toList →
      ((∃ contract, r.contract? file name = some contract) ↔ contractPath file name ∈ r.contractPaths) ∧
      ∀ found, r.bytes file name = .error (.noContract found) →
        r.artifact file name = .error (.compilation (contractPath file name)
          ["The contract not found in the output. Found contracts: [" ++ String.intercalate ", " found ++ "]"]) ∧
        contractPath file name ∉ found := by
  refine ⟨⟨r.contractNames, r.contractPaths_eq, r.pairwise_contractNames, fun file name => mem_contractNames_iff⟩,
    fun file name found => bytes_eq_noContract_iff, fun file name plain plain' => ⟨?_, fun found missing => ⟨?_, ?_⟩⟩⟩
  · rw [← has_iff]
    exact ⟨mem_contractPaths, has_of_mem_contractPaths plain plain'⟩
  · rw [artifact, missing]
    rfl
  · obtain ⟨-, absent, rfl⟩ := bytes_eq_noContract_iff.1 missing
    intro listed
    exact absent (has_of_mem_contractPaths plain plain' listed)

/-- A response with a colon in the name of a source unit. -/
def withColon : Response where
  contracts := some (NameMap.ofList [("lib", NameMap.singleton "C" ⟨none⟩),
    ("lib:v1", NameMap.ofList [("A", ⟨none⟩), ("B", ⟨none⟩)])])
  diagnostics := none

/-- The contract `A` is found in `lib:v1` and reported as missing in `lib`, where its path would be `lib:A`. -/
theorem contractPaths_list_withColon :
    (∀ file name, withColon.Has file name → ':' ∉ name.toList) ∧ ':' ∉ "A".toList ∧
      (∃ contract, withColon.contract? "lib:v1" "A" = some contract) ∧
      withColon.bytes "lib" "A" = .error (.noContract ["lib:C", "lib:v1:A", "lib:v1:B"]) ∧
      contractPath "lib" "A" ∉ ["lib:C", "lib:v1:A", "lib:v1:B"] := by
  have plain : ∀ file name, withColon.Has file name → ':' ∉ name.toList := by
    have each : ∀ c ∈ withColon.contractNames, ':' ∉ c.2.toList := by decide
    intro file name there
    exact each (file, name) (mem_contractNames_iff.2 there)
  have colon : ':' ∉ "A".toList := by decide
  have listed : contractPath "lib:v1" "A" ∈ withColon.contractPaths := by decide
  have missing : withColon.bytes "lib" "A" = .error (.noContract ["lib:C", "lib:v1:A", "lib:v1:B"]) := rfl
  have here := (contractPaths_list_contracts withColon).2.2 "lib:v1" "A" plain colon
  have there := (contractPaths_list_contracts withColon).2.2 "lib" "A" plain colon
  exact ⟨plain, colon, here.1.2 listed, missing, (there.2 _ missing).2⟩

end Response

end ProxyForge.Compiler
