import ProxyForge.Compiler.Artifact
import ProxyForge.Proofs.Literal

/-!
# When a response has an artifact

The bytes of a contract are found exactly when no diagnostic is an error, the contract has code with deploying bytecode,
and every bytecode object is digits (`bytes_eq_ok_iff`). A placeholder is no digit, so the search for placeholders
decides only which fault is reported, never whether there is one (`decode_eq_ok_iff`).
-/

namespace ProxyForge.Compiler

namespace Bytecode

/-- The digits of a text, which may have `0x` in front of them once. -/
inductive Unmarked : List Char → List Char → Prop where
  | marked (digits : List Char) : Unmarked ('0' :: 'x' :: digits) digits
  | plain {digits : List Char} (bare : ∀ rest, digits ≠ '0' :: 'x' :: rest) : Unmarked digits digits

/-- The digits of a bytecode object, without the mark in front. -/
def digits (b : Bytecode) : List Char :=
  Literal.withoutMark b.object.toList

theorem unmarked_iff {b : Bytecode} {digits : List Char} : Unmarked b.object.toList digits ↔ b.digits = digits := by
  rw [Bytecode.digits]
  generalize b.object.toList = cs
  constructor
  · rintro (_ | bare)
    · rfl
    · exact Literal.withoutMark_of_ne bare
  · rintro rfl
    unfold Literal.withoutMark
    split
    · exact .marked _
    · rename_i bare
      exact .plain bare

theorem placeholder?_eq_none {cs : List Char} (h : '_' ∉ cs) : placeholder? cs = none := by
  induction cs with
  | nil => rfl
  | cons c cs ih =>
    have other : c ≠ '_' := fun same => h (same ▸ List.mem_cons_self)
    rw [placeholder?, ih fun hm => h (List.mem_cons_of_mem _ hm)]
    simp [other]

/-- A text of digits has no placeholder. -/
theorem underscore_not_mem {cs : List Char} (h : Hex.IsBytes cs) : '_' ∉ cs := by
  intro hm
  exact absurd (h.digits '_' hm) (by decide)

theorem decode_eq (b : Bytecode) :
    b.decode = match placeholder? b.digits with
      | some offset => .error (.unlinked offset)
      | none => match Hex.decode b.digits with
        | .ok bytes => .ok bytes
        | .error fault => .error (.notHex fault) := rfl

/-- A bytecode object has bytes exactly when its digits have. -/
theorem decode_eq_ok_iff {b : Bytecode} {bytes : List UInt8} :
    b.decode = .ok bytes ↔ Hex.decode b.digits = .ok bytes := by
  rw [decode_eq]
  constructor
  · intro h
    split at h
    · cases h
    · split at h
      · rename_i read
        cases h
        exact read
      · cases h
  · intro h
    have whole := Hex.exists_decode_iff.1 ⟨bytes, h⟩
    rw [placeholder?_eq_none (underscore_not_mem whole), h]

theorem exists_decodeOptional_iff {b : Option Bytecode} :
    (∃ bytes, decodeOptional b = .ok bytes) ↔ ∀ found, b = some found → Hex.IsBytes found.digits := by
  cases b with
  | none => simp [decodeOptional]
  | some found =>
    constructor
    · rintro ⟨bytes, h⟩ _ ⟨⟩
      cases hd : found.decode with
      | ok read => exact Hex.exists_decode_iff.1 ⟨read, decode_eq_ok_iff.1 hd⟩
      | error fault => simp [decodeOptional, hd, Except.map] at h
    · intro h
      obtain ⟨read, hr⟩ := Hex.exists_decode_iff.2 (h found rfl)
      exact ⟨some read, by rw [decodeOptional, decode_eq_ok_iff.2 hr]; rfl⟩

end Bytecode

namespace Response

/-- A response that has the digits of the bytecode that deploys a contract: no diagnostic is an error, the contract
is there with its code, and what is deployed, if it is given, is digits of bytes. -/
structure Provides (r : Response) (file name : String) (digits : List Char) : Prop where
  clean : ∀ d ∈ r.diagnostics.getD [], d.severity ≠ "error"
  code : ∃ files contracts contract code deploying, r.contracts = some files ∧ (file, contracts) ∈ files.entries ∧
    (name, contract) ∈ contracts.entries ∧ contract.code = some code ∧ code.deploying = some deploying ∧
    Bytecode.Unmarked deploying.object.toList digits ∧
    ∀ deployed, code.deployed = some deployed →
      ∃ also, Bytecode.Unmarked deployed.object.toList also ∧ Hex.IsBytes also

theorem errorMessages_eq_nil_iff {r : Response} :
    r.errorMessages = [] ↔ ∀ d ∈ r.diagnostics.getD [], d.severity ≠ "error" := by
  simp [errorMessages, allDiagnostics, Diagnostic.isError]

theorem contract?_eq_some_iff {r : Response} {file name : String} {contract : ContractOutput} :
    r.contract? file name = some contract ↔
      ∃ files contracts, r.contracts = some files ∧ (file, contracts) ∈ files.entries ∧
        (name, contract) ∈ contracts.entries := by
  simp [contract?, Option.bind_eq_some_iff, NameMap.get?_eq_some_iff]

/-- Extracting succeeds exactly when every step of it does. -/
theorem bytes_eq_ok_iff {r : Response} {file name : String} {bytecode : List UInt8} {deployed : Option (List UInt8)} :
    r.bytes file name = .ok (bytecode, deployed) ↔
      r.errorMessages = [] ∧ ∃ contract code deploying, r.contract? file name = some contract ∧
        contract.code = some code ∧ code.deploying = some deploying ∧ deploying.decode = .ok bytecode ∧
        Bytecode.decodeOptional code.deployed = .ok deployed := by
  constructor
  · intro h
    rw [bytes] at h
    split at h
    · cases h
    · rename_i quiet
      split at h
      · cases h
      · rename_i contract hContract
        split at h
        · cases h
        · rename_i code hCode
          split at h
          · cases h
          · rename_i deploying hDeploying
            split at h
            · cases h
            · cases h
            · rename_i read also hRead hAlso
              cases h
              have none : r.errorMessages = [] := by simpa using quiet
              exact ⟨none, contract, code, deploying, hContract, hCode, hDeploying, hRead, hAlso⟩
  · rintro ⟨quiet, contract, code, deploying, hContract, hCode, hDeploying, hRead, hAlso⟩
    simp [bytes, quiet, hContract, hCode, hDeploying, hRead, hAlso]

/-- The digits of a response that provides them are those that its deploying bytecode is read from. -/
theorem exists_bytes_iff {r : Response} {file name : String} {bytecode : List UInt8} :
    (∃ deployed, r.bytes file name = .ok (bytecode, deployed)) ↔
      ∃ digits, r.Provides file name digits ∧ Hex.decode digits = .ok bytecode := by
  constructor
  · rintro ⟨deployed, h⟩
    obtain ⟨quiet, contract, code, deploying, hContract, hCode, hDeploying, hRead, hAlso⟩ := bytes_eq_ok_iff.1 h
    obtain ⟨files, contracts, hFiles, hFile, hName⟩ := contract?_eq_some_iff.1 hContract
    have deployedDigits := Bytecode.exists_decodeOptional_iff.1 ⟨deployed, hAlso⟩
    refine ⟨deploying.digits, ⟨errorMessages_eq_nil_iff.1 quiet, ?_⟩, Bytecode.decode_eq_ok_iff.1 hRead⟩
    have unmarked : ∀ b : Bytecode, Bytecode.Unmarked b.object.toList b.digits := fun _ => Bytecode.unmarked_iff.2 rfl
    exact ⟨files, contracts, contract, code, deploying, hFiles, hFile, hName, hCode, hDeploying, unmarked deploying,
      fun also given => ⟨also.digits, unmarked also, deployedDigits also given⟩⟩
  · rintro ⟨digits, provides, hRead⟩
    obtain ⟨files, contracts, contract, code, deploying, hFiles, hFile, hName, hCode, hDeploying, hDigits, hDeployed⟩ :=
      provides.code
    obtain rfl := Bytecode.unmarked_iff.1 hDigits
    have deployedDigits : ∀ also, code.deployed = some also → Hex.IsBytes also.digits := by
      intro also given
      obtain ⟨digits, unmarked, whole⟩ := hDeployed also given
      exact Bytecode.unmarked_iff.1 unmarked ▸ whole
    obtain ⟨deployed, hAlso⟩ := Bytecode.exists_decodeOptional_iff.2 deployedDigits
    exact ⟨deployed, bytes_eq_ok_iff.2 ⟨errorMessages_eq_nil_iff.2 provides.clean, contract, code, deploying,
      contract?_eq_some_iff.2 ⟨files, contracts, hFiles, hFile, hName⟩, hCode, hDeploying,
      Bytecode.decode_eq_ok_iff.2 hRead, hAlso⟩⟩

end Response

end ProxyForge.Compiler
