import ProxyForge.Deployer
import ProxyForge.Proofs.Json.Edits

/-!
# What the compiler may add to its responses

Each reader of a part of a response has a layout and does not see its edits, and so the reader of the response does not
(`unknown_fields_ignored`): in whatever order a compiler writes the fields of its records, and whatever further fields
it gives them, the response that is read and the payload that is made of it are the same. Only that further fields have
texts for names matters: a response with a name that is none is refused (`Response.ofJson?_of_unnamed`).
-/

namespace ProxyForge.Compiler

open Json (Layout Edit Ignores)

/-! ## Layouts -/

/-- The records in a bytecode object. -/
def Bytecode.layout : Layout :=
  .record [("object", .anything)]

/-- The records in the code of a contract. -/
def Code.layout : Layout :=
  .record [("bytecode", Bytecode.layout), ("deployedBytecode", Bytecode.layout)]

/-- The records in what the compiler gives for one contract. -/
def ContractOutput.layout : Layout :=
  .record [("evm", Code.layout)]

/-- The records in a diagnostic. -/
def Diagnostic.layout : Layout :=
  .record [("severity", .anything), ("message", .anything), ("formattedMessage", .anything)]

/-- The records in a response. -/
def Response.layout : Layout :=
  .record [("contracts", .map (.map ContractOutput.layout)), ("errors", .list Diagnostic.layout)]

/-! ## Readers -/

theorem Bytecode.ignores_edits : Ignores ofJson? layout := by
  intro v w edit
  obtain ⟨first, second⟩ | ⟨f, g, first, second, kept⟩ := edit.fields? (by decide) ⟨["object"], 1, false⟩ rfl rfl
  · simp only [ofJson?, first, second]
  · have object := (kept _ (.head _)).required? (Json.ignores_anything Json.text?)
    simp only [ofJson?, first, second, List.map, object]

theorem Code.ignores_edits : Ignores ofJson? layout := by
  intro v w edit
  obtain ⟨first, second⟩ | ⟨f, g, first, second, kept⟩ :=
    edit.fields? (by decide) ⟨["bytecode", "deployedBytecode"], 2, false⟩ rfl rfl
  · simp only [ofJson?, first, second]
  · have deploying := (kept _ (.head _)).optional? Bytecode.ignores_edits
    have deployed := (kept _ (.tail _ (.head _))).optional? Bytecode.ignores_edits
    simp only [ofJson?, first, second, List.map, deploying, deployed]

theorem ContractOutput.ignores_edits : Ignores ofJson? layout := by
  intro v w edit
  obtain ⟨first, second⟩ | ⟨f, g, first, second, kept⟩ := edit.fields? (by decide) ⟨["evm"], 1, false⟩ rfl rfl
  · simp only [ofJson?, first, second]
  · have code := (kept _ (.head _)).optional? Code.ignores_edits
    simp only [ofJson?, first, second, List.map, code]

theorem Diagnostic.ignores_edits : Ignores ofJson? layout := by
  intro v w edit
  have text := Json.ignores_anything Json.text?
  obtain ⟨first, second⟩ | ⟨f, g, first, second, kept⟩ :=
    edit.fields? (by decide) ⟨["severity", "message", "formattedMessage"], 2, false⟩ rfl rfl
  · simp only [ofJson?, first, second]
  · have severity := (kept _ (.head _)).required? text
    have message := (kept _ (.tail _ (.head _))).required? text
    have formatted := (kept _ (.tail _ (.tail _ (.head _)))).optional? text
    simp only [ofJson?, first, second, List.map, severity, message, formatted]

theorem Response.ignores_edits : Ignores ofJson? layout := by
  intro v w edit
  obtain ⟨first, second⟩ | ⟨f, g, first, second, kept⟩ :=
    edit.fields? (by decide) ⟨["contracts", "errors"], 0, false⟩ rfl rfl
  · simp only [ofJson?, first, second]
  · have contracts := (kept _ (.head _)).optional? ContractOutput.ignores_edits.map?.map?
    have diagnostics := (kept _ (.tail _ (.head _))).optional? Diagnostic.ignores_edits.list?
    simp only [ofJson?, first, second, List.map, contracts, diagnostics]

/-- The order of the fields in the records of a response does not matter, nor do further fields of any value: what is
read is the same, and so are the payloads that are made of it. -/
theorem unknown_fields_ignored {σ : Type} {v w : Json} (edits : Relation.EqvGen (Edit Response.layout) v w) :
    Response.ofJson? v = Response.ofJson? w ∧
    (∀ bytes others, v.WrittenIn bytes → w.WrittenIn others →
      Response.ofBytes? bytes = Response.ofBytes? others) ∧
    ∀ first second, Response.ofJson? v = some first → Response.ofJson? w = some second →
      ∀ s : Session σ, (Deployer.complete first).runIn s = (Deployer.complete second).runIn s := by
  have same := Response.ignores_edits.of_edits edits
  refine ⟨same, fun bytes others hv hw => ?_, fun first second hv hw s => ?_⟩
  · rw [Response.ofBytes?, Response.ofBytes?, Json.parseScanned_eq_some_iff.2 hv, Json.parseScanned_eq_some_iff.2 hw]
    exact same
  · rw [hv, hw] at same
    rw [Option.some.inj same]

/-- A compiler may give its interface beside the code of a contract. -/
theorem unknown_fields_ignored_interface :
    Response.ofJson? (.object [(some "contracts", .object [(some "Proxy.sol", .object [(some "IdentityProxy",
      .object [(some "abi", .array []), (some "evm", .null)])])])]) =
    Response.ofJson? (.object [(some "contracts", .object [(some "Proxy.sol", .object [(some "IdentityProxy",
      .object [(some "evm", .null)])])])]) := by
  have contract : Edit ContractOutput.layout (.object [(some "evm", .null)])
      (.object [(some "abi", .array []), (some "evm", .null)]) := .add (by decide)
  have units := @Edit.entry (.map ContractOutput.layout) [] [] (some "Proxy.sol") _ _
    (@Edit.entry _ [] [] (some "IdentityProxy") _ _ contract)
  have edit : Edit Response.layout _ _ := @Edit.field _ [] [] "contracts" _ _ _ (.head _) units
  exact (@unknown_fields_ignored Unit _ _ (.symm _ _ (.rel _ _ edit))).1

/-- A field with a name that is no text makes a response unreadable. -/
theorem Response.ofJson?_of_unnamed {members : List (Option String × Json)} (unnamed : none ∈ members.map Prod.fst) :
    ofJson? (.object members) = none := by
  have refused : (Json.object members).fields? ⟨["contracts", "errors"], 0, false⟩ = none :=
    if_neg fun fits => (Json.fitsObject_iff.1 fits).1 unnamed
  simp only [ofJson?, refused]

/-- The text of half a surrogate pair is none, and a response is refused for a further field of that name. -/
theorem unnamed_field_refused :
    Json.parse "\x7b\x7d" = some (.object []) ∧ Json.parse "\x7b\"\\ud800\":null\x7d" = some (.object [(none, .null)]) ∧
    Response.ofText? "\x7b\x7d" = some ⟨none, none⟩ ∧ Response.ofText? "\x7b\"\\ud800\":null\x7d" = none := by
  exact ⟨rfl, rfl, rfl, rfl⟩

end ProxyForge.Compiler
