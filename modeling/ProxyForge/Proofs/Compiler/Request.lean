import Mathlib.Data.List.Basic
import Mathlib.Data.List.Nodup
import Mathlib.Data.Option.Basic
import ProxyForge.Compiler.Request
import ProxyForge.Json.RoundTrip

/-!
# What the compiler reads

The text of a request is read back as the JSON value that it was written from, whatever characters the names and texts of
the source units hold. In that value the source units stand each once under its name with its text and nothing else
(`mem_unitMembers_iff`), so different source units make different texts (`parse_text`).
-/

namespace ProxyForge.Compiler.Request

/-- The JSON value of one source unit. -/
def unit (text : String) : Json :=
  .ofMembers [("content", .ofString text)]

/-- The members of the source units in the JSON value of a request. -/
def unitMembers (sources : NameMap String) : List (Option String × Json) :=
  sources.entries.map fun e => (some e.1, unit e.2)

/-- The JSON value of a request with given source units: every output of every contract, optimised for 200 runs. -/
def withUnits (units : List (Option String × Json)) : Json :=
  .ofMembers
    [("language", .ofString "Solidity"), ("sources", .object units),
     ("settings", .ofMembers
       [("outputSelection", .ofMembers [("*", .ofMembers [("*", .array [.ofString "*"])])]),
        ("optimizer", .ofMembers [("enabled", .bool true), ("runs", .number (.ofNat 200))])])]

theorem toJson_ofSources (sources : NameMap String) : (ofSources sources).toJson = withUnits (unitMembers sources) := by
  simp only [toJson, ofSources, withUnits, unitMembers, everyOutput, optimizerRuns, Json.ofMembers, List.map_map]
  rfl

/-- A member of the source units is the name and the text of one of them. -/
theorem mem_unitMembers_iff {sources : NameMap String} {member : Option String × Json} :
    member ∈ unitMembers sources ↔
      ∃ name text, sources.get? name = some text ∧ member = (some name, unit text) := by
  simp only [NameMap.get?_eq_some_iff]
  constructor
  · intro mem
    obtain ⟨e, he, rfl⟩ := List.mem_map.1 mem
    exact ⟨e.1, e.2, he, rfl⟩
  · rintro ⟨name, text, he, rfl⟩
    exact List.mem_map.2 ⟨(name, text), he, rfl⟩

theorem nodup_unitMembers (sources : NameMap String) : ((unitMembers sources).map Prod.fst).Nodup := by
  have names : (unitMembers sources).map Prod.fst = sources.names.map some := by
    simp [unitMembers, NameMap.names]
  rw [names, List.nodup_map_iff (Option.some_injective String)]
  exact sources.nodup_names

theorem unitMembers_inj {sources others : NameMap String} (same : unitMembers sources = unitMembers others) :
    sources = others := by
  have injective : Function.Injective fun e : String × String => (some e.1, unit e.2) := by
    rintro ⟨name, text⟩ ⟨name', text'⟩ equal
    simpa [unit, Json.ofMembers, Json.ofString] using equal
  exact NameMap.ext (List.map_injective_iff.2 injective same)

/-- The text of a request is read as an object with the language, every output and the optimizer, whose source units are
exactly those given, each under its name with its text alone; and different source units have different texts. -/
theorem parse_text (sources : NameMap String) :
    (∃ units, Json.parse (ofSources sources).text = some (withUnits units) ∧ (units.map Prod.fst).Nodup ∧
      ∀ member, member ∈ units ↔ ∃ name text, sources.get? name = some text ∧
        member = (some name, .ofMembers [("content", .ofString text)])) ∧
    ∀ others, (ofSources others).text = (ofSources sources).text → others = sources := by
  have read : ∀ units : NameMap String,
      Json.parse (ofSources units).text = some (withUnits (unitMembers units)) := by
    intro units
    rw [text, Json.parse_compact, toJson_ofSources]
  refine ⟨⟨unitMembers sources, read sources, nodup_unitMembers sources, fun _ => mem_unitMembers_iff⟩, ?_⟩
  intro others same
  have value : withUnits (unitMembers others) = withUnits (unitMembers sources) := by
    apply Option.some.inj
    calc
      some (withUnits (unitMembers others)) = Json.parse (ofSources others).text := (read others).symm
      _ = Json.parse (ofSources sources).text := by rw [same]
      _ = some (withUnits (unitMembers sources)) := read sources
  simp only [withUnits, Json.ofMembers, List.map_cons, Json.object.injEq, List.cons.injEq, Prod.mk.injEq, true_and,
    and_true] at value
  exact unitMembers_inj value

end ProxyForge.Compiler.Request
