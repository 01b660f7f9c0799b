import ProxyForge.Json.Tree
import ProxyForge.NameMap

/-!
# Records, maps and lists of JSON values

A record is an object whose members are found by their names, or an array of its fields in their order, of which
the last may be left out as far as they have defaults. Each field stands at most once; members under other names
are ignored, or refused by a strict record. The names of a record or a map have to be texts, while what is ignored
may hold anything.
-/

namespace ProxyForge.Json

/-- The fields of a record: their names in order, how many of them an array must give, and whether members under
other names are refused. -/
structure RecordShape where
  fields : List String
  required : Nat
  strict : Bool

/-- Whether every name is a text. -/
def namesAreTexts (members : List (Option String × Json)) : Bool :=
  members.all fun m => m.1.isSome

/-- The values that stand under a name. -/
def valuesUnder (name : String) (members : List (Option String × Json)) : List Json :=
  (members.filter fun m => m.1 == some name).map Prod.snd

namespace RecordShape

/-- Whether an object has the form of a record: all names are texts, no field is repeated, and a strict record has
no further members. -/
def fitsObject (shape : RecordShape) (members : List (Option String × Json)) : Bool :=
  namesAreTexts members && shape.fields.all (fun f => (valuesUnder f members).length ≤ 1) &&
    (!shape.strict || members.all fun m => m.1.any (shape.fields.contains ·))

/-- Whether an array has the form of a record. -/
def fitsArray (shape : RecordShape) (items : List Json) : Bool :=
  shape.required ≤ items.length && items.length ≤ shape.fields.length

end RecordShape

/-- The values of the fields of a record, in the order of the fields; `none` for a field left out. -/
def fields? (shape : RecordShape) : Json → Option (List (Option Json))
  | object members =>
    if shape.fitsObject members then some (shape.fields.map fun f => (valuesUnder f members).head?) else none
  | array items =>
    if shape.fitsArray items then
      some (items.map some ++ List.replicate (shape.fields.length - items.length) none)
    else none
  | _ => none

/-- The text of a string. -/
def text? : Json → Option String
  | string content => content
  | _ => none

/-- The value of an optional field, which may be left out or null. -/
def optional? {α : Type} (read : Json → Option α) : Option Json → Option (Option α)
  | none | some null => some none
  | some value => (read value).map some

/-- The value of a field that has to be there. -/
def required? {α : Type} (read : Json → Option α) : Option Json → Option α
  | none => none
  | some value => read value

/-- Reads all values of a list. -/
def readAll {α : Type} (read : Json → Option α) : List Json → Option (List α)
  | [] => some []
  | value :: values =>
    match read value, readAll read values with
    | some a, some as => some (a :: as)
    | _, _ => none

/-- The items of an array. -/
def list? {α : Type} (read : Json → Option α) : Json → Option (List α)
  | array items => readAll read items
  | _ => none

/-- Reads the members of an object, whose names have to be texts. -/
def entries? {α : Type} (read : Json → Option α) : List (Option String × Json) → Option (List (String × α))
  | [] => some []
  | (name, value) :: members =>
    match name, read value, entries? read members with
    | some name, some a, some as => some ((name, a) :: as)
    | _, _, _ => none

/-- The values of an object under their names; of several under one name the last counts. -/
def map? {α : Type} (read : Json → Option α) : Json → Option (NameMap α)
  | object members => (entries? read members).map NameMap.ofList
  | _ => none

end ProxyForge.Json
