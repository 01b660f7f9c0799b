import ProxyForge.Json.Indented
import ProxyForge.Proofs.Json.Lexical

/-!
# The tokens a value is read from

A value is read from its own tokens and from no others (`ofTokens?_eq_some_iff`): what has been read at any time is told
by the containers that are still open and what they hold (`Expects.written`), and each token is added at its end. So
what is asked of the tokens of a text can be asked of the value: how deep it is nested (`nesting_tokens`), and whether
it can be written anew for readers (`indentedText?_eq_some_iff`).
-/

namespace ProxyForge.Json

/-! ## What has been read -/

/-- The tokens of items, each with a comma behind it. -/
def commaItems (items : List Json) : List Token :=
  items.flatMap fun item => item.tokens ++ [.comma]

/-- The tokens of members, each with a comma behind it. -/
def commaMembers (members : List (Option String × Json)) : List Token :=
  members.flatMap fun m => .string m.1 :: .colon :: m.2.tokens ++ [.comma]

/-- The tokens of an open container up to the value that is read in it. -/
def Frame.written : Frame → List Token
  | .array done => .openBracket :: commaItems done.reverse
  | .object done name => .openBrace :: commaMembers done.reverse ++ [.string name, .colon]

/-- The tokens of open containers, the innermost first in the list, up to the value that is read in them. -/
def writtenAround (around : List Frame) : List Token :=
  around.reverse.flatMap Frame.written

/-- The tokens that have been read when something is expected. Behind a value without a comma the last item or member
that is done has none. -/
def Expects.written : Expects → List Token
  | .value around => writtenAround around
  | .valueOrClose around => writtenAround around ++ [.openBracket]
  | .commaOrBracket done around =>
    writtenAround around ++ .openBracket :: commaItems done.tail.reverse ++ (done.head?.map tokens).getD []
  | .nameOrClose around => writtenAround around ++ [.openBrace]
  | .name done around => writtenAround around ++ .openBrace :: commaMembers done.reverse
  | .colon done under around => writtenAround around ++ .openBrace :: commaMembers done.reverse ++ [.string under]
  | .commaOrBrace done around =>
    writtenAround around ++ .openBrace :: commaMembers done.tail.reverse ++
      (done.head?.map fun m => .string m.1 :: .colon :: m.2.tokens).getD []
  | .nothing v => v.tokens

/-- A container that has been read up to the end of a value holds this value at least. -/
def Expects.Filled : Expects → Prop
  | .commaOrBracket done _ => done ≠ []
  | .commaOrBrace done _ => done ≠ []
  | _ => True

theorem writtenAround_cons (frame : Frame) (around : List Frame) :
    writtenAround (frame :: around) = writtenAround around ++ frame.written := by
  simp [writtenAround]

theorem itemTokens_concat (items : List Json) (last : Json) :
    itemTokens (items ++ [last]) = .comma :: commaItems items ++ last.tokens ++ [.closeBracket] := by
  induction items with
  | nil => simp [itemTokens, commaItems]
  | cons item items ih => simp [itemTokens, commaItems, ih]

theorem memberTokens_concat (members : List (Option String × Json)) (last : Option String × Json) :
    memberTokens (members ++ [last]) =
      .comma :: commaMembers members ++ .string last.1 :: .colon :: last.2.tokens ++ [.closeBrace] := by
  induction members with
  | nil => simp [memberTokens, commaMembers]
  | cons m members ih =>
    obtain ⟨name, value⟩ := m
    simp [memberTokens, commaMembers, ih]

theorem tokens_array_concat (items : List Json) (last : Json) :
    (array (items ++ [last])).tokens = .openBracket :: commaItems items ++ last.tokens ++ [.closeBracket] := by
  cases items with
  | nil => simp [tokens, itemTokens, commaItems]
  | cons item items => simp [tokens, itemTokens_concat, commaItems]

theorem tokens_object_concat (members : List (Option String × Json)) (last : Option String × Json) :
    (object (members ++ [last])).tokens =
      .openBrace :: commaMembers members ++ .string last.1 :: .colon :: last.2.tokens ++ [.closeBrace] := by
  cases members with
  | nil => simp [tokens, memberTokens, commaMembers]
  | cons m members =>
    obtain ⟨name, value⟩ := m
    simp [tokens, memberTokens_concat, commaMembers]

/-! ## Reading one more token -/

theorem written_place (v : Json) (around : List Frame) :
    (place v around).written = writtenAround around ++ v.tokens := by
  match around with
  | [] => rfl
  | .array done :: around => simp [place, Expects.written, writtenAround_cons, Frame.written]
  | .object done name :: around => simp [place, Expects.written, writtenAround_cons, Frame.written]

theorem filled_place (v : Json) (around : List Frame) : (place v around).Filled := by
  match around with
  | [] => trivial
  | .array done :: around => exact List.cons_ne_nil _ _
  | .object done name :: around => exact List.cons_ne_nil _ _

theorem written_acceptValue {around : List Frame} {t : Token} {e : Expects} (h : acceptValue around t = some e) :
    e.Filled ∧ e.written = writtenAround around ++ [t] := by
  cases t <;> simp only [acceptValue, Option.some.injEq, reduceCtorEq] at h <;> subst h
  case openBrace => exact ⟨trivial, rfl⟩
  case openBracket => exact ⟨trivial, rfl⟩
  all_goals exact ⟨filled_place _ _, written_place _ _⟩

theorem accept_valueOrClose (around : List Frame) {t : Token} (h : t ≠ .closeBracket) :
    accept (.valueOrClose around) t = acceptValue (.array [] :: around) t := by
  cases t <;> first | rfl | exact absurd rfl h

/-- A token that is read is added to what has been read. -/
theorem written_accept {e next : Expects} {t : Token} (filled : e.Filled) (h : accept e t = some next) :
    next.Filled ∧ next.written = e.written ++ [t] := by
  cases e with
  | value around => exact written_acceptValue h
  | valueOrClose around =>
    by_cases closes : t = .closeBracket
    · subst closes
      simp only [accept, Option.some.injEq] at h
      subst h
      exact ⟨filled_place _ _, by rw [written_place]; simp [tokens, Expects.written]⟩
    · rw [accept_valueOrClose around closes] at h
      obtain ⟨kept, text⟩ := written_acceptValue h
      refine ⟨kept, ?_⟩
      rw [text]
      simp [writtenAround_cons, Frame.written, commaItems, Expects.written]
  | commaOrBracket done around =>
    obtain ⟨item, done, rfl⟩ := List.exists_cons_of_ne_nil filled
    cases t <;> simp only [accept, Option.some.injEq, reduceCtorEq] at h <;> subst h
    case comma =>
      exact ⟨trivial, by simp [Expects.written, writtenAround_cons, Frame.written, commaItems]⟩
    case closeBracket =>
      refine ⟨filled_place _ _, ?_⟩
      rw [written_place, List.reverse_cons, tokens_array_concat]
      simp [Expects.written]
  | nameOrClose around =>
    cases t <;> simp only [accept, Option.some.injEq, reduceCtorEq] at h <;> subst h
    case closeBrace => exact ⟨filled_place _ _, by rw [written_place]; simp [tokens, Expects.written]⟩
    case string under => exact ⟨trivial, by simp [Expects.written, commaMembers]⟩
  | name done around =>
    cases t <;> simp only [accept, Option.some.injEq, reduceCtorEq] at h
    case string under =>
      subst h
      exact ⟨trivial, by simp [Expects.written]⟩
  | colon done under around =>
    cases t <;> simp only [accept, Option.some.injEq, reduceCtorEq] at h
    case colon =>
      subst h
      exact ⟨trivial, by simp [Expects.written, writtenAround_cons, Frame.written]⟩
  | commaOrBrace done around =>
    obtain ⟨m, done, rfl⟩ := List.exists_cons_of_ne_nil filled
    cases t <;> simp only [accept, Option.some.injEq, reduceCtorEq] at h <;> subst h
    case comma => exact ⟨trivial, by simp [Expects.written, commaMembers]⟩
    case closeBrace =>
      refine ⟨filled_place _ _, ?_⟩
      rw [written_place, List.reverse_cons, tokens_object_concat]
      simp [Expects.written]
  | nothing value => simp [accept] at h

/-- What is read to its end are the tokens of the value. -/
theorem written_of_readTokens {v : Json} {e : Expects} {ts : List Token} (filled : e.Filled)
    (h : readTokens e ts = some v) : e.written ++ ts = v.tokens := by
  induction ts generalizing e with
  | nil =>
    cases e with
    | nothing value =>
      simp only [readTokens, Option.some.injEq] at h
      simp [h, Expects.written]
    | _ => simp [readTokens] at h
  | cons t ts ih =>
    cases step : accept e t with
    | none => simp [readTokens, step] at h
    | some next =>
      simp only [readTokens, step] at h
      obtain ⟨kept, text⟩ := written_accept filled step
      rw [← ih kept h, text, List.append_assoc, List.singleton_append]

/-- A value is read from its own tokens and from no others. -/
theorem ofTokens?_eq_some_iff {ts : List Token} {v : Json} : ofTokens? ts = some v ↔ ts = v.tokens := by
  constructor
  · intro h
    simpa [Expects.written, writtenAround] using written_of_readTokens (e := .value []) trivial h
  · rintro rfl
    exact ofTokens?_tokens v

/-- A text is read as a value exactly if it is spelled from the tokens of the value. -/
theorem parseScanned_eq_some_iff {cs : List (Option Char)} {v : Json} :
    parseScanned cs = some v ↔ Spelled v.tokens cs := by
  simp [parseScanned, Option.bind_eq_some_iff, ofTokens?_eq_some_iff, scan_eq_some_iff]

/-! ## Byte strings -/

/-- A value of which a byte string is a text. -/
def WrittenIn (value : Json) (bytes : List UInt8) : Prop :=
  Spelled value.tokens (Text.scan bytes)

/-- A byte string is a text of one value at most. -/
theorem WrittenIn.unique {v w : Json} {bytes : List UInt8} (hv : v.WrittenIn bytes) (hw : w.WrittenIn bytes) :
    v = w := by
  have read := parseScanned_eq_some_iff.2 hv
  rw [parseScanned_eq_some_iff.2 hw] at read
  exact (Option.some.inj read).symm

/-! ## How deep the containers are nested -/

mutual

/-- How many containers are nested in a value, itself among them. -/
def depth : Json → Nat
  | array items => itemsDepth items + 1
  | object members => membersDepth members + 1
  | _ => 0

/-- How deep the deepest item is. -/
def itemsDepth : List Json → Nat
  | [] => 0
  | item :: items => max (depth item) (itemsDepth items)

/-- How deep the deepest value of members is. -/
def membersDepth : List (Option String × Json) → Nat
  | [] => 0
  | (_, value) :: members => max (depth value) (membersDepth members)

end

mutual

/-- Behind a value as many containers are open as before it, and the deepest nesting is the one inside it if that is
deeper. -/
theorem nesting_tokens (v : Json) {around deepest : Nat} (h : around ≤ deepest) (rest : List Token) :
    nesting around deepest (v.tokens ++ rest) = nesting around (max deepest (around + v.depth)) rest := by
  match v with
  | .null | .bool _ | .number _ | .string _ => simp [tokens, nesting, depth, h]
  | .array [] => simp [tokens, nesting, depth, itemsDepth]
  | .array (item :: items) =>
    simp only [tokens, List.cons_append, List.append_assoc, nesting]
    rw [nesting_tokens item (by omega), nesting_itemTokens items (by omega)]
    congr 1
    simp only [depth, itemsDepth]
    omega
  | .object [] => simp [tokens, nesting, depth, membersDepth]
  | .object ((name, value) :: members) =>
    simp only [tokens, List.cons_append, List.append_assoc, nesting]
    rw [nesting_tokens value (by omega), nesting_memberTokens members (by omega)]
    congr 1
    simp only [depth, membersDepth]
    omega

theorem nesting_itemTokens (items : List Json) {around deepest : Nat} (h : around + 1 ≤ deepest) (rest : List Token) :
    nesting (around + 1) deepest (itemTokens items ++ rest) =
      nesting around (max deepest (around + 1 + itemsDepth items)) rest := by
  match items with
  | [] => simp [itemTokens, nesting, itemsDepth, h]
  | item :: items =>
    simp only [itemTokens, List.cons_append, List.append_assoc, nesting]
    rw [nesting_tokens item h, nesting_itemTokens items (by omega)]
    congr 1
    simp only [itemsDepth]
    omega

theorem nesting_memberTokens (members : List (Option String × Json)) {around deepest : Nat} (h : around + 1 ≤ deepest)
    (rest : List Token) :
    nesting (around + 1) deepest (memberTokens members ++ rest) =
      nesting around (max deepest (around + 1 + membersDepth members)) rest := by
  match members with
  | [] => simp [memberTokens, nesting, membersDepth, h]
  | (name, value) :: members =>
    simp only [memberTokens, List.cons_append, List.append_assoc, nesting]
    rw [nesting_tokens value h, nesting_memberTokens members (by omega)]
    congr 1
    simp only [membersDepth]
    omega

end

/-- The deepest nesting in the tokens of a value is that of the value. -/
theorem nesting_value (v : Json) : nesting 0 0 v.tokens = v.depth := by
  simpa [nesting] using nesting_tokens v (Nat.le_refl 0) []

/-! ## What is written anew -/

/-- A value that can be read as a whole: its containers are nested less than 128 deep, its strings and names are texts
and its numbers are in the range of doubles. -/
structure Legible (v : Json) : Prop where
  shallow : v.depth < 128
  readable : ∀ t ∈ v.tokens, t.isReadable = true

/-- A text is written anew for readers exactly if it is the text of a value that can be read as a whole, and then it
is that value that is written. -/
theorem indentedText?_eq_some_iff {cs : List (Option Char)} {text : String} :
    indentedText? cs = some text ↔ ∃ v : Json, Spelled v.tokens cs ∧ v.Legible ∧ text = v.indented := by
  constructor
  · intro h
    obtain ⟨ts, scanned, h⟩ := Option.bind_eq_some_iff.1 h
    split at h
    · cases h
    split at h
    · obtain ⟨v, read, rfl⟩ := Option.map_eq_some_iff.1 h
      obtain rfl := ofTokens?_eq_some_iff.1 read
      rename_i shallow readable
      rw [nesting_value] at shallow
      exact ⟨v, scan_eq_some_iff.1 scanned, ⟨by omega, List.all_eq_true.1 readable⟩, rfl⟩
    · cases h
  · rintro ⟨v, spelled, legible, rfl⟩
    have shallow : ¬127 < nesting 0 0 v.tokens := by
      rw [nesting_value]
      exact Nat.not_lt.2 (Nat.le_of_lt_succ legible.shallow)
    simpa [indentedText?, scan_eq_some_iff.2 spelled, shallow, ofTokens?_tokens] using legible.readable

end ProxyForge.Json
