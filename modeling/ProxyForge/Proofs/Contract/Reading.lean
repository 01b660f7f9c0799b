import Mathlib.Data.List.Basic
import Mathlib.Data.List.TakeWhile
import ProxyForge.Contract.Source
import ProxyForge.Proofs.Literal

/-!
# Reading source text

What a source unit says is read from its lines alone. A line of a function body is recognised by what it begins and
ends with, and its arguments, separated by commas, are read as literals; lines of no such form say nothing. A function
is the lines behind its header up to the brace that closes it.
-/

namespace ProxyForge.Contract

/-- A stored value as the machine sees it. -/
def Operand.value : Operand → Word
  | integer value => value
  | address value => value.toWord

namespace Reading

/-! ## Lines -/

/-- A line without its indentation. -/
def unindented (line : List Char) : List Char :=
  line.dropWhile (· == '\t')

/-- What stands between a front and a back, if a text has both. -/
def between? (front back : String) (cs : List Char) : Option (List Char) :=
  (front.toList.isPrefixOf? cs).bind back.toList.isSuffixOf?

/-- The stretches between commas, each without the blanks in front of it. -/
def items (cs : List Char) : List (List Char) :=
  (Text.splitAtEvery (· == ',') cs).map (·.dropWhile (· == ' '))

/-- The lines of a function: those behind its header, up to the brace that closes it. -/
def functionLines (header : String) (lines : List (List Char)) : List (List Char) :=
  ((lines.dropWhile (· != header.toList)).drop 1).takeWhile (· != "\t\x7d".toList)

/-! ## Literals -/

/-- The slot of a literal: 32 bytes, in digits behind `0x`. -/
def slot? (literal : List Char) : Option Word :=
  match (between? "0x" "" literal).map Hex.decode with
  | some (.ok bytes) => if bytes.length = 32 then some (Word.ofBytes bytes) else none
  | _ => none

/-- The number of a literal, decimal or in digits behind `0x`. -/
def number? (literal : List Char) : Option Word :=
  (Word.ofLiteral (String.ofList literal)).toOption

/-- The address of a literal. -/
def address? (literal : List Char) : Option Address :=
  (Address.ofLiteral (String.ofList literal)).toOption

/-- The stored value of a literal: an address behind `0x`, otherwise an integer. -/
def operand? (literal : List Char) : Option Operand :=
  if (between? "0x" "" literal).isSome then (address? literal).map .address else (number? literal).map .integer

/-! ## What a line says -/

/-- The slot and the literal of the value of a line that stores. -/
def store? (cs : List Char) : Option (Word × List Char) :=
  match (between? "sstore(" ")" cs).map items with
  | some [slot, value] => (slot? slot).map (·, value)
  | _ => none

/-- The token, the recipient and the amount of a line that transfers. -/
def transfer? (cs : List Char) : Option (Address × Address × Word) :=
  match (between? "SafeERC20.transfer(" ");" cs).map items with
  | some [token, recipient, amount] => do
    let token ← (between? "address(" ")" token).bind address?
    let recipient ← (between? "address(" ")" recipient).bind address?
    let amount ← (between? "uint256(" ")" amount).bind number?
    return (token, recipient, amount)
  | _ => none

/-- The contract of a line that names the one a call is handed over to. -/
def target? (cs : List Char) : Option Address :=
  (between? "address to = address(" ");" cs).bind address?

/-- The gas kept back in a line that hands a call over. -/
def reserve? (cs : List Char) : Option UInt64 :=
  (between? "let result := delegatecall(sub(gas(), " "), to, 0, calldatasize(), 0, 0)" cs).bind fun digits =>
    (Literal.decimal 0 digits).toOption.map UInt64.ofNat

/-! ## Lemmas -/

theorem between?_append (front back : String) (inside : List Char) :
    between? front back (front.toList ++ inside ++ back.toList) = some inside := by
  have rest : front.toList.isPrefixOf? (front.toList ++ (inside ++ back.toList)) = some (inside ++ back.toList) :=
    List.isPrefixOf?_eq_some_iff_append_eq.2 rfl
  rw [between?, List.append_assoc, rest]
  exact List.isSuffixOf?_eq_some_iff_append_eq.2 rfl

theorem between?_toList (front inside back : String) :
    between? front back (front ++ inside ++ back).toList = some inside.toList := by
  rw [String.toList_append, String.toList_append, between?_append]

/-- A text that begins with another character has not the front. -/
theorem between?_eq_none {front : String} {cs : List Char} {a b : Char} (hf : front.toList.head? = some a)
    (hc : cs.head? = some b) (ne : a ≠ b) (back : String) : between? front back cs = none := by
  cases hp : front.toList.isPrefixOf? cs with
  | none => rw [between?, hp]; rfl
  | some rest =>
    have whole := List.isPrefixOf?_eq_some_iff_append_eq.1 hp
    rw [← whole, List.head?_append, hf] at hc
    exact absurd (Option.some.inj hc) ne

theorem unindented_replicate {cs : List Char} (h : cs.head? ≠ some '\t') (depth : Nat) :
    unindented (List.replicate depth '\t' ++ cs) = cs := by
  have rest : cs.dropWhile (· == '\t') = cs := by
    cases cs with
    | nil => rfl
    | cons c cs => exact List.dropWhile_cons_of_neg (by simpa using h)
  rw [unindented, List.dropWhile_append_of_pos (by simp), rest]

theorem functionLines_append {header : String} {before inside : List (List Char)}
    (hb : ∀ l ∈ before, l ≠ header.toList) (hi : ∀ l ∈ inside, l ≠ "\t\x7d".toList) (after : List (List Char)) :
    functionLines header (before ++ header.toList :: inside ++ "\t\x7d".toList :: after) = inside := by
  have found : (before ++ header.toList :: inside ++ "\t\x7d".toList :: after).dropWhile (· != header.toList) =
      header.toList :: (inside ++ "\t\x7d".toList :: after) := by
    rw [List.append_assoc, List.dropWhile_append_of_pos (by simpa using hb)]
    exact List.dropWhile_cons_of_neg (by simp)
  have stop : ("\t\x7d".toList :: after).takeWhile (· != "\t\x7d".toList) = [] :=
    List.takeWhile_cons_of_neg (by simp)
  rw [functionLines, found, List.drop_succ_cons, List.drop_zero, List.takeWhile_append_of_pos (by simpa using hi), stop,
    List.append_nil]

theorem functionLines_eq_nil {header : String} {lines : List (List Char)} (h : ∀ l ∈ lines, l ≠ header.toList) :
    functionLines header lines = [] := by
  have found : lines.dropWhile (· != header.toList) = [] := List.dropWhile_eq_nil_iff.2 (by simpa using h)
  rw [functionLines, found]
  rfl

/-! ### Items -/

/-- A text that is one item wherever it stands between commas. -/
def IsItem (cs : List Char) : Prop :=
  ∀ c ∈ cs, c ≠ ',' ∧ c ≠ ' '

instance : DecidablePred IsItem :=
  fun cs => List.decidableBAll (fun c => c ≠ ',' ∧ c ≠ ' ') cs

theorem isItem_append {as bs : List Char} (ha : IsItem as) (hb : IsItem bs) : IsItem (as ++ bs) := by
  intro c hc
  rcases List.mem_append.1 hc with hc | hc
  · exact ha c hc
  · exact hb c hc

theorem isItem_of_isAlphanum {cs : List Char} (h : ∀ c ∈ cs, c.isAlphanum = true) : IsItem cs := by
  intro c hc
  refine ⟨?_, ?_⟩ <;> rintro rfl <;> exact absurd (h _ hc) (by decide)

theorem items_blank (cs : List Char) : items (' ' :: cs) = items cs := by
  have comma : (' ' == ',') = false := rfl
  cases hs : Text.splitAtEvery (· == ',') cs with
  | nil => exact absurd hs (Text.splitAtEvery_ne_nil _ cs)
  | cons w ws => simp only [items, Text.splitAtEvery, comma, hs]; rfl

theorem dropWhile_blank_of_isItem {cs : List Char} (h : IsItem cs) : cs.dropWhile (· == ' ') = cs := by
  cases cs with
  | nil => rfl
  | cons c cs => exact List.dropWhile_cons_of_neg (by simpa using (h c (by simp)).2)

theorem items_single {cs : List Char} (h : IsItem cs) : items cs = [cs] := by
  rw [items, Text.splitAtEvery_of_forall fun c hc => by simpa using (h c hc).1, List.map_singleton,
    dropWhile_blank_of_isItem h]

theorem items_cons {cs : List Char} (h : IsItem cs) (rest : List Char) :
    items (cs ++ ',' :: ' ' :: rest) = cs :: items rest := by
  have first : (Text.splitAtEvery (· == ',') cs).map (·.dropWhile (· == ' ')) = [cs] := items_single h
  rw [items, Text.splitAtEvery_append_cons rfl, List.map_append, first]
  exact congrArg (cs :: ·) (items_blank rest)

/-! ### Literals -/

theorem slot?_hex (w : Word) : slot? ('0' :: 'x' :: w.hex.toList) = some w := by
  have inside : between? "0x" "" ('0' :: 'x' :: w.hex.toList) = some w.hex.toList := by
    simpa using between?_append "0x" "" w.hex.toList
  rw [slot?, inside, Word.toList_hex, Option.map_some, Hex.decode_encode]
  simp only [Word.length_bytes, if_true, Word.ofBytes_bytes]

theorem number?_decimal (w : Word) : number? w.decimal.toList = some w := by
  rw [number?, String.ofList_toList, Word.ofLiteral_decimal]
  rfl

theorem address?_checksummed (a : Address) : address? a.checksummed.toList = some a := by
  rw [address?, String.ofList_toList, Address.ofLiteral_checksummed]
  rfl

theorem number?_literal (value : Operand) : number? value.literal.toList = some value.value := by
  cases value with
  | integer value => exact number?_decimal value
  | address value =>
    rw [Operand.literal, number?, String.ofList_toList, Word.ofLiteral_hex]
    rfl

theorem operand?_literal (value : Operand) : operand? value.literal.toList = some value := by
  cases value with
  | integer value =>
    have unmarked : between? "0x" "" value.decimal.toList = none := by
      cases hp : "0x".toList.isPrefixOf? value.decimal.toList with
      | none => rw [between?, hp]; rfl
      | some rest =>
        have whole := List.isPrefixOf?_eq_some_iff_append_eq.1 hp
        have x : 'x' ∈ value.decimal.toList := by
          rw [← whole]
          exact List.mem_append_left _ (by decide)
        exact absurd (Literal.isDigit_of_mem_toString x) (by decide)
    rw [Operand.literal, operand?, unmarked, number?_decimal]
    rfl
  | address value =>
    have marked : between? "0x" "" ("0x" ++ value.hex).toList = some value.hex.toList := by
      simpa using between?_append "0x" "" value.hex.toList
    rw [Operand.literal, operand?, marked, address?, String.ofList_toList, Address.ofLiteral_hex]
    rfl

theorem isItem_literal (value : Operand) : IsItem value.literal.toList := by
  cases value with
  | integer value => exact isItem_of_isAlphanum fun c hc => Word.isAlphanum_decimal hc
  | address value =>
    rw [Operand.literal, String.toList_append]
    exact isItem_append (by decide) (isItem_of_isAlphanum fun c hc => Address.isAlphanum_hex hc)

/-! ### Lines -/

theorem store?_storeText (slot : Word) (value : Operand) :
    store? (Instruction.storeText slot value).toList = some (slot, value.literal.toList) := by
  have mark : IsItem ['0', 'x'] := by decide
  have slotItem : IsItem ('0' :: 'x' :: slot.hex.toList) :=
    isItem_append mark (isItem_of_isAlphanum fun c hc => Word.isAlphanum_hex hc)
  have inside : between? "sstore(" ")" (Instruction.storeText slot value).toList =
      some (('0' :: 'x' :: slot.hex.toList) ++ ',' :: ' ' :: value.literal.toList) := by
    rw [← between?_append "sstore(" ")"]
    simp [Instruction.storeText]
  rw [store?, inside, Option.map_some, items_cons slotItem, items_single (isItem_literal value)]
  simp [slot?_hex]

/-- A call with one argument is one item. -/
theorem isItem_call {front literal back : String} (hf : IsItem front.toList) (hb : IsItem back.toList)
    (h : ∀ c ∈ literal.toList, c.isAlphanum = true) : IsItem (front ++ literal ++ back).toList := by
  rw [String.toList_append, String.toList_append]
  exact isItem_append (isItem_append hf (isItem_of_isAlphanum h)) hb

/-- The line of a transfer, in terms of its arguments. -/
theorem items_transferText (token recipient amount : String) (ht : ∀ c ∈ token.toList, c.isAlphanum = true)
    (hr : ∀ c ∈ recipient.toList, c.isAlphanum = true) (ha : ∀ c ∈ amount.toList, c.isAlphanum = true) :
    (between? "SafeERC20.transfer(" ");" (libraryName ++ ".transfer(address(" ++ token ++ "), address(" ++ recipient ++
      "), uint256(" ++ amount ++ "));").toList).map items =
        some [("address(" ++ token ++ ")").toList, ("address(" ++ recipient ++ ")").toList,
          ("uint256(" ++ amount ++ ")").toList] := by
  have itemOfAddress : ∀ text : String, (∀ c ∈ text.toList, c.isAlphanum = true) →
      IsItem ("address(" ++ text ++ ")").toList :=
    fun text h => isItem_call (by decide) (by decide) h
  have itemOfAmount : IsItem ("uint256(" ++ amount ++ ")").toList :=
    isItem_call (by decide) (by decide) ha
  have inside : (libraryName ++ ".transfer(address(" ++ token ++ "), address(" ++ recipient ++ "), uint256(" ++
      amount ++ "));").toList = "SafeERC20.transfer(".toList ++ (("address(" ++ token ++ ")").toList ++
        ',' :: ' ' :: (("address(" ++ recipient ++ ")").toList ++
          ',' :: ' ' :: ("uint256(" ++ amount ++ ")").toList)) ++ ");".toList := by
    simp [libraryName]
  rw [inside, between?_append, Option.map_some, items_cons (itemOfAddress token ht),
    items_cons (itemOfAddress recipient hr), items_single itemOfAmount]

theorem transfer?_transferText (token recipient : Address) (amount : Word) :
    transfer? (Instruction.transferText token recipient amount).toList = some (token, recipient, amount) := by
  have args := items_transferText token.checksummed recipient.checksummed amount.decimal
    (fun c hc => Address.isAlphanum_checksummed hc) (fun c hc => Address.isAlphanum_checksummed hc)
    (fun c hc => Word.isAlphanum_decimal hc)
  rw [transfer?, Instruction.transferText, args]
  simp only [between?_toList, Option.bind_some, address?_checksummed, number?_decimal]
  rfl

theorem target?_append {literal : String} {target : Address} (h : address? literal.toList = some target) :
    target? ("address to = address(" ++ literal ++ ");").toList = some target := by
  rw [target?, between?_toList, Option.bind_some, h]

theorem target?_targetText (target : Address) : target? (Instruction.targetText target).toList = some target := by
  unfold Instruction.targetText
  exact target?_append (address?_checksummed target)

theorem reserve?_delegatecall (gas : UInt64) :
    reserve? ("let result := delegatecall(sub(gas(), " ++ toString gas.toNat ++
      "), to, 0, calldatasize(), 0, 0)").toList = some gas := by
  have small : gas.toNat < Nat.pow 2 256 := Nat.lt_trans gas.toNat_lt (by decide)
  rw [reserve?, between?_toList, Option.bind_some, Literal.decimal_toString small]
  simp [Except.toOption]

/-! ### Other lines -/

theorem store?_eq_none {cs : List Char} {c : Char} (hc : cs.head? = some c) (ne : 's' ≠ c) : store? cs = none := by
  rw [store?, between?_eq_none rfl hc ne]
  rfl

theorem transfer?_eq_none {cs : List Char} {c : Char} (hc : cs.head? = some c) (ne : 'S' ≠ c) :
    transfer? cs = none := by
  rw [transfer?, between?_eq_none rfl hc ne]
  rfl

theorem target?_eq_none {cs : List Char} {c : Char} (hc : cs.head? = some c) (ne : 'a' ≠ c) : target? cs = none := by
  rw [target?, between?_eq_none rfl hc ne]
  rfl

end Reading

end ProxyForge.Contract
