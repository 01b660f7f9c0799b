import Mathlib.Data.List.Forall2
import ProxyForge.Deployment
import ProxyForge.Proofs.Literal.Integer

/-!
# Deployments are read from their literals

A deployment is read exactly when each of its literals is, and then every field has the value of its own literal and the
privileges are the pairs in their order (`ofLiterals_eq_ok_iff`). If some literal cannot be read, the fault is that of
the first such literal in the order of reading, which `inOrder` lists (`ofLiterals_eq_error_iff`). So a deployment that
is written down, its addresses checksummed and its integers in one of the two notations, is read back
(`Deployment.Writes.reads`).
-/

namespace ProxyForge

/-! ## What is read -/

/-- A privilege has the values of a pair of literals. -/
structure Privilege.Reads (p : Privilege) (literals : String × String) : Prop where
  holder : Address.ofLiteral literals.1 = .ok p.holder
  level : Word.ofLiteral literals.2 = .ok p.level

/-- A deployment has the values of its literals, each field of its own, and as many privileges in the same order. -/
structure Deployment.Reads (d : Deployment) (l : DeploymentLiterals) : Prop where
  logic : Address.ofLiteral l.logic = .ok d.logic
  token : Address.ofLiteral l.token = .ok d.token
  relayer : Address.ofLiteral l.relayer = .ok d.relayer
  fee : Word.ofLiteral l.fee = .ok d.fee
  registry : Address.ofLiteral l.registry = .ok d.registry
  privileges : List.Forall₂ Privilege.Reads d.privileges l.privileges

theorem Privilege.ofLiterals_eq_ok_iff {holder level : String} {p : Privilege} :
    ofLiterals holder level = .ok p ↔ p.Reads (holder, level) := by
  simp only [ofLiterals, bind_eq_ok_iff]
  constructor
  · rintro ⟨account, first, rank, second, same⟩
    cases same
    exact ⟨first, second⟩
  · rintro ⟨first, second⟩
    exact ⟨_, first, _, second, rfl⟩

theorem Privilege.listOfLiterals_eq_ok_iff {ls : List (String × String)} {ps : List Privilege} :
    listOfLiterals ls = .ok ps ↔ List.Forall₂ Reads ps ls := by
  induction ls generalizing ps with
  | nil =>
    rw [listOfLiterals, List.forall₂_nil_right_iff, Except.ok.injEq, eq_comm]
  | cons l ls ih =>
    simp only [listOfLiterals, bind_eq_ok_iff, ofLiterals_eq_ok_iff, ih]
    constructor
    · rintro ⟨p, first, ps, rest, same⟩
      cases same
      exact .cons first rest
    · rintro (_ | ⟨first, rest⟩)
      exact ⟨_, first, _, rest, rfl⟩

theorem Deployment.ofLiterals_eq_ok_iff {l : DeploymentLiterals} {d : Deployment} :
    ofLiterals l = .ok d ↔ d.Reads l := by
  simp only [ofLiterals, bind_eq_ok_iff, Privilege.listOfLiterals_eq_ok_iff]
  constructor
  · rintro ⟨privileges, hp, logic, hl, token, ht, relayer, hr, fee, hf, registry, hg, same⟩
    cases same
    exact ⟨hl, ht, hr, hf, hg, hp⟩
  · rintro ⟨hl, ht, hr, hf, hg, hp⟩
    exact ⟨_, hp, _, hl, _, ht, _, hr, _, hf, _, hg, rfl⟩

/-! ## What is refused -/

/-- One of the literals of a deployment, as what it has to be read. -/
inductive DeploymentLiteral where
  | address (literal : String)
  | integer (literal : String)

/-- The literals of a deployment in the order of reading: the privileges, of each the account before the level, and
then the other fields. -/
def DeploymentLiterals.inOrder (l : DeploymentLiterals) : List DeploymentLiteral :=
  l.privileges.flatMap (fun p => [.address p.1, .integer p.2]) ++
    [.address l.logic, .address l.token, .address l.relayer, .integer l.fee, .address l.registry]

namespace DeploymentLiteral

/-- A literal that can be read. -/
def IsReadable : DeploymentLiteral → Prop
  | address literal => ∃ a, Address.ofLiteral literal = .ok a
  | integer literal => ∃ w, Word.ofLiteral literal = .ok w

/-- A literal that is refused for a fault. -/
def HasFault : DeploymentLiteral → EncodingFault → Prop
  | address literal, fault => Address.ofLiteral literal = .error fault
  | integer literal, fault => Word.ofLiteral literal = .error fault

/-- The fault of the first literal that cannot be read. -/
inductive FirstFault : List DeploymentLiteral → EncodingFault → Prop where
  | here {x : DeploymentLiteral} {fault : EncodingFault} (refused : x.HasFault fault) (xs : List DeploymentLiteral) :
    FirstFault (x :: xs) fault
  | later {x : DeploymentLiteral} {fault : EncodingFault} {xs : List DeploymentLiteral} (readable : x.IsReadable)
    (rest : FirstFault xs fault) : FirstFault (x :: xs) fault

theorem firstFault_cons {x : DeploymentLiteral} {xs : List DeploymentLiteral} {fault : EncodingFault} :
    FirstFault (x :: xs) fault ↔ x.HasFault fault ∨ x.IsReadable ∧ FirstFault xs fault := by
  constructor
  · rintro (⟨refused, _⟩ | ⟨readable, rest⟩)
    · exact .inl refused
    · exact .inr ⟨readable, rest⟩
  · rintro (refused | ⟨readable, rest⟩)
    · exact .here refused xs
    · exact .later readable rest

theorem not_firstFault_nil {fault : EncodingFault} : ¬ FirstFault [] fault :=
  nofun

theorem isReadable_iff (x : DeploymentLiteral) : x.IsReadable ↔ ∀ fault, ¬ x.HasFault fault := by
  cases x with
  | address literal => cases read : Address.ofLiteral literal <;> simp [IsReadable, HasFault, read]
  | integer literal => cases read : Word.ofLiteral literal <;> simp [IsReadable, HasFault, read]

/-- There is a first fault unless all literals can be read. -/
theorem forall_isReadable_iff {xs : List DeploymentLiteral} :
    (∀ x ∈ xs, x.IsReadable) ↔ ∀ fault, ¬ FirstFault xs fault := by
  induction xs with
  | nil => simp [not_firstFault_nil]
  | cons x xs ih =>
    rw [List.forall_mem_cons, ih]
    constructor
    · rintro ⟨readable, rest⟩ fault first
      rcases firstFault_cons.1 first with refused | ⟨_, later⟩
      · exact x.isReadable_iff.1 readable fault refused
      · exact rest fault later
    · intro none
      have readable := x.isReadable_iff.2 fun fault refused => none fault (.here refused xs)
      exact ⟨readable, fun fault rest => none fault (.later readable rest)⟩

end DeploymentLiteral

open DeploymentLiteral

section Refusal

variable {α : Type} {fault : EncodingFault} {xs : List DeploymentLiteral}

/-! What stands behind a literal is read only if the literal is. -/

theorem Address.bind_ofLiteral_eq_error_iff {literal : String} {next : Address → Except EncodingFault α}
    (behind : ∀ a, next a = .error fault ↔ FirstFault xs fault) :
    (Address.ofLiteral literal >>= next) = .error fault ↔ FirstFault (.address literal :: xs) fault := by
  simp only [bind_eq_error_iff, behind, exists_and_right, firstFault_cons, HasFault, IsReadable]

theorem Word.bind_ofLiteral_eq_error_iff {literal : String} {next : Word → Except EncodingFault α}
    (behind : ∀ w, next w = .error fault ↔ FirstFault xs fault) :
    (Word.ofLiteral literal >>= next) = .error fault ↔ FirstFault (.integer literal :: xs) fault := by
  simp only [bind_eq_error_iff, behind, exists_and_right, firstFault_cons, HasFault, IsReadable]

theorem Privilege.bind_ofLiterals_eq_error_iff {holder level : String} {next : Privilege → Except EncodingFault α}
    (behind : ∀ p, next p = .error fault ↔ FirstFault xs fault) :
    (ofLiterals holder level >>= next) = .error fault ↔
      FirstFault (.address holder :: .integer level :: xs) fault := by
  rw [ofLiterals, bind_assoc]
  refine Address.bind_ofLiteral_eq_error_iff fun a => ?_
  rw [bind_assoc]
  refine Word.bind_ofLiteral_eq_error_iff fun w => ?_
  rw [pure_bind]
  exact behind _

/-- Privileges are read up to the first literal that cannot be read. -/
theorem Privilege.bind_listOfLiterals_eq_error_iff {ls : List (String × String)}
    {next : List Privilege → Except EncodingFault α} (behind : ∀ ps, next ps = .error fault ↔ FirstFault xs fault) :
    (listOfLiterals ls >>= next) = .error fault ↔
      FirstFault (ls.flatMap (fun p => [.address p.1, .integer p.2]) ++ xs) fault := by
  induction ls generalizing next with
  | nil => exact behind []
  | cons l ls ih =>
    rw [listOfLiterals, bind_assoc]
    refine bind_ofLiterals_eq_error_iff fun p => ?_
    rw [bind_assoc]
    refine ih fun ps => ?_
    rw [pure_bind]
    exact behind _

theorem Deployment.ofLiterals_eq_error_iff {l : DeploymentLiterals} :
    ofLiterals l = .error fault ↔ FirstFault l.inOrder fault := by
  rw [ofLiterals]
  refine Privilege.bind_listOfLiterals_eq_error_iff fun _ => ?_
  refine Address.bind_ofLiteral_eq_error_iff fun _ => ?_
  refine Address.bind_ofLiteral_eq_error_iff fun _ => ?_
  refine Address.bind_ofLiteral_eq_error_iff fun _ => ?_
  refine Word.bind_ofLiteral_eq_error_iff fun _ => ?_
  refine Address.bind_ofLiteral_eq_error_iff fun _ => ?_
  exact ⟨nofun, fun h => absurd h not_firstFault_nil⟩

theorem Deployment.exists_ofLiterals_iff {l : DeploymentLiterals} :
    (∃ d, ofLiterals l = .ok d) ↔ ∀ x ∈ l.inOrder, x.IsReadable := by
  rw [forall_isReadable_iff]
  constructor
  · rintro ⟨d, read⟩ fault first
    rw [ofLiterals_eq_error_iff.2 first] at read
    cases read
  · intro none
    cases read : ofLiterals l with
    | ok d => exact ⟨d, rfl⟩
    | error fault => exact absurd (ofLiterals_eq_error_iff.1 read) (none fault)

end Refusal

/-! ## Deployments that are written down -/

/-- The texts of an integer: its decimal number, or at most 64 hexadecimal digits of either case behind `0x`. -/
inductive Word.Writes (w : Word) : String → Prop where
  | decimal : Writes w w.decimal
  | hexadecimal {digits : List Char} (nonempty : digits ≠ []) (all : ∀ c ∈ digits, Hex.isDigit c = true)
    (short : digits.length ≤ 64) (number : Hex.number digits = w.toNat) :
    Writes w (String.ofList ('0' :: 'x' :: digits))

/-- The literals of a privilege. -/
structure Privilege.Writes (p : Privilege) (literals : String × String) : Prop where
  holder : literals.1 = p.holder.checksummed
  level : p.level.Writes literals.2

/-- The literals of a deployment: addresses with their checksums, and each integer in a notation of its own. -/
structure Deployment.Writes (d : Deployment) (l : DeploymentLiterals) : Prop where
  logic : l.logic = d.logic.checksummed
  token : l.token = d.token.checksummed
  relayer : l.relayer = d.relayer.checksummed
  fee : d.fee.Writes l.fee
  registry : l.registry = d.registry.checksummed
  privileges : List.Forall₂ Privilege.Writes d.privileges l.privileges

/-- The digits of bytes have the big-endian number of the bytes. -/
theorem Hex.number_encode (bs : List UInt8) : number (encode bs) = ofBigEndian bs := by
  rw [number, ← foldl_values (values_eq_ok_iff.1 (values_encode 0 bs)), foldl_halves, ofBigEndian]

/-- All digits of a word behind `0x` are one of its texts. -/
theorem Word.writes_hex (w : Word) : w.Writes ("0x" ++ w.hex) := by
  have text : "0x" ++ w.hex = String.ofList ('0' :: 'x' :: Hex.encode w.bytes) := by
    rw [← String.toList_inj, toList_mark_hex, String.toList_ofList]
  have length : (Hex.encode w.bytes).length = 64 := by rw [Hex.length_encode, length_bytes]
  have digits : ∀ c ∈ Hex.encode w.bytes, Hex.isDigit c = true :=
    fun c hc => Hex.isDigit_iff.2 (Hex.exists_value?_iff.2 (.inl (Hex.isLowerDigit_of_mem_encode hc)))
  rw [text]
  exact .hexadecimal (List.ne_nil_of_length_pos (by omega)) digits (by omega)
    (by rw [Hex.number_encode, ofBigEndian_bytes])

/-- Every text of an integer is read as the integer. -/
theorem Word.ofLiteral_of_writes {w : Word} {literal : String} (h : w.Writes literal) : ofLiteral literal = .ok w := by
  cases h with
  | decimal => exact ofLiteral_decimal w
  | @hexadecimal digits nonempty all short number =>
    have alphanum : ∀ c ∈ digits, c.isAlphanum = true := by
      intro c hc
      obtain ⟨v, worth⟩ := Hex.isDigit_iff.1 (all c hc)
      exact Hex.isAlphanum_of_value? worth
    have few : ¬ Literal.IsLong ('0' :: 'x' :: digits) := by
      rintro ⟨_, same, long⟩
      cases same
      omega
    rw [ofLiteral_eq_ok_iff, String.toList_ofList, Text.trim_marked alphanum, ← number]
    exact Literal.integer_of_denotes (.hexadecimal nonempty all) few (Literal.number_lt_of_short short)

theorem Privilege.Writes.reads {p : Privilege} {literals : String × String} (h : p.Writes literals) :
    p.Reads literals where
  holder := by rw [h.holder, Address.ofLiteral_checksummed]
  level := Word.ofLiteral_of_writes h.level

theorem Deployment.Writes.reads {d : Deployment} {l : DeploymentLiterals} (h : d.Writes l) : d.Reads l where
  logic := by rw [h.logic, Address.ofLiteral_checksummed]
  token := by rw [h.token, Address.ofLiteral_checksummed]
  relayer := by rw [h.relayer, Address.ofLiteral_checksummed]
  fee := Word.ofLiteral_of_writes h.fee
  registry := by rw [h.registry, Address.ofLiteral_checksummed]
  privileges := h.privileges.imp fun _ _ written => written.reads

namespace Deployment

/-- The literals of a deployment, with all its integers written in one way. -/
def literals (d : Deployment) (write : Word → String) : DeploymentLiterals where
  logic := d.logic.checksummed
  token := d.token.checksummed
  relayer := d.relayer.checksummed
  fee := write d.fee
  registry := d.registry.checksummed
  privileges := d.privileges.map fun p => (p.holder.checksummed, write p.level)

theorem writes_literals {write : Word → String} (each : ∀ w : Word, w.Writes (write w)) (d : Deployment) :
    d.Writes (d.literals write) where
  logic := rfl
  token := rfl
  relayer := rfl
  fee := each d.fee
  registry := rfl
  privileges := List.forall₂_map_right_iff.2 (List.forall₂_same.2 fun p _ => ⟨rfl, each p.level⟩)

/-- A deployment is read from literals exactly if each of them has the value of its field, and privileges are read in
their number and order. If all literals can be read there is such a deployment, and if not, the fault is that of the
first that cannot be read, in the order of reading. A deployment that is written down is read back, with each integer in
the one notation or the other. -/
theorem ofLiterals_result :
    (∀ l d, ofLiterals l = .ok d ↔ d.Reads l) ∧
    (∀ l, (∃ d, ofLiterals l = .ok d) ↔ ∀ x ∈ l.inOrder, x.IsReadable) ∧
    (∀ l fault, ofLiterals l = .error fault ↔ FirstFault l.inOrder fault) ∧
    (∀ d l, d.Writes l → ofLiterals l = .ok d) ∧
    (∀ d : Deployment, d.Writes (d.literals Word.decimal) ∧ d.Writes (d.literals fun w => "0x" ++ w.hex)) := by
  refine ⟨fun _ _ => ofLiterals_eq_ok_iff, fun _ => exists_ofLiterals_iff, fun _ _ => ofLiterals_eq_error_iff,
    fun _ _ written => ofLiterals_eq_ok_iff.2 written.reads, fun d => ?_⟩
  exact ⟨writes_literals (fun _ => .decimal) d, writes_literals Word.writes_hex d⟩

/-- A deployment with a fee in hexadecimal digits, some of them capitals, and two privileges of one account in either
notation. -/
theorem ofLiterals_mixed :
    ofLiterals {
      logic := (0xa1 : Address).checksummed, token := (0xb2 : Address).checksummed,
      relayer := (0xc3 : Address).checksummed, fee := "0x3E8", registry := (0xd4 : Address).checksummed,
      privileges := [((0xe5 : Address).checksummed, "3"), ((0xe5 : Address).checksummed, "0x07")] } =
    .ok {
      logic := 0xa1, token := 0xb2, relayer := 0xc3, fee := 1000, registry := 0xd4,
      privileges := [⟨0xe5, 3⟩, ⟨0xe5, 7⟩] } := by
  have fee : Word.Writes 1000 (String.ofList ('0' :: 'x' :: ['3', 'E', '8'])) :=
    .hexadecimal (by decide) (List.all_eq_true.1 rfl) (by decide) (by decide)
  have first : Word.Writes 3 (Word.decimal 3) := .decimal
  have second : Word.Writes 7 (String.ofList ('0' :: 'x' :: ['0', '7'])) :=
    .hexadecimal (by decide) (List.all_eq_true.1 rfl) (by decide) (by decide)
  refine ofLiterals_result.2.2.2.1 _ _ ⟨rfl, rfl, rfl, fee, rfl, ?_⟩
  exact .cons ⟨rfl, first⟩ (.cons ⟨rfl, second⟩ .nil)

end Deployment

end ProxyForge
