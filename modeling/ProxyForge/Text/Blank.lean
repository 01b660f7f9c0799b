import ProxyForge.Text.Split

/-!
# Blank characters

`isBlank` is the Unicode property `White_Space`: twenty-five characters. Literals are trimmed by it and
lines are cut into words by it, so a no-break space or an ideographic space counts like a space.
-/

namespace ProxyForge.Text

/-- The property `White_Space`. -/
def isBlank (c : Char) : Bool :=
  let n := c.toNat
  (9 ≤ n && n ≤ 13) || n == 0x20 || n == 0x85 || n == 0xA0 || n == 0x1680 ||
    (0x2000 ≤ n && n ≤ 0x200A) || n == 0x2028 || n == 0x2029 || n == 0x202F || n == 0x205F || n == 0x3000

/-- A text without the blanks at its front. -/
def trimStart (cs : List Char) : List Char :=
  cs.dropWhile isBlank

/-- A text without the characters of a class at its end. -/
def dropEndWhile (p : Char → Bool) (cs : List Char) : List Char :=
  (cs.reverse.dropWhile p).reverse

/-- A text without the blanks at its end. -/
def trimEnd (cs : List Char) : List Char :=
  dropEndWhile isBlank cs

/-- A text without the blanks at both ends. -/
def trim (cs : List Char) : List Char :=
  trimEnd (trimStart cs)

/-- The words of a text: its stretches between blanks that are not empty. -/
def words (cs : List Char) : List (List Char) :=
  (splitAtEvery isBlank cs).filter fun w => !w.isEmpty

theorem dropEndWhile_append_of_forall {p : Char → Bool} (cs : List Char) {bs : List Char}
    (h : ∀ b ∈ bs, p b = true) : dropEndWhile p (cs ++ bs) = dropEndWhile p cs := by
  rw [dropEndWhile, List.reverse_append, List.dropWhile_append_of_pos (by simpa using h)]
  rfl

theorem dropEndWhile_cons_of_neg {p : Char → Bool} {c : Char} (h : p c = false) (cs : List Char) :
    dropEndWhile p (c :: cs) = c :: dropEndWhile p cs := by
  rw [dropEndWhile, dropEndWhile, List.reverse_cons, List.dropWhile_append]
  split
  · rename_i all
    simp [List.isEmpty_iff.1 all, h]
  · simp

/-- Characters outside of the class stay, whatever follows them. -/
theorem dropEndWhile_append_of_neg {p : Char → Bool} {cs : List Char} (h : ∀ c ∈ cs, p c = false) (bs : List Char) :
    dropEndWhile p (cs ++ bs) = cs ++ dropEndWhile p bs := by
  induction cs with
  | nil => rfl
  | cons c cs ih =>
    rw [List.cons_append, dropEndWhile_cons_of_neg (h c List.mem_cons_self),
      ih fun d hd => h d (List.mem_cons_of_mem _ hd), List.cons_append]

/-- What is left of the end of a text keeps all that stands in front of it. -/
theorem dropEndWhile_append_of_ne_nil {p : Char → Bool} (cs : List Char) {bs : List Char}
    (left : dropEndWhile p bs ≠ []) : dropEndWhile p (cs ++ bs) = cs ++ dropEndWhile p bs := by
  have found : (bs.reverse.dropWhile p).isEmpty = false := by simpa [dropEndWhile] using left
  rw [dropEndWhile, List.reverse_append, List.dropWhile_append, found, if_neg Bool.false_ne_true, List.reverse_append,
    List.reverse_reverse, dropEndWhile]

theorem dropEndWhile_of_getLast {p : Char → Bool} {cs : List Char} (kept : ∀ c, cs.getLast? = some c → p c = false) :
    dropEndWhile p cs = cs := by
  rw [dropEndWhile]
  cases found : cs.reverse with
  | nil => rw [List.reverse_eq_nil_iff.1 found]; rfl
  | cons c ds =>
    have last : cs.getLast? = some c := by rw [← List.head?_reverse, found]; rfl
    rw [List.dropWhile_cons_of_neg (by simp [kept c last]), ← found, List.reverse_reverse]

/-- The end of a text that goes is all of the class, and what is left does not end in it. -/
theorem dropEndWhile_eq_iff {p : Char → Bool} {cs ds : List Char} :
    dropEndWhile p cs = ds ↔
      ∃ behind, cs = ds ++ behind ∧ (∀ c ∈ behind, p c = true) ∧ ∀ c, ds.getLast? = some c → p c = false := by
  constructor
  · rintro rfl
    refine ⟨(cs.reverse.takeWhile p).reverse, ?_, fun c hc => ?_, fun c last => ?_⟩
    · rw [dropEndWhile, ← List.reverse_append, List.takeWhile_append_dropWhile, List.reverse_reverse]
    · exact List.all_eq_true.1 List.all_takeWhile c (List.mem_reverse.1 hc)
    · rw [dropEndWhile, List.getLast?_reverse] at last
      have stopped := List.head?_dropWhile_not p cs.reverse
      rw [last] at stopped
      simpa using stopped
  · rintro ⟨behind, rfl, all, kept⟩
    rw [dropEndWhile_append_of_forall ds all, dropEndWhile_of_getLast kept]

/-- Words in front of a blank and words behind it are found on their own. -/
theorem words_append_cons {c : Char} (h : isBlank c = true) (as bs : List Char) :
    words (as ++ c :: bs) = words as ++ words bs := by
  simp [words, splitAtEvery_append_cons h]

/-- Blanks in front of a text do not change its words. -/
theorem words_blank_append {gap : List Char} (h : ∀ c ∈ gap, isBlank c = true) (cs : List Char) :
    words (gap ++ cs) = words cs := by
  induction gap with
  | nil => rfl
  | cons c gap ih =>
    have rest := ih fun d hd => h d (List.mem_cons_of_mem _ hd)
    rw [← rest]
    simp [words, splitAtEvery, h c List.mem_cons_self]

theorem words_of_forall {w : List Char} (h : ∀ c ∈ w, isBlank c = false) (nonempty : w ≠ []) : words w = [w] := by
  simp [words, splitAtEvery_of_forall h, nonempty]

/-- What may stand behind a word: nothing, or a blank. -/
def StartsApart (cs : List Char) : Prop :=
  ∀ c, cs.head? = some c → isBlank c = true

instance : DecidablePred StartsApart
  | [] => .isTrue fun c hc => nomatch hc
  | c :: _ => decidable_of_iff (isBlank c = true) (by simp [StartsApart])

theorem StartsApart.of_forall {gap : List Char} (h : ∀ c ∈ gap, isBlank c = true) : StartsApart gap :=
  fun c hc => h c (List.mem_of_mem_head? hc)

theorem StartsApart.blank_append {gap : List Char} (h : ∀ c ∈ gap, isBlank c = true) (nonempty : gap ≠ [])
    (cs : List Char) : StartsApart (gap ++ cs) := by
  obtain ⟨d, gap, rfl⟩ := List.exists_cons_of_ne_nil nonempty
  intro c hc
  rw [← Option.some.inj hc]
  exact h d List.mem_cons_self

theorem StartsApart.dropWhile (cs : List Char) : StartsApart (cs.dropWhile fun c => !isBlank c) := by
  intro c hc
  have stopped := List.head?_dropWhile_not (fun c => !isBlank c) cs
  rw [hc] at stopped
  simpa using stopped

/-- A word ends at a blank. -/
theorem words_append_of_startsApart {w cs : List Char} (word : ∀ c ∈ w, isBlank c = false) (nonempty : w ≠ [])
    (apart : StartsApart cs) : words (w ++ cs) = w :: words cs := by
  cases cs with
  | nil => rw [List.append_nil, words_of_forall word nonempty]; rfl
  | cons c cs =>
    have blank : isBlank c = true := apart c rfl
    have skipped : words ([c] ++ cs) = words cs := words_blank_append (by simpa using blank) cs
    rw [words_append_cons blank, words_of_forall word nonempty, ← skipped]
    rfl

end ProxyForge.Text
