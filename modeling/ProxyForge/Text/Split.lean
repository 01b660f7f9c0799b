/-!
# Cutting a text into pieces

`splitAtEvery p` cuts a list of characters at every character of a class and drops the characters it cuts at. Lines,
the identifiers of a version, the components of a path and the words of a line are all such pieces.
`splitAtEvery_append_cons` says that what stands before a cut and what stands behind it do not see each other.
-/

namespace ProxyForge.Text

/-- The stretches of a text between the characters of a class; a text without one is a single stretch. -/
def splitAtEvery (p : Char → Bool) : List Char → List (List Char)
  | [] => [[]]
  | c :: cs =>
    if p c then [] :: splitAtEvery p cs
    else match splitAtEvery p cs with
      | [] => [[c]]
      | w :: ws => (c :: w) :: ws

theorem splitAtEvery_ne_nil (p : Char → Bool) (cs : List Char) : splitAtEvery p cs ≠ [] := by
  cases cs with
  | nil => simp [splitAtEvery]
  | cons c cs =>
    by_cases h : p c = true
    · simp [splitAtEvery, h]
    · simp only [splitAtEvery, h, Bool.false_eq_true, if_false]
      split <;> simp

/-- A text without a cut is one stretch. -/
theorem splitAtEvery_of_forall {p : Char → Bool} {cs : List Char} (h : ∀ c ∈ cs, p c = false) :
    splitAtEvery p cs = [cs] := by
  induction cs with
  | nil => rfl
  | cons c cs ih => simp_all [splitAtEvery]

/-- What stands before a cut and what stands behind it are cut on their own. -/
theorem splitAtEvery_append_cons {p : Char → Bool} {c : Char} (h : p c = true) (as bs : List Char) :
    splitAtEvery p (as ++ c :: bs) = splitAtEvery p as ++ splitAtEvery p bs := by
  induction as with
  | nil => simp [splitAtEvery, h]
  | cons a as ih =>
    by_cases ha : p a = true
    · simp [splitAtEvery, ha, ih]
    · simp only [List.cons_append, splitAtEvery, ha, ih]
      cases hs : splitAtEvery p as with
      | nil => exact absurd hs (splitAtEvery_ne_nil p as)
      | cons w ws => simp

/-- No stretch holds a character of the class. -/
theorem forall_of_mem_splitAtEvery {p : Char → Bool} {cs w : List Char} (hw : w ∈ splitAtEvery p cs) :
    ∀ c ∈ w, p c = false := by
  induction cs generalizing w with
  | nil => simp_all [splitAtEvery]
  | cons a as ih =>
    by_cases ha : p a = true
    · simp only [splitAtEvery, ha, if_true, List.mem_cons] at hw
      rcases hw with rfl | hw
      · simp
      · exact ih hw
    · cases hs : splitAtEvery p as with
      | nil => exact absurd hs (splitAtEvery_ne_nil p as)
      | cons v vs =>
        simp only [splitAtEvery, ha, hs, Bool.false_eq_true, if_false, List.mem_cons] at hw
        rcases hw with rfl | hw
        · intro c hc
          rcases List.mem_cons.1 hc with rfl | hc
          · simpa using ha
          · exact ih (hs ▸ List.mem_cons_self) c hc
        · exact ih (hs ▸ List.mem_cons_of_mem _ hw)

/-- The lines of a text: the stretches between line feeds. A carriage return in front of a line feed stays
in its line, where it counts as a blank. -/
def lines (cs : List Char) : List (List Char) :=
  splitAtEvery (· == '\n') cs

end ProxyForge.Text
