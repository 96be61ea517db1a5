/-
# Blank characters

A character is blank when it carries the Unicode property `White_Space`.  The same notion serves
everywhere a text is trimmed or cut into words, so no two parts of the library can disagree on
what counts as layout.
-/
namespace CoverageEstimate.Text

/-- The `White_Space` characters: the ASCII controls from tab to carriage return, the space, the
next-line control, the no-break spaces, and the spaces and separators of general punctuation. -/
def isBlank (c : Char) : Bool :=
  let n := c.toNat
  (9 ≤ n && n ≤ 13) || n == 0x20 || n == 0x85 || n == 0xA0 || n == 0x1680 ||
    (0x2000 ≤ n && n ≤ 0x200A) || n == 0x2028 || n == 0x2029 || n == 0x202F || n == 0x205F ||
    n == 0x3000

/-- The text without the blanks it starts with. -/
def trimStart (cs : List Char) : List Char := cs.dropWhile isBlank

/-- The text without the blanks it ends with. -/
def trimEnd (cs : List Char) : List Char := (cs.reverse.dropWhile isBlank).reverse

/-- The text without the blanks around it. -/
def trim (cs : List Char) : List Char := trimEnd (trimStart cs)

/-- The maximal runs of non-blank characters, from left to right. -/
def tokens : List Char → List (List Char)
  | [] => []
  | c :: cs =>
    if isBlank c then tokens cs
    else
      match cs with
      | [] => [[c]]
      | d :: _ =>
        if isBlank d then [c] :: tokens cs
        else
          match tokens cs with
          | [] => [[c]]
          | t :: ts => (c :: t) :: ts

/-- No token has a blank in it. -/
theorem not_isBlank_of_mem_tokens {cs t : List Char} (ht : t ∈ tokens cs) :
    ∀ c ∈ t, isBlank c = false := by
  induction cs generalizing t with
  | nil => exact absurd ht List.not_mem_nil
  | cons c cs ih =>
    unfold tokens at ht
    split at ht
    · exact ih ht
    · rename_i hc
      have hc : isBlank c = false := by simpa using hc
      split at ht
      · simp only [List.mem_singleton] at ht
        subst ht
        simpa using hc
      · rename_i d rest
        split at ht
        · rcases List.mem_cons.mp ht with rfl | ht
          · simpa using hc
          · exact ih ht
        · split at ht
          · simp only [List.mem_singleton] at ht
            subst ht
            simpa using hc
          · rename_i u us hu
            rcases List.mem_cons.mp ht with rfl | ht
            · intro x hx
              rcases List.mem_cons.mp hx with rfl | hx
              · exact hc
              · exact ih (hu ▸ List.mem_cons_self) x hx
            · exact ih (hu ▸ List.mem_cons_of_mem _ ht)

/-- No token is empty. -/
theorem ne_nil_of_mem_tokens {cs t : List Char} (ht : t ∈ tokens cs) : t ≠ [] := by
  induction cs generalizing t with
  | nil => exact absurd ht List.not_mem_nil
  | cons c cs ih =>
    unfold tokens at ht
    split at ht
    · exact ih ht
    · split at ht
      · simp_all
      · split at ht
        · rcases List.mem_cons.mp ht with rfl | ht
          · simp
          · exact ih ht
        · split at ht
          · simp_all
          · rename_i u us hu
            rcases List.mem_cons.mp ht with rfl | ht
            · simp
            · exact ih (hu ▸ List.mem_cons_of_mem _ ht)

end CoverageEstimate.Text
