import Mathlib.Data.List.Infix

/-!
# Patterns without repetition

A pattern is a sequence of letters, read without regard to case, and of optional
characters of a class.  A text matches where some end of it begins with the
pattern.
-/

namespace TextPattern

/-- A place of a pattern. -/
inductive Item
  | letter (c : Char)
  /-- at most one character of the class -/
  | optional (inClass : Char → Bool)

/-- The same letter, in either case.  Letters outside ASCII have no case here. -/
def sameLetter (c d : Char) : Bool := c.toUpper = d.toUpper

/-- The pattern of a word: its letters, in either case. -/
abbrev word (text : String) : List Item := text.toList.map Item.letter

/-- The text begins with the pattern. -/
def begins : List Item → List Char → Bool
  | [], _ => true
  | .letter _ :: _, [] => false
  | .letter c :: rest, d :: text => sameLetter c d && begins rest text
  | .optional _ :: rest, [] => begins rest []
  | .optional inClass :: rest, d :: text =>
      (inClass d && begins rest text) || begins rest (d :: text)

/-- The pattern is somewhere in the text. -/
def test (pattern : List Item) (text : List Char) : Bool := text.tails.any (begins pattern)

/-- The text has every letter of a pattern that it begins with. -/
theorem exists_of_begins {c : Char} {pattern : List Item} {text : List Char}
    (h : begins pattern text = true) (hc : Item.letter c ∈ pattern) :
    ∃ d ∈ text, sameLetter c d = true := by
  fun_induction begins pattern text with
  | case1 => cases hc
  | case2 => cases h
  | case3 c' rest d text ih =>
      rw [Bool.and_eq_true] at h
      rcases List.mem_cons.mp hc with hhere | hlater
      · obtain rfl := Item.letter.inj hhere
        exact ⟨d, List.mem_cons_self .., h.1⟩
      · obtain ⟨d', hmem, hsame⟩ := ih h.2 hlater
        exact ⟨d', List.mem_cons_of_mem d hmem, hsame⟩
  | case4 inClass rest ih =>
      rcases List.mem_cons.mp hc with hhere | hlater
      · cases hhere
      · exact ih h hlater
  | case5 inClass rest d text ihTaken ihLeft =>
      rcases List.mem_cons.mp hc with hhere | hlater
      · cases hhere
      · rw [Bool.or_eq_true, Bool.and_eq_true] at h
        rcases h with ⟨-, htaken⟩ | hleft
        · obtain ⟨d', hmem, hsame⟩ := ihTaken htaken hlater
          exact ⟨d', List.mem_cons_of_mem d hmem, hsame⟩
        · exact ihLeft hleft hlater

/-- A letter of a pattern that is found stands in the text, in either case. -/
theorem exists_of_test {c : Char} {pattern : List Item} {text : List Char}
    (h : test pattern text = true) (hc : Item.letter c ∈ pattern) :
    ∃ d ∈ text, sameLetter c d = true := by
  obtain ⟨final, hfinal, hbegins⟩ := List.any_eq_true.mp h
  obtain ⟨d, hmem, hsame⟩ := exists_of_begins hbegins hc
  exact ⟨d, ((List.mem_tails _ _).mp hfinal).subset hmem, hsame⟩

end TextPattern
