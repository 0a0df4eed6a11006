/-!
# Containment of texts

A text contains another when the other is a run of consecutive characters of it. Characters are
code points: nothing is folded, trimmed or normalised.

* `Text.contains`: containment, which holds of the empty part (`Text.contains_empty`);
* `Text.related`: containment one way or the other, the loose comparison of free texts.
-/

namespace Homestead.Text

/-- Does `part` stand somewhere in `text`? -/
def containsRun : List Char → List Char → Bool
  | [], part => part.isEmpty
  | c :: rest, part => part.isPrefixOf (c :: rest) || containsRun rest part

/-- Does `text` contain `part`? -/
def contains (text part : String) : Bool := containsRun text.toList part.toList

/-- Does one of the two texts contain the other? -/
def related (a b : String) : Bool := contains a b || contains b a

theorem containsRun_iff {text part : List Char} :
    containsRun text part ↔ ∃ before after, text = before ++ part ++ after := by
  induction text with
  | nil =>
    simp only [containsRun, List.isEmpty_iff]
    constructor
    · rintro rfl
      exact ⟨[], [], rfl⟩
    · rintro ⟨before, after, h⟩
      simp only [List.nil_eq, List.append_eq_nil_iff] at h
      exact h.1.2
  | cons c rest ih =>
    simp only [containsRun, Bool.or_eq_true, List.isPrefixOf_iff_prefix, ih]
    constructor
    · rintro (⟨after, h⟩ | ⟨before, after, rfl⟩)
      · exact ⟨[], after, by simpa using h.symm⟩
      · exact ⟨c :: before, after, rfl⟩
    · rintro ⟨before, after, h⟩
      cases before with
      | nil => exact .inl ⟨after, by simpa using h.symm⟩
      | cons b before =>
        simp only [List.cons_append, List.cons.injEq] at h
        exact .inr ⟨before, after, by simpa using h.2⟩

theorem contains_iff {text part : String} : contains text part ↔
    ∃ before after, text.toList = before ++ part.toList ++ after := containsRun_iff

theorem contains_empty (text : String) : contains text "" :=
  contains_iff.2 ⟨[], text.toList, by simp⟩

theorem related_comm (a b : String) : related a b = related b a := Bool.or_comm ..

end Homestead.Text
