import OidFed.Js.Json

/-!
# Texts that are split

* `splitText_append`, `splitText_eq_singleton`: the first part of `text.split(separator)`.
* `eq_of_splitText_singleton`, `exists_of_splitText_cons`: the text that parts make.
-/

namespace Js.Json

theorem not_mem_splitOn {α : Type} [BEq α] [LawfulBEq α] (sep : α) (l : List α) :
    ∀ part ∈ l.splitOn sep, sep ∉ part := by
  rw [List.splitOn_eq_splitOnP]
  induction l with
  | nil => simp [List.splitOnP_nil]
  | cons x l ih =>
    rw [List.splitOnP_cons_eq_if_modifyHead]
    split
    · intro part hpart
      rcases List.mem_cons.mp hpart with rfl | hpart
      · simp
      · exact ih part hpart
    · rename_i hx
      cases hparts : l.splitOnP (· == sep) with
      | nil => simp
      | cons first rest =>
        rw [hparts] at ih
        intro part hpart
        rcases List.mem_cons.mp hpart with rfl | hpart
        · have hne : sep ≠ x := by
            rintro rfl
            exact hx (beq_self_eq_true sep)
          exact List.not_mem_cons_of_ne_of_not_mem hne (ih first List.mem_cons_self)
        · exact ih part (List.mem_cons_of_mem _ hpart)

/-- What is before the first separator is the first part. -/
theorem splitText_append {sep : Char} {text : String} (h : sep ∉ text.toList) (rest : String) :
    splitText sep (text ++ String.singleton sep ++ rest) = text :: splitText sep rest := by
  have hlist : (text ++ String.singleton sep ++ rest).toList = text.toList ++ sep :: rest.toList := by
    simp
  rw [splitText, hlist, List.splitOn_append_cons_self_of_not_mem h, List.map_cons,
    String.ofList_toList, splitText]

theorem splitText_eq_singleton {sep : Char} {text : String} (h : sep ∉ text.toList) :
    splitText sep text = [text] := by
  rw [splitText, List.splitOn_eq_singleton h, List.map_singleton, String.ofList_toList]

/-- No part has a separator. -/
theorem not_mem_of_mem_splitText {sep : Char} {text part : String} (h : part ∈ splitText sep text) :
    sep ∉ part.toList := by
  obtain ⟨l, hl, rfl⟩ := List.mem_map.mp h
  rw [String.toList_ofList]
  exact not_mem_splitOn sep text.toList l hl

/-- A text is its parts with separators between them. -/
theorem intercalate_splitText (sep : Char) (text : String) :
    [sep].intercalate ((splitText sep text).map String.toList) = text.toList := by
  have hparts : (splitText sep text).map String.toList = text.toList.splitOn sep := by
    rw [splitText, List.map_map]
    simp
  rw [hparts, List.intercalate_splitOn]

theorem eq_of_splitText_singleton {sep : Char} {text first : String}
    (h : splitText sep text = [first]) : text = first := by
  have htext := intercalate_splitText sep text
  rw [h] at htext
  rw [String.ext_iff, ← htext]
  simp

/-- A text of more parts is the first one, a separator and the others. -/
theorem exists_of_splitText_cons {sep : Char} {text first : String} {more : List String}
    (h : splitText sep text = first :: more) (hne : more ≠ []) :
    ∃ rest, text = first ++ String.singleton sep ++ rest ∧ splitText sep rest = more := by
  have htext := intercalate_splitText sep text
  have hmore : more.map String.toList ≠ [] := by simpa using hne
  rw [h, List.map_cons, List.intercalate_cons_of_ne_nil hmore] at htext
  refine ⟨String.ofList ([sep].intercalate (more.map String.toList)), ?_, ?_⟩
  · rw [String.ext_iff, ← htext]
    simp
  · have hpart : ∀ l ∈ more.map String.toList, sep ∉ l := by
      intro l hl
      obtain ⟨part, hpart, rfl⟩ := List.mem_map.mp hl
      exact not_mem_of_mem_splitText (h ▸ List.mem_cons_of_mem first hpart)
    rw [splitText, String.toList_ofList, List.splitOn_intercalate sep hpart hmore, List.map_map]
    simp

end Js.Json
