/-!
# Text/Pieces — cutting a text at a separator

`pieces sep s` is what stands before, between and after the separators of a text, so there is always
one piece more than there are separators (`length_pieces`), and no piece holds a separator.
-/

namespace Stencil.Text

/-- The pieces of a text between the occurrences of a separator. -/
def pieces (sep : Char) : List Char → List (List Char)
  | [] => [[]]
  | c :: rest =>
    if c = sep then [] :: pieces sep rest
    else
      match pieces sep rest with
      | [] => [[c]]
      | piece :: more => (c :: piece) :: more

@[simp] theorem pieces_nil (sep : Char) : pieces sep [] = [[]] := rfl

theorem pieces_ne_nil (sep : Char) (s : List Char) : pieces sep s ≠ [] := by
  cases s with
  | nil => simp
  | cons c rest =>
    unfold pieces
    split
    · simp
    · split <;> simp

theorem length_pieces (sep : Char) (s : List Char) :
    (pieces sep s).length = s.count sep + 1 := by
  induction s with
  | nil => rfl
  | cons c rest ih =>
    unfold pieces
    split
    · rename_i h
      simp [h, ih]
    · rename_i h
      split
      · rename_i hp
        exact absurd hp (pieces_ne_nil sep rest)
      · rename_i piece more hp
        rw [hp] at ih
        simpa [h] using ih

theorem not_mem_of_mem_pieces {sep : Char} {s piece : List Char} (h : piece ∈ pieces sep s) :
    sep ∉ piece := by
  induction s generalizing piece with
  | nil => simp_all
  | cons c rest ih =>
    unfold pieces at h
    split at h
    · rcases List.mem_cons.1 h with rfl | h
      · simp
      · exact ih h
    · rename_i hc
      split at h
      · rename_i hp
        exact absurd hp (pieces_ne_nil sep rest)
      · rename_i first more hp
        rcases List.mem_cons.1 h with rfl | h
        · have := @ih first (by simp [hp])
          simp [this, Ne.symm hc]
        · exact ih (by simp [hp, h])

end Stencil.Text
