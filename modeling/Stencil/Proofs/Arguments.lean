import Mathlib
import Stencil.Arguments

/-!
# Proofs/Arguments — files and a folder on the command line

    file₁ … fileₙ --outdir folder

Words that look like no option are files (`tokens_words`, `readTokens_words`), and the word behind
an option is its value.  So a line of files and a folder asks for just these (`read_plain`).
-/

namespace Stencil.Arguments

/-- A word of its own: it looks like no option. -/
def IsWord (text : String) : Prop :=
  tokenOf text = .ok (.word text)

instance (text : String) : Decidable (IsWord text) :=
  inferInstanceAs (Decidable (_ = _))

theorem IsWord.ne_divider {text : String} (h : IsWord text) : text ≠ "--" := by
  rintro rfl
  exact absurd h (by decide)

/-- What words of their own are. -/
theorem tokens_words {words : List String} (h : ∀ word ∈ words, IsWord word)
    (rest : List String) :
    tokens (words ++ rest) = (tokens rest).map (words.map .word ++ ·) := by
  induction words with
  | nil =>
    cases htokens : tokens rest <;> simp [htokens, Except.map]
  | cons word words ih =>
    obtain ⟨hword, hwords⟩ := List.forall_mem_cons.mp h
    rw [List.cons_append, tokens, if_neg hword.ne_divider, hword, ih hwords]
    cases tokens rest <;> rfl

/-- Words of their own are files. -/
theorem readTokens_words (a : Arguments) (words : List String) (rest : List Token) :
    readTokens a .here false (words.map .word ++ rest) =
      readTokens { a with files := a.files ++ words } .here false rest := by
  induction words generalizing a with
  | nil => rw [List.append_nil]; rfl
  | cons word words ih =>
    rw [List.map_cons, List.cons_append, readTokens, if_neg (by decide), ih, List.append_assoc]
    rfl

/-- **A line of files and a folder** asks for just these. -/
theorem read_plain {files : List String} {folder : String} (hne : files ≠ [])
    (h : ∀ word ∈ folder :: files, IsWord word) :
    read (files ++ ["--outdir", folder]) = .ok { files := files, outdir := .value folder } := by
  obtain ⟨hfolder, hfiles⟩ := List.forall_mem_cons.mp h
  obtain ⟨first, others, rfl⟩ := List.exists_cons_of_ne_nil hne
  have houtdir : tokenOf "--outdir" = .ok (.option .outdir none) := by decide
  have htokens : tokens ["--outdir", folder] = .ok [.option .outdir none, .word folder] := by
    rw [tokens, if_neg (by decide), houtdir, tokens, if_neg hfolder.ne_divider, hfolder]
    rfl
  have hvalue (a : Arguments) : a.withValue folder .outdir =
      .ok { a with outdir := .value folder } := by
    rw [withValue, setting, if_neg hfolder.ne_divider]
    rfl
  rw [read, tokens_words hfiles, htokens]
  change readTokens {} .ahead false (.word first :: (others.map .word ++ _)) = _
  rw [readTokens, if_neg (by decide), readTokens_words, readTokens, if_neg (by decide)]
  simp only [hvalue]
  rfl

end Stencil.Arguments
