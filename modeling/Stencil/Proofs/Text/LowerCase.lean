import Stencil.Proofs.Text.Trim
import Stencil.Text.Case

/-!
# Proofs/Text/LowerCase — lower-casing settles a text

A character is *settled* when it is its own lower-case form.  Everything that lower-casing puts into
a text is settled (`isSettled_of_mem_lower`), hence the theorem `lower_lower`: **once is enough**,
the final sigma and the dotted `i` included.

Two facts say what lower-casing cannot bring into a text.  Below the small letters of ASCII it
brings nothing at all (`mem_of_mem_lower`), so a comma, an equals sign, a digit or a line end of the
result was in the text before.  And it makes no blank (`isTrimmed_lower`), so a trimmed text stays
trimmed.

All of it rests on three checks of the table `lowerRuns`, made run by run and not letter by letter.
-/

namespace Stencil.Text

/-! ## The runs of the table -/

namespace CaseRun

/-- The form of the run's first letter. -/
def lowest (r : CaseRun) : Nat := (r.first + r.shift).toNat

/-- The form of the run's last letter. -/
def highest (r : CaseRun) : Nat := (r.last + r.shift).toNat

/-- Whether the forms of a run's letters are seen to be no letters of another run: they lie beside
it, or between its letters where both runs take every second code point. -/
def misses (r other : CaseRun) : Bool :=
  Nat.blt r.highest other.first || Nat.blt other.last r.lowest ||
    other.step == 2 && (r.step == 2 || r.first == r.last) && (r.lowest + other.first) % 2 == 1

theorem covers_iff {r : CaseRun} {n : Nat} :
    r.covers n = true ↔ r.first ≤ n ∧ n ≤ r.last ∧ (n - r.first) % r.step = 0 := by
  simp [covers, and_assoc]

/-- **A run that misses another leads to none of its letters.** -/
theorem not_covers_of_misses {r other : CaseRun} {n t : Nat} (hm : r.misses other = true)
    (hr : 0 ≤ r.first + r.shift) (hn : r.covers n = true) (ht : (t : Int) = n + r.shift) :
    other.covers t = false := by
  rw [covers_iff] at hn
  rw [Bool.eq_false_iff, ne_eq, covers_iff]
  rintro ⟨hlo, hhi, hmod⟩
  simp only [misses, lowest, highest, Bool.or_eq_true, Bool.and_eq_true, Nat.blt_eq,
    beq_iff_eq] at hm
  rcases hm with (h | h) | ⟨⟨hstep, h | h⟩, hodd⟩
  · omega
  · omega
  · rw [hstep] at hmod
    rw [h] at hn
    omega
  · rw [hstep] at hmod
    omega

end CaseRun

/-- The forms are characters from the small letters of ASCII on, and `U+0130` is none of them. -/
theorem lowerRuns_forms : ∀ r ∈ lowerRuns, 0x61 ≤ r.first + r.shift ∧ r.highest < 0x110000 ∧
    (r.highest < 0xd800 ∨ 0xdfff < r.lowest) ∧ (r.highest < 0x130 ∨ 0x130 < r.lowest) := by
  decide +kernel

/-- No blank lies between the first and the last form of a run. -/
theorem lowerRuns_blank : ∀ r ∈ lowerRuns, ∀ b ∈ blankRanges, r.highest < b.1 ∨ b.2 < r.lowest := by
  decide +kernel

/-- No form is a letter of the table. -/
theorem lowerRuns_misses : (lowerRuns.all fun r => lowerRuns.all r.misses) = true := by
  decide +kernel

/-! ## The form of one character -/

/-- **A settled character** is its own lower-case form. -/
def IsSettled (c : Char) : Prop :=
  lowerChar c = [c]

instance (c : Char) : Decidable (IsSettled c) :=
  inferInstanceAs (Decidable (_ = _))

/-- The table has one character as the form of another. -/
def RunsTo (c d : Char) : Prop :=
  ∃ r ∈ lowerRuns, r.covers c.toNat = true ∧ (d.toNat : Int) = c.toNat + r.shift

/-- Beside the capital letters, ASCII is settled. -/
theorem isSettled_of_ascii {c : Char} (h : c.toNat < 0x80)
    (hc : ¬ (0x41 ≤ c.toNat ∧ c.toNat ≤ 0x5a)) : IsSettled c := by
  have hself : c.toLower = c := by
    rw [Char.toLower, dif_neg]
    rintro ⟨hlo, hhi⟩
    exact hc ⟨UInt32.le_iff_toNat_le.mp hlo, UInt32.le_iff_toNat_le.mp hhi⟩
  rw [IsSettled, lowerChar, if_neg (by omega), if_pos h, hself]

/-- The capital letters of ASCII lie in the first run. -/
theorem runsTo_toLower {c : Char} (hc : 0x41 ≤ c.toNat ∧ c.toNat ≤ 0x5a) : RunsTo c c.toLower := by
  have hval : c.val ≥ 'A'.val ∧ c.val ≤ 'Z'.val :=
    ⟨UInt32.le_iff_toNat_le.mpr hc.1, UInt32.le_iff_toNat_le.mpr hc.2⟩
  refine ⟨⟨0x41, 0x5a, 1, 32⟩, List.mem_cons_self,
    CaseRun.covers_iff.mpr ⟨hc.1, hc.2, Nat.mod_one _⟩, ?_⟩
  have hsum : (c.val + ('a'.val - 'A'.val)).toNat = c.val.toNat + 0x20 := by
    have hle : c.val.toNat ≤ 0x5a := hc.2
    rw [UInt32.toNat_add]
    change (c.val.toNat + 0x20) % 2 ^ 32 = _
    omega
  rw [Char.toLower, dif_pos hval]
  exact congrArg Int.ofNat hsum

namespace RunsTo

variable {c d : Char}

theorem le_toNat (h : RunsTo c d) : 0x61 ≤ d.toNat := by
  obtain ⟨r, hr, hc, hd⟩ := h
  have := (lowerRuns_forms r hr).1
  rw [CaseRun.covers_iff] at hc
  omega

theorem not_isBlank (h : RunsTo c d) : isBlank d = false := by
  obtain ⟨r, hr, hc, hd⟩ := h
  rw [CaseRun.covers_iff] at hc
  rw [Bool.eq_false_iff, ne_eq, isBlank, CodeRanges.holds_iff]
  rintro ⟨b, hb, hlo, hhi⟩
  have := lowerRuns_blank r hr b hb
  simp only [CaseRun.lowest, CaseRun.highest] at this
  omega

/-- **A form of the table is settled**: no run takes it any further. -/
theorem isSettled (h : RunsTo c d) : IsSettled d := by
  by_cases hascii : d.toNat < 0x80
  · have hle := h.le_toNat
    exact isSettled_of_ascii hascii (by omega)
  obtain ⟨r, hr, hc, hd⟩ := h
  have hne : d.toNat ≠ 0x130 := by
    have := (lowerRuns_forms r hr).2.2.2
    rw [CaseRun.covers_iff] at hc
    simp only [CaseRun.lowest, CaseRun.highest] at this
    omega
  have hfind : lowerRuns.find? (fun r => r.covers d.toNat) = none := by
    rw [List.find?_eq_none]
    intro other hother
    have hm := List.all_eq_true.mp (List.all_eq_true.mp lowerRuns_misses r hr) other hother
    have hpos : 0 ≤ r.first + r.shift := by
      have := (lowerRuns_forms r hr).1
      omega
    simp [CaseRun.not_covers_of_misses hm hpos hc hd]
  rw [IsSettled, lowerChar, if_neg hne, if_neg hascii, hfind]

end RunsTo

/-- The character of a run's form is the one with that code point. -/
theorem runsTo_ofNat {c : Char} {r : CaseRun} (hr : r ∈ lowerRuns) (hc : r.covers c.toNat = true) :
    RunsTo c (Char.ofNat (c.toNat + r.shift).toNat) := by
  have hforms := lowerRuns_forms r hr
  have hcov := CaseRun.covers_iff.mp hc
  simp only [CaseRun.lowest, CaseRun.highest] at hforms
  have hvalid : ((c.toNat : Int) + r.shift).toNat.isValidChar := by
    unfold Nat.isValidChar
    omega
  refine ⟨r, hr, hc, ?_⟩
  rw [Char.ofNat, dif_pos hvalid]
  change (((c.toNat : Int) + r.shift).toNat : Int) = _
  omega

/-- **The three kinds of lower-case forms**: the character itself, a form of the table, or the two
characters of `U+0130`. -/
theorem lowerChar_cases (c : Char) :
    IsSettled c ∨ (∃ d, RunsTo c d ∧ lowerChar c = [d]) ∨
      lowerChar c = [Char.ofNat 0x69, Char.ofNat 0x307] := by
  by_cases hdot : c.toNat = 0x130
  · exact Or.inr (Or.inr (by rw [lowerChar, if_pos hdot]))
  by_cases hascii : c.toNat < 0x80
  · by_cases hc : 0x41 ≤ c.toNat ∧ c.toNat ≤ 0x5a
    · refine Or.inr (Or.inl ⟨_, runsTo_toLower hc, ?_⟩)
      rw [lowerChar, if_neg hdot, if_pos hascii]
    · exact Or.inl (isSettled_of_ascii hascii hc)
  · rw [IsSettled, lowerChar, if_neg hdot, if_neg hascii]
    split
    next r hfind =>
      have hcov : r.covers c.toNat = true := by simpa using List.find?_some hfind
      exact Or.inr (Or.inl ⟨_, runsTo_ofNat (List.mem_of_find?_eq_some hfind) hcov, rfl⟩)
    next => exact Or.inl rfl

section MemLowerChar

variable {c d : Char}

/-- Whatever holds of a settled character that stands for itself, of the forms of the table and of
the two characters of `U+0130` holds of all that a character is lower-cased to. -/
theorem forall_mem_lowerChar {P : Char → Prop} (hself : IsSettled c → P c)
    (hrun : ∀ d, RunsTo c d → P d) (hdot : P (Char.ofNat 0x69) ∧ P (Char.ofNat 0x307))
    (hd : d ∈ lowerChar c) : P d := by
  obtain h | ⟨e, he, h⟩ | h := lowerChar_cases c
  · rw [h, List.mem_singleton] at hd
    exact hd ▸ hself h
  · rw [h, List.mem_singleton] at hd
    exact hd ▸ hrun e he
  · rw [h, List.mem_cons, List.mem_singleton] at hd
    rcases hd with rfl | rfl
    · exact hdot.1
    · exact hdot.2

theorem isSettled_of_mem_lowerChar (hd : d ∈ lowerChar c) : IsSettled d :=
  forall_mem_lowerChar id (fun _ h => h.isSettled) (by decide +kernel) hd

/-- Only a character that is settled already gives one below the small letters of ASCII. -/
theorem isSettled_of_mem_lowerChar_of_lt (hd : d ∈ lowerChar c) (hlt : d.toNat < 0x61) :
    IsSettled c := by
  refine forall_mem_lowerChar (P := fun d => d.toNat < 0x61 → IsSettled c) (fun h _ => h)
    (fun e he hlt => ?_) ⟨?_, ?_⟩ hd hlt
  · exact absurd he.le_toNat (Nat.not_le.mpr hlt)
  · exact fun h => absurd h (by decide)
  · exact fun h => absurd h (by decide)

/-- Only a blank gives a blank. -/
theorem isBlank_of_mem_lowerChar (hd : d ∈ lowerChar c) (hb : isBlank d = true) :
    isBlank c = true := by
  refine forall_mem_lowerChar (P := fun d => isBlank d = true → isBlank c = true) (fun _ h => h)
    (fun e he hb => ?_) ⟨?_, ?_⟩ hd hb
  · rw [he.not_isBlank] at hb
    cases hb
  · exact fun h => absurd h (by decide)
  · exact fun h => absurd h (by decide)

end MemLowerChar

/-! ## The form of a text -/

/-- The capital sigma is not settled, so the rule for it concerns no settled character. -/
theorem IsSettled.ne_capitalSigma {c : Char} (h : IsSettled c) : c ≠ capitalSigma := by
  rintro rfl
  exact absurd h (by decide +kernel)

/-- A text of settled characters is its own lower-case form. -/
theorem lowerAfter_eq_self {s : List Char} (h : ∀ c ∈ s, IsSettled c) :
    ∀ afterCased, lowerAfter afterCased s = s := by
  induction s with
  | nil => exact fun _ => rfl
  | cons c rest ih =>
    intro afterCased
    have hc : IsSettled c := h c List.mem_cons_self
    rw [lowerAfter, if_neg hc.ne_capitalSigma, hc, ih fun d hd => h d (List.mem_cons_of_mem c hd)]
    rfl

theorem lower_eq_self {s : List Char} (h : ∀ c ∈ s, IsSettled c) : lower s = s :=
  lowerAfter_eq_self h false

/-- What a single character contributes to the form of a text, wherever it stands: part of its own
form, or the final sigma for a capital one. -/
def Contributes (c d : Char) : Prop :=
  d ∈ lowerChar c ∨ c = capitalSigma ∧ d = finalSigma

namespace Contributes

variable {c d : Char}

theorem isSettled (h : Contributes c d) : IsSettled d := by
  rcases h with h | ⟨-, rfl⟩
  · exact isSettled_of_mem_lowerChar h
  · decide +kernel

theorem isSettled_of_lt (h : Contributes c d) (hlt : d.toNat < 0x61) : IsSettled c := by
  rcases h with h | ⟨-, rfl⟩
  · exact isSettled_of_mem_lowerChar_of_lt h hlt
  · exact absurd hlt (by decide)

theorem eq_of_isSettled (h : Contributes c d) (hc : IsSettled c) : d = c := by
  rcases h with h | ⟨rfl, -⟩
  · rwa [hc, List.mem_singleton] at h
  · exact absurd rfl hc.ne_capitalSigma

theorem not_isBlank (h : Contributes c d) (hc : isBlank c = false) : isBlank d = false := by
  rcases h with h | ⟨-, rfl⟩
  · rw [Bool.eq_false_iff] at hc ⊢
    exact fun hd => hc (isBlank_of_mem_lowerChar h hd)
  · decide

end Contributes

/-- **The first character decides how a form starts**, and the rest is a form again. -/
theorem lowerAfter_cons (afterCased : Bool) (c : Char) (rest : List Char) :
    ∃ start : List Char, start ≠ [] ∧ (∀ d ∈ start, Contributes c d) ∧
      ∃ cased, lowerAfter afterCased (c :: rest) = start ++ lowerAfter cased rest := by
  rw [lowerAfter]
  by_cases hc : c = capitalSigma
  · rw [if_pos hc]
    refine ⟨_, List.cons_ne_nil _ _, fun d hd => ?_, _, rfl⟩
    rw [List.mem_singleton] at hd
    split at hd
    · exact Or.inr ⟨hc, hd⟩
    · refine Or.inl ?_
      rw [hd, hc]
      decide +kernel
  · rw [if_neg hc]
    exact ⟨_, lowerChar_ne_nil c, fun d hd => Or.inl hd, _, rfl⟩

/-- Every character of a form comes from a character of the text. -/
theorem exists_contributes_of_mem {s : List Char} {d : Char} :
    ∀ afterCased, d ∈ lowerAfter afterCased s → ∃ c ∈ s, Contributes c d := by
  induction s with
  | nil => exact fun _ h => absurd h List.not_mem_nil
  | cons c rest ih =>
    intro afterCased h
    obtain ⟨start, -, hstart, cased, heq⟩ := lowerAfter_cons afterCased c rest
    rw [heq, List.mem_append] at h
    rcases h with h | h
    · exact ⟨c, List.mem_cons_self, hstart d h⟩
    · obtain ⟨e, he, hd⟩ := ih cased h
      exact ⟨e, List.mem_cons_of_mem c he, hd⟩

/-- **Every character of a lower-case form is settled.** -/
theorem isSettled_of_mem_lower {s : List Char} {d : Char} (h : d ∈ lower s) : IsSettled d :=
  let ⟨_, _, hd⟩ := exists_contributes_of_mem false h
  hd.isSettled

/-- **Lower-casing a second time changes nothing.** -/
@[simp] theorem lower_lower (s : List Char) : lower (lower s) = lower s :=
  lower_eq_self fun _ => isSettled_of_mem_lower

/-- **Lower-casing brings in nothing below the small letters of ASCII.** -/
theorem mem_of_mem_lower {s : List Char} {d : Char} (h : d ∈ lower s) (hlt : d.toNat < 0x61) :
    d ∈ s := by
  obtain ⟨c, hc, hd⟩ := exists_contributes_of_mem false h
  rw [hd.eq_of_isSettled (hd.isSettled_of_lt hlt)]
  exact hc

/-- Every character of a text leaves something in its form. -/
theorem exists_mem_of_contributes {s : List Char} {c : Char} (h : c ∈ s) :
    ∀ afterCased, ∃ d ∈ lowerAfter afterCased s, Contributes c d := by
  induction s with
  | nil => exact absurd h List.not_mem_nil
  | cons e rest ih =>
    intro afterCased
    obtain ⟨start, hne, hstart, cased, heq⟩ := lowerAfter_cons afterCased e rest
    rw [heq]
    rcases List.mem_cons.mp h with rfl | h
    · obtain ⟨d, hd⟩ := List.exists_mem_of_ne_nil start hne
      exact ⟨d, List.mem_append_left _ hd, hstart d hd⟩
    · obtain ⟨d, hd, hcd⟩ := ih h cased
      exact ⟨d, List.mem_append_right _ hd, hcd⟩

/-- A text whose form lies below the small letters of ASCII is that form. -/
theorem lower_eq_self_of_lt {s : List Char} (h : ∀ d ∈ lower s, d.toNat < 0x61) : lower s = s := by
  refine lower_eq_self ?_
  intro c hc
  obtain ⟨d, hd, hcd⟩ := exists_mem_of_contributes hc false
  exact hcd.isSettled_of_lt (h d hd)

/-! ## Blanks -/

theorem exists_contributes_of_mem_head? {s : List Char} {d : Char}
    (h : d ∈ (lower s).head?) : ∃ c ∈ s.head?, Contributes c d := by
  cases s with
  | nil => cases h
  | cons c rest =>
    obtain ⟨start, hne, hstart, cased, heq⟩ := lowerAfter_cons false c rest
    rw [lower, heq, List.head?_append_of_ne_nil _ hne] at h
    exact ⟨c, rfl, hstart d (List.mem_of_mem_head? h)⟩

theorem exists_contributes_of_mem_getLast? {s : List Char} {d : Char} :
    ∀ afterCased, d ∈ (lowerAfter afterCased s).getLast? → ∃ c ∈ s.getLast?, Contributes c d := by
  induction s with
  | nil => exact fun _ h => by cases h
  | cons c rest ih =>
    intro afterCased h
    obtain ⟨start, hne, hstart, cased, heq⟩ := lowerAfter_cons afterCased c rest
    rw [heq] at h
    by_cases hrest : rest = []
    · subst hrest
      rw [lowerAfter, List.append_nil] at h
      exact ⟨c, rfl, hstart d (List.mem_of_mem_getLast? h)⟩
    · have hform : lowerAfter cased rest ≠ [] := fun h => hrest (lowerAfter_eq_nil_iff.mp h)
      rw [List.getLast?_append_of_ne_nil _ hform] at h
      obtain ⟨e, he, hed⟩ := ih cased h
      obtain ⟨f, rest', rfl⟩ := List.exists_cons_of_ne_nil hrest
      exact ⟨e, by rwa [List.getLast?_cons_cons], hed⟩

/-- **The form of a trimmed text is trimmed.** -/
theorem isTrimmed_lower {s : List Char} (h : IsTrimmed s) : IsTrimmed (lower s) := by
  refine ⟨fun d hd => ?_, fun d hd => ?_⟩
  · obtain ⟨c, hc, hcd⟩ := exists_contributes_of_mem_head? hd
    exact hcd.not_isBlank (h.1 c hc)
  · obtain ⟨c, hc, hcd⟩ := exists_contributes_of_mem_getLast? false hd
    exact hcd.not_isBlank (h.2 c hc)

end Stencil.Text
