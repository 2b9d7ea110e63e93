import Stencil.Proofs.Record.Field

/-!
# Proofs/Record/Integer — the values that integer keys take

A value of an integer key is read exactly when it is an `IsIntegerText`: a numeral of at most 4300
digits whose number fits 32 bits (`exists_integer_eq_ok_iff`).  A numeral of more digits is the one
value that is refused without being a fault (`integer_eq_tooManyDigits_iff`).  Every number of 32
bits is read back from its own text (`integer_intText`).
-/

namespace Stencil.Record

open Stencil.Text Stencil.Decimal

/-- An integer of 32 bits. -/
def InRange (n : Int) : Prop :=
  minInteger ≤ n ∧ n ≤ maxInteger

instance (n : Int) : Decidable (InRange n) :=
  inferInstanceAs (Decidable (_ ∧ _))

/-- **The text of an integer**: a numeral of no more digits than are allowed, for a number of 32
bits. -/
def IsIntegerText (s : List Char) : Prop :=
  ∃ negative digits, IsNumeral s negative digits ∧ digits.length ≤ maxDigits ∧
    InRange (Binary.signed negative (ofDigits digits))

/-! ## Numerals among values -/

/-- A line feed is the one character that may follow the digits, and no trimmed text ends in it. -/
theorem integerDigits?_eq_some_iff {s : List Char} (hs : IsTrimmed s) {negative : Bool}
    {digits : List Nat} :
    integerDigits? s = some (negative, digits) ↔ IsNumeral s negative digits := by
  constructor
  · intro h
    simp only [integerDigits?] at h
    split at h
    next => cases h
    next ds hne htake =>
      cases h
      have hdigits : (takeDigits (takeSign s).2).1 ≠ [] := by
        rw [htake]
        exact hne
      obtain ⟨numeral, hs, hnumeral⟩ := exists_isNumeral_append hdigits
      rw [htake, List.append_nil] at hs
      rw [htake] at hnumeral
      exact hs ▸ hnumeral
    next ds hne htake =>
      cases h
      have hdigits : (takeDigits (takeSign s).2).1 ≠ [] := by
        rw [htake]
        exact hne
      obtain ⟨numeral, hs', -⟩ := exists_isNumeral_append hdigits
      rw [htake] at hs'
      have hlast := hs.2 '\n' (by rw [hs']; simp)
      cases hlast
    next => cases h
  · intro h
    obtain ⟨hsign, htake⟩ := @IsNumeral.take_eq _ _ _ h [] nofun
    rw [List.append_nil] at hsign htake
    obtain ⟨d, ds, rfl⟩ := List.exists_cons_of_ne_nil h.1
    simp only [integerDigits?, htake, hsign]

/-- Lower-casing neither makes nor unmakes a numeral. -/
theorem isNumeral_normal_iff {s : List Char} {negative : Bool} {digits : List Nat} :
    IsNumeral (normal s) negative digits ↔ IsNumeral (trim s) negative digits := by
  suffices h : IsNumeral (normal s) negative digits ∨ IsNumeral (trim s) negative digits →
      normal s = trim s by
    constructor
    · intro hn
      rwa [h (Or.inl hn)] at hn
    · intro hn
      rwa [h (Or.inr hn)]
  rintro (h | h)
  · refine lower_eq_self_of_lt ?_
    intro c hc
    have := h.toNat_lt hc
    omega
  · refine lower_eq_self ?_
    intro c hc
    have := h.toNat_lt hc
    exact isSettled_of_ascii (by omega) (by omega)

theorem isIntegerText_normal_iff {s : List Char} :
    IsIntegerText (normal s) ↔ IsIntegerText (trim s) := by
  simp only [IsIntegerText, isNumeral_normal_iff]

/-! ## Reading -/

section Reading

variable {key value : String}

theorem integer_eq_ok_iff (h : IsTrimmed value.toList) {n : Int} :
    integer key value = .ok n ↔ ∃ negative digits, IsNumeral value.toList negative digits ∧
      digits.length ≤ maxDigits ∧ InRange n ∧ Binary.signed negative (ofDigits digits) = n := by
  unfold integer
  split
  next hnone =>
    refine ⟨nofun, ?_⟩
    rintro ⟨negative, digits, hnumeral, -⟩
    rw [(integerDigits?_eq_some_iff h).mpr hnumeral] at hnone
    cases hnone
  next negative digits hsome =>
    have hnumeral := (integerDigits?_eq_some_iff h).mp hsome
    have hunique : ∀ negative' digits', IsNumeral value.toList negative' digits' →
        negative' = negative ∧ digits' = digits := fun negative' digits' h' => by
      have := (integerDigits?_eq_some_iff h).mpr h'
      rw [hsome] at this
      cases this
      exact ⟨rfl, rfl⟩
    split
    next hlong =>
      refine ⟨nofun, ?_⟩
      rintro ⟨negative', digits', h', hlength, -⟩
      obtain ⟨rfl, rfl⟩ := hunique _ _ h'
      omega
    next hshort =>
      simp only
      split
      next hrange =>
        refine ⟨fun e => ?_, ?_⟩
        · cases e
          exact ⟨negative, digits, hnumeral, Nat.not_lt.mp hshort, hrange, rfl⟩
        · rintro ⟨negative', digits', h', -, -, rfl⟩
          obtain ⟨rfl, rfl⟩ := hunique _ _ h'
          rfl
      next hrange =>
        refine ⟨nofun, ?_⟩
        rintro ⟨negative', digits', h', -, hr, rfl⟩
        obtain ⟨rfl, rfl⟩ := hunique _ _ h'
        exact absurd hr hrange

/-- **A trimmed value is read** exactly when it is the text of an integer. -/
theorem exists_integer_eq_ok_iff (h : IsTrimmed value.toList) :
    (∃ n, integer key value = .ok n) ↔ IsIntegerText value.toList := by
  constructor
  · rintro ⟨n, hn⟩
    obtain ⟨negative, digits, hnumeral, hlength, hrange, rfl⟩ := (integer_eq_ok_iff h).mp hn
    exact ⟨negative, digits, hnumeral, hlength, hrange⟩
  · rintro ⟨negative, digits, hnumeral, hlength, hrange⟩
    exact ⟨_, (integer_eq_ok_iff h).mpr ⟨negative, digits, hnumeral, hlength, hrange, rfl⟩⟩

/-- **The one value that is refused without a fault** is a numeral of too many digits. -/
theorem integer_eq_tooManyDigits_iff (h : IsTrimmed value.toList) {count : Nat} :
    integer key value = .error (.tooManyDigits count) ↔ ∃ negative digits,
      IsNumeral value.toList negative digits ∧ maxDigits < digits.length ∧
        digits.length = count := by
  simp only [← integerDigits?_eq_some_iff h]
  unfold integer
  split
  next hnone => simp [hnone]
  next negative digits hsome =>
    simp only [hsome, Option.some.injEq, Prod.mk.injEq]
    split
    next hlong =>
      rw [Except.error.injEq, Error.tooManyDigits.injEq]
      exact ⟨fun hc => ⟨_, _, ⟨rfl, rfl⟩, hlong, hc⟩, fun ⟨_, _, ⟨_, hd⟩, _, hc⟩ => hd ▸ hc⟩
    next hshort =>
      refine iff_of_false ?_ ?_
      · split <;> nofun
      · rintro ⟨_, _, ⟨-, rfl⟩, hlong, -⟩
        exact hshort hlong

end Reading

/-! ## Writing -/

/-- The characters of a number are neither blanks nor separators. -/
theorem not_isBlank_of_mem_intChars {n : Int} {c : Char} (hc : c ∈ intChars n) :
    isBlank c = false ∧ c ≠ ',' := by
  obtain ⟨_, _, ⟨-, sign, text, hsign, hs, htext⟩, -⟩ := isNumeral_intChars n
  rw [hs, List.mem_append] at hc
  rcases hc with hc | hc
  · have hsigns : ∀ p ∈ signs, (p.1.all fun c => isBlank c = false ∧ c ≠ ',') = true := by decide
    exact of_decide_eq_true (List.all_eq_true.mp (hsigns _ hsign) c hc)
  · obtain ⟨d, hd⟩ := htext.exists_of_mem hc
    obtain ⟨hd, hc⟩ := asciiDigit?_eq_some_iff.mp hd
    have hdigits : ∀ d < 10, isBlank (Char.ofNat (0x30 + d)) = false ∧
        Char.ofNat (0x30 + d) ≠ ',' := by decide
    rw [← Char.ofNat_toNat c, hc]
    exact hdigits d hd

/-- The text of a number is clean: nothing about it changes or is cut when it is read. -/
theorem isClean_intChars (n : Int) : IsClean (intChars n) := by
  obtain ⟨negative, digits, hnumeral, -⟩ := isNumeral_intChars n
  have hlt : ∀ c ∈ intChars n, c.toNat < 0x3a := fun c hc => hnumeral.toNat_lt hc
  refine ⟨normal_eq_self_iff.mpr ⟨isTrimmed_of_forall ?_, fun c hc => ?_⟩,
    fun h => (not_isBlank_of_mem_intChars h).2 rfl, fun h => absurd (hlt _ h) (by decide)⟩
  · exact fun c hc => (not_isBlank_of_mem_intChars hc).1
  · have := hlt c hc
    exact isSettled_of_ascii (by omega) (by omega)

/-- The text of a number is one line. -/
theorem isLine_intChars (n : Int) : IsLine (intChars n) :=
  ⟨fun h => absurd (not_isBlank_of_mem_intChars h).1 (by decide),
    fun h => absurd (not_isBlank_of_mem_intChars h).1 (by decide)⟩

/-- **A number of 32 bits is read back from its own text.** -/
theorem integer_intText {n : Int} (hn : InRange n) (key : String) :
    integer key (intText n) = .ok n := by
  obtain ⟨negative, digits, hnumeral, hvalue, hlength⟩ := isNumeral_intChars n
  have htrim : IsTrimmed (intText n).toList := by
    rw [intText, String.toList_ofList]
    exact (normal_eq_self_iff.mp (isClean_intChars n).1).1
  have hshort : digits.length ≤ 9 + 1 := by
    refine hlength 9 ?_
    have := hn.1
    have := hn.2
    simp only [minInteger, maxInteger] at *
    omega
  rw [integer_eq_ok_iff htrim, intText, String.toList_ofList]
  exact ⟨negative, digits, hnumeral, hshort.trans (by decide), hn, hvalue⟩

end Stencil.Record
