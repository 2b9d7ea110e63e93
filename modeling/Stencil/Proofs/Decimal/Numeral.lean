import Mathlib
import Stencil.Decimal.Notation
import Stencil.Decimal.Reading

/-!
# Proofs/Decimal/Numeral — which texts are whole numbers

An `IsNumeral` text is an optional sign and ASCII digits, at least one.  `takeSign` and `takeDigits`
find these parts wherever they are (`takeSign_append`, `takeDigits_append`) and nowhere else, and
`isNumeral_intChars` says that a whole number is written as a numeral that stands for it.
-/

namespace Stencil.Decimal

open Stencil.Text

/-! ## Digits -/

/-- Characters that are ASCII digits of these values. -/
def AreDigits (text : List Char) (digits : List Nat) : Prop :=
  text.map asciiDigit? = digits.map some

theorem areDigits_nil : AreDigits [] [] := rfl

theorem areDigits_cons_iff {c : Char} {d : Nat} {text : List Char} {digits : List Nat} :
    AreDigits (c :: text) (d :: digits) ↔ asciiDigit? c = some d ∧ AreDigits text digits := by
  rw [AreDigits, List.map_cons, List.map_cons, List.cons.injEq, AreDigits]

theorem AreDigits.append {text text' : List Char} {digits digits' : List Nat}
    (h : AreDigits text digits) (h' : AreDigits text' digits') :
    AreDigits (text ++ text') (digits ++ digits') := by
  rw [AreDigits, List.map_append, List.map_append, show text.map asciiDigit? = _ from h,
    show text'.map asciiDigit? = _ from h']

theorem AreDigits.take {text : List Char} {digits : List Nat} (h : AreDigits text digits)
    (k : Nat) :
    AreDigits (text.take k) (digits.take k) := by
  rw [AreDigits, List.map_take, List.map_take, show text.map asciiDigit? = _ from h]

theorem AreDigits.drop {text : List Char} {digits : List Nat} (h : AreDigits text digits)
    (k : Nat) :
    AreDigits (text.drop k) (digits.drop k) := by
  rw [AreDigits, List.map_drop, List.map_drop, show text.map asciiDigit? = _ from h]

theorem AreDigits.length_eq {text : List Char} {digits : List Nat} (h : AreDigits text digits) :
    text.length = digits.length := by
  simpa using congrArg List.length h

theorem AreDigits.exists_of_mem {text : List Char} {digits : List Nat} (h : AreDigits text digits)
    {c : Char} (hc : c ∈ text) : ∃ d, asciiDigit? c = some d := by
  have hmem : asciiDigit? c ∈ digits.map some := h ▸ List.mem_map_of_mem hc
  obtain ⟨d, -, hd⟩ := List.mem_map.mp hmem
  exact ⟨d, hd.symm⟩

theorem asciiDigit?_eq_some_iff {c : Char} {d : Nat} :
    asciiDigit? c = some d ↔ d < 10 ∧ c.toNat = 0x30 + d := by
  simp only [asciiDigit?, Option.ite_none_right_eq_some, Bool.and_eq_true, decide_eq_true_eq,
    Option.some.injEq]
  omega

theorem AreDigits.lt {text : List Char} {digits : List Nat} (h : AreDigits text digits) {d : Nat}
    (hd : d ∈ digits) : d < 10 := by
  have hmem : some d ∈ text.map asciiDigit? := h.symm ▸ List.mem_map_of_mem hd
  obtain ⟨c, -, hc⟩ := List.mem_map.mp hmem
  exact (asciiDigit?_eq_some_iff.mp hc).1

/-- **What `takeDigits` takes are digits**, and it takes all of them. -/
theorem takeDigits_spec (s : List Char) :
    (∃ text, s = text ++ (takeDigits s).2 ∧ AreDigits text (takeDigits s).1) ∧
      ∀ c ∈ (takeDigits s).2.head?, asciiDigit? c = none := by
  induction s with
  | nil => exact ⟨⟨[], rfl, areDigits_nil⟩, fun c hc => by cases hc⟩
  | cons c rest ih =>
    rw [takeDigits]
    split
    next d hd =>
      obtain ⟨⟨text, htext, hdigits⟩, hend⟩ := ih
      exact ⟨⟨c :: text, congrArg (c :: ·) htext, areDigits_cons_iff.mpr ⟨hd, hdigits⟩⟩, hend⟩
    next hnone =>
      refine ⟨⟨[], rfl, areDigits_nil⟩, ?_⟩
      intro e he
      obtain rfl : c = e := by simpa using he
      exact hnone

/-- Digits are taken as long as nothing that follows them is one. -/
theorem takeDigits_append {text : List Char} {digits : List Nat} (h : AreDigits text digits)
    {rest : List Char} (hrest : ∀ c ∈ rest.head?, asciiDigit? c = none) :
    takeDigits (text ++ rest) = (digits, rest) := by
  induction text generalizing digits with
  | nil =>
    obtain rfl : digits = [] := by simpa [AreDigits] using h.symm
    cases rest with
    | nil => rfl
    | cons c rest => rw [List.nil_append, takeDigits, hrest c rfl]
  | cons c text ih =>
    cases digits with
    | nil => cases h
    | cons d digits =>
      rw [areDigits_cons_iff] at h
      rw [List.cons_append, takeDigits, h.1, ih h.2]

/-! ## Signs -/

/-- The signs that a numeral may start with, and whether they make it negative. -/
def signs : List (List Char × Bool) :=
  [([], false), (['+'], false), (['-'], true)]

theorem takeSign_spec (s : List Char) :
    ∃ sign, (sign, (takeSign s).1) ∈ signs ∧ s = sign ++ (takeSign s).2 := by
  unfold takeSign
  split
  · exact ⟨['-'], by simp [signs], rfl⟩
  · exact ⟨['+'], by simp [signs], rfl⟩
  · exact ⟨[], by simp [signs], rfl⟩

/-- The sign before a digit is taken. -/
theorem takeSign_append {sign : List Char} {negative : Bool} (h : (sign, negative) ∈ signs)
    {c : Char} {d : Nat} (hc : asciiDigit? c = some d) (rest : List Char) :
    takeSign (sign ++ c :: rest) = (negative, c :: rest) := by
  simp only [signs, List.mem_cons, Prod.mk.injEq, List.not_mem_nil, or_false] at h
  rcases h with ⟨rfl, rfl⟩ | ⟨rfl, rfl⟩ | ⟨rfl, rfl⟩
  · rw [List.nil_append, takeSign]
    · rintro r ⟨⟩
      cases hc
    · rintro r ⟨⟩
      cases hc
  · rfl
  · rfl

/-! ## Numerals -/

/-- **A numeral**: a sign, if any, and ASCII digits of these values, at least one. -/
def IsNumeral (s : List Char) (negative : Bool) (digits : List Nat) : Prop :=
  digits ≠ [] ∧ ∃ sign text, (sign, negative) ∈ signs ∧ s = sign ++ text ∧ AreDigits text digits

theorem IsNumeral.ne_nil {s : List Char} {negative : Bool} {digits : List Nat}
    (h : IsNumeral s negative digits) : s ≠ [] := by
  obtain ⟨hne, sign, text, -, rfl, htext⟩ := h
  refine List.append_ne_nil_of_right_ne_nil sign ?_
  intro hnil
  have hlength := htext.length_eq
  rw [hnil] at hlength
  exact hne (List.length_eq_zero_iff.mp hlength.symm)

/-- Signs and digits come before the letters of ASCII. -/
theorem IsNumeral.toNat_lt {s : List Char} {negative : Bool} {digits : List Nat}
    (h : IsNumeral s negative digits) {c : Char} (hc : c ∈ s) : c.toNat < 0x3a := by
  obtain ⟨-, sign, text, hsign, rfl, htext⟩ := h
  rcases List.mem_append.mp hc with hc | hc
  · have hsigns : ∀ p ∈ signs, (p.1.all fun c => c.toNat < 0x3a) = true := by decide
    exact of_decide_eq_true (List.all_eq_true.mp (hsigns _ hsign) c hc)
  · obtain ⟨d, hd⟩ := htext.exists_of_mem hc
    have := asciiDigit?_eq_some_iff.mp hd
    omega

/-- A numeral is taken apart as it was put together. -/
theorem IsNumeral.take_eq {s : List Char} {negative : Bool} {digits : List Nat}
    (h : IsNumeral s negative digits) {rest : List Char}
    (hrest : ∀ c ∈ rest.head?, asciiDigit? c = none) :
    (takeSign (s ++ rest)).1 = negative ∧
      takeDigits (takeSign (s ++ rest)).2 = (digits, rest) := by
  obtain ⟨hne, sign, text, hsign, rfl, htext⟩ := h
  obtain ⟨c, text, rfl⟩ : ∃ c t, text = c :: t := by
    refine List.exists_cons_of_ne_nil ?_
    rintro rfl
    exact hne (List.length_eq_zero_iff.mp htext.length_eq.symm)
  obtain ⟨d, hd⟩ := htext.exists_of_mem List.mem_cons_self
  rw [List.append_assoc, List.cons_append, takeSign_append hsign hd (text ++ rest)]
  exact ⟨rfl, takeDigits_append htext hrest⟩

/-- What is taken apart to a sign and digits is a numeral and something behind it. -/
theorem exists_isNumeral_append {s : List Char} (h : (takeDigits (takeSign s).2).1 ≠ []) :
    ∃ numeral, s = numeral ++ (takeDigits (takeSign s).2).2 ∧
      IsNumeral numeral (takeSign s).1 (takeDigits (takeSign s).2).1 := by
  obtain ⟨sign, hsign, hs⟩ := takeSign_spec s
  obtain ⟨⟨text, htext, hdigits⟩, -⟩ := takeDigits_spec (takeSign s).2
  refine ⟨sign ++ text, ?_, h, sign, text, hsign, rfl, hdigits⟩
  rw [List.append_assoc, ← htext]
  exact hs

/-! ## Written numbers -/

theorem ofDigits_append_singleton (digits : List Nat) (d : Nat) :
    ofDigits (digits ++ [d]) = 10 * ofDigits digits + d := by
  simp [ofDigits]

/-- Digits stand for a number and those behind them for its last places. -/
theorem ofDigits_append (digits digits' : List Nat) :
    ofDigits (digits ++ digits') = ofDigits digits * 10 ^ digits'.length + ofDigits digits' := by
  induction digits' using List.reverseRecOn with
  | nil => simp [ofDigits]
  | append_singleton digits' d ih =>
    rw [← List.append_assoc, ofDigits_append_singleton, ih, ofDigits_append_singleton,
      List.length_append, List.length_singleton, pow_succ]
    ring

theorem ofDigits_cons (d : Nat) (digits : List Nat) :
    ofDigits (d :: digits) = d * 10 ^ digits.length + ofDigits digits := by
  rw [← List.singleton_append, ofDigits_append]
  simp [ofDigits]

theorem ofDigits_lt {digits : List Nat} (h : ∀ d ∈ digits, d < 10) :
    ofDigits digits < 10 ^ digits.length := by
  induction digits with
  | nil => decide
  | cons d digits ih =>
    have hd := h d List.mem_cons_self
    have ih := ih fun d hd => h d (List.mem_cons_of_mem _ hd)
    rw [ofDigits_cons, List.length_cons, pow_succ]
    nlinarith

theorem ofDigits_eq_zero {digits : List Nat} (h : ofDigits digits = 0) : ∀ d ∈ digits, d = 0 := by
  induction digits with
  | nil => exact fun d hd => absurd hd List.not_mem_nil
  | cons d digits ih =>
    rw [ofDigits_cons, Nat.add_eq_zero_iff, Nat.mul_eq_zero] at h
    have hd := h.1.resolve_right (Nat.pow_pos (by decide)).ne'
    exact List.forall_mem_cons.mpr ⟨hd, ih h.2⟩

/-- Noughts in front of a number do not count. -/
theorem ofDigits_dropWhile (digits : List Nat) :
    ofDigits (digits.dropWhile (· == 0)) = ofDigits digits := by
  induction digits with
  | nil => rfl
  | cons d digits ih =>
    rw [List.dropWhile_cons]
    split
    next hzero =>
      obtain rfl : d = 0 := by simpa using hzero
      rw [ih, ofDigits_cons, zero_mul, zero_add]
    next => rfl

/-- The digit of a number below ten. -/
theorem asciiDigit?_ofNat {d : Nat} (h : d < 10) :
    asciiDigit? (Char.ofNat (0x30 + d)) = some d := by
  have hall : ∀ d < 10, asciiDigit? (Char.ofNat (0x30 + d)) = some d := by decide
  exact hall d h

/-- **The digits of a number stand for it**, and there are few of them. -/
theorem areDigits_digitsOf (n : Nat) :
    ∃ digits, AreDigits (digitsOf n) digits ∧ digits ≠ [] ∧ ofDigits digits = n ∧
      ∀ k, n < 10 ^ (k + 1) → digits.length ≤ k + 1 := by
  induction n using digitsOf.induct with
  | case1 n h =>
    rw [digitsOf, if_pos h]
    exact ⟨[n], areDigits_cons_iff.mpr ⟨asciiDigit?_ofNat h, areDigits_nil⟩, List.cons_ne_nil _ _,
      by simp [ofDigits], fun k _ => Nat.le_add_left 1 k⟩
  | case2 n h ih =>
    obtain ⟨digits, hdigits, -, hvalue, hlength⟩ := ih
    have hlast : n % 10 < 10 := Nat.mod_lt n (by decide)
    rw [digitsOf, if_neg h]
    refine ⟨digits ++ [n % 10],
      hdigits.append (areDigits_cons_iff.mpr ⟨asciiDigit?_ofNat hlast, areDigits_nil⟩),
      by simp, ?_, fun k hk => ?_⟩
    · rw [ofDigits_append_singleton, hvalue]
      omega
    · rw [List.length_append, List.length_singleton]
      cases k with
      | zero => omega
      | succ k =>
        have := hlength k (by rw [Nat.div_lt_iff_lt_mul (by decide), ← Nat.pow_succ]; exact hk)
        omega

/-- **A whole number is written as a numeral that stands for it.** -/
theorem isNumeral_intChars (n : Int) :
    ∃ negative digits, IsNumeral (intChars n) negative digits ∧
      Binary.signed negative (ofDigits digits) = n ∧
      ∀ k, n.natAbs < 10 ^ (k + 1) → digits.length ≤ k + 1 := by
  cases n with
  | ofNat n =>
    obtain ⟨digits, hdigits, hne, hvalue, hlength⟩ := areDigits_digitsOf n
    exact ⟨false, digits, ⟨hne, [], _, by decide, rfl, hdigits⟩, by simp [Binary.signed, hvalue],
      hlength⟩
  | negSucc n =>
    obtain ⟨digits, hdigits, hne, hvalue, hlength⟩ := areDigits_digitsOf (n + 1)
    exact ⟨true, digits, ⟨hne, ['-'], _, by decide, rfl, hdigits⟩,
      by simp [Binary.signed, hvalue, Int.negSucc_eq], hlength⟩

end Stencil.Decimal
