import Stencil.Json.Printer
import Stencil.Json.Reader
import Stencil.Proofs.Decimal.Shortest

/-!
# Proofs/Json/Number — a written number is read as it was

    x ──writeChars──▸ -  1 2 3 . 4 5 6  e+16 ──readAtom──▸ ofDecimal (digits, place) = x
                      │  whole  fraction  exponent

A number in JSON is a whole part that does not start with a needless nought, a fraction and an
exponent, each of the last two if it has a digit; what comes behind it must not go on with the
number (`EndsNumber`).  `readNumber_whole`, `readNumber_fraction` and `readNumber_exponent` say what
a number in each of the three forms is read as.  A double is written in one of them with its
shortest digits (`exists_readNumber_positional`, `exists_readNumber_scientific`), which are read
back as the double, so `readAtom_writeChars` holds of every double, infinities and not-a-number
included.
-/

namespace Stencil.Json

open Stencil.Text Stencil.Decimal Stencil.Number

/-! ## The parts of a number -/

section Parts

variable {text whole fraction exponent rest : List Char} {digits ws fs ps : List ℕ}
  {negative : Bool}

/-- What may come right behind a number. -/
def EndsNumber (rest : List Char) : Prop :=
  ∀ c ∈ rest.head?, asciiDigit? c = none ∧ c ≠ '.' ∧ c ≠ 'e' ∧ c ≠ 'E'

/-- **A whole part**: digits that start with a nought only if it stands alone. -/
structure IsWhole (text : List Char) (digits : List ℕ) : Prop where
  areDigits : AreDigits text digits
  ne_nil : digits ≠ []
  head : text = ['0'] ∨ text.head? ≠ some '0'

/-- A whole part starts with a digit. -/
theorem IsWhole.exists_cons (h : IsWhole text digits) :
    ∃ c s d, text = c :: s ∧ asciiDigit? c = some d := by
  cases text with
  | nil => exact absurd (List.length_eq_zero_iff.mp h.areDigits.length_eq.symm) h.ne_nil
  | cons c s =>
    obtain ⟨d, hd⟩ := h.areDigits.exists_of_mem List.mem_cons_self
    exact ⟨c, s, d, rfl, hd⟩

theorem readWhole?_append (h : IsWhole whole ws)
    (hrest : ∀ c ∈ rest.head?, asciiDigit? c = none) :
    readWhole? (whole ++ rest) = some (ws, rest) := by
  rcases h.head with rfl | hhead
  · obtain ⟨d, ds, rfl⟩ := List.exists_cons_of_ne_nil h.ne_nil
    obtain ⟨hd, hds⟩ := areDigits_cons_iff.mp h.areDigits
    obtain rfl : 0 = d := Option.some.inj hd
    obtain rfl : ds = [] := List.length_eq_zero_iff.mp hds.length_eq.symm
    rfl
  · rw [readWhole?, takeDigits_append h.areDigits hrest]
    · obtain ⟨d, ds, rfl⟩ := List.exists_cons_of_ne_nil h.ne_nil
      rfl
    · intro r hr
      obtain ⟨c, s, d, rfl, -⟩ := h.exists_cons
      rw [List.cons_append, List.cons.injEq] at hr
      exact hhead (congrArg some hr.1)

theorem readFraction_append (h : AreDigits fraction fs) (hne : fs ≠ [])
    (hrest : ∀ c ∈ rest.head?, asciiDigit? c = none) :
    readFraction ('.' :: (fraction ++ rest)) = (fs, rest) := by
  obtain ⟨d, ds, rfl⟩ := List.exists_cons_of_ne_nil hne
  rw [readFraction, takeDigits_append h hrest]

/-- There is no fraction without a point. -/
theorem readFraction_of_ne (h : ∀ c ∈ rest.head?, c ≠ '.') : readFraction rest = ([], rest) := by
  cases rest with
  | nil => rfl
  | cons c rest =>
    rw [readFraction]
    rintro r ⟨⟩
    exact h '.' rfl rfl

theorem readExponent?_append (h : IsNumeral exponent negative ps)
    (hrest : ∀ c ∈ rest.head?, asciiDigit? c = none) :
    readExponent? ('e' :: (exponent ++ rest)) =
      some (Binary.signed negative (ofDigits ps), rest) := by
  obtain ⟨hsign, hdigits⟩ := h.take_eq hrest
  obtain ⟨d, ds, rfl⟩ := List.exists_cons_of_ne_nil h.1
  simp only [readExponent?, hsign, hdigits, decide_true, Bool.true_or, if_true]

/-- There is no exponent without its letter. -/
theorem readExponent?_of_ne (h : ∀ c ∈ rest.head?, c ≠ 'e' ∧ c ≠ 'E') :
    readExponent? rest = none := by
  cases rest with
  | nil => rfl
  | cons c rest =>
    obtain ⟨he, he'⟩ := h c rfl
    simp [readExponent?, he, he']

/-! ## The three forms -/

/-- A whole number. -/
theorem readNumber_whole (hwhole : IsWhole whole ws) (hlength : ws.length ≤ maxDigits)
    (hrest : EndsNumber rest) :
    readNumber negative (whole ++ rest) =
      .ok (.int (Binary.signed negative (ofDigits ws)), rest) := by
  simp only [readNumber, readWhole?_append hwhole fun c hc => (hrest c hc).1,
    readFraction_of_ne fun c hc => (hrest c hc).2.1,
    readExponent?_of_ne fun c hc => (hrest c hc).2.2, List.isEmpty_nil, if_true,
    if_neg (Nat.not_lt.mpr hlength)]

/-- A number with a fraction. -/
theorem readNumber_fraction (hwhole : IsWhole whole ws) (hfraction : AreDigits fraction fs)
    (hne : fs ≠ []) (hrest : EndsNumber rest) :
    readNumber negative (whole ++ '.' :: (fraction ++ rest)) =
      .ok (.float (ofDecimal negative (ws ++ fs) (-fs.length)), rest) := by
  have hpoint : ∀ c ∈ ('.' :: (fraction ++ rest)).head?, asciiDigit? c = none := by
    rintro c ⟨⟩
    rfl
  have hempty : fs.isEmpty = false := by simpa using hne
  simp only [readNumber, readWhole?_append hwhole hpoint,
    readFraction_append hfraction hne fun c hc => (hrest c hc).1,
    readExponent?_of_ne fun c hc => (hrest c hc).2.2, hempty, Bool.false_eq_true, if_false]

/-- A number with an exponent, and with a fraction if that has digits. -/
theorem readNumber_exponent (hwhole : IsWhole whole ws) (hfraction : AreDigits fraction fs)
    {power : Bool} (hexponent : IsNumeral exponent power ps) (hrest : EndsNumber rest) :
    readNumber negative
        (whole ++ (if fraction = [] then [] else '.' :: fraction) ++ 'e' :: (exponent ++ rest)) =
      .ok (.float (ofDecimal negative (ws ++ fs)
        (Binary.signed power (ofDigits ps) - fs.length)), rest) := by
  have hletter : ∀ c ∈ ('e' :: (exponent ++ rest)).head?, asciiDigit? c = none := by
    rintro c ⟨⟩
    rfl
  have hpower := readExponent?_append hexponent fun c hc => (hrest c hc).1
  rw [List.append_assoc]
  split
  next hnil =>
    subst hnil
    obtain rfl : fs = [] := List.length_eq_zero_iff.mp hfraction.length_eq.symm
    have hpoint : ∀ c ∈ ('e' :: (exponent ++ rest)).head?, c ≠ '.' := by
      rintro c ⟨⟩
      decide
    simp only [readNumber, List.nil_append, readWhole?_append hwhole hletter,
      readFraction_of_ne hpoint, hpower]
  next hne =>
    have hfs : fs ≠ [] := by
      rintro rfl
      exact hne (List.length_eq_zero_iff.mp hfraction.length_eq)
    have hpoint : ∀ c ∈ ('.' :: (fraction ++ 'e' :: (exponent ++ rest))).head?,
        asciiDigit? c = none := by
      rintro c ⟨⟩
      rfl
    simp only [readNumber, List.cons_append, readWhole?_append hwhole hpoint,
      readFraction_append hfraction hfs hletter, hpower]

end Parts

/-! ## Decimals -/

section Decimals

variable {text whole fraction exponent rest : List Char} {digits ws fs ps : List ℕ}
  {power negative : Bool} {count : ℕ} {place e : ℤ} {m : ℕ} {x : Float} {value : ℚ}

/-- **The text of a decimal**, which is read as the double nearest to this value. -/
def IsDecimal (text : List Char) (value : ℚ) : Prop :=
  (∃ c s d, text = c :: s ∧ asciiDigit? c = some d) ∧
  ∃ digits place, (∀ d ∈ digits, d < 10) ∧ (ofDigits digits * 10 ^ place : ℚ) = value ∧
    ∀ negative rest, EndsNumber rest →
      readNumber negative (text ++ rest) = .ok (.float (ofDecimal negative digits place), rest)

theorem isDecimal_fraction (hwhole : IsWhole whole ws) (hfraction : AreDigits fraction fs)
    (hne : fs ≠ []) :
    IsDecimal (whole ++ '.' :: fraction) (ofDigits (ws ++ fs) * 10 ^ (-fs.length : ℤ)) := by
  refine ⟨?_, ws ++ fs, -fs.length, fun d hd => (hwhole.areDigits.append hfraction).lt hd, rfl, ?_⟩
  · obtain ⟨c, s, d, rfl, hd⟩ := hwhole.exists_cons
    exact ⟨c, _, d, rfl, hd⟩
  intro negative rest hrest
  rw [List.append_assoc, List.cons_append]
  exact readNumber_fraction hwhole hfraction hne hrest

theorem isDecimal_exponent (hwhole : IsWhole whole ws) (hfraction : AreDigits fraction fs)
    (hexponent : IsNumeral exponent power ps) :
    IsDecimal (whole ++ (if fraction = [] then [] else '.' :: fraction) ++ 'e' :: exponent)
      (ofDigits (ws ++ fs) * 10 ^ (Binary.signed power (ofDigits ps) - fs.length)) := by
  refine ⟨?_, ws ++ fs, _, fun d hd => (hwhole.areDigits.append hfraction).lt hd, rfl, ?_⟩
  · obtain ⟨c, s, d, rfl, hd⟩ := hwhole.exists_cons
    exact ⟨c, _, d, rfl, hd⟩
  intro negative rest hrest
  rw [List.append_assoc, List.cons_append]
  exact readNumber_exponent hwhole hfraction hexponent hrest

/-- The text of a number is no word. -/
theorem readWord?_of_digit {c : Char} {d : ℕ} (h : asciiDigit? c = some d) (s : List Char) :
    readWord? (c :: s) = none ∧ readWord? ('-' :: c :: s) = none := by
  have hne {w : Char} (hw : asciiDigit? w = none) : w ≠ c := by
    rintro rfl
    rw [hw] at h
    cases h
  have hI := hne (w := 'I') rfl
  simp [readWord?, words, after?, hne (w := 'n') rfl, hne (w := 't') rfl, hne (w := 'f') rfl,
    hne (w := 'N') rfl, hI, hne (w := '-') rfl]

/-- A number with its sign is read as a number. -/
theorem readAtom_of_digit {c : Char} {d : ℕ} (h : asciiDigit? c = some d) (negative : Bool)
    (s : List Char) :
    readAtom ((if negative then ['-'] else []) ++ c :: s) = readNumber negative (c :: s) := by
  obtain ⟨hword, hword'⟩ := readWord?_of_digit h s
  cases negative with
  | false =>
    rw [if_neg Bool.false_ne_true, List.nil_append, readAtom, hword]
    rintro r ⟨⟩
    cases h
  | true =>
    rw [if_pos rfl, List.singleton_append, readAtom, hword']

/-- **The text of a decimal near to a double is read as the double.** -/
theorem IsDecimal.readAtom_eq (h : IsDecimal text value)
    (hx : Binary.ofFloat x = .finite negative m e)
    (hvalue : 0 < m → rounded value = m * 2 ^ e) (hzero : m = 0 → value = 0)
    (hrest : EndsNumber rest) :
    readAtom ((if negative then ['-'] else []) ++ text ++ rest) = .ok (.float x, rest) := by
  obtain ⟨⟨c, s, d, rfl, hd⟩, digits, place, hdigits, rfl, hread⟩ := h
  rw [List.append_assoc, List.cons_append, readAtom_of_digit hd, ← List.cons_append,
    hread negative rest hrest]
  rcases Nat.eq_zero_or_pos m with rfl | hm
  · have hnought : ofDigits digits = 0 := by
      have hten : (10 : ℚ) ^ place ≠ 0 := zpow_ne_zero _ (by norm_num)
      exact_mod_cast (mul_eq_zero.mp (hzero rfl)).resolve_right hten
    rw [ofDecimal_zero hx (ofDigits_eq_zero hnought)]
  · rw [ofDecimal_eq hdigits hx hm (hvalue hm)]

end Decimals

/-! ## Written numbers -/

section Written

variable {rest : List Char} {count : ℕ} {place : ℤ}

theorem areDigits_replicate (n : ℕ) : AreDigits (List.replicate n '0') (List.replicate n 0) := by
  rw [AreDigits, List.map_replicate, List.map_replicate]
  rfl

theorem ofDigits_replicate (n : ℕ) : ofDigits (List.replicate n 0) = 0 := by
  induction n with
  | zero => rfl
  | succ n ih => rw [List.replicate_succ, ofDigits_cons, ih, zero_mul]

theorem digitsOf_ne_nil (n : ℕ) : digitsOf n ≠ [] := by
  obtain ⟨digits, hdigits, hne, -⟩ := areDigits_digitsOf n
  exact fun hnil => hne (List.length_eq_zero_iff.mp (by rw [← hdigits.length_eq, hnil]; rfl))

/-- The digits of a number from one up do not start with a nought. -/
theorem head?_digitsOf {n : ℕ} (hpos : 0 < n) : (digitsOf n).head? ≠ some '0' := by
  induction n using digitsOf.induct with
  | case1 n h =>
    have hall : ∀ n < 10, 0 < n → [Char.ofNat (0x30 + n)].head? ≠ some '0' := by decide
    rw [digitsOf, if_pos h]
    exact hall n h hpos
  | case2 n h ih =>
    rw [digitsOf, if_neg h, List.head?_append_of_ne_nil _ (digitsOf_ne_nil _)]
    exact ih (by omega)

/-- **The digits of a number are a whole part**, with noughts behind them unless it is nought. -/
theorem isWhole_digitsOf {n k : ℕ} {digits : List ℕ} (hdigits : AreDigits (digitsOf n) digits)
    (hne : digits ≠ []) (hzero : n = 0 → k = 0) :
    IsWhole (digitsOf n ++ List.replicate k '0') (digits ++ List.replicate k 0) := by
  refine ⟨hdigits.append (areDigits_replicate k), by simp [hne], ?_⟩
  rcases Nat.eq_zero_or_pos n with rfl | hpos
  · left
    rw [hzero rfl, digitsOf]
    rfl
  · right
    rw [List.head?_append_of_ne_nil _ (digitsOf_ne_nil n)]
    exact head?_digitsOf hpos

/-- The first digits of a number from one up are a whole part. -/
theorem isWhole_take {n k : ℕ} {digits : List ℕ} (hpos : 0 < n) (hk : k ≠ 0)
    (hdigits : AreDigits (digitsOf n) digits) (hne : digits ≠ []) :
    IsWhole ((digitsOf n).take k) (digits.take k) := by
  refine ⟨hdigits.take k, fun hnil => ?_, .inr ?_⟩
  · rcases List.take_eq_nil_iff.mp hnil with h | h
    · exact hk h
    · exact hne h
  · rw [List.head?_take, if_neg hk]
    exact head?_digitsOf hpos

/-- Noughts up to the point, and one behind it. -/
theorem isDecimal_zerosBehind (k : ℕ) (hzero : count = 0 → k = 0) :
    IsDecimal (digitsOf count ++ List.replicate k '0' ++ ['.', '0']) (count * 10 ^ (k : ℤ)) := by
  obtain ⟨digits, hdigits, hne, hvalue, -⟩ := areDigits_digitsOf count
  have hwhole := isWhole_digitsOf hdigits hne hzero
  have hlast : AreDigits ['0'] [0] := areDigits_replicate 1
  convert isDecimal_fraction hwhole hlast (List.cons_ne_nil 0 []) using 1
  rw [List.length_singleton, ofDigits_append_singleton, ofDigits_append, ofDigits_replicate,
    hvalue, List.length_replicate, zpow_natCast, Nat.cast_one, zpow_neg_one]
  push_cast
  ring

/-- A point between the digits. -/
theorem isDecimal_pointInside {k : ℕ} (hpos : 0 < count) (hk : 0 < k)
    (hinside : k < (digitsOf count).length) :
    IsDecimal ((digitsOf count).take ((digitsOf count).length - k) ++
      '.' :: (digitsOf count).drop ((digitsOf count).length - k)) (count * 10 ^ (-k : ℤ)) := by
  obtain ⟨digits, hdigits, hne, hvalue, -⟩ := areDigits_digitsOf count
  have hlength := hdigits.length_eq
  have hwhole := isWhole_take hpos (show (digitsOf count).length - k ≠ 0 by omega) hdigits hne
  have hfraction := hdigits.drop ((digitsOf count).length - k)
  have hdrop : (digits.drop ((digitsOf count).length - k)).length = k := by
    rw [List.length_drop]
    omega
  convert isDecimal_fraction hwhole hfraction ?_ using 1
  · rw [List.take_append_drop, hvalue, hdrop]
  · intro hnil
    rw [hnil, List.length_nil] at hdrop
    omega

/-- Noughts between the point and the digits. -/
theorem isDecimal_zerosBefore (count k : ℕ) :
    IsDecimal ('0' :: '.' :: (List.replicate k '0' ++ digitsOf count))
      (count * 10 ^ (-(k + (digitsOf count).length : ℕ) : ℤ)) := by
  obtain ⟨digits, hdigits, hne, hvalue, -⟩ := areDigits_digitsOf count
  have hlength := hdigits.length_eq
  have hwhole : IsWhole ['0'] [0] := ⟨areDigits_replicate 1, List.cons_ne_nil 0 [], .inl rfl⟩
  convert isDecimal_fraction hwhole ((areDigits_replicate k).append hdigits) (by simp [hne]) using 1
  · rfl
  · rw [ofDigits_append, ofDigits_append, ofDigits_replicate, hvalue, List.length_append,
      List.length_replicate, hlength, show ofDigits [0] = 0 from rfl, Nat.zero_mul, Nat.zero_mul,
      Nat.zero_add, Nat.zero_add]

/-- A number with its point is read as it is. -/
theorem isDecimal_positional (hzero : count = 0 → place = 0) :
    IsDecimal (positional (digitsOf count) place) (count * 10 ^ place) := by
  simp only [positional]
  split
  next hplace =>
    obtain ⟨k, rfl⟩ := Int.eq_ofNat_of_zero_le hplace
    exact isDecimal_zerosBehind k fun h => by simpa using hzero h
  next hplace =>
    obtain ⟨k, rfl⟩ : ∃ k : ℕ, place = -k := ⟨(-place).toNat, by omega⟩
    rw [neg_neg, Int.toNat_natCast]
    split
    next hinside =>
      refine isDecimal_pointInside (Nat.pos_of_ne_zero fun h => ?_) (by omega) hinside
      have := hzero h
      omega
    next houtside =>
      obtain ⟨j, rfl⟩ := Nat.exists_eq_add_of_le' (Nat.not_lt.mp houtside)
      rw [Nat.add_sub_cancel]
      exact isDecimal_zerosBefore count j

/-- A power of ten with its sign is a numeral. -/
theorem isNumeral_power (power : ℤ) (width : ℕ) :
    ∃ digits, IsNumeral ((if power < 0 then '-' else '+') ::
        (List.replicate (width - (digitsOf power.natAbs).length) '0' ++ digitsOf power.natAbs))
      (power < 0) digits ∧ Binary.signed (power < 0) (ofDigits digits) = power := by
  obtain ⟨digits, hdigits, hne, hvalue, -⟩ := areDigits_digitsOf power.natAbs
  refine ⟨_, ⟨by simp [hne], [if power < 0 then '-' else '+'], _, ?_, rfl,
    (areDigits_replicate _).append hdigits⟩, ?_⟩
  · by_cases hpower : power < 0
    · rw [if_pos hpower, decide_eq_true hpower]
      decide
    · rw [if_neg hpower, decide_eq_false hpower]
      decide
  · rw [ofDigits_append, ofDigits_replicate, hvalue, Nat.zero_mul, Nat.zero_add, Binary.signed]
    by_cases hpower : power < 0
    · rw [decide_eq_true hpower, if_pos rfl]
      omega
    · rw [decide_eq_false hpower, if_neg Bool.false_ne_true]
      omega

/-- A number with an exponent is read as it is. -/
theorem isDecimal_scientific (hpos : 0 < count) (width : ℕ) :
    IsDecimal (scientific (digitsOf count) (place + (digitsOf count).length - 1) width)
      (count * 10 ^ place) := by
  obtain ⟨digits, hdigits, hne, hvalue, -⟩ := areDigits_digitsOf count
  generalize hleading : place + (digitsOf count).length - 1 = leading
  obtain ⟨ps, hps, hpower⟩ := isNumeral_power leading width
  have hlength := hdigits.length_eq
  have hlength' := List.length_pos_iff.mpr hne
  convert isDecimal_exponent (isWhole_take hpos one_ne_zero hdigits hne) (hdigits.drop 1) hps
    using 1
  · simp only [scientific, List.drop_eq_nil_iff, List.append_assoc, List.cons_append]
  · rw [List.take_append_drop, hvalue, hpower, List.length_drop]
    congr 2
    omega

end Written

/-! ## Doubles -/

/-- The digits of a number with a sign are read as a whole number. -/
theorem readAtom_digitsOf {n : ℕ} (h : n < 10 ^ maxDigits) (negative : Bool) {rest : List Char}
    (hrest : EndsNumber rest) :
    readAtom ((if negative then ['-'] else []) ++ digitsOf n ++ rest) =
      .ok (.int (Binary.signed negative n), rest) := by
  obtain ⟨digits, hdigits, hne, hvalue, hlength⟩ := areDigits_digitsOf n
  have hlength := hlength (maxDigits - 1)
  rw [Nat.sub_add_cancel (show 1 ≤ maxDigits by decide)] at hlength
  have hwhole : IsWhole (digitsOf n) digits := by
    simpa using isWhole_digitsOf (k := 0) hdigits hne fun _ => rfl
  obtain ⟨c, s, d, hcons, hd⟩ := hwhole.exists_cons
  rw [List.append_assoc, hcons, List.cons_append, readAtom_of_digit hd, ← List.cons_append, ← hcons,
    readNumber_whole hwhole (hlength h) hrest, hvalue]

/-- **A written whole number is read as it was** if it does not have too many digits. -/
theorem readAtom_intChars {n : ℤ} (h : n.natAbs < 10 ^ maxDigits) {rest : List Char}
    (hrest : EndsNumber rest) : readAtom (intChars n ++ rest) = .ok (.int n, rest) := by
  cases n with
  | ofNat n => exact readAtom_digitsOf h false hrest
  | negSucc n => exact readAtom_digitsOf h true hrest

/-- **A written double is read as it was**, whatever it is. -/
theorem readAtom_writeChars (x : Float) {rest : List Char} (hrest : EndsNumber rest) :
    readAtom (numberFormat.writeChars x ++ rest) = .ok (.float x, rest) := by
  rw [Notation.writeChars]
  cases hx : Binary.ofFloat x with
  | nan =>
    rw [eq_of_ofFloat_nan hx]
    rfl
  | infinite negative =>
    rw [eq_of_ofFloat_infinite hx]
    cases negative <;> rfl
  | finite negative m e =>
    have hvalue := rounded_shortest hx
    have hcount : m = 0 → shortest m e = (0, 0) := fun hm => by rw [shortest, if_pos hm]
    have hnought : (shortest m e).1 = 0 → m = 0 := fun hcount => by
      by_contra hm
      have hm := Nat.pos_of_ne_zero hm
      exact (shortest_pos hm (bounds_of_unpack (unpack_of_ofFloat hx hm)).1).ne' hcount
    simp only
    generalize shortest m e = decimal at hvalue hcount hnought ⊢
    obtain ⟨count, place⟩ := decimal
    have hzero : count = 0 → place = 0 := fun h => (Prod.mk.inj (hcount (hnought h))).2
    have hdecimal : IsDecimal
        (if numberFormat.minPositional ≤ place + (digitsOf count).length - 1 &&
            place + (digitsOf count).length - 1 ≤ numberFormat.maxPositional then
          positional (digitsOf count) place
        else scientific (digitsOf count) (place + (digitsOf count).length - 1)
          numberFormat.exponentDigits) (count * 10 ^ place) := by
      split
      next => exact isDecimal_positional hzero
      next hlarge =>
        refine isDecimal_scientific (Nat.pos_of_ne_zero fun h => hlarge ?_) _
        rw [hzero h, h, digitsOf]
        decide
    refine hdecimal.readAtom_eq hx hvalue (fun hm => ?_) hrest
    obtain ⟨rfl, rfl⟩ := Prod.mk.inj (hcount hm)
    simp

/-! ## The characters of a number -/

section Characters

variable {c : Char} {digits : List Char}

/-- **The characters of numbers** and of the words for some: signs, points, digits and letters. -/
def IsNumberChar (c : Char) : Prop :=
  0x2b ≤ c.toNat ∧ c.toNat ≤ 0x39 ∨ 0x41 ≤ c.toNat ∧ c.toNat ≤ 0x5a ∨
    0x61 ≤ c.toNat ∧ c.toNat ≤ 0x7a

instance (c : Char) : Decidable (IsNumberChar c) :=
  inferInstanceAs (Decidable (_ ∨ _))

theorem isNumberChar_of_mem_digitsOf {n : ℕ} (h : c ∈ digitsOf n) : IsNumberChar c := by
  obtain ⟨digits, hdigits, -⟩ := areDigits_digitsOf n
  obtain ⟨d, hd⟩ := hdigits.exists_of_mem h
  have := asciiDigit?_eq_some_iff.mp hd
  exact .inl (by omega)

/-- A sign before a number. -/
theorem isNumberChar_of_mem_sign {negative : Bool} (h : c ∈ if negative then ['-'] else []) :
    IsNumberChar c := by
  cases negative with
  | false => cases h
  | true =>
    rw [List.mem_singleton.mp h]
    decide

theorem isNumberChar_of_mem_intChars {n : ℤ} (h : c ∈ intChars n) : IsNumberChar c := by
  cases n with
  | ofNat n => exact isNumberChar_of_mem_digitsOf h
  | negSucc n =>
    rcases List.mem_cons.mp h with rfl | h
    · decide
    · exact isNumberChar_of_mem_digitsOf h

theorem isNumberChar_of_mem_replicate {n : ℕ} (h : c ∈ List.replicate n '0') : IsNumberChar c := by
  rw [List.eq_of_mem_replicate h]
  decide

theorem isNumberChar_of_mem_positional {place : ℤ} (hdigits : ∀ c ∈ digits, IsNumberChar c)
    (h : c ∈ positional digits place) : IsNumberChar c := by
  simp only [positional] at h
  split at h
  · rcases List.mem_append.mp h with h | h
    · exact (List.mem_append.mp h).elim (hdigits c) isNumberChar_of_mem_replicate
    · rcases List.mem_cons.mp h with rfl | h
      · decide
      · exact isNumberChar_of_mem_replicate (n := 1) h
  split at h
  · rcases List.mem_append.mp h with h | h
    · exact hdigits c (List.mem_of_mem_take h)
    rcases List.mem_cons.mp h with rfl | h
    · decide
    · exact hdigits c (List.mem_of_mem_drop h)
  · rcases List.mem_append.mp h with h | h
    · rcases List.mem_cons.mp h with rfl | h
      · decide
      rcases List.mem_cons.mp h with rfl | h
      · decide
      · exact isNumberChar_of_mem_replicate h
    · exact hdigits c h

theorem isNumberChar_of_mem_scientific {leading : ℤ} {width : ℕ}
    (hdigits : ∀ c ∈ digits, IsNumberChar c) (h : c ∈ scientific digits leading width) :
    IsNumberChar c := by
  simp only [scientific, List.mem_append, List.mem_cons] at h
  rcases h with ((h | h) | rfl | rfl | h) | h
  · exact hdigits c (List.mem_of_mem_take h)
  · split at h
    · cases h
    rcases List.mem_cons.mp h with rfl | h
    · decide
    · exact hdigits c (List.mem_of_mem_drop h)
  · decide
  · split <;> decide
  · exact isNumberChar_of_mem_replicate h
  · exact isNumberChar_of_mem_digitsOf h

theorem isNumberChar_of_mem_writeChars {x : Float} (h : c ∈ numberFormat.writeChars x) :
    IsNumberChar c := by
  have hwords : ((numberFormat.nan.toList ++ numberFormat.infinity.toList).all
      fun c => IsNumberChar c) = true := by decide
  have hword (c) (h : c ∈ numberFormat.nan.toList ++ numberFormat.infinity.toList) :
      IsNumberChar c := of_decide_eq_true (List.all_eq_true.mp hwords c h)
  rw [Notation.writeChars] at h
  split at h
  next => exact hword c (List.mem_append_left _ h)
  next =>
    rcases List.mem_append.mp h with h | h
    · exact isNumberChar_of_mem_sign h
    · exact hword c (List.mem_append_right _ h)
  next =>
    rcases List.mem_append.mp h with h | h
    · exact isNumberChar_of_mem_sign h
    split at h
    · exact isNumberChar_of_mem_positional (fun _ => isNumberChar_of_mem_digitsOf) h
    · exact isNumberChar_of_mem_scientific (fun _ => isNumberChar_of_mem_digitsOf) h

end Characters

end Stencil.Json
