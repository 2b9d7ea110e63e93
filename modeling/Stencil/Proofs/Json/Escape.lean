import Mathlib
import Stencil.Json.Printer
import Stencil.Json.Reader

/-!
# Proofs/Json/Escape — a written text is read as it was

    "  a  é       😀             "
    "  a  \u00e9  \ud83d\ude00   "       one unit of UTF-16, or the two of a pair

Every code point of a text is written in ASCII: as it stands, by a letter behind a backslash, or by
the units that it has in UTF-16.  A reader takes two units that form a pair for one character, so
two halves of a pair that stand side by side in a text come back joined (`joined`), and nothing else
changes (`readString_writeString`).  A text of characters has no halves and is read as it was
(`joined_eq_self_iff`, `joined_plain`).
-/

namespace Stencil.Json

open Stencil.Text

/-! ## Pairs of halves -/

/-- The code points of a text with the halves of each pair joined. -/
def joinHalves : List CodePoint → List CodePoint
  | .half high :: .half low :: rest =>
    if isHighUnit high.unit && isLowUnit low.unit then
      .char (Char.ofNat (0x10000 + (high.unit - 0xd800) * 0x400 + (low.unit - 0xdc00))) ::
        joinHalves rest
    else .half high :: joinHalves (.half low :: rest)
  | point :: rest => point :: joinHalves rest
  | [] => []

/-- **The text with the halves of each pair joined.** -/
def joined (s : Loose) : Loose :=
  Loose.ofPoints (joinHalves s.points)

/-- Two halves of a pair side by side among the code points of a text. -/
def HasPair (points : List CodePoint) : Prop :=
  ∃ high low : Half, isHighUnit high.unit = true ∧ isLowUnit low.unit = true ∧
    [.half high, .half low] <:+: points

section Pairs

variable {points : List CodePoint}

/-- Behind a code point that opens no pair the pairs are those of the rest. -/
theorem hasPair_cons_iff {point : CodePoint}
    (hpoint : ∀ high low : Half, isHighUnit high.unit = true → isLowUnit low.unit = true →
      ¬[.half high, .half low] <+: point :: points) :
    HasPair (point :: points) ↔ HasPair points := by
  refine exists_congr fun high => exists_congr fun low => and_congr_right fun hhigh =>
    and_congr_right fun hlow => ?_
  rw [List.infix_cons_iff, or_iff_right (hpoint high low hhigh hlow)]

/-- **Only the halves of pairs are joined.** -/
theorem joinHalves_eq_self_iff : joinHalves points = points ↔ ¬HasPair points := by
  induction points using joinHalves.induct with
  | case1 high low points hpair ih =>
    rw [joinHalves, if_pos hpair]
    obtain ⟨hhigh, hlow⟩ := Bool.and_eq_true_iff.mp hpair
    refine iff_of_false (fun h => ?_) fun h =>
      h ⟨high, low, hhigh, hlow, (List.prefix_append [_, _] points).isInfix⟩
    cases (List.cons.inj h).1
  | case2 high low points hpair ih =>
    rw [joinHalves, if_neg hpair, List.cons.injEq, and_iff_right rfl, ih]
    refine not_congr (hasPair_cons_iff fun high' low' hhigh hlow hprefix => hpair ?_).symm
    rw [List.cons_prefix_cons, List.cons_prefix_cons] at hprefix
    obtain ⟨⟨⟩, ⟨⟩, -⟩ := hprefix
    rw [hhigh, hlow]
    rfl
  | case3 point points hnot ih =>
    rw [joinHalves]
    · rw [List.cons.injEq, and_iff_right rfl, ih]
      refine not_congr (hasPair_cons_iff fun high low _ _ hprefix => ?_).symm
      obtain ⟨rest, hrest⟩ := hprefix
      obtain ⟨rfl, rfl⟩ := List.cons.inj hrest
      exact hnot high low rest rfl rfl
    · exact hnot
  | case4 => exact iff_of_true rfl fun ⟨_, _, _, _, h⟩ => by cases List.infix_nil.mp h

/-- A text of characters has no halves. -/
theorem not_hasPair_plain (s : String) : ¬HasPair (Loose.plain s).points := by
  rintro ⟨high, low, -, -, hpoints⟩
  have hmem := hpoints.mem (List.mem_cons_self (a := CodePoint.half high))
  obtain ⟨c, -, hc⟩ := List.mem_map.mp hmem
  cases hc

theorem joinHalves_ne_nil (h : points ≠ []) : joinHalves points ≠ [] := by
  unfold joinHalves
  split
  · split <;> exact List.cons_ne_nil _ _
  · exact List.cons_ne_nil _ _
  · exact absurd rfl h

theorem points_joined (s : Loose) : (joined s).points = joinHalves s.points :=
  Loose.points_ofPoints _

/-- **A text is as it was** if no two halves of a pair stand side by side in it. -/
theorem joined_eq_self_iff {s : Loose} : joined s = s ↔ ¬HasPair s.points := by
  rw [← joinHalves_eq_self_iff, ← points_joined]
  constructor
  · exact congrArg Loose.points
  · intro h
    rw [← Loose.ofPoints_points (joined s), h, Loose.ofPoints_points]

@[simp] theorem joined_plain (s : String) : joined (.plain s) = .plain s :=
  joined_eq_self_iff.mpr (not_hasPair_plain s)

/-- A text with code points keeps some. -/
theorem joined_ne {s : Loose} (h : s ≠ .plain "") : joined s ≠ .plain "" := by
  intro hempty
  have hpoints : joinHalves s.points = [] := by rw [← points_joined, hempty]; rfl
  have hnil : s.points = [] := by
    by_contra hne
    exact joinHalves_ne_nil hne hpoints
  rw [← Loose.ofPoints_points s, hnil] at h
  exact h rfl

end Pairs

/-! ## Units -/

section Units

variable {unit : ℕ} {s : List Char}

theorem isHighUnit_iff : isHighUnit unit = true ↔ 0xd800 ≤ unit ∧ unit ≤ 0xdbff := by
  rw [isHighUnit, Bool.and_eq_true, decide_eq_true_eq, decide_eq_true_eq]

theorem isLowUnit_iff : isLowUnit unit = true ↔ 0xdc00 ≤ unit ∧ unit ≤ 0xdfff := by
  rw [isLowUnit, Bool.and_eq_true, decide_eq_true_eq, decide_eq_true_eq]

theorem hexValue?_hexDigit {n : ℕ} (h : n < 16) : hexValue? (hexDigit n) = some n := by
  have hall : ∀ n < 16, hexValue? (hexDigit n) = some n := by decide
  exact hall n h

/-- The four digits of a unit are read as the unit. -/
theorem readUnit?_hexDigits (h : unit < 0x10000) (s : List Char) :
    readUnit? (hexDigits 4 unit ++ s) = some (unit, s) := by
  have hdigits : hexDigits 4 unit = [hexDigit (unit / 16 / 16 / 16 % 16),
      hexDigit (unit / 16 / 16 % 16), hexDigit (unit / 16 % 16), hexDigit (unit % 16)] := rfl
  have hdigit (n : ℕ) : hexValue? (hexDigit (n % 16)) = some (n % 16) :=
    hexValue?_hexDigit (Nat.mod_lt n (by decide))
  simp only [hdigits, List.cons_append, List.nil_append, readUnit?, hdigit, Option.bind_eq_bind,
    Option.bind_some, Option.pure_def, Option.some.injEq, Prod.mk.injEq, and_true]
  omega

/-- A unit that closes a pair is found where one is written. -/
theorem readLowUnit?_unitEscape (h : unit < 0x10000) (s : List Char) :
    readLowUnit? (unitEscape unit ++ s) = if isLowUnit unit then some (unit, s) else none := by
  change Option.filter _ (readUnit? (hexDigits 4 unit ++ s)) = _
  rw [readUnit?_hexDigits h, Option.filter_some]

/-- A unit that opens no pair stands for a code point. -/
theorem readEscape_unit (h : unit < 0x10000)
    (hnext : isHighUnit unit = true → readLowUnit? s = none) :
    readEscape ('u' :: (hexDigits 4 unit ++ s)) = .ok (ofUnit unit, s) := by
  simp only [readEscape, readUnit?_hexDigits h]
  split
  next hhigh => rw [hnext hhigh]
  next => rfl

/-- Two units that form a pair stand for one character. -/
theorem readEscape_pair {high low : ℕ} (hhigh : isHighUnit high = true)
    (hlow : isLowUnit low = true) (s : List Char) :
    readEscape ('u' :: (hexDigits 4 high ++ (unitEscape low ++ s))) =
      .ok (.char (Char.ofNat (0x10000 + (high - 0xd800) * 0x400 + (low - 0xdc00))), s) := by
  have hhigh' : high < 0x10000 := (isHighUnit_iff.mp hhigh).2.trans_lt (by decide)
  have hlow' : low < 0x10000 := (isLowUnit_iff.mp hlow).2.trans_lt (by decide)
  simp only [readEscape, readUnit?_hexDigits hhigh', hhigh, if_true,
    readLowUnit?_unitEscape hlow', hlow]

theorem ofUnit_half (h : Half) : ofUnit h.unit = .half h :=
  dif_pos h.mem_range

/-- No character is half of a pair. -/
theorem toNat_range (c : Char) : c.toNat < 0xd800 ∨ 0xdfff < c.toNat ∧ c.toNat < 0x110000 :=
  c.valid

theorem ofUnit_toNat (c : Char) : ofUnit c.toNat = .char c := by
  have := toNat_range c
  rw [ofUnit, dif_neg (by omega), Char.ofNat_toNat]

end Units

/-! ## Written characters -/

/-- **The four ways to write a character.** -/
inductive WrittenAs (c : Char) : List Char → Prop
  | itself (hquote : c ≠ '"') (hback : c ≠ '\\') (h : 0x20 ≤ c.toNat ∧ c.toNat < 0x7f) :
    WrittenAs c [c]
  | letter (e : Char) (hprint : 0x20 ≤ e.toNat ∧ e.toNat < 0x7f) (hne : e ≠ 'u')
    (h : ∀ s, readEscape (e :: s) = .ok (.char c, s)) : WrittenAs c ['\\', e]
  | unit (h : c.toNat < 0x10000) : WrittenAs c (unitEscape c.toNat)
  | pair (high low : ℕ) (hhigh : isHighUnit high = true) (hlow : isLowUnit low = true)
    (h : Char.ofNat (0x10000 + (high - 0xd800) * 0x400 + (low - 0xdc00)) = c) :
    WrittenAs c (unitEscape high ++ unitEscape low)

theorem writtenAs_writeChar (c : Char) : WrittenAs c (writeChar c) := by
  have hletter (e : Char) (code : ℕ) (hc : c = Char.ofNat code)
      (hprint : 0x20 ≤ e.toNat ∧ e.toNat < 0x7f) (hne : e ≠ 'u')
      (h : ∀ s, readEscape (e :: s) = .ok (.char (Char.ofNat code), s)) : WrittenAs c ['\\', e] :=
    .letter e hprint hne (hc ▸ h)
  have hcode {code : ℕ} (h : c.toNat = code) : c = Char.ofNat code := by
    rw [← h, Char.ofNat_toNat]
  rw [writeChar]
  split
  next h => exact hletter doubleQuote 0x22 h (by decide) (by decide) fun _ => rfl
  next hquote =>
  split
  next h => exact hletter backslash 0x5c h (by decide) (by decide) fun _ => rfl
  next hback =>
  split
  next h => exact hletter 'n' 0xa h (by decide) (by decide) fun _ => rfl
  split
  next h => exact hletter 'r' 0xd h (by decide) (by decide) fun _ => rfl
  split
  next h => exact hletter 't' 0x9 h (by decide) (by decide) fun _ => rfl
  split
  next h => exact hletter 'b' 0x8 (hcode h) (by decide) (by decide) fun _ => rfl
  split
  next h => exact hletter 'f' 0xc (hcode h) (by decide) (by decide) fun _ => rfl
  split
  next h =>
    rw [Bool.and_eq_true, decide_eq_true_eq, decide_eq_true_eq] at h
    exact .itself hquote hback h
  split
  next h => exact .unit h
  next h =>
    have hrange := toNat_range c
    refine .pair _ _ (isHighUnit_iff.mpr (by omega)) (isLowUnit_iff.mpr (by omega)) ?_
    refine (congrArg Char.ofNat ?_).trans (Char.ofNat_toNat c)
    omega

/-! ## Written texts -/

section Points

variable {point : CodePoint} {points : List CodePoint} {s rest : List Char} {fuel : ℕ}

theorem readPoints_escape {s' : List Char} (h : readEscape s = .ok (point, s'))
    (hs : readPoints fuel s' = .ok (points, rest)) :
    readPoints (fuel + 1) ('\\' :: s) = .ok (point :: points, rest) := by
  rw [readPoints, h]
  simp only [bind, Except.bind, hs]
  rfl

theorem readPoints_char {c : Char} (hquote : c ≠ '"') (hback : c ≠ '\\') (h : 0x20 ≤ c.toNat)
    (hs : readPoints fuel s = .ok (points, rest)) :
    readPoints (fuel + 1) (c :: s) = .ok (.char c :: points, rest) := by
  rw [readPoints, if_neg (Nat.not_lt.mpr h)]
  · simp only [bind, Except.bind, hs]
    rfl
  · exact hquote
  · exact hback

/-- **A written code point is read as it was**, unless it opens a pair that the text closes. -/
theorem readPoints_writePoint
    (hnext : ∀ h, point = .half h → isHighUnit h.unit = true → readLowUnit? s = none)
    (hs : readPoints fuel s = .ok (points, rest)) :
    readPoints (fuel + 1) (writePoint point ++ s) = .ok (point :: points, rest) := by
  cases point with
  | half h =>
    have hunit := readEscape_unit (h.mem_range.2.trans_lt (by decide)) (hnext h rfl)
    rw [ofUnit_half] at hunit
    exact readPoints_escape hunit hs
  | char c =>
    have hwritten := writtenAs_writeChar c
    rw [writePoint]
    generalize writeChar c = text at hwritten
    cases hwritten with
    | itself hquote hback h => exact readPoints_char hquote hback h.1 hs
    | letter e _ _ h => exact readPoints_escape (h s) hs
    | unit h =>
      have hunit := readEscape_unit (s := s) h fun hhigh => by
        have hrange := toNat_range c
        have hhalf := isHighUnit_iff.mp hhigh
        omega
      rw [ofUnit_toNat] at hunit
      exact readPoints_escape hunit hs
    | pair high low hhigh hlow h =>
      have hpair := readEscape_pair hhigh hlow s
      rw [h] at hpair
      rw [List.append_assoc]
      exact readPoints_escape hpair hs

/-- Nothing but half of a pair that closes one is taken for such a half. -/
theorem readLowUnit?_writePoint (hpoint : ∀ h, point = .half h → isLowUnit h.unit = false) :
    readLowUnit? (writePoint point ++ s) = none := by
  have hnot {unit : ℕ} (hunit : unit < 0x10000) (h : ¬isLowUnit unit = true) (s : List Char) :
      readLowUnit? (unitEscape unit ++ s) = none := by
    rw [readLowUnit?_unitEscape hunit, if_neg h]
  cases point with
  | half h =>
    exact hnot (h.mem_range.2.trans_lt (by decide)) (Bool.eq_false_iff.mp (hpoint h rfl)) s
  | char c =>
    have hwritten := writtenAs_writeChar c
    rw [writePoint]
    generalize writeChar c = text at hwritten
    cases hwritten with
    | itself hquote hback h =>
      rw [List.singleton_append, readLowUnit?]
      rintro r heq
      exact hback (List.cons.inj heq).1
    | letter e _ hne h =>
      rw [List.cons_append, List.singleton_append, readLowUnit?]
      rintro r heq
      exact hne (List.cons.inj (List.cons.inj heq).2).1
    | unit h =>
      have hrange := toNat_range c
      exact hnot h (mt isLowUnit_iff.mp (by omega)) s
    | pair high low hhigh hlow h =>
      have hhalf := isHighUnit_iff.mp hhigh
      rw [List.append_assoc]
      exact hnot (by omega) (mt isLowUnit_iff.mp (by omega)) _

/-- **Written code points are read as they were**, with the halves of each pair joined. -/
theorem readPoints_flatMap (points : List CodePoint) (rest : List Char)
    (hfuel : points.length ≤ fuel) :
    readPoints (fuel + 1) (points.flatMap writePoint ++ '"' :: rest) =
      .ok (joinHalves points, rest) := by
  induction points using joinHalves.induct generalizing fuel with
  | case1 high low points hpair ih =>
    obtain ⟨hhigh, hlow⟩ := Bool.and_eq_true_iff.mp hpair
    obtain _ | fuel := fuel
    · cases hfuel
    have hrest := ih ((Nat.le_succ _).trans (Nat.le_of_succ_le_succ hfuel))
    rw [joinHalves, if_pos hpair, List.flatMap_cons, List.flatMap_cons, List.append_assoc,
      List.append_assoc]
    exact readPoints_escape (readEscape_pair hhigh hlow _) hrest
  | case2 high low points hpair ih =>
    obtain _ | fuel := fuel
    · cases hfuel
    have hrest := ih (Nat.le_of_succ_le_succ hfuel)
    rw [joinHalves, if_neg hpair, List.flatMap_cons, List.append_assoc]
    refine readPoints_writePoint ?_ hrest
    rintro h ⟨⟩ hhigh
    rw [List.flatMap_cons, List.append_assoc]
    refine readLowUnit?_writePoint ?_
    rintro l ⟨⟩
    simpa [hhigh] using hpair
  | case3 point points hnot ih =>
    obtain _ | fuel := fuel
    · cases hfuel
    have hrest := ih (Nat.le_of_succ_le_succ hfuel)
    rw [joinHalves, List.flatMap_cons, List.append_assoc]
    · refine readPoints_writePoint ?_ hrest
      rintro high rfl -
      cases points with
      | nil => rfl
      | cons next points =>
        rw [List.flatMap_cons, List.append_assoc]
        refine readLowUnit?_writePoint ?_
        rintro low rfl
        exact (hnot high low points rfl rfl).elim
    · exact hnot
  | case4 => rfl

end Points

/-! ## ASCII -/

section Ascii

variable {c : Char} {point : CodePoint}

/-- The hexadecimal digits are printable. -/
theorem mem_hexDigits {width n : ℕ} (h : c ∈ hexDigits width n) :
    0x20 ≤ c.toNat ∧ c.toNat < 0x7f := by
  have hall : ∀ n < 16, 0x20 ≤ (hexDigit n).toNat ∧ (hexDigit n).toNat < 0x7f := by decide
  induction width generalizing n with
  | zero => cases h
  | succ width ih =>
    rcases List.mem_append.mp h with h | h
    · exact ih h
    · rw [List.mem_singleton.mp h]
      exact hall _ (Nat.mod_lt n (by decide))

theorem mem_unitEscape {unit : ℕ} (h : c ∈ unitEscape unit) : 0x20 ≤ c.toNat ∧ c.toNat < 0x7f := by
  rcases List.mem_cons.mp h with rfl | h
  · decide
  rcases List.mem_cons.mp h with rfl | h
  · decide
  · exact mem_hexDigits h

/-- **A code point is written in printable ASCII.** -/
theorem mem_writePoint (h : c ∈ writePoint point) : 0x20 ≤ c.toNat ∧ c.toNat < 0x7f := by
  cases point with
  | half u => exact mem_unitEscape h
  | char d =>
    have hwritten := writtenAs_writeChar d
    rw [writePoint] at h
    generalize writeChar d = text at hwritten h
    cases hwritten with
    | itself _ _ hd => rwa [List.mem_singleton.mp h]
    | letter e he _ _ =>
      rcases List.mem_cons.mp h with rfl | h
      · decide
      · rwa [List.mem_singleton.mp h]
    | unit _ => exact mem_unitEscape h
    | pair high low _ _ _ => exact (List.mem_append.mp h).elim mem_unitEscape mem_unitEscape

theorem writePoint_ne_nil (point : CodePoint) : writePoint point ≠ [] := by
  cases point with
  | half u => exact List.cons_ne_nil _ _
  | char d =>
    have hwritten := writtenAs_writeChar d
    rw [writePoint]
    generalize writeChar d = text at hwritten
    cases hwritten <;> exact List.cons_ne_nil _ _

/-- A written code point takes one character at least. -/
theorem length_le_flatMap (points : List CodePoint) :
    points.length ≤ (points.flatMap writePoint).length := by
  induction points with
  | nil => exact Nat.le_refl 0
  | cons point points ih =>
    have := List.length_pos_iff.mpr (writePoint_ne_nil point)
    rw [List.flatMap_cons, List.length_append, List.length_cons]
    omega

theorem mem_writeString {s : Loose} (h : c ∈ writeString s) : 0x20 ≤ c.toNat ∧ c.toNat < 0x7f := by
  rw [writeString, List.mem_append, List.mem_cons, List.mem_flatMap, List.mem_singleton] at h
  rcases h with (rfl | ⟨point, -, h⟩) | rfl
  · decide
  · exact mem_writePoint h
  · decide

end Ascii

/-- **A written text is read as it was**, with the halves of each pair joined. -/
theorem readString_writeString (s : Loose) (rest : List Char) :
    ∃ text, writeString s ++ rest = '"' :: text ∧ readString text = .ok (joined s, rest) := by
  refine ⟨s.points.flatMap writePoint ++ '"' :: rest, ?_, ?_⟩
  · rw [writeString, List.append_assoc]
    rfl
  · have hlength := length_le_flatMap s.points
    rw [readString, readPoints_flatMap s.points rest (by rw [List.length_append]; omega)]
    rfl

end Stencil.Json
