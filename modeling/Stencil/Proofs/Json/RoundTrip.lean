import Stencil.Proofs.Json.Escape
import Stencil.Proofs.Json.Number
import Stencil.Proofs.Sequence

/-!
# Proofs/Json/RoundTrip — a written value is read as it was

         [              write layout depth
           v ─────────▸   item          ──readValue──▸ w,  what follows
           vs ────────▸ , items ]       ──readItems──▸ ws, what follows

`ReadsAs room v w` says what a value `v` is read as where `room` lists and objects may lie within
each other: the same value, with the halves of pairs in its texts joined and the members of an
object set one after the other.  It asks for whole numbers that are not too long and for values that
do not lie too deep; it asks nothing of texts and doubles.

The reader follows the writer's own recursion (`readValue_write`, `readItems_write`,
`readMembers_write`), whatever the layout and whatever comes behind the value as long as a number
cannot go on with it.  The fuel that the reader starts with is enough because each of its steps
reads a character.  `read_write` is the result, and `isWritten_of_mem_write` says that a written
value is printable ASCII but for the ends of its lines.
-/

namespace Stencil.Json

open Stencil.Text Stencil.Decimal

/-! ## What a value is read as -/

mutual

/-- **What a written value is read as** where so many lists and objects may lie within each
other. -/
inductive ReadsAs : (room : ℕ) → Value → Value → Prop
  | null {room : ℕ} : ReadsAs room .null .null
  | bool {room : ℕ} (b : Bool) : ReadsAs room (.bool b) (.bool b)
  | int {room : ℕ} {n : ℤ} (h : n.natAbs < 10 ^ maxDigits) : ReadsAs room (.int n) (.int n)
  | float {room : ℕ} (x : Float) : ReadsAs room (.float x) (.float x)
  | text {room : ℕ} (s : Loose) : ReadsAs room (.text s) (.text (joined s))
  | list {room : ℕ} {vs ws : List Value} (h : ItemsReadAs room vs ws) :
    ReadsAs (room + 1) (.list vs) (.list ws)
  | object {room : ℕ} {vs ws : Members} (h : MembersReadAs room [] vs ws) :
    ReadsAs (room + 1) (.object vs) (.object ws)

/-- What written items are read as, one by one. -/
inductive ItemsReadAs : (room : ℕ) → List Value → List Value → Prop
  | nil {room : ℕ} : ItemsReadAs room [] []
  | cons {room : ℕ} {v w : Value} {vs ws : List Value} (h : ReadsAs room v w)
    (hrest : ItemsReadAs room vs ws) : ItemsReadAs room (v :: vs) (w :: ws)

/-- What written members are read as after others: each is set in its turn. -/
inductive MembersReadAs : (room : ℕ) → (before vs ws : Members) → Prop
  | nil {room : ℕ} {before : Members} : MembersReadAs room before [] before
  | cons {room : ℕ} {before vs ws : Members} {name : Loose} {v w : Value} (h : ReadsAs room v w)
    (hrest : MembersReadAs room (before.set (joined name) w) vs ws) :
    MembersReadAs room before ((name, v) :: vs) ws

end

/-! ## Gaps -/

section Gaps

variable {layout : Layout} {depth : ℕ} {c : Char} {gap s : List Char}

/-- A gap is skipped up to what is none. -/
theorem skipGap_append (hgap : ∀ c ∈ gap, isGap c = true) (hc : isGap c = false) :
    skipGap (gap ++ c :: s) = c :: s := by
  rw [skipGap, List.dropWhile_append_of_pos hgap, List.dropWhile_cons_of_neg (by simp [hc])]

theorem skipGap_cons (hc : isGap c = false) : skipGap (c :: s) = c :: s := by
  rw [skipGap, List.dropWhile_cons_of_neg (by simp [hc])]

theorem isGap_of_mem_lead (h : c ∈ layout.lead depth) : isGap c = true := by
  cases layout with
  | oneLine => cases h
  | indented step =>
    rcases List.mem_cons.mp h with rfl | h
    · rfl
    · rw [List.eq_of_mem_replicate h]
      rfl

/-- A separator is a comma and a gap. -/
theorem separator_eq (layout : Layout) (depth : ℕ) :
    ∃ gap, layout.separator depth = ',' :: gap ∧ ∀ c ∈ gap, isGap c = true := by
  cases layout with
  | oneLine => exact ⟨[' '], rfl, fun c h => by rw [List.mem_singleton.mp h]; rfl⟩
  | indented step => exact ⟨(Layout.indented step).lead depth, rfl, fun c h => isGap_of_mem_lead h⟩

/-- A line starts with a line feed, if it starts at all. -/
theorem endsNumber_lead (hc : EndsNumber (c :: s)) : EndsNumber (layout.lead depth ++ c :: s) := by
  cases layout with
  | oneLine => exact hc
  | indented step =>
    rintro c ⟨⟩
    decide

end Gaps

/-! ## The first character of a value -/

section First

variable {c : Char} {s rest : List Char} {fuel room : ℕ}

/-- What a number consists of means nothing else. -/
theorem IsNumberChar.isGap_eq (h : IsNumberChar c) : isGap c = false := by
  by_contra hgap
  simp only [isGap, Bool.not_eq_false, Bool.or_eq_true, decide_eq_true_eq] at hgap
  rcases hgap with ((rfl | rfl) | rfl) | rfl <;> exact absurd h (by decide)

theorem IsNumberChar.ne (h : IsNumberChar c) :
    c ≠ '"' ∧ c ≠ '[' ∧ c ≠ ']' ∧ c ≠ openBrace := by
  refine ⟨?_, ?_, ?_, ?_⟩ <;> rintro rfl <;> exact absurd h (by decide)

theorem intChars_ne_nil (n : ℤ) : intChars n ≠ [] := by
  obtain ⟨negative, digits, hnumeral, -⟩ := isNumeral_intChars n
  exact hnumeral.ne_nil

theorem writeChars_ne_nil (x : Float) : numberFormat.writeChars x ≠ [] := by
  intro hnil
  have hread : readAtom (numberFormat.writeChars x ++ []) = .ok (.float x, []) :=
    readAtom_writeChars x fun c h => by cases h
  rw [hnil] at hread
  cases hread

/-- **A value starts with neither a gap nor a closing bracket.** -/
theorem exists_cons_write (layout : Layout) (depth : ℕ) (v : Value) :
    ∃ c s, v.write layout depth = c :: s ∧ isGap c = false ∧ c ≠ ']' := by
  have hnumber {text : List Char} (hne : text ≠ []) (h : ∀ c ∈ text, IsNumberChar c) :
      ∃ c s, text = c :: s ∧ isGap c = false ∧ c ≠ ']' := by
    obtain ⟨c, s, rfl⟩ := List.exists_cons_of_ne_nil hne
    have hc := h c List.mem_cons_self
    exact ⟨c, s, rfl, hc.isGap_eq, hc.ne.2.2.1⟩
  cases v with
  | null => exact ⟨'n', _, rfl, rfl, by decide⟩
  | bool b => cases b <;> exact ⟨_, _, rfl, rfl, by decide⟩
  | int n => exact hnumber (intChars_ne_nil n) fun _ => isNumberChar_of_mem_intChars
  | float x => exact hnumber (writeChars_ne_nil x) fun _ => isNumberChar_of_mem_writeChars
  | text s => exact ⟨'"', _, rfl, rfl, by decide⟩
  | list items => cases items <;> exact ⟨'[', _, rfl, rfl, by decide⟩
  | object members =>
    cases members with
    | nil => exact ⟨openBrace, _, rfl, rfl, by decide⟩
    | cons m rest => exact ⟨openBrace, _, rfl, rfl, by decide⟩

/-- A value that starts like a number is read as one. -/
theorem readValue_of_isNumberChar (h : IsNumberChar c) :
    readValue (fuel + 1) room (c :: s) = readAtom (c :: s) := by
  obtain ⟨hquote, hlist, -, hobject⟩ := h.ne
  rw [readValue.eq_def]
  simp only [if_neg hquote, if_neg hlist, if_neg hobject]

/-- A number or a word is read as a value if it is read at all. -/
theorem readValue_of_readAtom {text : List Char} {w : Value} (hne : text ≠ [])
    (h : ∀ c ∈ text, IsNumberChar c) (hread : readAtom (text ++ rest) = .ok (w, rest))
    (hfuel : text.length < fuel) : readValue fuel room (text ++ rest) = .ok (w, rest) := by
  obtain _ | fuel := fuel
  · cases hfuel
  obtain ⟨c, s, rfl⟩ := List.exists_cons_of_ne_nil hne
  rw [List.cons_append, readValue_of_isNumberChar (h c List.mem_cons_self), ← List.cons_append,
    hread]

end First

/-! ## Values, items and members -/

section Steps

variable {layout : Layout} {depth fuel room : ℕ} {name : Loose} {v w : Value} {vs ws : List Value}
  {earlier before ms ns : Members} {rest : List Char}

/-- **A value is read wherever it is written.** -/
def ReadsBack (layout : Layout) (depth room : ℕ) (v w : Value) : Prop :=
  ∀ fuel rest, (v.write layout depth).length < fuel → EndsNumber rest →
    readValue fuel room (v.write layout depth ++ rest) = .ok (w, rest)

/-- Items are read behind any that is read, up to the end of the list. -/
def ItemsReadBack (layout : Layout) (depth room : ℕ) (vs ws : List Value) : Prop :=
  ∀ v w depth' fuel rest, ReadsBack layout depth room v w →
    (v.write layout depth).length + (writeItems layout depth vs).length + 1 < fuel →
    readItems fuel room (v.write layout depth ++ (writeItems layout depth vs ++
      (layout.lead depth' ++ ']' :: rest))) = .ok (w :: ws, rest)

/-- Members are read behind any that is read and set, up to the end of the object. -/
def MembersReadBack (layout : Layout) (depth room : ℕ) (before ms ns : Members) : Prop :=
  ∀ earlier name v w depth' fuel rest, ReadsBack layout depth room v w →
    before = Members.set earlier (joined name) w →
    (v.write layout depth).length + (writeMembers layout depth ms).length + 1 < fuel →
    readMembers fuel room earlier (writeString name ++ ':' :: ' ' :: (v.write layout depth ++
      (writeMembers layout depth ms ++ (layout.lead depth' ++ closeBrace :: rest)))) =
        .ok (ns, rest)

/-- What stands behind a value ends a number. -/
theorem endsNumber_separator (s : List Char) : EndsNumber (layout.separator depth ++ s) := by
  obtain ⟨gap, hgap, -⟩ := separator_eq layout depth
  rw [hgap]
  rintro c ⟨⟩
  decide

theorem endsNumber_close {c : Char} (hc : c = ']' ∨ c = closeBrace) (rest : List Char) :
    EndsNumber (layout.lead depth ++ c :: rest) := by
  refine endsNumber_lead ?_
  rintro d ⟨⟩
  rcases hc with rfl | rfl <;> decide

theorem itemsReadBack_nil : ItemsReadBack layout depth room [] [] := by
  intro v w depth' fuel rest hv hfuel
  obtain _ | fuel := fuel
  · cases hfuel
  have hread := hv fuel (layout.lead depth' ++ ']' :: rest) (by omega)
    (endsNumber_close (.inl rfl) rest)
  have hgap : skipGap (layout.lead depth' ++ ']' :: rest) = ']' :: rest :=
    skipGap_append (fun c h => isGap_of_mem_lead h) rfl
  simp only [writeItems, List.nil_append, readItems, hread, bind, Except.bind, hgap]
  rfl

/-- The separator of two items is read, and the gap behind it is skipped. -/
theorem skipGap_separator (layout : Layout) (depth : ℕ) (v : Value) (s : List Char) :
    ∃ gap, layout.separator depth ++ (v.write layout depth ++ s) = ',' :: gap ∧
      skipGap gap = v.write layout depth ++ s := by
  obtain ⟨gap, hgap, hmem⟩ := separator_eq layout depth
  obtain ⟨c, t, hwrite, hc, -⟩ := exists_cons_write layout depth v
  refine ⟨gap ++ (v.write layout depth ++ s), by rw [hgap, List.cons_append], ?_⟩
  rw [hwrite, List.cons_append, skipGap_append hmem hc]

theorem ItemsReadBack.cons (h : ReadsBack layout depth room v w)
    (hrest : ItemsReadBack layout depth room vs ws) :
    ItemsReadBack layout depth room (v :: vs) (w :: ws) := by
  intro v₀ w₀ depth' fuel rest hv₀ hfuel
  obtain ⟨gap, hgap, hskip⟩ := skipGap_separator layout depth v
    (writeItems layout depth vs ++ (layout.lead depth' ++ ']' :: rest))
  obtain ⟨c, t, hwrite, -⟩ := exists_cons_write layout depth v₀
  have hpos : 0 < (v₀.write layout depth).length := by
    rw [hwrite]
    exact Nat.succ_pos _
  have hseparator : 0 < (layout.separator depth).length := by
    obtain ⟨gap, hgap, -⟩ := separator_eq layout depth
    rw [hgap]
    exact Nat.succ_pos _
  rw [writeItems] at hfuel ⊢
  simp only [List.length_append] at hfuel
  obtain _ | fuel := fuel
  · cases hfuel
  have hread := hv₀ fuel (',' :: gap) (by omega) (hgap ▸ endsNumber_separator _)
  have hnext := hrest v w depth' fuel rest h (by omega)
  rw [List.append_assoc, List.append_assoc, hgap]
  simp only [readItems, hread, bind, Except.bind, skipGap_cons (show isGap ',' = false from rfl),
    hskip, hnext]
  rfl

/-- A list is read through its items. -/
theorem readValue_list {c : Char} {text s : List Char} (hskip : skipGap text = c :: s)
    (hc : c ≠ ']') (hitems : readItems fuel room (c :: s) = .ok (ws, rest)) :
    readValue (fuel + 1) (room + 1) ('[' :: text) = .ok (.list ws, rest) := by
  rw [readValue.eq_def]
  simp only [if_neg (show '[' ≠ '"' by decide), if_true, hskip]
  split
  next heq => cases heq
  next heq => exact absurd (List.cons.inj heq).1 hc
  next hroom _ =>
    cases hroom
    rw [hitems]
    rfl

theorem readsBack_list (h : ReadsBack layout (depth + 1) room v w)
    (hrest : ItemsReadBack layout (depth + 1) room vs ws) :
    ReadsBack layout depth (room + 1) (.list (v :: vs)) (.list (w :: ws)) := by
  intro fuel rest hfuel hends
  rw [Value.write] at hfuel ⊢
  simp only [List.length_append, List.length_cons, List.length_nil] at hfuel
  obtain _ | fuel := fuel
  · cases hfuel
  obtain ⟨c, t, hwrite, hc, hclose⟩ := exists_cons_write layout (depth + 1) v
  have hitems := hrest v w depth fuel rest h (by omega)
  simp only [hwrite, List.cons_append, List.append_assoc, List.nil_append] at hitems ⊢
  exact readValue_list (skipGap_append (fun c h => isGap_of_mem_lead h) hc) hclose hitems

/-- A member is read up to what stands behind its value. -/
theorem readMembers_member {after : List Char} (hv : ReadsBack layout depth room v w)
    (hfuel : (v.write layout depth).length < fuel) (hends : EndsNumber after) :
    readMembers (fuel + 1) room earlier
        (writeString name ++ ':' :: ' ' :: (v.write layout depth ++ after)) =
      match skipGap after with
      | ',' :: rest => readMembers fuel room (Members.set earlier (joined name) w) (skipGap rest)
      | c :: rest =>
        if c = closeBrace then .ok (Members.set earlier (joined name) w, rest)
        else .error .malformed
      | [] => .error .malformed := by
  obtain ⟨text, hquote, hname⟩ := readString_writeString name
    (':' :: ' ' :: (v.write layout depth ++ after))
  obtain ⟨c, t, hwrite, hc, -⟩ := exists_cons_write layout depth v
  have hskip : skipGap (' ' :: (v.write layout depth ++ after)) =
      v.write layout depth ++ after := by
    rw [hwrite, List.cons_append]
    have hgap : ∀ c ∈ [' '], isGap c = true := fun c h => by
      rw [List.mem_singleton.mp h]
      rfl
    exact skipGap_append hgap hc
  rw [hquote, readMembers]
  simp only [hname, bind, Except.bind, skipGap_cons (show isGap ':' = false from rfl), hskip,
    hv fuel after hfuel hends]
  rfl

theorem membersReadBack_nil : MembersReadBack layout depth room before [] before := by
  rintro earlier name v w depth' fuel rest hv rfl hfuel
  obtain _ | fuel := fuel
  · cases hfuel
  have hgap : skipGap (layout.lead depth' ++ closeBrace :: rest) = closeBrace :: rest :=
    skipGap_append (fun c h => isGap_of_mem_lead h) rfl
  rw [writeMembers, List.nil_append,
    readMembers_member hv (by omega) (endsNumber_close (.inr rfl) rest), hgap]
  rfl

theorem MembersReadBack.cons (h : ReadsBack layout depth room v w)
    (hrest : MembersReadBack layout depth room (Members.set before (joined name) w) ms ns) :
    MembersReadBack layout depth room before ((name, v) :: ms) ns := by
  rintro earlier name₀ v₀ w₀ depth' fuel rest hv₀ rfl hfuel
  obtain ⟨gap, hgap, hmem⟩ := separator_eq layout depth
  obtain ⟨c, t, hwrite, -⟩ := exists_cons_write layout depth v₀
  have hpos : 0 < (v₀.write layout depth).length := by
    rw [hwrite]
    exact Nat.succ_pos _
  obtain ⟨text, hname, -⟩ := readString_writeString name (':' :: ' ' :: (v.write layout depth ++
    (writeMembers layout depth ms ++ (layout.lead depth' ++ closeBrace :: rest))))
  have hskip := skipGap_append (s := text) hmem (show isGap '"' = false from rfl)
  have hends : EndsNumber (',' :: (gap ++ '"' :: text)) := by
    rintro c ⟨⟩
    decide
  rw [writeMembers, hgap] at hfuel ⊢
  simp only [List.length_append, List.length_cons, List.length_nil] at hfuel
  obtain _ | fuel := fuel
  · cases hfuel
  have hnext := hrest _ name v w depth' fuel rest h rfl (by omega)
  simp only [List.cons_append, List.append_assoc, List.nil_append]
  rw [hname, readMembers_member hv₀ (by omega) hends,
    skipGap_cons (show isGap ',' = false from rfl)]
  simp only [hskip]
  rw [← hname]
  exact hnext

/-- An object is read through its members. -/
theorem readValue_object {text s : List Char} (hskip : skipGap text = '"' :: s)
    (hmembers : readMembers fuel room [] ('"' :: s) = .ok (ns, rest)) :
    readValue (fuel + 1) (room + 1) (openBrace :: text) = .ok (.object ns, rest) := by
  rw [readValue.eq_def]
  simp only [if_neg (show openBrace ≠ '"' by decide), if_neg (show openBrace ≠ '[' by decide),
    if_true, hskip, if_neg (show '"' ≠ closeBrace by decide), hmembers]
  rfl

theorem readsBack_object (h : ReadsBack layout (depth + 1) room v w)
    (hrest : MembersReadBack layout (depth + 1) room (Members.set [] (joined name) w) ms ns) :
    ReadsBack layout depth (room + 1) (.object ((name, v) :: ms)) (.object ns) := by
  intro fuel rest hfuel hends
  rw [Value.write] at hfuel ⊢
  simp only [List.length_append, List.length_cons, List.length_nil] at hfuel
  obtain _ | fuel := fuel
  · cases hfuel
  obtain ⟨text, hname, -⟩ := readString_writeString name
    (':' :: ' ' :: (v.write layout (depth + 1) ++ (writeMembers layout (depth + 1) ms ++
      (layout.lead depth ++ closeBrace :: rest))))
  have hmembers := hrest [] name v w depth fuel rest h rfl (by omega)
  rw [hname] at hmembers
  simp only [List.cons_append, List.append_assoc, List.nil_append]
  rw [hname]
  exact readValue_object (skipGap_append (fun c h => isGap_of_mem_lead h) rfl) hmembers

end Steps

/-! ## The round trip -/

section RoundTrip

variable {room : ℕ} {v w : Value}

/-- A value that is a number or a word is read back if it is read at all. -/
theorem readsBack_of_readAtom {layout : Layout} {depth : ℕ} (hne : v.write layout depth ≠ [])
    (h : ∀ c ∈ v.write layout depth, IsNumberChar c)
    (hread : ∀ rest, EndsNumber rest → readAtom (v.write layout depth ++ rest) = .ok (w, rest)) :
    ReadsBack layout depth room v w :=
  fun _ rest hfuel hends => readValue_of_readAtom hne h (hread rest hends) hfuel

theorem readsBack_text (layout : Layout) (depth room : ℕ) (s : Loose) :
    ReadsBack layout depth room (.text s) (.text (joined s)) := by
  intro fuel rest hfuel hends
  obtain _ | fuel := fuel
  · cases hfuel
  obtain ⟨text, hquote, hread⟩ := readString_writeString s rest
  rw [Value.write, hquote, readValue.eq_def]
  simp only [if_true, hread]
  rfl

/-- The words are read back. -/
theorem readsBack_word {layout : Layout} {depth : ℕ} {word : List Char} (hne : word ≠ [])
    (hwrite : v.write layout depth = word) (h : (word.all fun c => IsNumberChar c) = true)
    (hread : ∀ rest, readAtom (word ++ rest) = .ok (v, rest)) :
    ReadsBack layout depth room v v := by
  subst hwrite
  exact readsBack_of_readAtom hne (fun c hc => of_decide_eq_true (List.all_eq_true.mp h c hc))
    fun rest _ => hread rest

theorem readsBack_nil (layout : Layout) (depth room : ℕ) :
    ReadsBack layout depth (room + 1) (.list []) (.list []) ∧
      ReadsBack layout depth (room + 1) (.object []) (.object []) := by
  constructor <;> intro fuel rest hfuel _ <;> obtain _ | fuel := fuel
  · cases hfuel
  · rfl
  · cases hfuel
  · rfl

mutual

/-- **A written value is read as it should be.** -/
theorem ReadsAs.readsBack {layout : Layout} {depth room : ℕ} {v w : Value} :
    ReadsAs room v w → ReadsBack layout depth room v w
  | .null => readsBack_word (List.cons_ne_nil _ _) rfl (by decide) fun _ => rfl
  | .bool true => readsBack_word (List.cons_ne_nil _ _) rfl (by decide) fun _ => rfl
  | .bool false => readsBack_word (List.cons_ne_nil _ _) rfl (by decide) fun _ => rfl
  | .int h => readsBack_of_readAtom (intChars_ne_nil _) (fun _ => isNumberChar_of_mem_intChars)
      fun _ => readAtom_intChars h
  | .float x => readsBack_of_readAtom (writeChars_ne_nil x)
      (fun _ => isNumberChar_of_mem_writeChars) fun _ => readAtom_writeChars x
  | .text s => readsBack_text layout depth _ s
  | .list .nil => (readsBack_nil layout depth _).1
  | .list (.cons h hrest) => readsBack_list h.readsBack hrest.itemsReadBack
  | .object .nil => (readsBack_nil layout depth _).2
  | .object (.cons h hrest) => readsBack_object h.readsBack hrest.membersReadBack

theorem ItemsReadAs.itemsReadBack {layout : Layout} {depth room : ℕ} {vs ws : List Value} :
    ItemsReadAs room vs ws → ItemsReadBack layout depth room vs ws
  | .nil => itemsReadBack_nil
  | .cons h hrest => ItemsReadBack.cons h.readsBack hrest.itemsReadBack

theorem MembersReadAs.membersReadBack {layout : Layout} {depth room : ℕ} {before ms ns : Members} :
    MembersReadAs room before ms ns → MembersReadBack layout depth room before ms ns
  | .nil => membersReadBack_nil
  | .cons h hrest => MembersReadBack.cons h.readsBack hrest.membersReadBack

end

/-- **The text of a value is read as the value should be**, in any layout. -/
theorem read_write (layout : Layout) (h : ReadsAs maxDepth v w) :
    Value.read (v.write layout 0) = .ok w := by
  obtain ⟨c, s, hwrite, hc, -⟩ := exists_cons_write layout 0 v
  have hskip : skipGap (v.write layout 0) = v.write layout 0 := by
    rw [hwrite]
    exact skipGap_cons hc
  have hback : ReadsBack layout 0 maxDepth v w := h.readsBack
  have hread := hback _ [] (Nat.lt_succ_self _) fun c hc => by cases hc
  rw [List.append_nil] at hread
  rw [Value.read, hskip, hread]
  rfl

end RoundTrip

/-! ## ASCII -/

/-- A character of a written value: printable ASCII or a line feed. -/
def IsWritten (c : Char) : Prop :=
  c = '\n' ∨ 0x20 ≤ c.toNat ∧ c.toNat < 0x7f

section Ascii

variable {layout : Layout} {c : Char}

theorem IsNumberChar.isWritten (h : IsNumberChar c) : IsWritten c := by
  rw [IsNumberChar] at h
  exact .inr (by omega)

theorem isWritten_of_mem_word (word : List Char) (h : (word.all fun c => IsNumberChar c) = true)
    (hc : c ∈ word) : IsWritten c :=
  (of_decide_eq_true (List.all_eq_true.mp h c hc)).isWritten

/-- Marks that stand between the parts of a value. -/
theorem isWritten_of_mem_marks (h : c ∈ ['[', ']', openBrace, closeBrace, ':', ',', ' ']) :
    IsWritten c := by
  simp only [List.mem_cons, List.not_mem_nil, or_false] at h
  rcases h with rfl | rfl | rfl | rfl | rfl | rfl | rfl <;> exact .inr (by decide)

theorem isWritten_of_mem_lead {depth : ℕ} (h : c ∈ layout.lead depth) : IsWritten c := by
  cases layout with
  | oneLine => cases h
  | indented step =>
    rcases List.mem_cons.mp h with rfl | h
    · exact .inl rfl
    · rw [List.eq_of_mem_replicate h]
      exact .inr (by decide)

theorem isWritten_of_mem_separator {depth : ℕ} (h : c ∈ layout.separator depth) : IsWritten c := by
  cases layout with
  | oneLine =>
    rcases List.mem_pair.mp h with rfl | rfl <;> exact isWritten_of_mem_marks (by simp)
  | indented step =>
    rcases List.mem_cons.mp h with rfl | h
    · exact isWritten_of_mem_marks (by simp)
    · exact isWritten_of_mem_lead h

mutual

/-- **A value is written in printable ASCII**, but for the ends of lines. -/
theorem isWritten_of_mem_write {depth : ℕ} : ∀ {v : Value}, c ∈ v.write layout depth → IsWritten c
  | .null, h => isWritten_of_mem_word "null".toList (by decide) h
  | .bool true, h => isWritten_of_mem_word "true".toList (by decide) h
  | .bool false, h => isWritten_of_mem_word "false".toList (by decide) h
  | .int n, h => (isNumberChar_of_mem_intChars h).isWritten
  | .float x, h => (isNumberChar_of_mem_writeChars h).isWritten
  | .text s, h => .inr (mem_writeString h)
  | .list [], h => by
    rcases List.mem_pair.mp h with rfl | rfl <;> exact isWritten_of_mem_marks (by simp)
  | .list (item :: rest), h => by
    simp only [Value.write, List.mem_append, List.mem_cons, List.not_mem_nil, or_false] at h
    rcases h with ((((rfl | h) | h) | h) | h) | rfl
    · exact isWritten_of_mem_marks (by simp)
    · exact isWritten_of_mem_lead h
    · exact isWritten_of_mem_write h
    · exact isWritten_of_mem_writeItems h
    · exact isWritten_of_mem_lead h
    · exact isWritten_of_mem_marks (by simp)
  | .object [], h => by
    rcases List.mem_pair.mp h with rfl | rfl <;> exact isWritten_of_mem_marks (by simp)
  | .object ((name, value) :: rest), h => by
    simp only [Value.write, List.mem_append, List.mem_cons, List.not_mem_nil, or_false] at h
    rcases h with ((((((rfl | h) | h) | rfl | rfl) | h) | h) | h) | rfl
    · exact isWritten_of_mem_marks (by simp)
    · exact isWritten_of_mem_lead h
    · exact .inr (mem_writeString h)
    · exact isWritten_of_mem_marks (by simp)
    · exact isWritten_of_mem_marks (by simp)
    · exact isWritten_of_mem_write h
    · exact isWritten_of_mem_writeMembers h
    · exact isWritten_of_mem_lead h
    · exact isWritten_of_mem_marks (by simp)

theorem isWritten_of_mem_writeItems {depth : ℕ} :
    ∀ {vs : List Value}, c ∈ writeItems layout depth vs → IsWritten c
  | [], h => by cases h
  | item :: rest, h => by
    simp only [writeItems, List.mem_append] at h
    rcases h with (h | h) | h
    · exact isWritten_of_mem_separator h
    · exact isWritten_of_mem_write h
    · exact isWritten_of_mem_writeItems h

theorem isWritten_of_mem_writeMembers {depth : ℕ} :
    ∀ {ms : Members}, c ∈ writeMembers layout depth ms → IsWritten c
  | [], h => by cases h
  | (name, value) :: rest, h => by
    simp only [writeMembers, List.mem_append, List.mem_cons, List.not_mem_nil, or_false] at h
    rcases h with (((h | h) | rfl | rfl) | h) | h
    · exact isWritten_of_mem_separator h
    · exact .inr (mem_writeString h)
    · exact isWritten_of_mem_marks (by simp)
    · exact isWritten_of_mem_marks (by simp)
    · exact isWritten_of_mem_write h
    · exact isWritten_of_mem_writeMembers h

end

end Ascii

end Stencil.Json
