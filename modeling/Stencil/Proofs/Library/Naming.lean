import Stencil.Proofs.Drawing.Squares
import Stencil.Proofs.Library.Folder

/-!
# Proofs/Library/Naming — the shapes that a record can ask for

    name ──"shape=" ++ name──▸ record ──Stamp.ofRecord──▸ name in lower case ──find?──▸ shape

Values of records count in lower case, while a library keeps the names of its shapes as they are.  A
record that writes the name of a shape down therefore asks for that name in lower case
(`Stamp.ofRecord_shape`): it gets the shape when the name has no capital letters, and otherwise
another shape or none (`Drawing.paint_of_shapeLines`).  Templates may have names that no record can
ask for (`Drawing.paint_of_sampleFolder`).
-/

namespace Stencil

open Stencil.Text Stencil.Record
open Surface (Recording)

/-- A name in lower case. -/
def Text.lowered (name : String) : String :=
  String.ofList (lower name.toList)

/-! ## Names in a library -/

namespace Library

variable {l : Library} {name : Text.Loose}

theorem exists_find?_eq_some_iff : (∃ shape, l.find? name = some shape) ↔ name ∈ l.names := by
  rw [← contains_iff, contains, List.contains_iff_mem]

theorem find?_eq_none_iff : l.find? name = none ↔ name ∉ l.names := by
  rw [← exists_find?_eq_some_iff, ← Option.isSome_iff_exists, Bool.not_eq_true,
    Option.isSome_eq_false_iff, Option.isNone_iff_eq_none]

theorem name_of_find? {shape : Shape} (h : l.find? name = some shape) : shape.name = name := by
  simpa using List.find?_some h

/-- A name that is taken is not empty. -/
theorem ne_empty_of_mem_names {name : String} (h : .plain name ∈ l.names) : name ≠ "" := by
  obtain ⟨shape, -, hshape⟩ := List.mem_map.mp h
  rintro rfl
  exact shape.name_ne hshape

end Library

/-! ## The record that asks for a shape -/

/-- **A record that writes a name down** asks for the shape of that name in lower case, and leaves
all else open. -/
theorem Stamp.ofRecord_shape {name : String} (hne : name ≠ "") (htrim : IsTrimmed name.toList)
    (hcomma : ',' ∉ name.toList) (hequals : '=' ∉ name.toList) :
    ∃ hlower, ofRecord ("shape=" ++ name) = .ok (plain.withShape (lowered name) hlower) := by
  have htrim := trim_eq_self_iff.mpr htrim
  have htext : ("shape=" ++ name).toList = "shape".toList ++ '=' :: (name.toList ++ []) := by
    rw [String.toList_append, List.append_nil]
    rfl
  have hcut : IsCut ("shape=" ++ name).toList "shape".toList name.toList :=
    ⟨by decide, hequals, [], htext, nofun⟩
  have hvalue : trim name.toList ≠ [] := by
    rwa [htrim, ne_eq, String.toList_eq_nil_iff]
  have hpieces : pieces ',' ("shape=" ++ name).toList = [("shape=" ++ name).toList] := by
    refine pieces_eq_singleton ?_
    rw [String.toList_append, List.mem_append, not_or]
    exact ⟨by decide, hcomma⟩
  have hblank : isBlankText ("shape=" ++ name).toList = false := by
    rw [String.toList_append, isBlankText_append,
      show isBlankText "shape=".toList = false by decide, Bool.false_and]
  obtain ⟨hlower, hfield⟩ := ofText?_of_isCut hcut hvalue
  have hkey : String.ofList (normal "shape".toList) = "shape" := by decide
  rw [normal, htrim] at hlower
  rw [hkey] at hfield
  simp only [normal, htrim] at hfield
  refine ⟨Loose.plain_ne hlower, ?_⟩
  have hread : Field.read ("shape=" ++ name) = .ok [⟨"shape", lowered name, hlower⟩] := by
    rw [read_eq_ok_iff, fieldTexts, hpieces, List.filter_cons_of_pos (by rw [hblank]; rfl)]
    exact .cons hfield .nil
  rw [ofRecord, hread]
  rfl

/-- **The script of two such lines**: a plain canvas, and a stamp that leaves all else open. -/
theorem Script.read_shapeLines {name : String} (hne : name ≠ "") (htrim : IsTrimmed name.toList)
    (hcomma : ',' ∉ name.toList) (hequals : '=' ∉ name.toList) (policy : Policy) :
    ∃ script hlower, (read policy ["width=10", "shape=" ++ name]).outcome = .ok script ∧
      script.canvas.ground = .solid Color.white ∧
      script.stamps = [Stamp.plain.withShape (lowered name) hlower] := by
  obtain ⟨hlower, hstamp⟩ := Stamp.ofRecord_shape hne htrim hcomma hequals
  have hcanvas : (Canvas.ofRecord "width=10").toOption.map Canvas.ground =
      some (.solid Color.white) := by
    decide +kernel
  obtain ⟨canvas, hcanvas, hground⟩ := Option.map_eq_some_iff.mp hcanvas
  rw [toOption_eq_some_iff] at hcanvas
  have hrecord : recordOf ("shape=" ++ name) = "shape=" ++ name := by
    have hname : name.toList ≠ [] := by rwa [ne_eq, String.toList_eq_nil_iff]
    have htrimmed : IsTrimmed ("shape=" ++ name).toList := by
      rw [String.toList_append]
      have hprefix : IsTrimmed "shape=".toList := trim_eq_self_iff.mp (by decide)
      simpa using hprefix.append htrim (by decide) hname []
    rw [recordOf, trim_eq_self_iff.mpr htrimmed, String.ofList_toList]
  have hrecords : records 1 ["width=10", "shape=" ++ name] =
      [(1, "width=10"), (2, "shape=" ++ name)] := by
    have hwidth : recordOf "width=10" = "width=10" := by decide +kernel
    rw [records_cons_of_ne (by rw [hwidth]; decide), hwidth,
      records_cons_of_ne (by rw [hrecord]; simp), hrecord, records_nil]
  refine ⟨⟨canvas, _⟩, hlower, ?_, hground, rfl⟩
  rw [outcome_read_eq_ok_iff]
  refine ⟨_, _, hrecords, hcanvas, ?_⟩
  rw [List.filter_cons_of_pos (reads_of_ofRecord (2, "shape=" ++ name) hstamp policy)]
  exact .cons hstamp .nil

/-! ## What is painted -/

namespace Drawing

variable {d : Drawing} {color : Color} {s : Stamp}

/-- A single stamp on a plain canvas is painted on the ground. -/
theorem paint_eq_after_paintStamp (hground : d.canvas.ground = .solid color)
    (hstamps : d.script.stamps = [s]) (g : Generator) (calls : Array Nat) :
    d.paint g (Recording.blank d.canvas.size) calls = after (paintStamp d g s)
      (Easel.add ⟨Recording.blank d.canvas.size, calls⟩ [.ground color] []) := by
  have hlast : paintStamps d g d.script.stamps = (paintStamp d g s : Painting Recording Unit) := by
    rw [hstamps, paintStamps]
    exact bind_pure (paintStamp d g s)
  rw [← hlast]
  exact after_bind_of_ok (after_paintGround_of_solid hground _)

/-- A stamp that asks for a shape and leaves all else open puts the shape down once, where it is. -/
theorem after_paintStamp_plain (hcanvas : d.canvas.IsWritable) {name : String} {shape : Shape}
    (hfind : d.library.find? name = some shape) (hne : Loose.plain name ≠ .plain "")
    (g : Generator) (e : Easel Recording) :
    ∃ outline, shape.scaled 100 = .ok outline ∧
      after (paintStamp d g (Stamp.plain.withShape name hne)) e =
        (.ok (), (e.dip Color.black).add [.polygon .filled Color.black outline] []) := by
  have hnarrow : (Stamp.plain.withShape name hne).IsNarrow := { Stamp.isNarrow_plain with }
  have hrow : (Stamp.plain.withShape name hne).IsRow :=
    ⟨rfl, rfl, Int.le_refl 0, Int.zero_le_ofNat 1⟩
  obtain ⟨outline, houtline, hafter⟩ := after_paintStamp_of_isRow hcanvas hnarrow hrow hfind g e
  refine ⟨outline, houtline, ?_⟩
  have hstill : (outline.shifted 0 0).copy (Stamp.plain.withShape name hne) 0 = outline := by
    rw [Outline.copy, Outline.shifted_shifted, Int.natCast_zero, Int.zero_mul, Int.add_zero]
    simp [Outline.shifted]
  rw [hafter]
  change (_, (e.dip Color.black).add
    [.polygon .filled Color.black ((outline.shifted 0 0).copy _ 0)] []) = _
  rw [hstill]

/-- **A shape is asked for by its name in lower case.**  Whatever shape of a library is written down
in a record of its own, if its name is trimmed and has no separator in it, the lines are read, and
the drawing looks for the name in lower case.  The shape of that name is painted, once, filled,
black and at full size; where there is none, the drawing fails for want of it.  A name that is its
own lower case is always found, and the shape is the one that it names. -/
theorem paint_of_shapeLines (library : Library) {name : String}
    (hname : .plain name ∈ library.names)
    (htrim : IsTrimmed name.toList) (hcomma : ',' ∉ name.toList) (hequals : '=' ∉ name.toList)
    (policy : Script.Policy) :
    ∃ script, (Script.read policy ["width=10", "shape=" ++ name]).outcome = .ok script ∧
      (lowered name = name → ∃ shape, library.find? name = some shape) ∧
      ∀ d : Drawing, d.library = library → d.script = script → ∀ g calls,
        (∀ shape, library.find? (lowered name) = some shape → shape.name = lowered name ∧
          ∃ outline easel, shape.scaled 100 = .ok outline ∧
            d.paint g (Recording.blank d.canvas.size) calls = (.ok (), easel) ∧
            easel.surface.marks.toList =
              [.ground Color.white, .polygon .filled Color.black outline]) ∧
        (library.find? (lowered name) = none →
          (d.paint g (Recording.blank d.canvas.size) calls).1 =
            .error (.noShape (lowered name))) := by
  obtain ⟨script, hlower, hread, hground, hstamps⟩ :=
    Script.read_shapeLines (Library.ne_empty_of_mem_names hname) htrim hcomma hequals policy
  refine ⟨script, hread, fun _ => Library.exists_find?_eq_some_iff.mpr hname, ?_⟩
  rintro d rfl rfl g calls
  have hpaint := paint_eq_after_paintStamp hground hstamps g calls
  refine ⟨fun shape hfind => ⟨Library.name_of_find? hfind, ?_⟩, fun hnone => ?_⟩
  · have hcanvas : d.canvas.IsWritable := (Script.isNarrow_of_read hread).canvas
    obtain ⟨outline, houtline, hafter⟩ := after_paintStamp_plain hcanvas hfind hlower g _
    refine ⟨outline, _, houtline, hpaint.trans hafter, ?_⟩
    simp [Easel.add, Easel.dip, Recording.blank]
  · rw [hpaint, after_paintStamp_of_none g hnone]
    rfl

/-- A star is drawn. -/
theorem paint_of_shapeLines_star :
    ∃ d : Drawing, .plain "star" ∈ d.library.names ∧
      (Script.read .strict ["width=10", "shape=" ++ "star"]).outcome = .ok d.script ∧
      ∃ outline easel, Shape.star.scaled 100 = .ok outline ∧
        d.paint Generator.zero (Recording.blank d.canvas.size) #[] = (.ok (), easel) ∧
        easel.surface.marks.toList =
          [.ground Color.white, .polygon .filled Color.black outline] := by
  have hname : .plain "star" ∈ Library.builtin.names := by decide
  have htrim : IsTrimmed "star".toList := trim_eq_self_iff.mp (by decide)
  have hlower : lowered "star" = "star" := by decide +kernel
  have hfind : Library.builtin.find? "star" = some Shape.star := rfl
  obtain ⟨script, hread, -, hpaint⟩ :=
    paint_of_shapeLines Library.builtin hname htrim (by decide) (by decide) .strict
  rw [hlower] at hpaint
  obtain ⟨-, hmarks⟩ :=
    (hpaint ⟨Library.builtin, script, none⟩ rfl rfl Generator.zero #[]).1 Shape.star hfind
  exact ⟨_, hname, hread, hmarks⟩

/-- **A template that no record can ask for.**  The folder is loaded, and `Kite` is one of the names
of its library; but a record of that name asks for a shape `kite`, which there is not. -/
theorem paint_of_sampleFolder :
    ∃ (d : Drawing) (s' : Session),
      (Session.start Session.sampleFolder).run (Session.libraryOfFolder "t") = (.ok d.library, s') ∧
      .plain "Kite" ∈ d.library.names ∧ IsTrimmed "Kite".toList ∧
      (',' ∉ "Kite".toList ∧ '=' ∉ "Kite".toList ∧ '\n' ∉ "Kite".toList ∧ '\r' ∉ "Kite".toList) ∧
      (Script.read .strict ["width=10", "shape=" ++ "Kite"]).outcome = .ok d.script ∧
      (d.paint Generator.zero (Recording.blank d.canvas.size) #[]).1 =
        .error (.noShape "kite") := by
  obtain ⟨library, s', kite, hrun, hshapes, hkite, -⟩ :=
    Session.exists_run_libraryOfFolder_sampleFolder
  have hnames : library.names = Shape.builtins.map Shape.name ++ [.plain "Kite"] := by
    rw [Library.names, hshapes, List.map_append, List.map_singleton, hkite]
  have hlower : lowered "Kite" = "kite" := by decide +kernel
  have htrim : IsTrimmed "Kite".toList := trim_eq_self_iff.mp (by decide)
  obtain ⟨script, hne, hread, hground, hstamps⟩ := Script.read_shapeLines (by decide) htrim
    (by decide) (by decide) .strict
  have hnone : library.find? (Stamp.plain.withShape (lowered "Kite") hne).shape = none := by
    change library.find? (lowered "Kite") = none
    rw [Library.find?_eq_none_iff, hnames, hlower]
    decide
  refine ⟨⟨library, script, none⟩, s', hrun, ?_, htrim, by decide, hread, ?_⟩
  · change _ ∈ library.names
    rw [hnames]
    exact List.mem_append_right _ List.mem_cons_self
  · rw [@paint_eq_after_paintStamp ⟨library, script, none⟩ _ _ hground hstamps,
      after_paintStamp_of_none Generator.zero hnone]
    exact congrArg (fun name => Except.error (Error.noShape (.plain name))) hlower

end Drawing

end Stencil
