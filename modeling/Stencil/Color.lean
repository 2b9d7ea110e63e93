import Stencil.Decimal.Notation

/-!
# Color — colours of eight bits a channel

A `Color` has three channels from 0 to 255. `Color.ofInts` clamps any whole numbers to that range,
so every colour an instruction asks for exists, and `ofInts_channels` says that a colour's own
channels give it back. `unit` gives the channels on the scale from nought to one.
-/

namespace Stencil

/-- One channel of a colour. -/
abbrev Channel := Fin 256

/-- The channel nearest to a whole number. -/
def Channel.clamp (n : Int) : Channel :=
  ⟨(min 255 (max 0 n)).toNat, by omega⟩

/-- The channel on the scale from nought to one. -/
def Channel.unit (c : Channel) : Float :=
  Float.ofNat c.val / 255

theorem Channel.clamp_val (n : Int) : ((Channel.clamp n).val : Int) = min 255 (max 0 n) := by
  simp only [Channel.clamp]
  omega

@[simp] theorem Channel.clamp_channel (c : Channel) : Channel.clamp (c.val : Int) = c := by
  apply Fin.ext
  have := c.isLt
  simp only [Channel.clamp]
  omega

/-- **A colour** of three channels. -/
structure Color where
  red : Channel
  green : Channel
  blue : Channel
  deriving Repr, DecidableEq

namespace Color

/-- The colour with these channels, each clamped. -/
def ofInts (red green blue : Int) : Color :=
  ⟨Channel.clamp red, Channel.clamp green, Channel.clamp blue⟩

@[simp] theorem ofInts_channels (c : Color) : ofInts c.red.val c.green.val c.blue.val = c := by
  simp [ofInts]

/-- White, the ground of a canvas that asks for none. -/
def white : Color := ⟨255, 255, 255⟩

/-- Black, the colour of an instruction that asks for none. -/
def black : Color := ⟨0, 0, 0⟩

/-- The three channels in order. -/
def channels (c : Color) : List Channel :=
  [c.red, c.green, c.blue]

/-- The three channels on the scale from nought to one. -/
def unit (c : Color) : List Float :=
  c.channels.map Channel.unit

/-- The colour as descriptions show it. -/
def describe (c : Color) : String :=
  s!"rgb({c.red.val}, {c.green.val}, {c.blue.val})"

/-- The colour with its fields spelled out. -/
def inspect (c : Color) : String :=
  s!"Color(red={c.red.val}, green={c.green.val}, blue={c.blue.val})"

/-- A colour that may be absent, as descriptions show it. -/
def describe? : Option Color → String
  | some c => c.describe
  | none => "None"

end Color

end Stencil
