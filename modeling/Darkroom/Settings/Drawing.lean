import Darkroom.Image
import Darkroom.Keyword.Drawing
import Darkroom.Settings.Basic

/-!
# Drawing settings

How text and shapes are drawn.  They can be rebuilt from the texts of the image settings, patterns
apart.  The weight of a font is a number; words stand for common ones, and two of them are relative
to the weight in force.
-/

namespace Darkroom

namespace FontWeight

/-- The weight of an upright text face. -/
def normal : UInt32 := 400

/-- The weight a text names; `bolder` and `lighter` step from `current`. -/
def parse? (text : String) (current : UInt32) : Option UInt32 :=
  match lowered (trimmed text) with
  | "all" => some 0
  | "bold" => some 700
  | "bolder" => some (min 900 (UInt32.ofNat (min (current.toNat + 100) (2 ^ 32 - 1))))
  | "lighter" => some (max 100 (UInt32.ofNat (current.toNat - 100)))
  | "normal" => some normal
  | number => Integer.word32? number.toList

end FontWeight

/-- The settings for drawing. -/
structure DrawingSettings where
  /-- The map applied to what is drawn. -/
  affine : Affine := Affine.identity
  /-- Edges of shapes are smoothed. -/
  antialias : Bool := true
  /-- Edges of text are smoothed. -/
  textAntialias : Bool := true
  /-- The border color. -/
  borderColor : Color := ⟨0xdf, 0xdf, 0xdf, 255⟩
  /-- How what is drawn is composed. -/
  compose : Compose := .over
  /-- The direction of text. -/
  direction : Direction := default
  /-- The encoding of text. -/
  encoding : Option String := none
  /-- The font family. -/
  family : Option String := none
  /-- The color of areas. -/
  fill : Color := Color.black
  /-- The pattern of areas, when an image was named. -/
  fillPattern : Option Image := none
  /-- The font. -/
  font : Option String := none
  /-- Placement. -/
  gravity : Gravity := default
  /-- Space between lines. -/
  interlineSpacing : Float := 0.0
  /-- Space between words. -/
  interwordSpacing : Float := 0.0
  /-- Space between letters. -/
  kerning : Float := 0.0
  /-- The size of text. -/
  pointSize : Float := defaultPointSize
  /-- What is drawn shows. -/
  render : Bool := true
  /-- The width of the font. -/
  stretch : Stretch := default
  /-- The color of lines. -/
  stroke : Color := Color.transparent
  /-- The pattern of lines, when an image was named. -/
  strokePattern : Option Image := none
  /-- The width of lines. -/
  strokeWidth : Float := 1.0
  /-- The style of the font. -/
  style : Style := default
  /-- The color under text. -/
  underColor : Color := Color.transparent
  /-- The weight of the font. -/
  weight : UInt32 := FontWeight.normal
deriving Inhabited

namespace DrawingSettings

/-- The drawing settings that the image settings imply; no pattern is kept. -/
def ofImageSettings (s : ImageSettings) : DrawingSettings where
  affine := ((s.option? "affine").bind Affine.parse?).getD Affine.identity
  antialias := s.antialias
  textAntialias := s.antialias
  borderColor := s.borderColor
  compose := (s.keyword? Compose "compose").getD .over
  direction := (s.keyword? Direction "direction").getD default
  encoding := s.option? "encoding"
  family := s.option? "family"
  fill := (s.color? "fill").getD Color.black
  font := s.font
  gravity := (s.keyword? Gravity "gravity").getD default
  interlineSpacing := (s.number? "interline-spacing").getD 0.0
  interwordSpacing := (s.number? "interword-spacing").getD 0.0
  kerning := (s.number? "kerning").getD 0.0
  pointSize := s.pointSize
  stretch := (s.keyword? Stretch "stretch").getD default
  stroke := (s.color? "stroke").getD Color.transparent
  strokeWidth := (s.number? "strokewidth").getD 1.0
  style := (s.keyword? Style "style").getD default
  underColor := (s.color? "undercolor").getD Color.transparent
  weight :=
    ((s.option? "weight").bind fun text => FontWeight.parse? text FontWeight.normal).getD
      FontWeight.normal

end DrawingSettings
end Darkroom
