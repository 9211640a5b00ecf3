import Darkroom.Number.Shortest

/-!
# Fixed numbers of decimals

A double as the nearest decimal with a given number of places, a half away from zero.  A value that
rounds to zero has no sign.
-/

namespace Darkroom

/-- The text of a double with so many decimals. -/
def fixedDecimal (places : Nat) (x : Float) : String :=
  match Binary.ofFloat x with
  | .finite negative mantissa exponent =>
      let scaled := Binary.nearestWhole (mantissa * 10 ^ places) exponent
      let fraction := toString (scaled % 10 ^ places)
      let sign := if negative && scaled != 0 then "-" else ""
      let point := if places = 0 then "" else "." ++ "".pushn '0' (places - fraction.length)
      sign ++ toString (scaled / 10 ^ places) ++ point ++ if places = 0 then "" else fraction
  | _ => decimal x

end Darkroom
