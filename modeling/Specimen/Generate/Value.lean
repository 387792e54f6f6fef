import Specimen.Generate.Text
import Specimen.Value

/-!
# Generated values

A value of a field type is drawn from the random source. Only a float range whose bounds lie further
apart than any float can say has no values to draw.
-/

namespace Specimen.Generate

variable {σ : Type} [RandomSource σ]

/-- The numbers of the placeholder images. -/
def imageNumbers : CountRange :=
  ⟨0, 1000, by decide⟩

/-- The address of a placeholder image of a width and height. -/
def imageAddress (width height : String) (s : σ) : Except DrawError (String × σ) := do
  let (number, s) ← Draw.countBetween imageNumbers.min imageNumbers.max s
  .ok ("https://picsum.photos/" ++ width ++ "/" ++ height ++ "?image=" ++
    String.ofList (Numeral.ofNat number), s)

/-- A value of a field type. -/
def value (type : FieldType) (s : σ) : Except DrawError (Value × σ) :=
  match type with
  | .integer range => do
    let (n, s) ← Draw.integerBetween range.min range.max s
    .ok (.int n, s)
  | .float range => do
    let (x, s) ← Draw.float range.min range.max s
    .ok (.float x, s)
  | .text shape => do
    let (cs, s) ← text shape s
    .ok (.text (String.ofList cs), s)
  | .image size => do
    let (address, s) ← imageAddress size.width size.height s
    .ok (.text address, s)

end Specimen.Generate
