import Specimen.FieldType.Reader

/-!
# Canonical type strings

Each field type has one canonical type string. The ranges that a bare code stands for are written as
the bare code, numerals without leading zeros and floats as they are displayed; the digits of an
image size are kept.
-/

namespace Specimen

namespace Amount

def text : Amount → List Char
  | fixed count => Numeral.ofNat count
  | range counts => CountRange.boundsText counts.min counts.max

end Amount

namespace FieldType

def canonicalText : FieldType → List Char
  | integer range =>
    if range = .nonNegative then ['i'] else 'i' :: ':' :: IntRange.boundsText range.min range.max
  | float range =>
    if range == .unitInterval then ['f']
    else 'f' :: ':' :: FloatRange.boundsText range.min range.max
  | text shape => 't' :: ':' :: shape.amount.text ++ [shape.unit.code]
  | image size => 'p' :: ':' :: size.width.toList ++ '*' :: size.height.toList

/-- The canonical type string of a field type. -/
def canonical (type : FieldType) : String :=
  String.ofList type.canonicalText

end FieldType

end Specimen
