import Specimen.Text.Cut
import Specimen.Text.UpperCase

/-!
# Setter names

The value of a field `image_url` is delivered to the setter `setImageUrl`: the words of the name
between underscores, each with an upper-case first character, after `set`.
-/

namespace Specimen

/-- The name of the setter for a field, as characters. -/
def setterText (field : List Char) : List Char :=
  's' :: 'e' :: 't' :: (Text.splitAt '_' field).flatMap Text.capitalize

/-- The name of the setter for a field. -/
def setterName (field : String) : String :=
  String.ofList (setterText field.toList)

end Specimen
