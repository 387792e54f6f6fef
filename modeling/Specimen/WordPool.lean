/-!
# The word pool

Every generated text is made of these lower-case filler words.
-/

namespace Specimen.WordPool

/-- The words of the pool, all different. -/
def words : List String :=
  [
    "lorem", "capicola", "tenderloin", "sunt", "elit", "turducken", "sirloin", "eu", "ut", "pork",
    "chop", "est", "nisi", "cupim", "in", "culpa", "adipisicing", "beef", "incididunt", "id",
    "buffalo", "ea", "spare", "ribs", "t-bone", "meatball", "proident", "tail", "aute", "dolore",
    "tempor", "ipsum", "consectetur", "frankfurter", "exercitation", "voluptate", "esse",
    "porchetta", "ground", "round", "dolor", "excepteur", "quis", "cupidatat", "prosciutto",
    "aliqua", "leberkas", "meatloaf", "fugiat", "ball", "tip", "kevin", "duis", "nulla", "magna",
    "jerky", "qui", "deserunt", "sint", "sed", "turkey", "andouille", "officia", "anim",
    "sausage", "do", "reprehenderit", "rump", "filet", "mignon", "veniam", "et", "pig", "venison",
    "ad", "eiusmod", "flank", "doner", "labore", "minim", "non", "kielbasa", "chuck", "laboris",
    "commodo", "mollit", "ex", "occaecat", "swine", "biltong", "ham", "hock", "pariatur",
    "cillum", "belly", "salami", "velit", "laborum", "pancetta", "shank", "strip", "steak",
    "drumstick", "tri-tip", "short", "bacon", "ullamco", "jowl", "enim", "brisket", "burgdoggen",
    "picanha", "cow", "alcatra", "shankle", "loin", "tongue", "aliquip", "nostrud", "bresaola",
    "consequat", "boudin", "landjaeger", "fatback", "corned", "pastrami", "chicken", "ribeye",
    "irure", "hamburger", "shoulder"
  ]

/-- The number of words in the pool. -/
def size : Nat := 131

set_option maxRecDepth 4000 in
@[simp]
theorem length_words : words.length = size := rfl

def word (i : Fin size) : String :=
  words.get ⟨i.val, by rw [length_words]; exact i.isLt⟩

/-- Whether a text is a word of the pool. -/
def isWord (token : String) : Bool :=
  words.contains token

end Specimen.WordPool
