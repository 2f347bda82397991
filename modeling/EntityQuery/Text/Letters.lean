/-!
# Letter case

Lower-casing as the keyword tables need it: the ASCII letters and the one accented letter that a
keyword holds. No other capital has a lower-case form that is a letter of a keyword.
-/

namespace EntityQuery.Text

/-- The lower-case form of an ASCII letter or of `Í`; any other character stays. -/
def lowerChar (c : Char) : Char :=
  if c = 'Í' then 'í' else c.toLower

/-- Lower-case a text letter by letter. -/
def lower (s : List Char) : List Char :=
  s.map lowerChar

/-- Whether two texts agree up to the case of ASCII letters. -/
def sameLetters (a b : List Char) : Bool :=
  a.map Char.toLower == b.map Char.toLower

end EntityQuery.Text
