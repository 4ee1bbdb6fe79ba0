/-!
# Lower case, as far as ASCII words can tell

Keywords are compared without regard to case. The only characters whose Unicode lower-case form
is one ASCII letter are the ASCII capitals and the Kelvin sign, so mapping just those decides every
comparison with a text made of ASCII characters.
-/

namespace EventKernel

/-- The lower-case form of a character if that form is ASCII, and the character itself if not. -/
def lowerChar (c : Char) : Char :=
  if c = '\u212a' then 'k' else c.toLower

/-- The lower-case form of a text, exact wherever it is compared with ASCII text. -/
def lowerCase (cs : List Char) : List Char :=
  cs.map lowerChar

/-- Whether two texts agree up to the case of ASCII letters. -/
def sameIgnoringAsciiCase (s t : String) : Bool :=
  s.toList.map Char.toLower == t.toList.map Char.toLower

end EventKernel
