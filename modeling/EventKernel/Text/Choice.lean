import EventKernel.Text.Case

/-!
# Choices on the command line

An option that takes one of several words accepts exactly these words, or, where case does not
matter, their variants in ASCII case.
-/

namespace EventKernel

def chooseWord? {α : Type} (word : α → String) (choices : List α) (ignoreCase : Bool)
    (s : String) : Option α :=
  choices.find? fun a => if ignoreCase then sameIgnoringAsciiCase (word a) s else word a == s

/-- The text about a word that is none of the choices. -/
def invalidChoice (s : String) : String := "invalid variant: " ++ s

end EventKernel
