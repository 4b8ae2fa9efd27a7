/-!
# Names without regard to case

Names are ASCII, so only the ASCII letters have a case.
-/

namespace FlowAccess.Text

def lower (s : String) : String := s.map Char.toLower

/-- Whether two names differ in the case of ASCII letters at most. -/
def sameName (s t : String) : Bool := lower s = lower t

/-- What a list gives a name. -/
def lookupName {α : Type} (names : List (String × α)) (name : String) : Option α :=
  (names.find? fun (n, _) => sameName n name).map (·.2)

end FlowAccess.Text
