set_option autoImplicit false

namespace ConditionalForm.Text

def insertAscending (text : String) : List String → List String
  | [] => [text]
  | other :: tail =>
      if text ≤ other then text :: other :: tail else other :: insertAscending text tail

def ascending (texts : List String) : List String := texts.foldr insertAscending []

end ConditionalForm.Text
