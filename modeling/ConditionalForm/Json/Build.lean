import ConditionalForm.Json.Basic

set_option autoImplicit false

namespace ConditionalForm.Json

def ofEntries (entries : List (String × Option Json)) : Json :=
  .object (entries.filterMap fun entry => entry.2.map (entry.1, ·))

def ofNat (n : Nat) : Json := .number (.whole n)

def ofDouble (x : Double) : Json := .number (.double x)

def ofTexts (texts : List String) : Json := .array (texts.map .text)

def someItems (items : List Json) : Option Json :=
  if items.isEmpty then none else some (.array items)

end ConditionalForm.Json
