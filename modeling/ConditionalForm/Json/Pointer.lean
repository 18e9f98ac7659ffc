import ConditionalForm.Json.Basic

set_option autoImplicit false

namespace ConditionalForm

abbrev Pointer := List String

namespace Pointer

def escapeChar (c : Char) : List Char :=
  match c with
  | '~' => ['~', '0']
  | '/' => ['~', '1']
  | c => [c]

def render (pointer : Pointer) : String :=
  String.join (pointer.map fun segment => "/" ++ String.ofList (segment.toList.flatMap escapeChar))

end Pointer

end ConditionalForm
