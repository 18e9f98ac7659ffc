import ConditionalForm.Document.Wrapper
import ConditionalForm.Snapshot

set_option autoImplicit false

namespace ConditionalForm.Document

structure Conditional where
  title : Option String
  test : Json
  consequence : Json

def conditional? (title : Option String) (value : Json) : Option Conditional := do
  let test ← value.get? "if"
  let consequence ← value.get? "then"
  return ⟨title, test, consequence⟩

def conditionals (root : Json) : List Conditional :=
  let entries := ((root.get? "allOf").bind Json.items?).getD []
  (entries.filterMap fun entry => conditional? ((entry.get? "title").bind Json.text?) entry)
    ++ (conditional? none root).toList

structure Test where
  trigger : String
  values : List Json
deriving Repr

def Test.ofJson? (test : Json) : Option Test :=
  match (test.get? "properties").bind Json.members? with
  | some [(trigger, values)] =>
      match values.get? "const", values.get? "enum" with
      | some value, _ => some ⟨trigger, [value]⟩
      | none, some (.array (first :: others)) => some ⟨trigger, first :: others⟩
      | _, _ => none
  | _ => none

def Test.condition (test : Test) : Condition :=
  ⟨[⟨test.trigger, match test.values with
    | [value] => .one value
    | values => .anyOf values⟩]⟩

end ConditionalForm.Document
