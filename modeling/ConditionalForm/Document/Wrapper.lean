import ConditionalForm.Json.Basic
import ConditionalForm.Json.Pointer

set_option autoImplicit false

namespace ConditionalForm.Document

inductive Layer where
  | named (key : String)
  | argument (key : String)
deriving DecidableEq, Repr

def schemaKeys : List String := ["properties", "required", "allOf", "oneOf", "anyOf", "if", "type"]

def hasSchemaKey (members : Members) : Bool := schemaKeys.any fun key => members.contains key

def isSchema : Json → Bool
  | .object members => hasSchemaKey members
  | _ => false

def isArgumentName (name : String) : Bool := name.toList.map Char.toLower == "argument".toList

def layer? : Json → Option (Layer × Json)
  | .object members =>
      if hasSchemaKey members then
        match Members.find? "properties" members with
        | some (.object [(key, inner)]) =>
            if isArgumentName key && isSchema inner then some (.argument key, inner) else none
        | _ => none
      else
        match members with
        | [(key, .object inner)] => some (.named key, .object inner)
        | _ => none
  | _ => none

structure Unwrapped where
  layers : List Layer
  schema : Json

def Unwrapped.within (layer : Layer) (u : Unwrapped) : Unwrapped := ⟨layer :: u.layers, u.schema⟩

-- Takes layers off while some of their kind may still be taken; `most` bounds their number, and the
-- sum of both kinds is enough.
def unwrapWithin : (most named argument : Nat) → Json → Unwrapped
  | 0, _, _, document => ⟨[], document⟩
  | most + 1, named, argument, document =>
      match layer? document, named, argument with
      | some (.named key, inner), more + 1, argument =>
          (unwrapWithin most more argument inner).within (.named key)
      | some (.argument key, inner), named, more + 1 =>
          (unwrapWithin most named more inner).within (.argument key)
      | _, _, _ => ⟨[], document⟩

def unwrap (document : Json) : Unwrapped := unwrapWithin 4 2 2 document

namespace Layer

def named? : Layer → Option String
  | .named key => some key
  | .argument _ => none

def argument? : Layer → Option String
  | .named _ => none
  | .argument key => some key

def pointer : Layer → Pointer
  | .named key => [key]
  | .argument key => ["properties", key]

end Layer

namespace Unwrapped

def names (u : Unwrapped) : List String := u.layers.filterMap Layer.named?

def arguments (u : Unwrapped) : List String := u.layers.filterMap Layer.argument?

def rootKey (u : Unwrapped) : Option String := u.names.getLast?

def argumentKey (u : Unwrapped) : Option String := u.arguments.getLast?

def pointer (u : Unwrapped) : Pointer := u.layers.flatMap Layer.pointer

end Unwrapped

end ConditionalForm.Document
