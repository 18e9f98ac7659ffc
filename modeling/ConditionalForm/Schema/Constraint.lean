import ConditionalForm.Json.Pointer
import ConditionalForm.Schema.Rule

set_option autoImplicit false

namespace ConditionalForm

inductive Constraint where
  | keeps (rule : Rule)
  | items (each : Constraint)
  | property (name : String) (value : Constraint)
  | all (constraints : List Constraint)
  | whenever (test consequence : Constraint)
deriving Repr

namespace Constraint

def distinctTexts? (items : List Json) : Option (List String) := do
  let texts ← items.mapM Json.text?
  if texts.Nodup then some texts else none

def types? : Json → Option (List SimpleType)
  | .text name => (SimpleType.ofName? name).map ([·])
  | .array [] => none
  | .array names => do
      let types ← (← distinctTexts? names).mapM SimpleType.ofName?
      return SimpleType.all.filter types.contains
  | _ => none

def greatestCount : Nat := Nat.pow 2 64 - 1

-- A whole number that is not negative; a whole double is one. What is beyond the greatest count
-- stands for it, as no array has more items.
def count? : Json → Option Nat
  | .number (.whole (.ofNat n)) => some (min n greatestCount)
  | .number (.double x) =>
      if x.isWhole && (!x.negative || x.units == 0) then some (min x.truncate.toNat greatestCount)
      else none
  | _ => none

def simple? (keyword : String) (value : Json) : Option (List Rule) :=
  match keyword with
  | "type" => (types? value).map fun types => [.hasType types]
  | "enum" => value.items?.map fun values => [.oneOf values]
  | "const" => some [.equals value]
  | "minimum" => value.number?.map fun limit => [.atLeast limit]
  | "maximum" => value.number?.map fun limit => [.atMost limit]
  | "minItems" => (count? value).map fun count => [.minItems count]
  | "maxItems" => (count? value).map fun count => [.maxItems count]
  | "required" => (value.items?.bind distinctTexts?).map fun names => names.map .required
  | _ => some []

def conditional (consequence : Option Constraint) (test : Constraint) : List Constraint :=
  match consequence with
  | some consequence => [.whenever test consequence]
  | none => []

mutual
def ofSchema? : Json → Option Constraint
  | .bool true => some (.all [])
  | .bool false => some (.keeps .never)
  | .object members => do
      let consequence ← ofMember? "then" members
      return .all (← ofKeywords? consequence members)
  | _ => none

def ofKeywords? (consequence : Option Constraint) :
    List (String × Json) → Option (List Constraint)
  | [] => some []
  | (keyword, value) :: members => do
      let first ← match keyword with
        | "items" => (ofSchema? value).map fun each => [.items each]
        | "allOf" => (ofList? value).map fun constraints => [.all constraints]
        | "properties" => ofProperties? value
        | "if" => (ofSchema? value).map (conditional consequence)
        | keyword => (simple? keyword value).map fun rules => rules.map .keeps
      let others ← ofKeywords? consequence members
      return first ++ others

def ofMember? (keyword : String) : List (String × Json) → Option (Option Constraint)
  | [] => some none
  | (key, value) :: members =>
      if key = keyword then do
        let first ← ofSchema? value
        let _ ← ofMember? keyword members
        return some first
      else ofMember? keyword members

def ofList? : Json → Option (List Constraint)
  | .array [] => none
  | .array (first :: others) => ofSchemas? (first :: others)
  | _ => none

def ofSchemas? : List Json → Option (List Constraint)
  | [] => some []
  | schema :: schemas => do
      let first ← ofSchema? schema
      let others ← ofSchemas? schemas
      return first :: others

def ofProperties? : Json → Option (List Constraint)
  | .object members => ofNamed? members
  | _ => none

def ofNamed? : List (String × Json) → Option (List Constraint)
  | [] => some []
  | (name, schema) :: members => do
      let first ← ofSchema? schema
      let others ← ofNamed? members
      return .property name first :: others
end

structure Violation where
  pointer : Pointer
  value : Json
  rule : Rule

mutual
def violations (pointer : Pointer) (value : Json) : Constraint → List Violation
  | .keeps rule => if rule.admits value then [] else [⟨pointer, value, rule⟩]
  | .items each =>
      (value.items?.getD []).zipIdx.flatMap fun item =>
        violations (pointer ++ [toString item.2]) item.1 each
  | .property name constraint =>
      match value.get? name with
      | some inner => violations (pointer ++ [name]) inner constraint
      | none => []
  | .all constraints => allViolations pointer value constraints
  | .whenever test consequence =>
      if (violations pointer value test).isEmpty then violations pointer value consequence else []

def allViolations (pointer : Pointer) (value : Json) : List Constraint → List Violation
  | [] => []
  | constraint :: constraints =>
      violations pointer value constraint ++ allViolations pointer value constraints
end

end Constraint

end ConditionalForm
