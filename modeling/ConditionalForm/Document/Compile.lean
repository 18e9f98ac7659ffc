import ConditionalForm.Document.Children
import ConditionalForm.Form
import ConditionalForm.Text.Order

set_option autoImplicit false

namespace ConditionalForm.Document

structure Options where
  discriminator : Option String := none
  context : String := "default"
  kind : String := "enhanced"
  maxDepth : Nat := 8
deriving Repr

def groupedNames (groups : List Group) : List String := groups.flatMap Group.members

def commonProperties (schema : Json) (groups : List Group) : Members :=
  let grouped := groupedNames groups
  (properties schema).filter fun property => !grouped.contains property.1

def Group.test? (group : Group) : Option Test :=
  match group.kind with
  | .branch test => some test
  | .option _ => none

def knownKeys (root : Members) (groups : List Group) (trigger : String) : List String :=
  let own := (((Members.find? trigger root).bind (Json.get? "enum")).bind Json.items?).getD []
  own.map Json.key ++ (groups.filterMap Group.test?).flatMap fun test =>
    if test.trigger == trigger then test.values.map Json.key else []

def requiringKeys (groups : List Group) (trigger name : String) : List String :=
  groups.flatMap fun group =>
    match group.kind with
    | .branch test =>
        if test.trigger == trigger && group.required.contains name then test.values.map Json.key
        else []
    | .option _ => []

def statusTable (root : Members) (groups : List Group) (trigger name : String) : StatusTable :=
  SortedMap.ofList
    ((knownKeys root groups trigger).map (·, Status.optional)
      ++ (requiringKeys groups trigger name).map (·, Status.required))

def Group.requirement (root : Members) (groups : List Group) (group : Group) (name : String) :
    Requirement :=
  match group.kind with
  | .branch test => .byTrigger (some test.trigger) (statusTable root groups test.trigger name)
  | .option _ => .wildcard (if group.required.contains name then .required else .optional)

def Group.field (root : Members) (groups : List Group) (depth : Nat) (group : Group)
    (path name : String) (definition : Json) : Field :=
  let field := build depth 0 path
    { name := name, definition := definition, requirement := group.requirement root groups name }
  ⟨group.scope field.toAttributes, field.children⟩

structure Section where
  group : Group
  members : List Field

def Section.fields (part : Section) : List Field := part.group.heading :: part.members

def sectionsFrom (root : Members) (groups : List Group) (depth : Nat) :
    List String → List Group → List Section
  | _, [] => []
  | claimed, group :: others =>
      let members := group.definitions root
      let paths := claimPaths id (fun name => group.tag ++ "." ++ name) claimed (members.map Prod.fst)
      { group := group
        members := (members.zip paths).map fun entry =>
          group.field root groups depth entry.2 entry.1.1 entry.1.2 }
        :: sectionsFrom root groups depth (paths ++ claimed) others

def sections (options : Options) (schema : Json) : List Section :=
  let groups := Group.all schema
  sectionsFrom (properties schema) groups options.maxDepth (commonProperties schema groups).keys
    groups

def commonFields (schema : Json) (groups : List Group) (depth : Nat) : List Field :=
  let required := requiredNames schema
  (commonProperties schema groups).map fun property =>
    build depth 0 property.1
      { name := property.1
        definition := property.2
        requirement := .fixed (required.contains property.1) }

def fields (options : Options) (schema : Json) : List Field :=
  commonFields schema (Group.all schema) options.maxDepth
    ++ (sections options schema).flatMap Section.fields

def discriminator (options : Options) (schema : Json) : Option String :=
  options.discriminator.or
    (if (properties schema).contains Form.defaultDiscriminator then some Form.defaultDiscriminator
    else none)

def title (document : Json) (unwrapped : Unwrapped) : Option String :=
  unwrapped.rootKey.or
    (((unwrapped.schema.get? "title").bind Json.text?).or ((document.get? "title").bind Json.text?))

end Document

def Form.ofDocument (options : Document.Options) (document : Json) : Form :=
  let unwrapped := Document.unwrap document
  match unwrapped.schema with
  | .object members =>
      { title := Document.title document unwrapped
        argumentKey := unwrapped.argumentKey
        discriminator := Document.discriminator options (.object members)
        fields := Document.fields options (.object members) }
  | _ => {}

namespace Document

def listed (names : List String) : String := ",".intercalate (Text.ascending names)

-- The structural key of a document: two documents of one key have properties and required names of
-- the same names.
def structuralKey (options : Options) (document : Json) : String :=
  let schema := (unwrap document).schema
  options.context ++ ":" ++ options.kind ++ ":" ++ listed (properties schema).keys ++ ":"
    ++ listed (requiredNames schema)

end Document

end ConditionalForm
