import ConditionalForm.SortedMap
import ConditionalForm.Snapshot

set_option autoImplicit false

namespace ConditionalForm

inductive Spelling where
  | plain (key : String)
  | nested (outer key : String)
deriving DecidableEq, Repr

namespace Spelling

def find? (definition : Json) : Spelling → Option Json
  | .plain key => definition.get? key
  | .nested outer key => (definition.get? outer).bind (Json.get? key)

def label : List Spelling :=
  [.nested "x-ui" "label", .nested "ui" "label", .plain "x-label", .plain "title"]

def group : List Spelling :=
  [.nested "x-ui" "group", .nested "ui" "group", .plain "x-ui-group", .plain "x-group"]

def hint : List Spelling := [.nested "x-ui" "hint", .nested "ui" "hint", .plain "x-ui-hint"]

def sectionHeader : List Spelling := [.plain "x-section-header", .nested "x-ui" "sectionHeader"]

def visibleWhen : List Spelling :=
  [.nested "x-ui" "visibleWhen", .nested "ui" "visibleWhen", .plain "x-visible-when"]

def requiredWhen : List Spelling := [.plain "x-required-when", .nested "x-ui" "requiredWhen"]

def optionalWhen : List Spelling := [.plain "x-optional-when"]

def relevance : List Spelling := [.plain "x-required-by-type", .plain "x-relevant-by-type"]

def choices : List Spelling := [.plain "x-enum-by-type"]

def bounds : List Spelling := [.plain "x-value-constraint", .plain "x-bounds-by-type"]

def choiceLabels : List Spelling := [.plain "x-enum-labels"]

def read {α : Type} (definition : Json) (spellings : List Spelling) (parse : Json → Option α) :
    Option α :=
  spellings.findSome? fun spelling => (spelling.find? definition).bind parse

end Spelling

def isMarkerKey (key : String) : Bool :=
  match key.toList with
  | 'x' :: '-' :: _ => true
  | _ => false

structure Markers where
  label : Option String
  group : Option String
  hint : Option String
  sectionHeader : Option String
  visibleWhen : Option Predicate
  requiredWhen : Option Predicate
  optionalWhen : Option Predicate
  relevance : Option Members
  choices : Option Members
  bounds : Option Members
  choiceLabels : Option Members
deriving Repr

namespace Markers

def empty : Markers where
  label := none
  group := none
  hint := none
  sectionHeader := none
  visibleWhen := none
  requiredWhen := none
  optionalWhen := none
  relevance := none
  choices := none
  bounds := none
  choiceLabels := none

instance : Inhabited Markers := ⟨empty⟩

def visibleText? (value : Json) : Option String :=
  value.text?.filter fun s => !Text.onlyBlanks s

def ofDefinition (definition : Json) : Markers where
  label := Spelling.read definition Spelling.label visibleText?
  group := Spelling.read definition Spelling.group visibleText?
  hint := Spelling.read definition Spelling.hint visibleText?
  sectionHeader := Spelling.read definition Spelling.sectionHeader visibleText?
  visibleWhen := Spelling.read definition Spelling.visibleWhen Predicate.ofJson?
  requiredWhen := Spelling.read definition Spelling.requiredWhen Predicate.ofJson?
  optionalWhen := Spelling.read definition Spelling.optionalWhen Predicate.ofJson?
  relevance := Spelling.read definition Spelling.relevance Json.members?
  choices := Spelling.read definition Spelling.choices Json.members?
  bounds := Spelling.read definition Spelling.bounds Json.members?
  choiceLabels := Spelling.read definition Spelling.choiceLabels Json.members?

def isEmpty (markers : Markers) : Bool :=
  markers.label.isNone && markers.group.isNone && markers.hint.isNone
    && markers.sectionHeader.isNone && markers.visibleWhen.isNone && markers.requiredWhen.isNone
    && markers.optionalWhen.isNone && markers.relevance.isNone && markers.choices.isNone
    && markers.bounds.isNone && markers.choiceLabels.isNone

def occursIn (part : List Char) : List Char → Bool
  | [] => part.isEmpty
  | c :: rest => part.isPrefixOf (c :: rest) || occursIn part rest

-- The group, if it is one that applies to some discriminator values only. A group that has "common"
-- in its name applies to all; upper and lower case are alike, and no letter beyond ASCII has one of
-- these letters as its lower case.
def specificGroup (markers : Markers) : Option String :=
  markers.group.filter fun g => !occursIn "common".toList (g.toList.map Char.toLower)

def relevantKeys (map : Members) : List String :=
  (map.filter fun entry => !(entry.2 == .bool false)).map Prod.fst

def discriminatorValues (discriminator : String) (markers : Markers) : SortedSet :=
  SortedSet.ofList
    (((markers.relevance.map relevantKeys).getD [])
      ++ ((markers.choices.map Members.keys).getD [])
      ++ ((markers.bounds.map Members.keys).getD [])
      ++ (((markers.requiredWhen.bind fun p => p.condition.clause? discriminator).map
        fun clause => clause.expected.values.map Json.key).getD []))

end Markers

end ConditionalForm
