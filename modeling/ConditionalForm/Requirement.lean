import ConditionalForm.SortedMap

set_option autoImplicit false

namespace ConditionalForm

inductive Status where
  | required
  | optional
  | conditional
  | notApplicable
deriving DecidableEq, Repr

namespace Status

instance : Inhabited Status := ⟨.optional⟩

def render : Status → String
  | .required => "required"
  | .optional => "optional"
  | .conditional => "conditional"
  | .notApplicable => "not-applicable"

def ofString? (text : String) : Option Status :=
  match text with
  | "required" => some .required
  | "optional" => some .optional
  | "conditional" => some .conditional
  | "n/a" => some .notApplicable
  | "not-applicable" => some .notApplicable
  | _ => none

def isRequired (status : Status) : Bool := status == .required

end Status

abbrev StatusTable := SortedMap Status

namespace StatusTable

def isUniform (table : StatusTable) : Bool :=
  match table with
  | [] => true
  | (_, status) :: others => others.all fun entry => entry.2 == status

end StatusTable

inductive Requirement where
  | fixed (required : Bool)
  | wildcard (status : Status)
  | byTrigger (trigger : Option String) (statuses : StatusTable)
deriving DecidableEq, Repr

namespace Requirement

instance : Inhabited Requirement := ⟨.fixed false⟩

def isAlwaysRequired : Requirement → Bool
  | .fixed required => required
  | .wildcard status => status.isRequired
  | .byTrigger _ statuses => !statuses.isEmpty && statuses.all fun entry => entry.2.isRequired

def isEverRequired : Requirement → Bool
  | .byTrigger _ statuses => statuses.any fun entry => entry.2.isRequired
  | requirement => requirement.isAlwaysRequired

end Requirement

end ConditionalForm
