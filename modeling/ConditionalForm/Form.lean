import ConditionalForm.Field

set_option autoImplicit false

namespace ConditionalForm

structure Form where
  title : Option String := none
  argumentKey : Option String := none
  discriminator : Option String := none
  fields : List Field := []
deriving Repr

namespace Form

def defaultDiscriminator : String := "TYPE"

def discriminatorField (form : Form) : String := form.discriminator.getD defaultDiscriminator

def isEmpty (form : Form) : Bool := form.fields.isEmpty

def allFields (form : Form) : List Field := Field.walkAll form.fields

def find? (path : String) (form : Form) : Option Field :=
  form.allFields.find? fun field => field.path == path

end Form

end ConditionalForm
