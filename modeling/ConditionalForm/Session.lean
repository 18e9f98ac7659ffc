import ConditionalForm.InitialValues
import ConditionalForm.Schema.Library
import ConditionalForm.View.Input

set_option autoImplicit false

namespace ConditionalForm

inductive Edit where
  | set (key : String) (value : Json)
  | unset (key : String)

def Edit.apply (edit : Edit) (values : Snapshot) : Snapshot :=
  match edit with
  | .set key value => Members.insert key value values
  | .unset key => Members.erase key values

structure Session where
  form : Form
  values : Snapshot

namespace Session

def start (form : Form) : Session := ⟨form, initialValues form.fields⟩

def edit (e : Edit) (session : Session) : Session :=
  { session with values := e.apply session.values }

def states (session : Session) : StateMap := session.form.evaluate session.values

def payload (session : Session) : Json := session.form.payload session.states session.values

def check (session : Session) : Except CheckError Unit :=
  session.form.check session.states session.values

def inputs (session : Session) : List Input := visibleInputs session.form.fields session.states

def after : Session → List Edit → List Session
  | _, [] => []
  | session, e :: edits => session.edit e :: after (session.edit e) edits

end Session

end ConditionalForm
