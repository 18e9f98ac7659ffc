set_option autoImplicit false

namespace ConditionalForm.CommandLine

inductive Token where
  | long (name : String) (attached : Option String)
  | short (letter : Char)
  | operand (text : String)
  | ending
deriving DecidableEq, Repr

namespace Token

def ofLong (word : List Char) : Token :=
  match word.dropWhile (· != '=') with
  | [] => .long (String.ofList word) none
  | _ :: value => .long (String.ofList (word.takeWhile (· != '='))) (some (String.ofList value))

def ofWords : List String → List Token
  | [] => []
  | word :: words =>
      match word.toList with
      | ['-', '-'] => .ending :: words.map .operand
      | '-' :: '-' :: name => ofLong name :: ofWords words
      | '-' :: c :: letters => (c :: letters).map .short ++ ofWords words
      | _ => .operand word :: ofWords words

end Token

structure Switch where
  name : String
  letter : Option Char := none
  takesValue : Bool := false

structure Given where
  options : List (String × Option String)
  operands : List String

namespace Given

def none : Given := ⟨[], []⟩

def add? (name : String) (value : Option String) (given : Given) : Option Given :=
  if given.options.any fun option => option.1 == name then .none
  else some { given with options := (name, value) :: given.options }

def has (name : String) (given : Given) : Bool := given.options.any fun option => option.1 == name

def value? (name : String) (given : Given) : Option String :=
  (given.options.find? fun option => option.1 == name).bind Prod.snd

def ofTokens? (known : List Switch) : List Token → Option Given
  | [] => some none
  | .operand text :: rest => do
      let given ← ofTokens? known rest
      return { given with operands := text :: given.operands }
  | .ending :: rest => ofTokens? known rest
  | .short letter :: rest => do
      let switch ← known.find? fun switch => switch.letter == some letter
      (← ofTokens? known rest).add? switch.name .none
  | .long name attached :: rest => do
      let switch ← known.find? fun switch => switch.name == name
      match switch.takesValue, attached, rest with
      | false, .none, rest => (← ofTokens? known rest).add? name .none
      | true, some value, rest => (← ofTokens? known rest).add? name (some value)
      | true, .none, .operand value :: rest => (← ofTokens? known rest).add? name (some value)
      | _, _, _ => .none

end Given

end ConditionalForm.CommandLine
