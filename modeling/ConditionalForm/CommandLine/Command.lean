import ConditionalForm.CommandLine.Word
import ConditionalForm.Document.Compile

set_option autoImplicit false

namespace ConditionalForm.CommandLine

structure Source where
  schema : String
  options : Document.Options

inductive Command where
  | compile (source : Source)
  | table (source : Source)
  | init (source : Source)
  | builder (source : Source) (values : Option String)
  | evaluate (source : Source) (values : String)
  | payload (source : Source) (values : String) (wrap : Bool)
  | validate (source : Source) (values : String) (json : Bool)
  | check (schema payload : String) (json : Bool)
  | lint (path format : String) (strict quiet : Bool)

inductive Request where
  | version
  | run (command : Command) (pretty : Bool)

def count? (text : String) : Option Nat :=
  let digits := match text.toList with
    | '+' :: digits => digits
    | digits => digits
  if digits.isEmpty || !digits.all Char.isDigit then none
  else
    let n := digits.foldl (fun n digit => 10 * n + (digit.toNat - '0'.toNat)) 0
    if n < Nat.pow 2 64 then some n else none

def path? (text : String) : Option String := if text.isEmpty then none else some text

def commonSwitches : List Switch := [⟨"pretty", none, false⟩, ⟨"verbose", some 'v', false⟩]

def sourceSwitches : List Switch := [⟨"discriminator", none, true⟩, ⟨"max-depth", none, true⟩]

def valuesSwitch : Switch := ⟨"values", none, true⟩

def jsonSwitch : Switch := ⟨"json", none, false⟩

def switches? (command : String) : Option (List Switch) :=
  match command with
  | "compile" => some sourceSwitches
  | "table" => some sourceSwitches
  | "init" => some sourceSwitches
  | "builder" => some (valuesSwitch :: sourceSwitches)
  | "evaluate" => some (valuesSwitch :: sourceSwitches)
  | "payload" => some (⟨"wrap", none, false⟩ :: valuesSwitch :: sourceSwitches)
  | "validate" => some (jsonSwitch :: valuesSwitch :: sourceSwitches)
  | "check" => some [jsonSwitch]
  | "lint" => some [⟨"format", none, true⟩, ⟨"strict", none, false⟩, ⟨"quiet", some 'q', false⟩]
  | _ => none

namespace Given

def path? (name : String) (given : Given) : Option (Option String) :=
  match given.value? name with
  | some text => (CommandLine.path? text).map some
  | .none => some .none

def source? (given : Given) : Option Source := do
  let depth ← match given.value? "max-depth" with
    | some text => count? text
    | .none => some ({} : Document.Options).maxDepth
  match given.operands with
  | [schema] =>
      return ⟨← CommandLine.path? schema,
        { discriminator := given.value? "discriminator", maxDepth := depth }⟩
  | _ => .none

def command? (name : String) (given : Given) : Option Command := do
  match name, given.operands with
  | "compile", _ => return .compile (← given.source?)
  | "table", _ => return .table (← given.source?)
  | "init", _ => return .init (← given.source?)
  | "builder", _ => return .builder (← given.source?) (← given.path? "values")
  | "evaluate", _ => return .evaluate (← given.source?) (← (← given.path? "values"))
  | "payload", _ =>
      return .payload (← given.source?) (← (← given.path? "values")) (given.has "wrap")
  | "validate", _ =>
      return .validate (← given.source?) (← (← given.path? "values")) (given.has "json")
  | "check", [schema, payload] =>
      return .check (← CommandLine.path? schema) (← CommandLine.path? payload) (given.has "json")
  | "lint", [path] =>
      return .lint (← CommandLine.path? path) ((given.value? "format").getD "text")
        (given.has "strict") (given.has "quiet")
  | _, _ => .none

end Given

namespace Request

def ofTokens? (before : Given) : List Token → Option Request
  | .long "version" none :: _ => some .version
  | .short 'V' :: _ => some .version
  | .long "pretty" none :: rest => (before.add? "pretty" none).bind (ofTokens? · rest)
  | .long "verbose" none :: rest => (before.add? "verbose" none).bind (ofTokens? · rest)
  | .short 'v' :: rest => (before.add? "verbose" none).bind (ofTokens? · rest)
  | .operand name :: rest => do
      let given ← Given.ofTokens? (commonSwitches ++ (← switches? name)) rest
      return .run (← given.command? name) (before.has "pretty" || given.has "pretty")
  | _ => none

def ofWords? (words : List String) : Option Request :=
  ofTokens? Given.none (Token.ofWords words)

end Request

end ConditionalForm.CommandLine
