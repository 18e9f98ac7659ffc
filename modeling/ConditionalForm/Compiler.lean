import ConditionalForm.Cache
import ConditionalForm.Document.Compile

set_option autoImplicit false

namespace ConditionalForm

structure CompiledForm where
  serial : Nat
  form : Form

structure Compiler where
  options : Document.Options
  kept : Cache String CompiledForm
  compilations : Nat

namespace Compiler

-- Five minutes, in the nanoseconds of the compiler's clock.
def timeToLive : Nat := 300 * Nat.pow 10 9

def withLimits (options : Document.Options) (capacity timeToLive : Nat) : Compiler :=
  ⟨options, Cache.empty capacity timeToLive, 0⟩

def start (options : Document.Options) (capacity : Nat) : Compiler :=
  withLimits options capacity timeToLive

def compile (document : Json) (now : Nat) (compiler : Compiler) : CompiledForm × Compiler :=
  let key := Document.structuralKey compiler.options document
  match compiler.kept.get key now with
  | (some found, kept) => (found, { compiler with kept := kept })
  | (none, kept) =>
      let made : CompiledForm :=
        ⟨compiler.compilations, Form.ofDocument compiler.options document⟩
      (made, { compiler with
        kept := kept.insert key made now
        compilations := compiler.compilations + 1 })

def clear (compiler : Compiler) : Compiler := { compiler with kept := compiler.kept.clear }

end Compiler

end ConditionalForm
