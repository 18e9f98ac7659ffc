import ConditionalForm.Compiler
import ConditionalForm.Proofs.CacheEntries

set_option autoImplicit false

namespace ConditionalForm

open Document

inductive Request where
  | compile (document : Json) (elapsed : Nat)
  | clear

namespace Compiler

def run (compiler : Compiler) (now : Nat) : List Request → List (Json × Form)
  | [] => []
  | .compile document elapsed :: rest =>
      let answer := compiler.compile document (now + elapsed)
      (document, answer.1.form) :: answer.2.run (now + elapsed) rest
  | .clear :: rest => compiler.clear.run now rest

def Transparent (options : Options) (answers : List (Json × Form)) : Prop :=
  ∀ answer ∈ answers, answer.2 = Form.ofDocument options answer.1

def Drawn (documents : Json → Prop) (requests : List Request) : Prop :=
  ∀ document elapsed, .compile document elapsed ∈ requests → documents document

def KeysDetermineForms (options : Options) (documents : Json → Prop) : Prop :=
  ∀ a b, documents a → documents b → structuralKey options a = structuralKey options b →
    Form.ofDocument options a = Form.ofDocument options b

def MadeFor (options : Options) (documents : Json → Prop) (key : String) (form : Form) : Prop :=
  ∃ document, documents document ∧ structuralKey options document = key ∧
    form = Form.ofDocument options document

structure Sourced (options : Options) (documents : Json → Prop) (compiler : Compiler) : Prop where
  configured : compiler.options = options
  made : ∀ entry ∈ compiler.kept.entries, MadeFor options documents entry.key entry.value.form

theorem with_limits_sourced (options : Options) (documents : Json → Prop) (capacity timeToLive : Nat) :
    Sourced options documents (withLimits options capacity timeToLive) :=
  ⟨rfl, fun _ member => nomatch member⟩

theorem clear_sourced (options : Options) (documents : Json → Prop) (compiler : Compiler)
    (sourced : Sourced options documents compiler) : Sourced options documents compiler.clear :=
  ⟨sourced.configured, fun _ member => nomatch member⟩

theorem compile_hit (compiler : Compiler) (document : Json) (now : Nat) (found : CompiledForm)
    (rest : Cache String CompiledForm)
    (hit : compiler.kept.get (structuralKey compiler.options document) now = (some found, rest)) :
    compiler.compile document now = (found, { compiler with kept := rest }) := by
  simp only [compile, hit]

theorem compile_miss (compiler : Compiler) (document : Json) (now : Nat)
    (rest : Cache String CompiledForm)
    (miss : compiler.kept.get (structuralKey compiler.options document) now = (none, rest)) :
    compiler.compile document now =
      (⟨compiler.compilations, Form.ofDocument compiler.options document⟩,
        { compiler with
          kept := rest.insert (structuralKey compiler.options document)
            ⟨compiler.compilations, Form.ofDocument compiler.options document⟩ now
          compilations := compiler.compilations + 1 }) := by
  simp only [compile, miss]

theorem compile_sourced (options : Options) (documents : Json → Prop) (compiler : Compiler)
    (document : Json) (now : Nat) (sourced : Sourced options documents compiler)
    (drawn : documents document) :
    MadeFor options documents (structuralKey options document)
        (compiler.compile document now).1.form ∧
      Sourced options documents (compiler.compile document now).2 := by
  obtain ⟨rfl, made⟩ := sourced
  have fresh : MadeFor compiler.options documents (structuralKey compiler.options document)
      (Form.ofDocument compiler.options document) := ⟨document, drawn, rfl, rfl⟩
  have touched : ∀ entry ∈ (compiler.kept.get (structuralKey compiler.options document) now).2.entries,
      MadeFor compiler.options documents entry.key entry.value.form := by
    intro entry member
    obtain ⟨old, inCache, key, value⟩ := Cache.get_entries _ now compiler.kept entry member
    rw [key, value]
    exact made old inCache
  rcases outcome : compiler.kept.get (structuralKey compiler.options document) now with ⟨_ | found, rest⟩
  · rw [compile_miss compiler document now rest outcome]
    refine ⟨fresh, rfl, fun entry member => ?_⟩
    rcases Cache.insert_entries _ _ now rest entry member with ⟨key, value⟩ | old
    · rw [key, value]
      exact fresh
    · rw [outcome] at touched
      exact touched entry old
  · rw [compile_hit compiler document now found rest outcome]
    obtain ⟨entry, inCache, key, value⟩ :=
      Cache.get_value _ now compiler.kept found (congrArg Prod.fst outcome)
    refine ⟨?_, rfl, by rwa [outcome] at touched⟩
    rw [← key, ← value]
    exact made entry inCache

theorem run_made (options : Options) (documents : Json → Prop) (requests : List Request)
    (compiler : Compiler) (now : Nat) (sourced : Sourced options documents compiler)
    (drawn : Drawn documents requests) : ∀ answer ∈ compiler.run now requests,
      documents answer.1 ∧ MadeFor options documents (structuralKey options answer.1) answer.2 := by
  induction requests generalizing compiler now with
  | nil => exact fun _ member => nomatch member
  | cons request rest ih =>
      have later : Drawn documents rest := fun document elapsed member =>
        drawn document elapsed (List.mem_cons_of_mem _ member)
      cases request with
      | clear => exact ih compiler.clear now (clear_sourced options documents compiler sourced) later
      | compile document elapsed =>
          have source := drawn document elapsed List.mem_cons_self
          have step := compile_sourced options documents compiler document (now + elapsed) sourced source
          intro answer member
          rcases List.mem_cons.mp member with here | there
          · subst here
            exact ⟨source, step.1⟩
          · exact ih _ _ step.2 later answer there

theorem run_transparent (options : Options) (documents : Json → Prop) (requests : List Request)
    (compiler : Compiler) (now : Nat) (sourced : Sourced options documents compiler)
    (drawn : Drawn documents requests) (determined : KeysDetermineForms options documents) :
    Transparent options (compiler.run now requests) := by
  intro answer member
  obtain ⟨asked, source, drawnSource, key, form⟩ :=
    run_made options documents requests compiler now sourced drawn answer member
  rw [form]
  exact determined source answer.1 drawnSource asked key

theorem no_capacity_transparent (options : Options) (requests : List Request) (compiler : Compiler)
    (now : Nat) (configured : compiler.options = options) (capacity : compiler.kept.capacity = 0)
    (unstored : compiler.kept.entries = []) : Transparent options (compiler.run now requests) := by
  induction requests generalizing compiler now with
  | nil => exact fun _ member => nomatch member
  | cons request rest ih =>
      cases request with
      | clear => exact ih compiler.clear now configured capacity rfl
      | compile document elapsed =>
          have miss : compiler.kept.get (structuralKey compiler.options document) (now + elapsed) =
              (none, compiler.kept) := by
            simp [Cache.get, Cache.find?, unstored]
          have step := compile_miss compiler document (now + elapsed) _ miss
          rw [Cache.insert_without_room _ _ _ _ capacity] at step
          intro answer member
          rw [run, step] at member
          rcases List.mem_cons.mp member with here | there
          · rw [here, configured]
          · exact ih { compiler with compilations := compiler.compilations + 1 } _ configured capacity
              unstored answer there

theorem equal_keys_answer (options : Options) (capacity timeToLive now : Nat) (a b : Json)
    (room : capacity ≠ 0) (key : structuralKey options a = structuralKey options b) :
    (withLimits options capacity timeToLive).run now [.compile a 0, .compile b 0] =
      [(a, Form.ofDocument options a), (b, Form.ofDocument options a)] := by
  have first := compile_miss (withLimits options capacity timeToLive) a now
    (Cache.empty capacity timeToLive) rfl
  rw [Cache.insert_empty capacity timeToLive _ _ now room] at first
  have kept := Cache.get_at_once capacity timeToLive (structuralKey options b)
    (⟨0, Form.ofDocument options a⟩ : CompiledForm) now 1
  have second := compile_hit ⟨options, ⟨capacity, timeToLive, [⟨structuralKey options b,
    ⟨0, Form.ofDocument options a⟩, now, 1⟩]⟩, 1⟩ b now ⟨0, Form.ofDocument options a⟩ _ (Prod.ext kept rfl)
  rw [← key] at second
  simp only [run, Nat.add_zero, first]
  exact congrArg (fun answer => [_, (b, answer.1.form)]) second

theorem transparent_iff (options : Options) (capacity timeToLive now : Nat) (documents : Json → Prop) :
    (∀ requests, Drawn documents requests →
        Transparent options ((withLimits options capacity timeToLive).run now requests)) ↔
      capacity = 0 ∨ KeysDetermineForms options documents := by
  constructor
  · intro transparent
    by_cases room : capacity = 0
    · exact .inl room
    · refine .inr fun a b drawnA drawnB key => ?_
      have answers := transparent [.compile a 0, .compile b 0] (by
        intro document elapsed member
        simp only [List.mem_cons, Request.compile.injEq, List.not_mem_nil, or_false] at member
        rcases member with ⟨rfl, _⟩ | ⟨rfl, _⟩
        · exact drawnA
        · exact drawnB)
      rw [equal_keys_answer options capacity timeToLive now a b room key] at answers
      exact answers (b, Form.ofDocument options a) (by simp)
  · intro known requests drawn
    rcases known with rfl | determined
    · exact no_capacity_transparent options requests _ now rfl rfl rfl
    · exact run_transparent options documents requests _ now
        (with_limits_sourced options documents capacity timeToLive) drawn determined

def oneProperty (type : String) : Json :=
  .object [("properties", .object [("A", .object [("type", .text type)])])]

theorem retyped_property_stale :
    ∃ answer ∈ (start {} 50).run 0 [.compile (oneProperty "string") 0, .compile (oneProperty "integer") 0],
      answer.1 = oneProperty "integer" ∧ answer.2 ≠ Form.ofDocument {} answer.1 := by
  have key : structuralKey {} (oneProperty "string") = structuralKey {} (oneProperty "integer") := by
    decide +kernel
  have answers := equal_keys_answer {} 50 timeToLive 0 (oneProperty "string") (oneProperty "integer")
    (by decide) key
  refine ⟨_, answers.symm ▸ List.mem_cons_of_mem _ List.mem_cons_self, rfl, fun same => ?_⟩
  have types := congrArg (fun form => form.fields.map fun field => field.type) same
  exact absurd types (by decide +kernel)

end Compiler

end ConditionalForm
