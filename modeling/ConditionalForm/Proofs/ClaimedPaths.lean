import ConditionalForm.Document.Compile
import ConditionalForm.Proofs.Paths

set_option autoImplicit false

namespace ConditionalForm.Document

theorem claim_paths_length (plain tagged : String → String) (claimed names : List String) :
    (claimPaths plain tagged claimed names).length = names.length := by
  induction names generalizing claimed with
  | nil => rfl
  | cons name names ih => exact congrArg Nat.succ (ih _)

theorem claim_paths_origin (plain tagged : String → String) (claimed names : List String) :
    ∀ path ∈ claimPaths plain tagged claimed names,
      ∃ name ∈ names, path = plain name ∨ path = tagged name := by
  induction names generalizing claimed with
  | nil => exact nofun
  | cons name names ih =>
      intro path member
      rcases List.mem_cons.mp member with rfl | later
      · refine ⟨name, List.mem_cons_self, ?_⟩
        split
        · exact .inr rfl
        · exact .inl rfl
      · obtain ⟨other, inNames, made⟩ := ih _ path later
        exact ⟨other, List.mem_cons_of_mem _ inNames, made⟩

theorem claim_paths_free (plain tagged : String → String) (claimed names : List String)
    (distinct : (names.map plain).Nodup) (free : ∀ name ∈ names, plain name ∉ claimed) :
    claimPaths plain tagged claimed names = names.map plain := by
  induction names generalizing claimed with
  | nil => rfl
  | cons name names ih =>
      obtain ⟨unseen, later⟩ := List.nodup_cons.mp distinct
      have unclaimed : ¬ claimed.contains (plain name) = true := fun taken =>
        free name List.mem_cons_self (List.contains_iff_mem.mp taken)
      have rest : ∀ other ∈ names, plain other ∉ plain name :: claimed := by
        intro other member taken
        rcases List.mem_cons.mp taken with same | before
        · exact unseen (same ▸ List.mem_map_of_mem member)
        · exact free other (List.mem_cons_of_mem name member) before
      rw [claimPaths, if_neg unclaimed, ih _ later rest, List.map_cons]

theorem claim_paths_paired {α : Type} (plain tagged : String → String) (claimed : List String)
    (items : List (String × α)) :
    ∀ entry ∈ items.zip (claimPaths plain tagged claimed (items.map Prod.fst)),
      entry.2 = plain entry.1.1 ∨ entry.2 = tagged entry.1.1 := by
  induction items generalizing claimed with
  | nil => exact nofun
  | cons item items ih =>
      intro entry member
      rcases List.mem_cons.mp member with rfl | later
      · dsimp only
        split
        · exact .inr rfl
        · exact .inl rfl
      · exact ih _ entry later

theorem claim_paths_distinct (plain tagged : String → String) (claimed names : List String)
    (separate : names.Pairwise fun a b => tagged b ≠ plain a ∧ tagged b ≠ tagged a)
    (fresh : ∀ name ∈ names, tagged name ∉ claimed) :
    (claimPaths plain tagged claimed names).Nodup ∧
      ∀ path ∈ claimPaths plain tagged claimed names, path ∉ claimed := by
  induction names generalizing claimed with
  | nil => exact ⟨List.nodup_nil, nofun⟩
  | cons name names ih =>
      obtain ⟨first, later⟩ := List.pairwise_cons.mp separate
      rw [claimPaths]
      generalize chosen : (if claimed.contains (plain name) then tagged name else plain name) = path
      have options : path ∉ claimed ∧ ∀ other ∈ names, tagged other ≠ path := by
        split at chosen
        · subst chosen
          exact ⟨fresh name List.mem_cons_self, fun other member => (first other member).2⟩
        · rename_i free
          subst chosen
          exact ⟨fun taken => free (List.contains_iff_mem.mpr taken),
            fun other member => (first other member).1⟩
      obtain ⟨distinct, unclaimed⟩ := ih (path :: claimed) later fun other member taken =>
        (List.mem_cons.mp taken).elim (options.2 other member)
          (fresh other (List.mem_cons_of_mem _ member))
      refine ⟨List.nodup_cons.mpr ⟨fun again => unclaimed path again List.mem_cons_self, distinct⟩, ?_⟩
      intro other member
      rcases List.mem_cons.mp member with rfl | inRest
      · exact options.1
      · exact fun taken => unclaimed other inRest (List.mem_cons_of_mem _ taken)

structure Batch where
  label : String
  tag : String
  names : List String

structure Batch.Sound (batch : Batch) : Prop where
  label : Unbroken batch.label.toList
  tag : PlainTag batch.tag
  names : ∀ name ∈ batch.names, PlainName name
  distinct : batch.names.Nodup

def Batch.Separate (a b : Batch) : Prop := a.label ≠ b.label ∧ a.tag ≠ b.tag

def Place.OfBatches (batches : List Batch) : Place → Prop
  | .plain _ => True
  | .heading label => ∃ batch ∈ batches, batch.label = label
  | .tagged tag _ => ∃ batch ∈ batches, batch.tag = tag

theorem of_more_batches (batch : Batch) (others : List Batch) (place : Place)
    (origin : place.OfBatches others) : place.OfBatches (batch :: others) := by
  cases place with
  | plain name => trivial
  | heading label =>
      obtain ⟨other, member, same⟩ := origin
      exact ⟨other, List.mem_cons_of_mem _ member, same⟩
  | tagged tag name =>
      obtain ⟨other, member, same⟩ := origin
      exact ⟨other, List.mem_cons_of_mem _ member, same⟩

namespace Layout

variable (layout : Layout) (sound : layout.Sound)

def plain (name : String) : String := layout.path (.plain name)

def heading (label : String) : String := layout.path (.heading label)

def tagged (tag name : String) : String := layout.path (.tagged tag name)

def batchPaths : List String → List Batch → List String
  | _, [] => []
  | claimed, batch :: others =>
      let paths := claimPaths layout.plain (layout.tagged batch.tag) claimed batch.names
      layout.heading batch.label :: paths ++ batchPaths (paths ++ claimed) others

def paths (names : List String) (batches : List Batch) : List String :=
  names.map layout.plain ++ layout.batchPaths (names.map layout.plain) batches

def Clear (claimed : List String) (batches : List Batch) : Prop :=
  ∀ batch ∈ batches, layout.heading batch.label ∉ claimed ∧
    ∀ name, PlainName name → layout.tagged batch.tag name ∉ claimed

theorem batch_paths_origin (claimed : List String) (batches : List Batch)
    (sounds : ∀ batch ∈ batches, batch.Sound) :
    ∀ path ∈ layout.batchPaths claimed batches,
      ∃ place : Place, place.Sound ∧ place.OfBatches batches ∧ path = layout.path place := by
  induction batches generalizing claimed with
  | nil => exact nofun
  | cons batch others ih =>
      have here := sounds batch List.mem_cons_self
      intro path member
      rcases List.mem_cons.mp member with rfl | member
      · exact ⟨.heading batch.label, here.label, ⟨batch, List.mem_cons_self, rfl⟩, rfl⟩
      · rcases List.mem_append.mp member with own | later
        · obtain ⟨name, inNames, rfl | rfl⟩ := claim_paths_origin _ _ claimed batch.names path own
          · exact ⟨.plain name, here.names name inNames, trivial, rfl⟩
          · exact ⟨.tagged batch.tag name, ⟨here.tag, here.names name inNames⟩,
              ⟨batch, List.mem_cons_self, rfl⟩, rfl⟩
        · obtain ⟨place, plain, origin, rfl⟩ :=
            ih _ (fun other inOthers => sounds other (List.mem_cons_of_mem _ inOthers)) path later
          exact ⟨place, plain, of_more_batches batch others place origin, rfl⟩

include sound in
theorem path_ne (a b : Place) (soundA : a.Sound) (soundB : b.Sound) (different : a ≠ b) :
    layout.path a ≠ layout.path b :=
  fun same => different (path_injective layout sound a b soundA soundB same)

include sound in
theorem batch_own_distinct (claimed : List String) (batch : Batch) (whole : batch.Sound)
    (fresh : ∀ name, PlainName name → layout.tagged batch.tag name ∉ claimed) :
    let paths := claimPaths layout.plain (layout.tagged batch.tag) claimed batch.names
    paths.Nodup ∧ ∀ path ∈ paths, path ∉ claimed := by
  refine claim_paths_distinct _ _ claimed batch.names ?_
    (fun name member => fresh name (whole.names name member))
  refine List.Pairwise.imp_of_mem (fun {a b} inNames also different => ?_) whole.distinct
  have plainA := whole.names a inNames
  have plainB := whole.names b also
  exact ⟨path_ne layout sound (.tagged batch.tag b) (.plain a) ⟨whole.tag, plainB⟩ plainA nofun,
    path_ne layout sound (.tagged batch.tag b) (.tagged batch.tag a) ⟨whole.tag, plainB⟩
      ⟨whole.tag, plainA⟩ fun same => different (Place.tagged.inj same).2.symm⟩

include sound in
theorem not_claimed (claimed : List String) (batch : Batch) (whole : batch.Sound) (place : Place)
    (placed : place.Sound) (notPlain : ∀ name, place ≠ .plain name)
    (otherTag : ∀ name, place ≠ .tagged batch.tag name) :
    layout.path place ∉ claimPaths layout.plain (layout.tagged batch.tag) claimed batch.names := by
  intro taken
  obtain ⟨name, inNames, same | same⟩ := claim_paths_origin _ _ claimed batch.names _ taken
  · exact path_ne layout sound place (.plain name) placed (whole.names name inNames) (notPlain name) same
  · exact path_ne layout sound place (.tagged batch.tag name) placed
      ⟨whole.tag, whole.names name inNames⟩ (otherTag name) same

include sound in
-- What a batch has claimed is plain or carries its own tag, so it stays out of the later batches' way.
theorem clear_after_batch (claimed : List String) (batch : Batch) (others : List Batch)
    (sounds : ∀ other ∈ batch :: others, other.Sound) (separate : ∀ other ∈ others, batch.Separate other)
    (clear : layout.Clear claimed (batch :: others)) :
    layout.Clear (claimPaths layout.plain (layout.tagged batch.tag) claimed batch.names ++ claimed)
      others := by
  intro other member
  have whole := sounds batch List.mem_cons_self
  have inAll := List.mem_cons_of_mem batch member
  refine ⟨fun taken => ?_, fun name plain taken => ?_⟩
  · rcases List.mem_append.mp taken with own | before
    · exact not_claimed layout sound claimed batch whole (.heading other.label)
        (sounds other inAll).label nofun nofun own
    · exact (clear other inAll).1 before
  · rcases List.mem_append.mp taken with own | before
    · refine not_claimed layout sound claimed batch whole (.tagged other.tag name)
        ⟨(sounds other inAll).tag, plain⟩ nofun (fun _ same => ?_) own
      exact (separate other member).2 (Place.tagged.inj same).1.symm
    · exact (clear other inAll).2 name plain before

include sound in
theorem batch_paths_distinct (claimed : List String) (batches : List Batch)
    (sounds : ∀ batch ∈ batches, batch.Sound) (separate : batches.Pairwise Batch.Separate)
    (clear : layout.Clear claimed batches) :
    (layout.batchPaths claimed batches).Nodup ∧
      ∀ path ∈ layout.batchPaths claimed batches, path ∉ claimed := by
  induction batches generalizing claimed with
  | nil => exact ⟨List.nodup_nil, nofun⟩
  | cons batch others ih =>
      obtain ⟨first, later⟩ := List.pairwise_cons.mp separate
      have whole := sounds batch List.mem_cons_self
      have soundOthers : ∀ other ∈ others, other.Sound :=
        fun other member => sounds other (List.mem_cons_of_mem _ member)
      obtain ⟨ownDistinct, ownFresh⟩ := batch_own_distinct layout sound claimed batch whole
        (clear batch List.mem_cons_self).2
      obtain ⟨restDistinct, restFresh⟩ := ih _ soundOthers later
        (clear_after_batch layout sound claimed batch others sounds first clear)
      have headingApart : layout.heading batch.label ∉ layout.batchPaths
          (claimPaths layout.plain (layout.tagged batch.tag) claimed batch.names ++ claimed) others := by
        intro taken
        obtain ⟨place, plain, origin, same⟩ := batch_paths_origin layout _ others soundOthers _ taken
        cases path_injective layout sound (.heading batch.label) place whole.label plain same
        obtain ⟨other, member, label⟩ := origin
        exact (first other member).1 label.symm
      rw [batchPaths, List.cons_append]
      refine ⟨List.nodup_cons.mpr ⟨fun taken => ?_, List.nodup_append.mpr
        ⟨ownDistinct, restDistinct, ?_⟩⟩, ?_⟩
      · rcases List.mem_append.mp taken with own | rest
        · exact not_claimed layout sound claimed batch whole (.heading batch.label) whole.label nofun
            nofun own
        · exact headingApart rest
      · intro path own other rest same
        subst same
        exact restFresh path rest (List.mem_append_left _ own)
      · intro path member
        rcases List.mem_cons.mp member with rfl | member
        · exact (clear batch List.mem_cons_self).1
        · rcases List.mem_append.mp member with own | rest
          · exact ownFresh path own
          · exact fun taken => restFresh path rest (List.mem_append_right _ taken)

theorem paths_origin (names : List String) (batches : List Batch)
    (plains : ∀ name ∈ names, PlainName name) (sounds : ∀ batch ∈ batches, batch.Sound) :
    ∀ path ∈ layout.paths names batches, ∃ place : Place, place.Sound ∧ path = layout.path place := by
  intro path member
  rcases List.mem_append.mp member with own | later
  · obtain ⟨name, inNames, rfl⟩ := List.mem_map.mp own
    exact ⟨.plain name, plains name inNames, rfl⟩
  · obtain ⟨place, whole, _, made⟩ := batch_paths_origin layout _ batches sounds path later
    exact ⟨place, whole, made⟩

include sound in
theorem names_clear (names : List String) (batches : List Batch)
    (plains : ∀ name ∈ names, PlainName name) (sounds : ∀ batch ∈ batches, batch.Sound) :
    layout.Clear (names.map layout.plain) batches := by
  intro batch member
  refine ⟨fun taken => ?_, fun name plain taken => ?_⟩
  · obtain ⟨other, inNames, same⟩ := List.mem_map.mp taken
    exact path_ne layout sound (.plain other) (.heading batch.label) (plains other inNames)
      (sounds batch member).label nofun same
  · obtain ⟨other, inNames, same⟩ := List.mem_map.mp taken
    exact path_ne layout sound (.plain other) (.tagged batch.tag name) (plains other inNames)
      ⟨(sounds batch member).tag, plain⟩ nofun same

include sound in
theorem paths_distinct (names : List String) (batches : List Batch) (distinct : names.Nodup)
    (plains : ∀ name ∈ names, PlainName name) (sounds : ∀ batch ∈ batches, batch.Sound)
    (separate : batches.Pairwise Batch.Separate) : (layout.paths names batches).Nodup := by
  obtain ⟨later, fresh⟩ := batch_paths_distinct layout sound (names.map layout.plain) batches sounds
    separate (names_clear layout sound names batches plains sounds)
  refine List.nodup_append.mpr ⟨List.pairwise_map.mpr ?_, later, ?_⟩
  · refine List.Pairwise.imp_of_mem (fun {a b} inNames also different => ?_) distinct
    exact path_ne layout sound (.plain a) (.plain b) (plains a inNames) (plains b also)
      fun same => different (Place.plain.inj same)
  · intro path own other rest same
    subst same
    exact fresh path rest own

include sound in
theorem paths_apart (names : List String) (batches : List Batch) (distinct : names.Nodup)
    (plains : ∀ name ∈ names, PlainName name) (sounds : ∀ batch ∈ batches, batch.Sound)
    (separate : batches.Pairwise Batch.Separate) : (layout.paths names batches).Pairwise Apart := by
  refine List.Pairwise.imp_of_mem (fun {a b} inPaths also different => ?_)
    (paths_distinct layout sound names batches distinct plains sounds separate)
  obtain ⟨placeA, wholeA, rfl⟩ := paths_origin layout names batches plains sounds a inPaths
  obtain ⟨placeB, wholeB, rfl⟩ := paths_origin layout names batches plains sounds b also
  exact places_apart layout sound placeA placeB wholeA wholeB fun same => different (by rw [same])

end Layout

end ConditionalForm.Document
