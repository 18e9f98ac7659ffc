import ConditionalForm.Json.Reader
import ConditionalForm.Proofs.WellFormed

set_option autoImplicit false

namespace ConditionalForm.Json

def Token.WellFormed : Token → Prop
  | .scalar value => value.WellFormed
  | _ => True

def Frame.WellFormed : Frame → Prop
  | .array items => WellFormedItems items
  | .object members => WellFormedMembers members
  | .member members _ => WellFormedMembers members

structure Stack.WellFormed (s : Stack) : Prop where
  frames : ∀ frame ∈ s.frames, frame.WellFormed
  complete : ∀ value, s.phase = .complete value → value.WellFormed

theorem scalar_well_formed (word : List Char) (value : Json) (read : scalar? word = some value) :
    value.WellFormed := by
  unfold scalar? at read
  split at read
  · cases read; trivial
  · cases read; trivial
  · cases read; trivial
  · obtain ⟨numeral, _, number⟩ := Option.bind_eq_some_iff.mp read
    obtain ⟨n, _, rfl⟩ := Option.map_eq_some_iff.mp number
    trivial

theorem fold_preserves {σ τ : Type} (step : σ → τ → Option σ) (holds : σ → Prop) (items : List τ)
    (each : ∀ item ∈ items, ∀ s next, holds s → step s item = some next → holds next)
    (start final : σ) (initial : holds start) (ran : items.foldlM step start = some final) :
    holds final := by
  induction items generalizing start with
  | nil =>
      cases ran
      exact initial
  | cons item items ih =>
      obtain ⟨next, stepped, rest⟩ := Option.bind_eq_some_iff.mp ran
      exact ih (fun other member => each other (List.mem_cons_of_mem _ member)) next
        (each item List.mem_cons_self start next initial stepped) rest

theorem lexer_start_tokens (tokens : List Token) (c : Char) (next : Lexer)
    (wells : ∀ token ∈ tokens, token.WellFormed) (stepped : Lexer.start tokens c = some next) :
    ∀ token ∈ next.tokens, token.WellFormed := by
  have added (token : Token) (well : token.WellFormed) :
      ∀ other ∈ token :: tokens, other.WellFormed := by
    intro other member
    rcases List.mem_cons.mp member with rfl | old
    · exact well
    · exact wells other old
  unfold Lexer.start at stepped
  split at stepped
  case h_5 | h_6 | h_7 | h_8 | h_9 | h_10 => cases stepped; exact added _ trivial
  case h_12 =>
    split at stepped
    · cases stepped; exact wells
    · cases stepped
  all_goals cases stepped; exact wells

theorem lexer_step_tokens (l next : Lexer) (c : Char)
    (wells : ∀ token ∈ l.tokens, token.WellFormed) (stepped : l.step c = some next) :
    ∀ token ∈ next.tokens, token.WellFormed := by
  unfold Lexer.step at stepped
  split at stepped
  · exact lexer_start_tokens l.tokens c next wells stepped
  · split at stepped
    · cases stepped
      exact wells
    · obtain ⟨value, read, started⟩ := Option.bind_eq_some_iff.mp stepped
      refine lexer_start_tokens _ c next (fun token member => ?_) started
      rcases List.mem_cons.mp member with rfl | old
      · exact scalar_well_formed _ value read
      · exact wells token old
  · obtain ⟨outcome, _, rfl⟩ := Option.map_eq_some_iff.mp stepped
    cases outcome with
    | inl lexeme => exact wells
    | inr s =>
        intro token member
        rcases List.mem_cons.mp member with rfl | old
        · trivial
        · exact wells token old

theorem tokens_well_formed (text : List Char) (tokens : List Token) (cut : tokens? text = some tokens) :
    ∀ token ∈ tokens, token.WellFormed := by
  obtain ⟨final, ran, finished⟩ := Option.bind_eq_some_iff.mp cut
  have wells : ∀ token ∈ final.tokens, token.WellFormed :=
    fold_preserves Lexer.step (fun l => ∀ token ∈ l.tokens, token.WellFormed) text
      (fun c _ l next well stepped => lexer_step_tokens l next c well stepped)
      ⟨.blank, []⟩ final nofun ran
  unfold Lexer.finish at finished
  split at finished
  · cases finished
    exact fun token member => wells token (List.mem_reverse.mp member)
  · obtain ⟨value, read, rfl⟩ := Option.map_eq_some_iff.mp finished
    intro token member
    rcases List.mem_cons.mp (List.mem_reverse.mp member) with rfl | old
    · exact scalar_well_formed _ value read
    · exact wells token old
  · cases finished

theorem close_well_formed (value : Json) (frames : List Frame) (next : Stack)
    (well : value.WellFormed) (wells : ∀ frame ∈ frames, frame.WellFormed)
    (closed : Stack.close value frames = some next) : next.WellFormed := by
  cases frames with
  | nil =>
      cases closed
      exact ⟨nofun, fun other same => by cases same; exact well⟩
  | cons frame frames =>
      obtain ⟨here, others⟩ := List.forall_mem_cons.mp wells
      cases frame with
      | array items =>
          cases closed
          exact ⟨List.forall_mem_cons.mpr ⟨⟨well, here⟩, others⟩, nofun⟩
      | object members => cases closed
      | member members name =>
          cases closed
          exact ⟨List.forall_mem_cons.mpr ⟨⟨well, here⟩, others⟩, nofun⟩

theorem begin_well_formed (limit : Nat) (frames : List Frame) (token : Token) (next : Stack)
    (well : token.WellFormed) (wells : ∀ frame ∈ frames, frame.WellFormed)
    (begun : Stack.begin limit frames token = some next) : next.WellFormed := by
  cases token with
  | scalar value => exact close_well_formed value frames next well wells begun
  | text s => exact close_well_formed (.text s) frames next trivial wells begun
  | openArray =>
      obtain ⟨_, made⟩ := Option.ite_none_right_eq_some.mp begun
      cases made
      exact ⟨List.forall_mem_cons.mpr ⟨trivial, wells⟩, nofun⟩
  | openObject =>
      obtain ⟨_, made⟩ := Option.ite_none_right_eq_some.mp begun
      cases made
      exact ⟨List.forall_mem_cons.mpr ⟨trivial, wells⟩, nofun⟩
  | _ => cases begun

theorem leave_well_formed (frames : List Frame) (token : Token) (next : Stack)
    (wells : ∀ frame ∈ frames, frame.WellFormed) (left : Stack.leave frames token = some next) :
    next.WellFormed := by
  unfold Stack.leave at left
  split at left
  · obtain ⟨here, others⟩ := List.forall_mem_cons.mp wells
    refine close_well_formed _ _ next ?_ others left
    refine (well_formed_items_iff _).mpr fun item member => ?_
    exact (well_formed_items_iff _).mp here item (List.mem_reverse.mp member)
  · obtain ⟨here, others⟩ := List.forall_mem_cons.mp wells
    refine close_well_formed _ _ next (well_formed_overlay [] _ ⟨List.nodup_nil, trivial⟩ ?_) others left
    refine (well_formed_members_iff _).mpr fun entry member => ?_
    exact (well_formed_members_iff _).mp here entry (List.mem_reverse.mp member)
  · cases left

theorem stack_step_well_formed (limit : Nat) (token : Token) (s next : Stack)
    (well : token.WellFormed) (wells : s.WellFormed) (stepped : s.step limit token = some next) :
    next.WellFormed := by
  have frames := wells.frames
  unfold Stack.step at stepped
  split at stepped
  · exact begin_well_formed limit _ _ next well frames stepped
  · exact leave_well_formed _ _ next frames stepped
  · exact begin_well_formed limit _ _ next well frames stepped
  · cases stepped; exact ⟨frames, nofun⟩
  · cases stepped; exact ⟨frames, nofun⟩
  · exact leave_well_formed _ _ next frames stepped
  · rename_i held
    rw [held] at frames
    cases stepped
    obtain ⟨here, others⟩ := List.forall_mem_cons.mp frames
    exact ⟨List.forall_mem_cons.mpr ⟨here, others⟩, nofun⟩
  · rename_i held
    rw [held] at frames
    cases stepped
    exact ⟨frames, nofun⟩
  · rename_i held
    rw [held] at frames
    cases stepped
    exact ⟨frames, nofun⟩
  · exact leave_well_formed _ _ next frames stepped
  · cases stepped

theorem read_well_formed (limit : Nat) (text : String) (value : Json)
    (read : readWithin? limit text = some value) : value.WellFormed := by
  obtain ⟨tokens, cut, rest⟩ := Option.bind_eq_some_iff.mp read
  obtain ⟨final, ran, stopped⟩ := Option.bind_eq_some_iff.mp rest
  have wells := fold_preserves (Stack.step limit) Stack.WellFormed tokens
    (fun token member s next well stepped => stack_step_well_formed limit token s next
      (tokens_well_formed text.toList tokens cut token member) well stepped)
    ⟨[], .value⟩ final ⟨nofun, nofun⟩ ran
  split at stopped
  · rename_i whole complete
    cases stopped
    exact wells.complete value complete
  · cases stopped

end ConditionalForm.Json
