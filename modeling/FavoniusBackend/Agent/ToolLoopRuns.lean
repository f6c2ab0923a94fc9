import FavoniusBackend.Agent.ToolLoops

/-!
# The tool-use loops are contained

Of each loop the blocks come first: what is dispatched of a response, and that its results answer its `tool_use` blocks one
by one.  The two lists of messages that are sent then stay answered, by induction on the iterations that are left.

The number of iterations is at least one, whatever the caller asks for.
-/

namespace FavoniusBackend.Agent.ToolLoops

open Agent.Guard
open Lib.PyJson

/-! ## What is meant -/

/-- Each `tool_use` block of an assistant turn is answered by one result, in the next turn and in the same order. -/
def Answered : List Message → Prop
  | [] => True
  | .assistant content :: rest =>
    (toolUses content = [] ∨ ∃ results later, rest = .toolResults results :: later ∧
      results.map ToolResult.toolUseId = (toolUses content).map ToolUse.id) ∧ Answered rest
  | _ :: rest => Answered rest

structure TurnContained (c : DepotConstraints) (maxCalls : ℕ) (allowedTools : List String) (t : TurnTrace) : Prop where
  calls : t.rounds.length ≤ maxCalls
  allowed : ∀ r ∈ t.rounds, ∀ use ∈ r.dispatched, use.name ∈ allowedTools
  guarded : ∀ r ∈ t.rounds, ∀ use ∈ r.dispatched, validateAction c (.obj use.input) = .ok none
  before : ∀ r ∈ t.rounds, r.dispatched.Sublist
    (r.uses.takeWhile fun use => use.name ≠ emitDecisionToolName ∧ use.name ∈ allowedTools)
  answered : ∀ r ∈ t.rounds, Answered r.sent
  oneWrite : t.writes.length ≤ 1
  pending : ∀ d ∈ t.writes, d.disposition = .pending

structure QaContained (maxCalls : ℕ) (allowedTools : List String) (t : QaTrace) : Prop where
  calls : t.rounds.length ≤ maxCalls
  allowed : ∀ r ∈ t.rounds, ∀ use ∈ r.dispatched, use.name ∈ allowedTools
  before : ∀ r ∈ t.rounds, r.dispatched <+: r.uses ∧ ∀ use ∈ r.dispatched.dropLast, use.name ≠ emitFinalAnswerTool
  answered : ∀ r ∈ t.rounds, Answered r.sent
  tokens : t.reportedTokens =
    ((t.rounds.map fun r => (r.response.elim (0, 0) tokensOf).1).sum,
      (t.rounds.map fun r => (r.response.elim (0, 0) tokensOf).2).sum)

/-! ## Messages -/

theorem Answered.append {ms ms' : List Message} (h : Answered ms) (h' : Answered ms') : Answered (ms ++ ms') := by
  induction ms with
  | nil => exact h'
  | cons m rest ih =>
    cases m with
    | user content => exact ih h
    | reply content => exact ih h
    | toolResults results => exact ih h
    | assistant content =>
      refine ⟨h.1.imp_right ?_, ih h.2⟩
      rintro ⟨results, later, rfl, hids⟩
      exact ⟨results, later ++ ms', rfl, hids⟩

theorem answered_round {content : List Block} {results : List ToolResult}
    (h : results.map ToolResult.toolUseId = (toolUses content).map ToolUse.id) :
    Answered [.assistant content, .toolResults results] := ⟨.inr ⟨results, [], rfl, h⟩, trivial⟩

theorem answered_history (history : List HistoryTurn) : Answered (history.map HistoryTurn.message) := by
  induction history with
  | nil => trivial
  | cons turn rest ih =>
    rw [List.map_cons, HistoryTurn.message]
    split
    · exact ih
    · exact ih

/-! ## The rounds of a loop -/

/-- At most `n` rounds, and each has the property. -/
def Rounds (p : Round → Prop) (n : ℕ) (rounds : List Round) : Prop := rounds.length ≤ n ∧ ∀ r ∈ rounds, p r

section Rounds

variable {p : Round → Prop} {n : ℕ}

theorem Rounds.nil : Rounds p n [] := ⟨Nat.zero_le n, fun _ hr => absurd hr List.not_mem_nil⟩

theorem Rounds.cons {r : Round} {rounds : List Round} (hr : p r) (h : Rounds p n rounds) :
    Rounds p (n + 1) (r :: rounds) := by
  refine ⟨Nat.succ_le_succ h.1, fun r' hmem => ?_⟩
  rcases List.mem_cons.mp hmem with rfl | hlater
  · exact hr
  · exact h.2 r' hlater

theorem Rounds.one {r : Round} (hr : p r) : Rounds p (n + 1) [r] := .cons hr .nil

end Rounds

/-! ## The blocks of a response -/

/-- What the blocks of a response lead to in `run_turn`. -/
structure TurnBlocksSpec (c : DepotConstraints) (allowedTools : List String) (uses : List ToolUse)
    (results : List ToolResult) (run : BlocksRun TerminatorOutput) : Prop where
  guarded : ∀ use ∈ run.dispatched, validateFields c use.input = .ok none
  before : run.dispatched.Sublist
    (uses.takeWhile fun use => use.name ≠ emitDecisionToolName ∧ use.name ∈ allowedTools)
  answered : ∀ results', run.ending = .answered results' →
    results'.map ToolResult.toolUseId = results.map ToolResult.toolUseId ++ uses.map ToolUse.id

theorem takeWhile_cons_named {allowedTools : List String} {use : ToolUse} {rest : List ToolUse}
    (hname : use.name ≠ emitDecisionToolName ∧ use.name ∈ allowedTools) :
    ((use :: rest).takeWhile fun use => use.name ≠ emitDecisionToolName ∧ use.name ∈ allowedTools) =
      use :: rest.takeWhile fun use => use.name ≠ emitDecisionToolName ∧ use.name ∈ allowedTools := by
  simp [hname]

section TurnBlocks

variable {c : DepotConstraints} {tier : PermissionTier} {allowedTools : List String} {tool : ℕ → ToolOutcome}

theorem TurnBlocksSpec.stop {uses : List ToolUse} {results : List ToolResult} {toolCalls : List ToolCall}
    {ending : BlocksEnd TerminatorOutput} (h : ∀ results', ending ≠ .answered results') :
    TurnBlocksSpec c allowedTools uses results ⟨[], toolCalls, ending⟩ where
  guarded := fun _ huse => absurd huse List.not_mem_nil
  before := List.nil_sublist _
  answered := fun results' heq => absurd heq (h results')

theorem TurnBlocksSpec.skip {use : ToolUse} {rest : List ToolUse} {results : List ToolResult} {call : ToolCall}
    {run : BlocksRun TerminatorOutput} (hname : use.name ≠ emitDecisionToolName ∧ use.name ∈ allowedTools)
    (h : TurnBlocksSpec c allowedTools rest (results ++ [call.toolResult use.id]) run) :
    TurnBlocksSpec c allowedTools (use :: rest) results run where
  guarded := h.guarded
  before := by
    rw [takeWhile_cons_named hname]
    exact h.before.cons use
  answered := by
    intro results' heq
    rw [h.answered results' heq, List.map_append, List.append_assoc]
    rfl

theorem TurnBlocksSpec.after {use : ToolUse} {rest : List ToolUse} {results : List ToolResult} {call : ToolCall}
    {run : BlocksRun TerminatorOutput} (hname : use.name ≠ emitDecisionToolName ∧ use.name ∈ allowedTools)
    (hguard : validateFields c use.input = .ok none)
    (h : TurnBlocksSpec c allowedTools rest (results ++ [call.toolResult use.id]) run) :
    TurnBlocksSpec c allowedTools (use :: rest) results (run.after use) where
  guarded := by
    intro u hu
    rcases List.mem_cons.mp hu with rfl | hrest
    · exact hguard
    · exact h.guarded u hrest
  before := by
    rw [takeWhile_cons_named hname]
    exact h.before.cons_cons use
  answered := (h.skip hname).answered

theorem TurnBlocksSpec.raised {use : ToolUse} {rest : List ToolUse} {results : List ToolResult}
    {toolCalls : List ToolCall} {e : Failure} (hname : use.name ≠ emitDecisionToolName ∧ use.name ∈ allowedTools)
    (hguard : validateFields c use.input = .ok none) :
    TurnBlocksSpec c allowedTools (use :: rest) results ⟨[use], toolCalls, .raised e⟩ where
  guarded := by
    intro u hu
    obtain rfl := List.mem_singleton.mp hu
    exact hguard
  before := by
    rw [takeWhile_cons_named hname]
    exact (List.nil_sublist _).cons_cons use
  answered := fun _ heq => nomatch heq

theorem turnBlocks_spec (iteration : ℕ) (uses : List ToolUse) (k : ℕ) (toolCalls : List ToolCall)
    (results : List ToolResult) :
    TurnBlocksSpec c allowedTools uses results
      (turnBlocks c tier allowedTools tool iteration uses k toolCalls results) := by
  induction uses generalizing k toolCalls results with
  | nil =>
    refine ⟨fun _ huse => absurd huse List.not_mem_nil, List.nil_sublist _, fun results' heq => ?_⟩
    obtain rfl : results = results' := BlocksEnd.answered.inj heq
    rw [List.map_nil, List.append_nil]
  | cons use rest ih =>
    rw [turnBlocks]
    by_cases hemit : use.name = emitDecisionToolName
    · rw [if_pos hemit]
      split
      · exact .stop fun _ => nofun
      · exact .stop fun _ => nofun
    · rw [if_neg hemit]
      by_cases hallowed : use.name ∈ allowedTools
      · rw [if_neg (not_not.mpr hallowed)]
        dsimp only
        split
        · exact .stop fun _ => nofun
        · exact .skip ⟨hemit, hallowed⟩ (ih _ _ _)
        · rename_i hguard
          split
          · exact .after ⟨hemit, hallowed⟩ hguard (ih _ _ _)
          · exact .after ⟨hemit, hallowed⟩ hguard (ih _ _ _)
          · exact .raised ⟨hemit, hallowed⟩ hguard
          · exact .raised ⟨hemit, hallowed⟩ hguard
      · rw [if_pos hallowed]
        exact .stop fun _ => nofun

end TurnBlocks

/-! ## The loop of a turn -/

/-- What holds of a round of `run_turn`. -/
structure TurnRound (c : DepotConstraints) (allowedTools : List String) (r : Round) : Prop where
  guarded : ∀ use ∈ r.dispatched, validateFields c use.input = .ok none
  before : r.dispatched.Sublist
    (r.uses.takeWhile fun use => use.name ≠ emitDecisionToolName ∧ use.name ∈ allowedTools)
  answered : Answered r.sent

theorem turnRound_nothing {c : DepotConstraints} {allowedTools : List String} {messages : List Message}
    {response : Option Response} (h : Answered messages) : TurnRound c allowedTools ⟨messages, response, []⟩ :=
  ⟨fun _ huse => absurd huse List.not_mem_nil, List.nil_sublist _, h⟩

theorem turnLoop_rounds {c : DepotConstraints} {tier : PermissionTier} {allowedTools : List String}
    {tool : ℕ → ToolOutcome} {api : ℕ → Except Failure Response} (n i : ℕ) {messages : List Message}
    (hmessages : Answered messages) (k : ℕ) (toolCalls : List ToolCall) :
    Rounds (TurnRound c allowedTools) n (turnLoop c tier allowedTools tool api n i messages k toolCalls).rounds := by
  induction n generalizing i messages k toolCalls with
  | zero => exact .nil
  | succ n ih =>
    rw [turnLoop]
    split
    · exact .one (turnRound_nothing hmessages)
    · rename_i response _
      split
      · exact .one (turnRound_nothing hmessages)
      · rename_i use uses huses
        have hspec := @turnBlocks_spec c tier allowedTools tool i (use :: uses) k toolCalls []
        have hround : TurnRound c allowedTools
            ⟨messages, some response, (turnBlocks c tier allowedTools tool i (use :: uses) k toolCalls []).dispatched⟩ :=
          ⟨hspec.guarded, by
            rw [← huses] at hspec
            rw [← huses]
            exact hspec.before, hmessages⟩
        dsimp only
        split
        · exact .one hround
        · exact .one hround
        · rename_i results hanswered
          split
          · exact .one hround
          · -- the results answer the response, so the next call sends answered messages
            have hids := hspec.answered results hanswered
            rw [← huses] at hids
            exact .cons hround (ih (i + 1) (hmessages.append (answered_round hids)) _ _)

theorem turnContained_of_rounds {c : DepotConstraints} {n : ℕ} {allowedTools : List String} {t : TurnTrace}
    (hrounds : Rounds (TurnRound c allowedTools) n t.rounds)
    (hone : t.writes.length ≤ 1) (hpending : ∀ d ∈ t.writes, d.disposition = .pending) :
    TurnContained c n allowedTools t where
  calls := hrounds.1
  allowed := by
    intro r hr use huse
    have hnamed := List.mem_takeWhile_imp ((hrounds.2 r hr).before.subset huse)
    simp only [decide_eq_true_eq] at hnamed
    exact hnamed.2
  guarded := fun r hr use huse => (hrounds.2 r hr).guarded use huse
  before := fun r hr => (hrounds.2 r hr).before
  answered := fun r hr => (hrounds.2 r hr).answered
  oneWrite := hone
  pending := hpending

theorem runTurn_contained (env : TurnEnv) (c : DepotConstraints) (maxIterations : ℤ) (workflow : Workflow)
    (depotId : String) (auth : AuthContext) (userMessage : String) (tier : PermissionTier) :
    TurnContained c (iterationBudget maxIterations) workflow.allowedTools
      (runTurn env c maxIterations workflow depotId auth userMessage tier) := by
  have hnone : ∀ failure, TurnContained c (iterationBudget maxIterations) workflow.allowedTools
      (.failed [] [] failure) := fun failure =>
    turnContained_of_rounds .nil (Nat.zero_le _) fun _ hd => absurd hd List.not_mem_nil
  have hrounds := @turnLoop_rounds c tier workflow.allowedTools env.tool env.api
    (iterationBudget maxIterations) 0 [.user userMessage] trivial 0 []
  rw [runTurn]
  split
  · exact hnone _
  · split
    · exact hnone _
    · split
      · exact hnone _
      · split
        · exact hnone _
        · dsimp only
          split
          · exact turnContained_of_rounds hrounds (Nat.zero_le _) fun _ hd => absurd hd List.not_mem_nil
          · split
            · exact turnContained_of_rounds hrounds (Nat.zero_le _) fun _ hd => absurd hd List.not_mem_nil
            · refine turnContained_of_rounds hrounds le_rfl fun d hd => ?_
              obtain rfl := List.mem_singleton.mp hd
              rfl
            · refine turnContained_of_rounds hrounds le_rfl fun d hd => ?_
              obtain rfl := List.mem_singleton.mp hd
              rfl

/-! ## The blocks of a Q&A response -/

/-- What the blocks of a response lead to in `run_qa_turn`. -/
structure QaBlocksSpec (allowedTools : List String) (uses : List ToolUse) (results : List ToolResult)
    (run : BlocksRun QaAnswer) : Prop where
  allowed : ∀ use ∈ run.dispatched, use.name ∈ allowedTools
  isPrefix : run.dispatched <+: uses
  last : ∀ use ∈ run.dispatched.dropLast, use.name ≠ emitFinalAnswerTool
  answered : ∀ results', run.ending = .answered results' →
    results'.map ToolResult.toolUseId = results.map ToolResult.toolUseId ++ uses.map ToolUse.id

theorem QaBlocksSpec.single {allowedTools : List String} {use : ToolUse} {rest : List ToolUse}
    {results : List ToolResult} {toolCalls : List ToolCall} {ending : BlocksEnd QaAnswer}
    (hname : use.name ∈ allowedTools) (h : ∀ results', ending ≠ .answered results') :
    QaBlocksSpec allowedTools (use :: rest) results ⟨[use], toolCalls, ending⟩ where
  allowed := by
    intro u hu
    obtain rfl := List.mem_singleton.mp hu
    exact hname
  isPrefix := List.prefix_cons_inj use |>.mpr List.nil_prefix
  last := fun _ hu => absurd hu List.not_mem_nil
  answered := fun results' heq => absurd heq (h results')

theorem QaBlocksSpec.after {allowedTools : List String} {use : ToolUse} {rest : List ToolUse}
    {results : List ToolResult} {call : ToolCall} {run : BlocksRun QaAnswer} (hname : use.name ∈ allowedTools)
    (hnot : use.name ≠ emitFinalAnswerTool)
    (h : QaBlocksSpec allowedTools rest (results ++ [call.toolResult use.id]) run) :
    QaBlocksSpec allowedTools (use :: rest) results (run.after use) where
  allowed := by
    intro u hu
    rcases List.mem_cons.mp hu with rfl | hrest
    · exact hname
    · exact h.allowed u hrest
  isPrefix := (List.prefix_cons_inj use).mpr h.isPrefix
  last := by
    intro u hu
    have hdropLast : (use :: run.dispatched).dropLast ⊆ use :: run.dispatched.dropLast := by
      cases run.dispatched with
      | nil => exact List.nil_subset _
      | cons v vs => exact fun _ hmem => hmem
    rcases List.mem_cons.mp (hdropLast hu) with rfl | hrest
    · exact hnot
    · exact h.last u hrest
  answered := by
    intro results' heq
    rw [h.answered results' heq, List.map_append, List.append_assoc]
    rfl

theorem qaBlocks_spec {allowedTools : List String} {tool : ℕ → ToolOutcome} {onStep : ℕ → Option Failure}
    (iterations : ℕ) (uses : List ToolUse) (k : ℕ) (toolCalls : List ToolCall) (results : List ToolResult) :
    QaBlocksSpec allowedTools uses results (qaBlocks allowedTools tool onStep iterations uses k toolCalls results) := by
  induction uses generalizing k toolCalls results with
  | nil =>
    refine ⟨fun _ hu => absurd hu List.not_mem_nil, List.nil_prefix, fun _ hu => absurd hu List.not_mem_nil,
      fun results' heq => ?_⟩
    obtain rfl : results = results' := BlocksEnd.answered.inj heq
    rw [List.map_nil, List.append_nil]
  | cons use rest ih =>
    rw [qaBlocks]
    by_cases hallowed : use.name ∈ allowedTools
    · rw [if_neg (not_not.mpr hallowed)]
      split
      · exact .single hallowed fun _ => nofun
      · split
        · exact .single hallowed fun _ => nofun
        · by_cases hfinal : use.name = emitFinalAnswerTool
          · rw [if_pos hfinal]
            split
            · exact .single hallowed fun _ => nofun
            · exact .single hallowed fun _ => nofun
          · rw [if_neg hfinal]
            exact .after hallowed hfinal (ih _ _ _)
    · rw [if_pos hallowed]
      exact ⟨fun _ hu => absurd hu List.not_mem_nil, List.nil_prefix, fun _ hu => absurd hu List.not_mem_nil,
        fun _ heq => nomatch heq⟩

/-! ## The loop of a Q&A turn -/

/-- What holds of a round of `run_qa_turn`. -/
structure QaRound (allowedTools : List String) (r : Round) : Prop where
  allowed : ∀ use ∈ r.dispatched, use.name ∈ allowedTools
  isPrefix : r.dispatched <+: r.uses
  last : ∀ use ∈ r.dispatched.dropLast, use.name ≠ emitFinalAnswerTool
  answered : Answered r.sent

theorem qaRound_nothing {allowedTools : List String} {messages : List Message} {response : Option Response}
    (h : Answered messages) : QaRound allowedTools ⟨messages, response, []⟩ :=
  ⟨fun _ huse => absurd huse List.not_mem_nil, List.nil_prefix, fun _ huse => absurd huse List.not_mem_nil, h⟩

def usage (rounds : List Round) : ℕ × ℕ :=
  ((rounds.map fun r => (r.response.elim (0, 0) tokensOf).1).sum,
    (rounds.map fun r => (r.response.elim (0, 0) tokensOf).2).sum)

theorem usage_cons (messages : List Message) (response : Response) (dispatched : List ToolUse) (rounds : List Round) :
    usage (⟨messages, some response, dispatched⟩ :: rounds) = tokensOf response + usage rounds := rfl

theorem qaLoop_spec {allowedTools : List String} {tool : ℕ → ToolOutcome} {onStep : ℕ → Option Failure}
    {api : ℕ → Except Failure Response} (n i : ℕ) {messages : List Message} (hmessages : Answered messages) (k : ℕ)
    (toolCalls : List ToolCall) (inputTokens outputTokens : ℕ) :
    let t := qaLoop allowedTools tool onStep api n i messages k toolCalls inputTokens outputTokens
    Rounds (QaRound allowedTools) n t.rounds ∧ t.reportedTokens = (inputTokens, outputTokens) + usage t.rounds := by
  induction n generalizing i messages k toolCalls inputTokens outputTokens with
  | zero => exact ⟨.nil, rfl⟩
  | succ n ih =>
    rw [qaLoop]
    split
    · exact ⟨.one (qaRound_nothing hmessages), rfl⟩
    · rename_i response _
      dsimp only
      split
      · exact ⟨.one (qaRound_nothing hmessages), rfl⟩
      · rename_i use uses huses
        have hspec := @qaBlocks_spec allowedTools tool onStep (i + 1) (use :: uses) k toolCalls []
        have hround : QaRound allowedTools
            ⟨messages, some response, (qaBlocks allowedTools tool onStep (i + 1) (use :: uses) k toolCalls []).dispatched⟩ :=
          ⟨hspec.allowed, by
            rw [← huses] at hspec
            rw [← huses]
            exact hspec.isPrefix, hspec.last, hmessages⟩
        split
        · exact ⟨.one hround, rfl⟩
        · exact ⟨.one hround, rfl⟩
        · rename_i results hanswered
          have hids := hspec.answered results hanswered
          rw [← huses] at hids
          obtain ⟨hrounds, htokens⟩ := ih (i + 1) (hmessages.append (answered_round hids))
            (k + (qaBlocks allowedTools tool onStep (i + 1) (use :: uses) k toolCalls []).dispatched.length)
            (qaBlocks allowedTools tool onStep (i + 1) (use :: uses) k toolCalls []).toolCalls
            (inputTokens + (tokensOf response).1) (outputTokens + (tokensOf response).2)
          refine ⟨.cons hround hrounds, htokens.trans ?_⟩
          rw [usage_cons, ← add_assoc]
          rfl

theorem runQaTurn_contained (env : QaEnv) (maxIterations : ℤ) (allowedTools : List String) (history : List HistoryTurn)
    (userMessage : String) : QaContained (iterationBudget maxIterations) allowedTools
      (runQaTurn env maxIterations allowedTools history userMessage) := by
  have hnone : ∀ failure, QaContained (iterationBudget maxIterations) allowedTools (.failed failure) := fun failure =>
    ⟨Nat.zero_le _, fun _ hr => absurd hr List.not_mem_nil, fun _ hr => absurd hr List.not_mem_nil,
      fun _ hr => absurd hr List.not_mem_nil, rfl⟩
  rw [runQaTurn]
  split
  · exact hnone _
  · split
    · exact hnone _
    · have hmessages : Answered (history.map HistoryTurn.message ++ [.user userMessage]) :=
        (answered_history history).append trivial
      obtain ⟨⟨hlength, hrounds⟩, htokens⟩ := @qaLoop_spec allowedTools env.tool env.onStep env.api
        (iterationBudget maxIterations) 0 _ hmessages 0 [] 0 0
      refine ⟨hlength, fun r hr => (hrounds r hr).allowed, fun r hr => ⟨(hrounds r hr).isPrefix, (hrounds r hr).last⟩,
        fun r hr => (hrounds r hr).answered, htokens.trans ?_⟩
      exact zero_add _

/-! ## Both loops -/

/-- **The tool-use loops are contained**, whatever the model answers and the tools do; they make at most as many calls as
they are asked for, and one where they are asked for none. -/
theorem toolLoops_contained (c : DepotConstraints) (maxIterations : ℤ) (userMessage : String) :
    (∀ env workflow depotId auth tier, TurnContained c (max 1 maxIterations).toNat workflow.allowedTools
      (runTurn env c maxIterations workflow depotId auth userMessage tier)) ∧
    ∀ env allowedTools history, QaContained (max 1 maxIterations).toNat allowedTools
      (runQaTurn env maxIterations allowedTools history userMessage) :=
  ⟨fun env workflow depotId auth tier =>
      runTurn_contained env c maxIterations workflow depotId auth userMessage tier,
    fun env allowedTools history => runQaTurn_contained env maxIterations allowedTools history userMessage⟩

def talkingModel : QaEnv where
  api := fun _ => .ok ⟨[.text "Hello."], some "end_turn", none⟩
  tool := fun _ => .cancelled
  onStep := fun _ => none
  registered := [emitFinalAnswerTool]

/-- Where no iterations are asked for, the API is called all the same. -/
theorem one_call_of_none_asked : ¬ ∀ env maxIterations allowedTools history userMessage,
    ((runQaTurn env maxIterations allowedTools history userMessage).rounds.length : ℤ) ≤ max 0 maxIterations := by
  intro h
  have hcalls := h talkingModel 0 [emitFinalAnswerTool] [] "Hi."
  have hone : (runQaTurn talkingModel 0 [emitFinalAnswerTool] [] "Hi.").rounds.length = 1 := by decide +kernel
  rw [hone] at hcalls
  exact absurd hcalls (by decide)

end FavoniusBackend.Agent.ToolLoops
