import FavoniusBackend.Agent.ConstraintGuard

/-!
# The tool-use loops

`WorkflowAgent.run_turn` and `run_qa_turn` of `agent_workflows/runtime.py`.  The answers of the model and the outcomes of
the tools are arbitrary sequences: the answer to each call of the API, and for each dispatch what the tool does.  A run is
the list of its `Round`s, one for each call of the API: what was sent, what came back, and the tools that were dispatched
before the next call.

An exception that comes from outside has none of the attributes that `run_qa_turn` attaches.
-/

namespace FavoniusBackend.Agent.ToolLoops

open Agent.Guard
open Lib.PyJson
open Lib.PyJson.Json
open Lib

/-! ## Messages -/

/-- A `tool_use` block; a name or an id that is missing is empty. -/
structure ToolUse where
  name : String
  id : String
  input : List (PyStr × Json)
  deriving DecidableEq

inductive Block where
  | text (text : String)
  | toolUse (use : ToolUse)
  | thinking
  deriving DecidableEq

/-- The `tool_use` blocks of a content, in their order. -/
def toolUses (content : List Block) : List ToolUse :=
  content.filterMap fun
    | .toolUse use => some use
    | _ => none

def textOf (content : List Block) : String :=
  String.ofList (Text.strip (content.flatMap fun
    | .text text => text.toList
    | _ => []))

structure ToolResult where
  toolUseId : String
  content : Json
  isError : Bool
  deriving DecidableEq

inductive Message where
  | user (content : String)
  | reply (content : String)
  | assistant (content : List Block)
  | toolResults (results : List ToolResult)
  deriving DecidableEq

/-- A response; its usage is the tokens of the input and of the output. -/
structure Response where
  content : List Block
  stopReason : Option String
  usage : Option (ℕ × ℕ)
  deriving DecidableEq

/-! ## Tools -/

/-- What made a guard or a tool refuse. -/
inductive CallError where
  | violation (v : ConstraintViolation)
  | failure (detail : String)
  | envelope (error : Json)
  deriving DecidableEq

structure ToolCall where
  name : String
  arguments : List (PyStr × Json)
  result : Json
  ok : Bool
  error : Option CallError
  deriving DecidableEq

inductive Failure where
  | toolNotAllowed (toolCalls : List ToolCall) (iterations : ℕ)
  | toolNotRegistered
  | workflowRuntimeError
  | python (e : PyError)
  | exception (detail : String)
  | cancelled
  deriving DecidableEq

/-- What a dispatched tool does: it returns, nobody registered it, it raises, or the turn is cancelled meanwhile. -/
inductive ToolOutcome where
  | returned (result : Json)
  | notRegistered
  | raises (detail : String)
  | cancelled

def toolFailure (name detail : String) : Json :=
  .obj [(py "error", .str (py "tool_failure")), (py "tool", .str (py name)), (py "detail", .str (py detail))]

def violationToErrorEnvelope (v : ConstraintViolation) : Json :=
  .obj [(py "error", .str (py "hard_constraint_violation")), (py "constraint", .str (py v.constraint.text)),
    (py "field", .str (py v.field)), (py "value", .float v.value), (py "limit", .float v.limit),
    (py "detail", .str (py v.detail))]

def ToolCall.toolResult (call : ToolCall) (toolUseId : String) : ToolResult := ⟨toolUseId, call.result, !call.ok⟩

/-- One call of the API: what was sent, the response if one came, and the tools dispatched for it. -/
structure Round where
  sent : List Message
  response : Option Response
  dispatched : List ToolUse

def Round.uses (r : Round) : List ToolUse := r.response.elim [] fun response => toolUses response.content

/-! ## `run_turn` -/

def emitDecisionToolName : String := "emit_decision"

inductive Disposition where
  | pending
  | approved
  | edited
  | rejected
  | autoExecuted
  deriving DecidableEq, Repr

structure Workflow where
  id : String
  allowedTools : List String

structure AuthContext where
  organizationId : Option String
  userId : Option String
  visibleDepotIds : List String

structure Decision where
  workflowId : String
  depotId : String
  organizationId : String
  toolCalls : List ToolCall
  output : TerminatorOutput
  disposition : Disposition
  humanUserId : Option String

inductive TurnStatus where
  | success
  | noTerminator
  | maxIterations
  | toolNotAllowed
  | toolNotRegistered
  | error
  deriving DecidableEq, Repr

/-- What surrounds a turn: the answers of the API and of the tools, the registered tools, and the decision repository, if
there is one, with the exception of its write, if it raises. -/
structure TurnEnv where
  api : ℕ → Except Failure Response
  tool : ℕ → ToolOutcome
  registered : List String
  repo : Option (Option Failure)

def plainOutput (summary : String) : TerminatorOutput where
  summary := .str (py summary)
  proposedActions := []
  filteredViolations := []
  tierSuppressedActions := []
  coverage := []
  ruleApplied := none

inductive BlocksEnd (α : Type) where
  | answered (results : List ToolResult)
  | terminated (a : α)
  | raised (failure : Failure)

structure BlocksRun (α : Type) where
  dispatched : List ToolUse
  toolCalls : List ToolCall
  ending : BlocksEnd α

def BlocksRun.after {α : Type} (run : BlocksRun α) (use : ToolUse) : BlocksRun α :=
  { run with dispatched := use :: run.dispatched }

section Turn

variable (c : DepotConstraints) (tier : PermissionTier) (allowedTools : List String) (tool : ℕ → ToolOutcome)

/-- The loop over the blocks of a response: `iteration` of the turn, after `k` dispatches. -/
def turnBlocks (iteration : ℕ) :
    List ToolUse → ℕ → List ToolCall → List ToolResult → BlocksRun TerminatorOutput
  | [], _, toolCalls, results => ⟨[], toolCalls, .answered results⟩
  | use :: rest, k, toolCalls, results =>
    if use.name = emitDecisionToolName then
      match captureTerminator c tier use.input with
      | .ok output => ⟨[], toolCalls, .terminated output⟩
      | .error e => ⟨[], toolCalls, .raised (.python e)⟩
    else if use.name ∉ allowedTools then ⟨[], toolCalls, .raised (.toolNotAllowed toolCalls (iteration + 1))⟩
    else
      let goOn (k : ℕ) (call : ToolCall) : BlocksRun TerminatorOutput :=
        turnBlocks iteration rest k (toolCalls ++ [call]) (results ++ [call.toolResult use.id])
      match validateFields c use.input with
      | .error e => ⟨[], toolCalls, .raised (.python e)⟩
      | .ok (some v) => goOn k ⟨use.name, use.input, violationToErrorEnvelope v, false, some (.violation v)⟩
      | .ok none =>
        match tool k with
        | .returned result => (goOn (k + 1) ⟨use.name, use.input, result, true, none⟩).after use
        | .raises detail =>
          (goOn (k + 1) ⟨use.name, use.input, toolFailure use.name detail, false, some (.failure detail)⟩).after use
        | .notRegistered => ⟨[use], toolCalls, .raised .toolNotRegistered⟩
        | .cancelled => ⟨[use], toolCalls, .raised .cancelled⟩

structure TurnEnd where
  toolCalls : List ToolCall
  output : TerminatorOutput
  status : TurnStatus

structure LoopRun (α : Type) where
  rounds : List Round
  ending : Except Failure α

def turnLoop (api : ℕ → Except Failure Response) :
    ℕ → ℕ → List Message → ℕ → List ToolCall → LoopRun TurnEnd
  | 0, _, _, _, toolCalls => ⟨[], .ok ⟨toolCalls, plainOutput "", .maxIterations⟩⟩
  | n + 1, i, messages, k, toolCalls =>
    match api i with
    | .error e => ⟨[⟨messages, none, []⟩], .error e⟩
    | .ok response =>
      match toolUses response.content with
      | [] =>
        ⟨[⟨messages, some response, []⟩],
          .ok ⟨toolCalls, plainOutput (textOf response.content), .noTerminator⟩⟩
      | use :: uses =>
        let blocks := turnBlocks c tier allowedTools tool i (use :: uses) k toolCalls []
        let round : Round := ⟨messages, some response, blocks.dispatched⟩
        match blocks.ending with
        | .raised e => ⟨[round], .error e⟩
        | .terminated output => ⟨[round], .ok ⟨blocks.toolCalls, output, .success⟩⟩
        | .answered results =>
          if response.stopReason = some "end_turn" then
            ⟨[round], .ok ⟨blocks.toolCalls, plainOutput "", .noTerminator⟩⟩
          else
            let later := turnLoop api n (i + 1)
              (messages ++ [.assistant response.content, .toolResults results])
              (k + blocks.dispatched.length) blocks.toolCalls
            ⟨round :: later.rounds, later.ending⟩

end Turn

structure TurnTrace where
  rounds : List Round
  writes : List Decision
  result : Except Failure Decision
  status : TurnStatus

def Failure.turnStatus : Failure → TurnStatus
  | .toolNotAllowed _ _ => .toolNotAllowed
  | .toolNotRegistered => .toolNotRegistered
  | _ => .error

/-- `max(1, int(max_iterations))`. -/
def iterationBudget (maxIterations : ℤ) : ℕ := (max 1 maxIterations).toNat

def TurnTrace.failed (rounds : List Round) (writes : List Decision) (failure : Failure) : TurnTrace :=
  ⟨rounds, writes, .error failure, failure.turnStatus⟩

/-- `run_turn`; `userMessage` is the first message. -/
def runTurn (env : TurnEnv) (c : DepotConstraints) (maxIterations : ℤ) (workflow : Workflow) (depotId : String)
    (auth : AuthContext) (userMessage : String) (tier : PermissionTier) : TurnTrace :=
  match auth.organizationId with
  | none => .failed [] [] .workflowRuntimeError
  | some organizationId =>
    if depotId ∉ auth.visibleDepotIds then .failed [] [] .workflowRuntimeError
    else if emitDecisionToolName ∈ workflow.allowedTools then .failed [] [] .workflowRuntimeError
    else if ¬ ∀ name ∈ workflow.allowedTools, name ∈ env.registered then .failed [] [] .toolNotRegistered
    else
      let loop := turnLoop c tier workflow.allowedTools env.tool env.api (iterationBudget maxIterations) 0
        [.user userMessage] 0 []
      match loop.ending with
      | .error e => .failed loop.rounds [] e
      | .ok turn =>
        let decision : Decision :=
          { workflowId := workflow.id
            depotId := depotId
            organizationId := organizationId
            toolCalls := turn.toolCalls
            output := turn.output
            disposition := .pending
            humanUserId := auth.userId }
        match env.repo with
        | none => ⟨loop.rounds, [], .ok decision, turn.status⟩
        | some none => ⟨loop.rounds, [decision], .ok decision, turn.status⟩
        | some (some e) => .failed loop.rounds [decision] e

/-! ## `run_qa_turn` -/

def emitFinalAnswerTool : String := "emit_final_answer"

inductive QaStatus where
  | success
  | noTerminator
  | terminatorFailed
  | maxIterations
  deriving DecidableEq, Repr

/-- `int(v)`. -/
def intOf : Json → Except PyError ℤ
  | .bool b => .ok (if b then 1 else 0)
  | .int n => .ok n
  | .float (.finite q) => .ok (if 0 ≤ q then ⌊q⌋ else ⌈q⌉)
  | .float .nan => .error .valueError
  | .float _ => .error .overflowError
  | .str s =>
    if ∀ code ∈ s, Nat.isValidChar code then
      match Text.int (s.map Char.ofNat) with
      | some n => .ok n
      | none => .error .valueError
    else .error .valueError
  | _ => .error .typeError

def countOf (fields : List (PyStr × Json)) (key : String) : Except PyError ℤ :=
  match intOf (((lookup fields (py key)).getD (.int 0)).orElse (.int 0)) with
  | .ok n => .ok n
  | .error .overflowError => .error .overflowError
  | .error _ => .ok 0

def isEmptyResult (toolCalls : List ToolCall) : Except PyError Bool := do
  let selects := toolCalls.filter fun call =>
    (call.name = "run_select_ts" || call.name = "run_select_static") && call.ok
  let counts ← selects.mapM fun call =>
    match call.result with
    | .obj fields => countOf fields "row_count"
    | _ => .ok 0
  return !selects.isEmpty && decide (counts.sum = 0)

def qaToolCall (use : ToolUse) : ToolOutcome → Except Failure ToolCall
  | .returned result =>
    match result with
    | .obj fields =>
      match lookup fields (py "error") with
      | some error =>
        .ok ⟨use.name, use.input, result, false, some (.envelope
          ((((lookup fields (py "error_kind")).getD .null).orElse error).orElse (.str (py "tool error"))))⟩
      | none => .ok ⟨use.name, use.input, result, true, none⟩
    | _ => .ok ⟨use.name, use.input, result, true, none⟩
  | .raises detail => .ok ⟨use.name, use.input, toolFailure use.name detail, false, some (.failure detail)⟩
  | .notRegistered => .error .toolNotRegistered
  | .cancelled => .error .cancelled

/-- What the terminator of a Q&A turn says; the text is the value whose text is kept. -/
structure QaAnswer where
  text : Json
  status : QaStatus
  rowEvidence : ℤ
  emptyResult : Bool
  deriving DecidableEq

def qaAnswer (call : ToolCall) (toolCalls : List ToolCall) : Except PyError QaAnswer :=
  if call.ok then do
    let text ← call.result.get "text" (.str [])
    let rowEvidence ← match call.result with
      | .obj fields => countOf fields "row_evidence"
      | _ => .error .attributeError
    let emptyResult ← isEmptyResult toolCalls
    return ⟨text, .success, rowEvidence, emptyResult⟩
  else .ok ⟨.str [], .terminatorFailed, 0, false⟩

section Qa

variable (allowedTools : List String) (tool : ℕ → ToolOutcome) (onStep : ℕ → Option Failure)

def qaBlocks (iterations : ℕ) : List ToolUse → ℕ → List ToolCall → List ToolResult → BlocksRun QaAnswer
  | [], _, toolCalls, results => ⟨[], toolCalls, .answered results⟩
  | use :: rest, k, toolCalls, results =>
    if use.name ∉ allowedTools then ⟨[], toolCalls, .raised (.toolNotAllowed toolCalls iterations)⟩
    else
      match qaToolCall use (tool k) with
      | .error e => ⟨[use], toolCalls, .raised e⟩
      | .ok call =>
        match onStep toolCalls.length with
        | some e => ⟨[use], toolCalls ++ [call], .raised e⟩
        | none =>
          if use.name = emitFinalAnswerTool then
            match qaAnswer call (toolCalls ++ [call]) with
            | .error e => ⟨[use], toolCalls ++ [call], .raised (.python e)⟩
            | .ok answer => ⟨[use], toolCalls ++ [call], .terminated answer⟩
          else
            (qaBlocks iterations rest (k + 1) (toolCalls ++ [call])
              (results ++ [call.toolResult use.id])).after use

structure QaResult where
  answer : QaAnswer
  toolCalls : List ToolCall
  iterations : ℕ
  inputTokens : ℕ
  outputTokens : ℕ
  deriving DecidableEq

/-- An exception with what is attached to it. -/
structure QaFailure where
  failure : Failure
  toolCalls : Option (List ToolCall)
  iterations : Option ℕ
  inputTokens : Option ℕ
  outputTokens : Option ℕ
  deriving DecidableEq

structure QaTrace where
  rounds : List Round
  result : Except QaFailure QaResult

def attached (failure : Failure) (toolCalls : List ToolCall) (iterations inputTokens outputTokens : ℕ) : QaFailure :=
  ⟨failure, some toolCalls, some iterations, some inputTokens, some outputTokens⟩

def tokensOf (response : Response) : ℕ × ℕ := response.usage.getD (0, 0)

/-- The loop of a Q&A turn with iterations left, after `i` of them. -/
def qaLoop (api : ℕ → Except Failure Response) :
    ℕ → ℕ → List Message → ℕ → List ToolCall → ℕ → ℕ → QaTrace
  | 0, i, _, _, toolCalls, inputTokens, outputTokens =>
    ⟨[], .ok ⟨⟨.str [], .maxIterations, 0, false⟩, toolCalls, i, inputTokens, outputTokens⟩⟩
  | n + 1, i, messages, k, toolCalls, inputTokens, outputTokens =>
    match api i with
    | .error e => ⟨[⟨messages, none, []⟩], .error (attached e toolCalls (i + 1) inputTokens outputTokens)⟩
    | .ok response =>
      let inputTokens := inputTokens + (tokensOf response).1
      let outputTokens := outputTokens + (tokensOf response).2
      match toolUses response.content with
      | [] =>
        ⟨[⟨messages, some response, []⟩],
          .ok ⟨⟨.str (py (textOf response.content)), .noTerminator, 0, false⟩, toolCalls, i + 1, inputTokens,
            outputTokens⟩⟩
      | use :: uses =>
        let blocks := qaBlocks allowedTools tool onStep (i + 1) (use :: uses) k toolCalls []
        let round : Round := ⟨messages, some response, blocks.dispatched⟩
        match blocks.ending with
        | .raised e => ⟨[round], .error (attached e blocks.toolCalls (i + 1) inputTokens outputTokens)⟩
        | .terminated answer =>
          ⟨[round], .ok ⟨answer, blocks.toolCalls, i + 1, inputTokens, outputTokens⟩⟩
        | .answered results =>
          let later := qaLoop api n (i + 1) (messages ++ [.assistant response.content, .toolResults results])
            (k + blocks.dispatched.length) blocks.toolCalls inputTokens outputTokens
          ⟨round :: later.rounds, later.result⟩

end Qa

/-- What surrounds a Q&A turn; the callback of each step may raise. -/
structure QaEnv where
  api : ℕ → Except Failure Response
  tool : ℕ → ToolOutcome
  onStep : ℕ → Option Failure
  registered : List String

structure HistoryTurn where
  byUser : Bool
  content : String

def HistoryTurn.message (turn : HistoryTurn) : Message :=
  if turn.byUser then .user turn.content else .reply turn.content

/-- An exception before the loop. -/
def QaTrace.failed (failure : Failure) : QaTrace := ⟨[], .error ⟨failure, none, none, none, none⟩⟩

def runQaTurn (env : QaEnv) (maxIterations : ℤ) (allowedTools : List String) (history : List HistoryTurn)
    (userMessage : String) : QaTrace :=
  if emitFinalAnswerTool ∉ allowedTools then .failed .workflowRuntimeError
  else if ¬ ∀ name ∈ allowedTools, name ∈ env.registered then .failed .toolNotRegistered
  else
    qaLoop allowedTools env.tool env.onStep env.api (iterationBudget maxIterations) 0
      (history.map HistoryTurn.message ++ [.user userMessage]) 0 [] 0 0

/-- The token totals of a turn, as its caller reads them off its result or its exception. -/
def QaTrace.reportedTokens (t : QaTrace) : ℕ × ℕ :=
  match t.result with
  | .ok result => (result.inputTokens, result.outputTokens)
  | .error e => (e.inputTokens.getD 0, e.outputTokens.getD 0)

end FavoniusBackend.Agent.ToolLoops
