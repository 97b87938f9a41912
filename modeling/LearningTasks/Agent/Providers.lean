import LearningTasks.Agent.Planning

namespace LearningTasks.Agent.Providers

open Library.Strings Library.Serialization Agent.Schemas Tools
open Planning (ProviderError ProviderUsage)

/-- The pattern `^[a-z][a-z0-9_]{0,63}$`. -/
def isToolName : Text → Bool
  | [] => false
  | c :: s => ('a' ≤ c && c ≤ 'z') && s.length ≤ 63 &&
      s.all fun d ↦ ('a' ≤ d && d ≤ 'z') || d.isDigit || d == '_'

abbrev ToolName := { s : Text // isToolName s = true }

structure ProviderToolCall where
  callId : Text
  name : ToolName
  arguments : Fields
  bounds : 1 ≤ callId.length ∧ callId.length ≤ 200

structure ProviderResponse where
  outputText : Option Text
  toolCalls : List ProviderToolCall
  usage : ProviderUsage
  bounds : ∀ t ∈ outputText, 1 ≤ t.length ∧ t.length ≤ 100000
  output : outputText.isSome = true ∨ toolCalls ≠ []

/-- A chunk holds exactly one value. -/
inductive ProviderStreamChunk
  | delta (text : Text) (bounds : 1 ≤ text.length ∧ text.length ≤ 20000)
  | response (response : ProviderResponse)

def maxPromptInputCharacters : ℕ := 20000

/-- A prompt without its instructions, which are the same in all of them. -/
structure VersionedPrompt where
  version : Text
  input : Text
  versionBounds : 1 ≤ version.length ∧ version.length ≤ 100
  inputBounds : 1 ≤ input.length ∧ input.length ≤ maxPromptInputCharacters

/-- A request for a `PlanningResult`; a tool definition is given by its name. -/
structure ProviderRequest where
  model : Text
  promptVersion : Text
  input : Text
  tools : List Text
  modelBounds : 1 ≤ model.length ∧ model.length ≤ 200
  versionBounds : 1 ≤ promptVersion.length ∧ promptVersion.length ≤ 100
  inputBounds : 1 ≤ input.length ∧ input.length ≤ 20000
  toolsBound : tools.length ≤ 20

def studyPlanHeader : Text := "Untrusted user goal JSON:\n".toList

def studyPlanInput (goal : PlanningGoal) : Text := studyPlanHeader ++ dumps goal.dump

theorem studyPlanInput_length (goal : PlanningGoal) :
    (studyPlanInput goal).length = 26 + (dumps goal.dump).length := by
  have h : studyPlanHeader.length = 26 := by decide
  rw [studyPlanInput, List.length_append, h]

theorem studyPlanInput_pos (goal : PlanningGoal) : 1 ≤ (studyPlanInput goal).length := by
  rw [studyPlanInput_length]
  omega

/-- `build_study_plan_prompt`; a goal with many characters to escape outgrows the prompt. -/
def buildStudyPlanPrompt (goal : PlanningGoal) : Option VersionedPrompt :=
  if h : (studyPlanInput goal).length ≤ maxPromptInputCharacters then
    some {
      version := studyPlanPromptVersion
      input := studyPlanInput goal
      versionBounds := by decide
      inputBounds := ⟨studyPlanInput_pos goal, h⟩ }
  else none

def readToolNames : List Text :=
  ["list_projects".toList, "list_tasks".toList, "search_knowledge".toList]

def writeToolNames : List Text :=
  ["create_task".toList, "update_task".toList, "batch_create_tasks".toList, "delete_task".toList]

def availableToolDefinitions (context : AgentRuntimeContext) : List Text :=
  if context.writeToolsEnabled then readToolNames ++ writeToolNames else readToolNames

theorem availableToolDefinitions_length (context : AgentRuntimeContext) :
    (availableToolDefinitions context).length ≤ 20 := by
  unfold availableToolDefinitions
  split <;> decide

abbrev ModelProvider (σ : Type) :=
  ProviderRequest → σ → Except ProviderError ProviderResponse × σ

/-- What a stream has given when it ends, and the error that ended it, if any. -/
structure ProviderStream where
  chunks : List ProviderStreamChunk
  failure : Option ProviderError

abbrev StreamingModelProvider (σ : Type) := ProviderRequest → σ → ProviderStream × σ

def readChunk : Option ProviderResponse × List Text → ProviderStreamChunk →
    Option ProviderResponse × List Text
  | (response, parts), .delta text _ => (response, parts ++ [text])
  | (_, parts), .response response => (some response, parts)

def readChunks (chunks : List ProviderStreamChunk) : Option ProviderResponse × List Text :=
  chunks.foldl readChunk (none, [])

variable {σ : Type}

/-- A stream shows what the blocking call returns, with deltas that make up its
text where there are any, and fails where the call does. -/
structure Streams (provider : ModelProvider σ) (streaming : StreamingModelProvider σ) : Prop where
  world : ∀ request w, (streaming request w).2 = (provider request w).2
  response : ∀ request w r, (provider request w).1 = .ok r →
    (streaming request w).1.failure = none ∧ ∃ parts,
      readChunks (streaming request w).1.chunks = (some r, parts) ∧
        (parts ≠ [] → r.outputText = some parts.flatten)
  failure : ∀ request w e, (provider request w).1 = .error e →
    (streaming request w).1.failure = some e

theorem buildStudyPlanPrompt_isSome (goal : PlanningGoal) :
    (buildStudyPlanPrompt goal).isSome = true ↔
      (studyPlanInput goal).length ≤ maxPromptInputCharacters := by
  unfold buildStudyPlanPrompt
  split
  · next h => simp only [Option.isSome_some, h]
  · next h => simp only [Option.isSome_none, Bool.false_eq_true, h]

end LearningTasks.Agent.Providers
