import LearningTasks.Agent.Events
import LearningTasks.Agent.LoopLimits

namespace LearningTasks.Agent.ProviderAdapter

open Library.Strings Library.Serialization Library.Rounds Schemas.Scalars Agent.Schemas State Tools
  Providers Loop Events
open Planning (ProviderError ProviderUsage)

/-- The exceptions that the adapter tells apart. -/
inductive Raised
  | provider (error : ProviderError)
  | apiTimeout
  | authentication
  | permissionDenied
  | apiConnection
  | rateLimit
  | apiStatus (statusCode : ℕ)
  | typeError
  | jsonDecode
  | valueError
  | other

def raiseNormalizedProviderError : Raised → ProviderError
  | .provider error => error
  | .apiTimeout => .timeout
  | .authentication => .authentication
  | .permissionDenied => .permission
  | .apiConnection | .rateLimit => .transient
  | .apiStatus statusCode =>
    if statusCode ∈ [408, 409, 429] ∨ 500 ≤ statusCode then .transient else .other
  | .typeError | .jsonDecode | .valueError | .other => .other

structure RawItem where
  type : Option Json
  callId : Option Json
  name : Option Json
  arguments : Option Json

structure RawUsage where
  inputTokens : Option Json
  outputTokens : Option Json
  totalTokens : Option Json

structure RawResponse where
  outputText : Option Json
  output : List RawItem
  usage : Option RawUsage

structure RawEvent where
  type : Option Json
  delta : Option Json

/-- A stream of events, what it ends with, and the world when it is closed: at its end, or
after some of the events. -/
structure RawStream (σ : Type) where
  events : List RawEvent
  ended : Except Raised RawResponse
  finished : σ
  abandoned : ℕ → σ

/-- The OpenAI SDK, with the parsers of the standard library and of pydantic. -/
structure Sdk (κ σ : Type) where
  coercions : Coercions
  loads : Text → Except Raised Json
  clientFactory : Text → κ
  create : κ → Fields → σ → Except Raised RawResponse × σ
  stream : κ → Fields → σ → RawStream σ

variable {κ σ : Type}

def counter (c : Coercions) : Option Json → Option (Option ℕ)
  | none | some .null => some none
  | some j =>
    match c.int j with
    | some (.ofNat n) => some (some n)
    | _ => none

def normalizeUsage (c : Coercions) : Option RawUsage → Option ProviderUsage
  | none => some ⟨none, none, none⟩
  | some usage => do
    let inputTokens ← counter c usage.inputTokens
    let outputTokens ← counter c usage.outputTokens
    let totalTokens ← counter c usage.totalTokens
    some ⟨inputTokens, outputTokens, totalTokens⟩

def isText (expected : Text) : Option Json → Bool
  | some (.str s) => s = expected
  | _ => false

/-- `ProviderToolCall`, whose validation may fail. -/
def providerToolCall (callId name : Json) (arguments : Fields) : Option ProviderToolCall :=
  match callId, name with
  | .str callId, .str name =>
    if h : (1 ≤ callId.length ∧ callId.length ≤ 200) ∧ isToolName name = true then
      some ⟨callId, ⟨name, h.2⟩, arguments, h.1⟩
    else none
  | _, _ => none

def normalizeToolCall (loads : Text → Except Raised Json) (item : RawItem) :
    Except Raised ProviderToolCall :=
  match item.arguments.getD (.str []) with
  | .str rawArguments =>
    match loads rawArguments with
    | .error .typeError | .error .jsonDecode => .error (.provider .invalidResponse)
    | .error e => .error e
    | .ok (.obj arguments) =>
      match providerToolCall (item.callId.getD (.str [])) (item.name.getD (.str [])) arguments with
      | some call => .ok call
      | none => .error .valueError
    | .ok _ => .error (.provider .invalidResponse)
  | _ => .error (.provider .invalidResponse)

def normalizeToolCalls (loads : Text → Except Raised Json) :
    List RawItem → Except Raised (List ProviderToolCall)
  | [] => .ok []
  | item :: items =>
    if isText "function_call".toList item.type then
      match normalizeToolCall loads item with
      | .error e => .error e
      | .ok call => (normalizeToolCalls loads items).map (call :: ·)
    else normalizeToolCalls loads items

/-- A text attribute that is not there, is `None` or is a string. -/
def textOf : Option Json → Option (Option Text)
  | none | some .null => some none
  | some (.str s) => some (some s)
  | some _ => none

def rejected : Raised → Raised
  | .typeError | .jsonDecode | .valueError => .provider .invalidResponse
  | e => e

def normalizeResponse (sdk : Sdk κ σ) (raw : RawResponse) : Except Raised ProviderResponse :=
  match textOf raw.outputText with
  | none => .error (.provider .invalidResponse)
  | some text =>
    let outputText := text.filter fun s ↦ strip s ≠ []
    match normalizeToolCalls sdk.loads raw.output with
    | .error e => .error (rejected e)
    | .ok toolCalls =>
      if ho : outputText.isSome = true ∨ toolCalls ≠ [] then
        match normalizeUsage sdk.coercions raw.usage with
        | none => .error (.provider .invalidResponse)
        | some usage =>
          if hb : ∀ t ∈ outputText, 1 ≤ t.length ∧ t.length ≤ 100000 then
            .ok ⟨outputText, toolCalls, usage, hb, ho⟩
          else .error (.provider .invalidResponse)
      else .error (.provider .invalidResponse)

/-- What all requests for a plan have in common, with the description and the schema of
each tool. -/
structure RequestConstants where
  instructions : Text
  outputSchemaName : Text
  outputSchema : Json
  tool : Text → Text × Json

def toolParameters (constants : RequestConstants) (name : Text) : Json :=
  .obj [("type".toList, .str "function".toList), ("name".toList, .str name),
    ("description".toList, .str (constants.tool name).1),
    ("parameters".toList, (constants.tool name).2), ("strict".toList, .bool true)]

def providerParameters (constants : RequestConstants) (request : ProviderRequest) : Fields :=
  [("model".toList, .str request.model),
    ("instructions".toList, .str constants.instructions),
    ("input".toList, .str request.input),
    ("parallel_tool_calls".toList, .bool false),
    ("store".toList, .bool false),
    ("text".toList, .obj [("format".toList, .obj [("type".toList, .str "json_schema".toList),
      ("name".toList, .str constants.outputSchemaName),
      ("schema".toList, constants.outputSchema), ("strict".toList, .bool true)])])] ++
  if request.tools = [] then []
  else [("tools".toList, .arr (request.tools.map (toolParameters constants)))]

/-- The client that the adapter has made, if any, in the world outside. -/
structure Session (κ σ : Type) where
  client : Option κ
  outside : σ

structure OpenAIProvider (κ σ : Type) where
  sdk : Sdk κ σ
  apiKey : Option Text
  constants : RequestConstants

namespace OpenAIProvider

variable (p : OpenAIProvider κ σ)

/-- The client is made when it is first needed. -/
def getClient (s : Session κ σ) : Except ProviderError (κ × Session κ σ) :=
  match p.apiKey with
  | none => .error .configuration
  | some apiKey =>
    let client := s.client.getD (p.sdk.clientFactory apiKey)
    .ok (client, { s with client := some client })

def generate : ModelProvider (Session κ σ) := fun request s ↦
  match p.getClient s with
  | .error e => (.error e, s)
  | .ok (client, s) =>
    let created := p.sdk.create client (providerParameters p.constants request) s.outside
    (match created.1 with
      | .error e => .error (raiseNormalizedProviderError e)
      | .ok raw =>
        match normalizeResponse p.sdk raw with
        | .error e => .error (raiseNormalizedProviderError e)
        | .ok response => .ok response, { s with outside := created.2 })

end OpenAIProvider

def RawEvent.text (event : RawEvent) : Option Text :=
  if isText "response.output_text.delta".toList event.type then
    match event.delta with
    | some (.str (c :: s)) => some (c :: s)
    | _ => none
  else none

/-- The last chunk, or what is raised in its place. -/
def lastChunk (sdk : Sdk κ σ) (ended : Except Raised RawResponse) : ProviderStream :=
  match ended with
  | .error e => ⟨[], some (raiseNormalizedProviderError e)⟩
  | .ok raw =>
    match normalizeResponse sdk raw with
    | .error e => ⟨[], some (raiseNormalizedProviderError e)⟩
    | .ok response => ⟨[.response response], none⟩

/-- `chunks`, which leaves the stream at a delta that no chunk can hold. -/
def chunks (abandoned : ℕ → σ) (last : ProviderStream × σ) : ℕ → List RawEvent →
    ProviderStream × σ
  | _, [] => last
  | n, event :: events =>
    match event.text with
    | none => chunks abandoned last (n + 1) events
    | some delta =>
      if h : 1 ≤ delta.length ∧ delta.length ≤ 20000 then
        let rest := chunks abandoned last (n + 1) events
        (⟨.delta delta h :: rest.1.chunks, rest.1.failure⟩, rest.2)
      else (⟨[], some (raiseNormalizedProviderError .valueError)⟩, abandoned (n + 1))

def OpenAIProvider.stream (p : OpenAIProvider κ σ) : StreamingModelProvider (Session κ σ) :=
  fun request s ↦
    match p.getClient s with
    | .error e => (⟨[], some e⟩, s)
    | .ok (client, s) =>
      let raw := p.sdk.stream client (providerParameters p.constants request) s.outside
      let streamed := chunks raw.abandoned (lastChunk p.sdk raw.ended, raw.finished) 0 raw.events
      (streamed.1, { s with outside := streamed.2 })

def RawStream.deltas (raw : RawStream σ) : List Text := raw.events.filterMap RawEvent.text

/-- A stream ends with what `create` returns or raises, and its deltas make up the text. -/
structure Faithful (sdk : Sdk κ σ) : Prop where
  ended : ∀ client parameters w,
    (sdk.stream client parameters w).ended = (sdk.create client parameters w).1
  finished : ∀ client parameters w,
    (sdk.stream client parameters w).finished = (sdk.create client parameters w).2
  text : ∀ client parameters w raw text, (sdk.stream client parameters w).ended = .ok raw →
    textOf raw.outputText = some text →
    (sdk.stream client parameters w).deltas.flatten = text.getD []

/-- A stream whose deltas fit into chunks and, if there are any, are not blank. -/
structure Steady (raw : RawStream σ) : Prop where
  short : ∀ delta ∈ raw.deltas, delta.length ≤ 20000
  shown : raw.ended.toBool = true → raw.deltas ≠ [] → strip raw.deltas.flatten ≠ []

theorem RawEvent.text_pos {event : RawEvent} {delta : Text} (h : event.text = some delta) :
    1 ≤ delta.length := by
  unfold RawEvent.text at h
  split at h
  · split at h
    · cases h
      exact Nat.le_add_left 1 _
    · cases h
  · cases h

theorem chunks_of_short (abandoned : ℕ → σ) (last : ProviderStream × σ) (n : ℕ)
    {events : List RawEvent}
    (h : ∀ delta ∈ events.filterMap RawEvent.text, delta.length ≤ 20000) :
    (chunks abandoned last n events).2 = last.2 ∧
      (chunks abandoned last n events).1.failure = last.1.failure ∧
      ∀ acc, (chunks abandoned last n events).1.chunks.foldl readChunk acc =
        last.1.chunks.foldl readChunk
          (acc.1, acc.2 ++ events.filterMap RawEvent.text) := by
  induction events generalizing n with
  | nil =>
    refine ⟨rfl, rfl, fun acc ↦ ?_⟩
    rw [List.filterMap_nil, List.append_nil]
    rfl
  | cons event events ih =>
    cases ht : event.text with
    | none =>
      rw [List.filterMap_cons_none ht] at h ⊢
      simpa only [chunks, ht] using ih (n + 1) h
    | some delta =>
      rw [List.filterMap_cons_some ht] at h ⊢
      obtain ⟨hw, hf, hc⟩ := ih (n + 1) fun d hd ↦ h d (List.mem_cons_of_mem _ hd)
      have hb : 1 ≤ delta.length ∧ delta.length ≤ 20000 :=
        ⟨event.text_pos ht, h delta List.mem_cons_self⟩
      simp only [chunks, ht, dif_pos hb]
      refine ⟨hw, hf, fun acc ↦ ?_⟩
      rw [List.foldl_cons, hc]
      simp only [readChunk, List.append_assoc, List.singleton_append]

theorem chunks_of_long {abandoned : ℕ → σ} {last : ProviderStream × σ} {n : ℕ}
    {events : List RawEvent} {delta : Text} (hd : delta ∈ events.filterMap RawEvent.text)
    (hlong : ¬ delta.length ≤ 20000) :
    (chunks abandoned last n events).1.failure = some .other := by
  induction events generalizing n with
  | nil => cases hd
  | cons event events ih =>
    cases ht : event.text with
    | none =>
      rw [List.filterMap_cons_none ht] at hd
      simpa only [chunks, ht] using ih hd
    | some d =>
      rw [List.filterMap_cons_some ht] at hd
      simp only [chunks, ht]
      split
      · next hb =>
        rcases List.mem_cons.mp hd with rfl | hd
        · exact absurd hb.2 hlong
        · exact ih hd
      · rfl

theorem normalizeResponse_text {sdk : Sdk κ σ} {raw : RawResponse} {response : ProviderResponse}
    (h : normalizeResponse sdk raw = .ok response) : ∃ text, textOf raw.outputText = some text ∧
      response.outputText = text.filter fun s ↦ strip s ≠ [] := by
  unfold normalizeResponse at h
  split at h
  · cases h
  · next text ht =>
    refine ⟨text, ht, ?_⟩
    dsimp only at h
    repeat' split at h
    all_goals cases h
    rfl

theorem receive_ok_iff {stream : ProviderStream} {response : ProviderResponse} :
    receive stream = .ok response ↔ stream.failure = none ∧
      ∃ parts, readChunks stream.chunks = (some response, parts) ∧
        (parts ≠ [] → response.outputText = some parts.flatten) := by
  unfold receive
  cases hf : stream.failure with
  | some e => simp
  | none =>
    cases hr : readChunks stream.chunks with
    | mk final parts =>
      cases final with
      | none => simp
      | some r =>
        dsimp only
        split
        · next hn =>
          constructor
          · intro h
            cases h
          · rintro ⟨-, _, heq, htext⟩
            cases heq
            exact absurd (htext hn.1) hn.2
        · next hn =>
          rw [not_and, not_not] at hn
          constructor
          · intro h
            cases h
            exact ⟨rfl, parts, rfl, hn⟩
          · rintro ⟨-, _, heq, -⟩
            cases heq
            rfl

theorem receive_chunks {sdk : Sdk κ σ} {raw : RawStream σ} {response : ProviderResponse} :
    receive (chunks raw.abandoned (lastChunk sdk raw.ended, raw.finished) 0 raw.events).1 =
        .ok response ↔
      (∀ delta ∈ raw.deltas, delta.length ≤ 20000) ∧
      (∃ final, raw.ended = .ok final ∧ normalizeResponse sdk final = .ok response) ∧
      (raw.deltas ≠ [] → response.outputText = some raw.deltas.flatten) := by
  rw [receive_ok_iff]
  by_cases hshort : ∀ delta ∈ raw.deltas, delta.length ≤ 20000
  · obtain ⟨-, hfailure, hchunks⟩ := chunks_of_short raw.abandoned
      (lastChunk sdk raw.ended, raw.finished) 0 hshort
    rw [hfailure, readChunks, hchunks]
    change _ ∧ (∃ parts, List.foldl readChunk (none, [] ++ raw.deltas) _ = _ ∧ _) ↔ _
    rw [List.nil_append]
    cases hended : raw.ended with
    | error e => simp [lastChunk]
    | ok final =>
      cases hn : normalizeResponse sdk final with
      | error e => simp [lastChunk, hn]
      | ok r =>
        simp only [lastChunk, hn, List.foldl_cons, List.foldl_nil, readChunk]
        constructor
        · rintro ⟨-, _, heq, htext⟩
          cases heq
          exact ⟨hshort, ⟨final, rfl, hn⟩, htext⟩
        · rintro ⟨-, ⟨_, heq, hn'⟩, htext⟩
          cases heq
          cases hn.symm.trans hn'
          exact ⟨trivial, raw.deltas, rfl, htext⟩
  · constructor
    · rintro ⟨hfailure, -⟩
      simp only [not_forall] at hshort
      obtain ⟨delta, hd, hlong⟩ := hshort
      rw [chunks_of_long hd hlong] at hfailure
      cases hfailure
    · rintro ⟨h, -⟩
      exact absurd h hshort

/-- The stream of a request is steady, if there is a key to ask for it with. -/
def OpenAIProvider.SteadyAt (p : OpenAIProvider κ σ) (request : ProviderRequest)
    (s : Session κ σ) : Prop :=
  ∀ client t, p.getClient s = .ok (client, t) →
    Steady (p.sdk.stream client (providerParameters p.constants request) t.outside)

section Adapter

variable {p : OpenAIProvider κ σ} {request : ProviderRequest} {s : Session κ σ}
  {response : ProviderResponse}

theorem deltas_flatten {raw : RawStream σ} (h : raw.deltas ≠ []) : raw.deltas.flatten ≠ [] := by
  obtain ⟨delta, hd⟩ := List.exists_mem_of_ne_nil _ h
  obtain ⟨event, -, ht⟩ := List.mem_filterMap.mp hd
  intro hnil
  have hpos := event.text_pos ht
  rw [List.flatten_eq_nil_iff.mp hnil delta hd] at hpos
  cases hpos

theorem outputText_iff {sdk : Sdk κ σ} (hsdk : Faithful sdk) {client : κ} {parameters : Fields}
    {w : σ} {final : RawResponse} (hended : (sdk.stream client parameters w).ended = .ok final)
    (hn : normalizeResponse sdk final = .ok response)
    (hd : (sdk.stream client parameters w).deltas ≠ []) :
    response.outputText = some (sdk.stream client parameters w).deltas.flatten ↔
      strip (sdk.stream client parameters w).deltas.flatten ≠ [] := by
  obtain ⟨text, htext, hout⟩ := normalizeResponse_text hn
  have hflat := hsdk.text client parameters w final text hended htext
  have hne := deltas_flatten hd
  rw [hout]
  cases text with
  | none => exact absurd hflat hne
  | some text =>
    rw [hflat, Option.getD_some, Option.filter_some]
    split
    · next h => simpa using h
    · next h => simpa using h

theorem generate_ok (h : (p.generate request s).1 = .ok response) : ∃ client t final,
    p.getClient s = .ok (client, t) ∧
    (p.sdk.create client (providerParameters p.constants request) t.outside).1 = .ok final ∧
    normalizeResponse p.sdk final = .ok response := by
  unfold OpenAIProvider.generate at h
  cases hc : p.getClient s with
  | error e =>
    rw [hc] at h
    cases h
  | ok found =>
    obtain ⟨client, t⟩ := found
    simp only [hc] at h
    split at h
    · cases h
    · next final hcreate =>
      split at h
      · cases h
      · next hn =>
        cases h
        exact ⟨client, t, final, rfl, hcreate, hn⟩

theorem stream_eq {client : κ} {t : Session κ σ} (hc : p.getClient s = .ok (client, t)) :
    p.stream request s =
      let raw := p.sdk.stream client (providerParameters p.constants request) t.outside
      let streamed := chunks raw.abandoned (lastChunk p.sdk raw.ended, raw.finished) 0 raw.events
      (streamed.1, { t with outside := streamed.2 }) := by
  simp only [OpenAIProvider.stream, hc]

theorem generate_of_receive (hsdk : Faithful p.sdk)
    (h : receive (p.stream request s).1 = .ok response) :
    p.generate request s = (.ok response, (p.stream request s).2) := by
  cases hc : p.getClient s with
  | error e =>
    unfold OpenAIProvider.stream at h
    rw [hc] at h
    cases h
  | ok found =>
    obtain ⟨client, t⟩ := found
    rw [stream_eq hc] at h ⊢
    obtain ⟨hshort, ⟨final, hended, hn⟩, -⟩ := receive_chunks.mp h
    rw [hsdk.ended] at hended
    dsimp only
    rw [(chunks_of_short _ _ _ hshort).1, hsdk.finished]
    simp only [OpenAIProvider.generate, hc, hended, hn]

theorem receive_iff_steady (hsdk : Faithful p.sdk)
    (h : (p.generate request s).1 = .ok response) :
    receive (p.stream request s).1 = .ok response ↔ p.SteadyAt request s := by
  obtain ⟨client, t, final, hc, hcreate, hn⟩ := generate_ok h
  have hended := (hsdk.ended client (providerParameters p.constants request) t.outside).trans
    hcreate
  rw [stream_eq hc]
  dsimp only
  rw [receive_chunks]
  constructor
  · rintro ⟨hshort, -, htext⟩ _ _ heq
    cases hc.symm.trans heq
    exact ⟨hshort, fun _ hd ↦ (outputText_iff hsdk hended hn hd).mp (htext hd)⟩
  · intro hsteady
    obtain ⟨hshort, hshown⟩ := hsteady client t hc
    refine ⟨hshort, ⟨final, hended, hn⟩, fun hd ↦ ?_⟩
    exact (outputText_iff hsdk hended hn hd).mpr (hshown (by rw [hended]; rfl) hd)

theorem streams_of_steady (hsdk : Faithful p.sdk)
    (hsteady : ∀ request s, p.SteadyAt request s) : Streams p.generate p.stream where
  world request s := by
    unfold OpenAIProvider.generate OpenAIProvider.stream
    cases hc : p.getClient s with
    | error e => rfl
    | ok found =>
      have hshort := (hsteady request s _ _ hc).short
      simp only [(chunks_of_short _ _ _ hshort).1, hsdk.finished]
  response request s r h := receive_ok_iff.mp ((receive_iff_steady hsdk h).mpr (hsteady request s))
  failure request s e h := by
    unfold OpenAIProvider.generate at h
    unfold OpenAIProvider.stream
    cases hc : p.getClient s with
    | error e' =>
      rw [hc] at h
      cases h
      rfl
    | ok found =>
      obtain ⟨client, t⟩ := found
      have hshort := (hsteady request s _ _ hc).short
      simp only [hc, ← hsdk.ended] at h ⊢
      rw [(chunks_of_short _ _ _ hshort).2.1]
      dsimp only at h ⊢
      cases hended : (p.sdk.stream client (providerParameters p.constants request)
          t.outside).ended with
      | error e' =>
        rw [hended] at h
        cases h
        rfl
      | ok final =>
        simp only [hended] at h
        cases hn : normalizeResponse p.sdk final with
        | error e' =>
          rw [hn] at h
          cases h
          simp only [lastChunk, hn]
        | ok r =>
          rw [hn] at h
          cases h

end Adapter

section Runs

variable {ω R τ ι : Type} [LinearOrder τ]

omit [LinearOrder τ] in
theorem runCalls_dispatched (host : LoopHost ω R τ) (observers : ToolObservers ι)
    (calls : List ProviderToolCall) (run : Run ω τ ι) :
    run.world.dispatched <+: (runCalls host observers calls run).2.world.dispatched := by
  induction calls generalizing run with
  | nil => exact List.prefix_rfl
  | cons call calls ih =>
    have hcall := LoopLimits.runCall_outcome host observers call run
    unfold runCalls
    generalize runCall host observers call run = x at hcall
    cases hcall with
    | failed e run' progress =>
      dsimp only
      rw [progress.dispatched]
      exact List.prefix_append _ _
    | completed c run' same progress chars bound observed =>
      refine List.IsPrefix.trans ?_ (ih run')
      rw [progress.dispatched]
      exact List.prefix_append _ _

theorem metrics_dispatched (host : LoopHost ω R τ) (outcome : AgentRunOutcome)
    (run : Run ω τ ι) : (metrics host outcome run).2.world.dispatched = run.world.dispatched := by
  unfold metrics
  split <;> rfl

theorem finish_dispatched (host : LoopHost ω R τ) (text : Text) (run : Run ω τ ι) :
    (finish host text run).2.world.dispatched = run.world.dispatched := by
  unfold finish
  split
  · rfl
  · split
    · rfl
    · have hm := metrics_dispatched host .succeeded run
      split
      all_goals
        next hx =>
        rw [hx] at hm
        exact hm

theorem acceptResponse_dispatched (host : LoopHost ω R τ) (observers : ToolObservers ι)
    (response : ProviderResponse) (run : Run ω τ ι) :
    run.world.dispatched <+: (acceptResponse host observers response run).2.world.dispatched := by
  unfold acceptResponse
  split
  · next text _ _ =>
    have hf := finish_dispatched host text (run.addUsage response.usage)
    split
    all_goals
      next hx =>
      rw [hx] at hf
      exact hf ▸ List.prefix_rfl
  · exact List.prefix_rfl
  · have hb : run.world.dispatched <+:
        (acceptBatch host observers response.toolCalls
          (run.addUsage response.usage)).2.world.dispatched := by
      unfold acceptBatch
      split
      · exact runCalls_dispatched host observers response.toolCalls
          ((run.addUsage response.usage).seeCalls response.toolCalls)
      · exact List.prefix_rfl
    split
    all_goals
      next hx =>
      rw [hx] at hb
      exact hb

theorem runRound_dispatched (host : LoopHost ω R τ) (provider : ModelProvider ω)
    (run : Run ω τ Unit) :
    run.world.dispatched <+: (runRound host provider run).state.world.dispatched := by
  have hn := nextRequest_state host run
  unfold runRound
  cases hx : nextRequest host run with
  | mk r run₁ =>
    rw [hx] at hn
    have hsame : run₁.world.dispatched = run.world.dispatched := by
      rcases hn with rfl | rfl <;> rfl
    cases r with
    | error e => exact hsame ▸ List.prefix_rfl
    | ok request =>
      dsimp only
      unfold generateSafely
      cases provider request run₁.world.outside with
      | mk r w =>
        cases r with
        | error e => exact hsame ▸ List.prefix_rfl
        | ok response =>
          have ha := acceptResponse_dispatched host noObservers response (run₁.moveTo w)
          rw [← hsame]
          dsimp only
          cases hr : acceptResponse host noObservers response (run₁.moveTo w) with
          | mk r run₂ =>
            rw [hr] at ha
            rcases r with e | _ | execution <;> exact ha

theorem failRun_dispatched (host : LoopHost ω R τ) (clock : ℕ → Datetime) (t : StreamState ω τ) :
    (failRun host clock t).world.dispatched = t.run.world.dispatched := by
  have hm := metrics_dispatched host .failed t.run
  unfold failRun
  split
  all_goals
    next hx =>
    rw [hx] at hm
    exact hm

theorem failRun_not_ready (host : LoopHost ω R τ) (clock : ℕ → Datetime) (t : StreamState ω τ)
    (result : PlanningResult) : ¬ EndsReady (failRun host clock t) result := by
  unfold failRun
  split
  · rintro ⟨hraised, -⟩
    cases hraised
  · exact EndsFailed.not_ready ⟨rfl, _, getLast?_yield clock _ _, rfl⟩ result

variable {p : OpenAIProvider κ σ}

/-- A streamed run that gives up while the plain one may go on. -/
def Quit (run : Run ω τ Unit) (t : StreamState ω τ) : Prop :=
  t.run.world.dispatched = run.world.dispatched

omit [LinearOrder τ] in
theorem streamResponse_until (hsdk : Faithful p.sdk)
    (request : ProviderRequest) (run : Run (Session κ σ) τ Transitions) :
    (∃ response run', streamResponse p.stream request run = (.ok response, run') ∧
      generateSafely p.generate request run.silent = (.ok response, run'.silent)) ∨
    ∃ e run', streamResponse p.stream request run = (.error e, run') ∧
      run'.world.dispatched = run.world.dispatched := by
  cases hr : receive (p.stream request run.world.outside).1 with
  | error e => exact .inr ⟨e, _, Prod.ext hr rfl, rfl⟩
  | ok response =>
    refine .inl ⟨response, _, Prod.ext hr rfl, ?_⟩
    have hg : p.generate request run.silent.world.outside = _ := generate_of_receive hsdk hr
    rw [generateSafely, hg]
    rfl

/-- The streamed run takes each turn as the plain one does, or gives up. -/
theorem rounds_until (host : LoopHost (Session κ σ) R τ) (hsdk : Faithful p.sdk)
    (clock : ℕ → Datetime) (goal : PlanningGoal) (run : Run (Session κ σ) τ Unit)
    (t : StreamState (Session κ σ) τ) (h : Matched host goal run t) :
    Round.Rel (Matched host goal) Finished (Matched host goal) (runRound host p.generate run)
        (streamRound host p.stream clock t) ∨
      ∃ e t', streamRound host p.stream clock t = .failed e t' ∧ Quit run t' := by
  have hrun := h.run
  subst hrun
  unfold runRound streamRound
  rw [nextRequest_silent]
  cases hn : nextRequest host t.run with
  | mk r run₁ =>
    rcases r with e | request
    · right
      have hstate : run₁ = t.run ∨ run₁ = t.run.countRound := by
        simpa only [hn] using nextRequest_state host t.run
      refine ⟨e, _, rfl, ?_⟩
      rcases hstate with rfl | rfl <;> rfl
    · obtain ⟨-, rfl⟩ := nextRequest_ok hn
      simp only [Prod.map_apply, id_eq]
      have hk : Kept t.run.countRound (streamResponse p.stream request t.run.countRound).2 :=
        ⟨rfl, rfl, rfl⟩
      rcases streamResponse_until hsdk request t.run.countRound with
        ⟨response, run₂, hr, hg⟩ | ⟨e, run₂, hr, hd⟩
      · left
        rw [hr] at hk
        simp only [hr, hg]
        exact accept_matches host clock goal response ⟨run₂, t.out.yield clock modelStarted⟩
          (h.moved hk.goal hk.startedAt _)
      · right
        simp only [hr]
        exact ⟨e, _, rfl, hd⟩

theorem streamed_until (host : LoopHost (Session κ σ) R τ) (hsdk : Faithful p.sdk)
    (clock : ℕ → Datetime) (goal : GoalInput) (w : Session κ σ) :
    (streamAgent host p.stream clock goal w).world.dispatched <+:
        (runAgent host p.generate goal w).2.dispatched ∧
      ∀ result, EndsReady (streamAgent host p.stream clock goal w) result →
        ∃ execution, (runAgent host p.generate goal w).1 = .ok execution ∧
          execution.result = result := by
  unfold runAgent streamAgent
  cases hv : goal.modelValidate with
  | none =>
    simp only [start, hv]
    refine ⟨List.prefix_rfl, fun result hready ↦ absurd hready (EndsFailed.not_ready ?_ result)⟩
    exact ⟨rfl, _, getLast?_yield clock _ _, rfl⟩
  | some g =>
    simp only [start, hv]
    have ht := (loop host p.generate).lockstep_until (streamLoop host p.stream clock)
      (rounds_until host hsdk clock g)
      (show Matched host g ⟨⟨g, host.now 0, [], 0, [], [], 0, []⟩, ⟨w, 1, []⟩, ()⟩
        ⟨⟨⟨g, host.now 0, [], 0, [], [], 0, []⟩, ⟨w, 1, []⟩, []⟩,
          (⟨0, []⟩ : Output).yield clock runStarted⟩ from ⟨rfl, rfl, rfl⟩)
    rcases ht with ht | ⟨run, e, t, hrun, hstream, hquit⟩
    · generalize (loop host p.generate).run _ = plain at ht
      generalize (streamLoop host p.stream clock).run _ = streamed at ht
      cases ht with
      | @done execution run u t hf =>
        have hr := hf.run
        subst hr
        refine ⟨List.prefix_rfl, ?_⟩
        rintro result ⟨-, event, he, -, hresult⟩
        obtain ⟨event', he', -, hresult'⟩ := hf.ready
        rw [Option.mem_unique he he', hresult'] at hresult
        exact ⟨execution, rfl, Option.some.inj hresult⟩
      | @failed e run f t hf =>
        have hr := hf.run
        subst hr
        refine ⟨?_, fun result hready ↦ absurd hready (failRun_not_ready host clock t result)⟩
        dsimp only [Prod.map]
        rw [failRun_dispatched]
        exact List.prefix_rfl
    · rw [hstream, ← hrun]
      refine ⟨?_, fun result hready ↦ absurd hready (failRun_not_ready host clock t result)⟩
      dsimp only [Prod.map]
      rw [failRun_dispatched, hquit]
      exact Driver.run_state (I := fun r : Run (Session κ σ) τ Unit ↦
        run.world.dispatched <+: r.world.dispatched) _
        (fun r hr ↦ hr.trans (runRound_dispatched host p.generate r)) List.prefix_rfl

end Runs

/-- The OpenAI adapter, over an SDK that streams what it would return: a stream gives
nothing else than the blocking call, and gives that exactly when its deltas fit into chunks
and are not blank. A streamed run tries no other calls than a plain one and has no other
result; where all streams are steady, the two agree. -/
theorem adapter_streams {R τ : Type} [LinearOrder τ] {p : OpenAIProvider κ σ}
    (hsdk : Faithful p.sdk) (host : LoopHost (Session κ σ) R τ) (clock : ℕ → Datetime)
    (goal : GoalInput) (w : Session κ σ) :
    (∀ request s response, receive (p.stream request s).1 = .ok response →
      p.generate request s = (.ok response, (p.stream request s).2)) ∧
    (∀ request s response, (p.generate request s).1 = .ok response →
      (receive (p.stream request s).1 = .ok response ↔ p.SteadyAt request s)) ∧
    (streamAgent host p.stream clock goal w).world.dispatched <+:
      (runAgent host p.generate goal w).2.dispatched ∧
    (∀ result, EndsReady (streamAgent host p.stream clock goal w) result →
      ∃ execution, (runAgent host p.generate goal w).1 = .ok execution ∧
        execution.result = result) ∧
    ((∀ request s, p.SteadyAt request s) → Monotone host.now →
      (∀ g, goal.modelValidate = some g →
        (studyPlanInput g).length ≤ maxPromptInputCharacters) →
      Agrees (runAgent host p.generate goal w) (streamAgent host p.stream clock goal w)) := by
  obtain ⟨hcalls, hready⟩ := streamed_until host hsdk clock goal w
  refine ⟨fun request s response ↦ generate_of_receive hsdk,
    fun request s response ↦ receive_iff_steady hsdk, hcalls, hready, ?_⟩
  intro hsteady hclock hfits
  exact agrees_of_fits host hclock (streams_of_steady hsdk hsteady) clock goal w hfits

def sampleSessionHost : LoopHost (Session Unit ℕ) Text ℕ where
  coercions := toolHost.coercions
  context := toolHost.context
  model := toolHost.model
  parseJson := toolHost.parseJson
  loads := toolHost.loads
  dumpResult := toolHost.dumpResult
  validator := toolHost.validator
  dispatcher _ _ _ w := (.ok "\x7b\x7d".toList, w)
  now := toolHost.now
  elapsed := toolHost.elapsed

def textDelta (s : Text) : RawEvent :=
  ⟨some (.str "response.output_text.delta".toList), some (.str s)⟩

def functionCall (callId name : Text) : RawItem where
  type := some (.str "function_call".toList)
  callId := some (.str callId)
  name := some (.str name)
  arguments := some (.str "\x7b\x7d".toList)

/-- Two tool calls, and the sample plan once they are answered. -/
def sampleAnswer (requests : ℕ) : RawResponse :=
  if requests = 0 then
    ⟨some (.str []), [functionCall ['a'] listProjects.1, functionCall ['b'] listTasks.1], none⟩
  else ⟨some (.str samplePlanText), [], none⟩

/-- The plan comes in two deltas between events of other types. -/
def sampleEvents (requests : ℕ) : List RawEvent :=
  ⟨some (.str "response.created".toList), none⟩ ::
    (if requests = 0 then []
      else [textDelta (samplePlanText.take 10), textDelta (samplePlanText.drop 10)]) ++
    [⟨some (.str "response.completed".toList), none⟩]

def sampleSdk : Sdk Unit ℕ where
  coercions := toolHost.coercions
  loads _ := .ok (.obj [])
  clientFactory _ := ()
  create _ _ w := (.ok (sampleAnswer w), w + 1)
  stream _ _ w := ⟨sampleEvents w, .ok (sampleAnswer w), w + 1, fun _ ↦ w + 1⟩

theorem sampleSdk_deltas (w : ℕ) : (sampleSdk.stream () [] w).deltas =
    if w = 0 then [] else [samplePlanText.take 10, samplePlanText.drop 10] := by
  have hplan : [textDelta (samplePlanText.take 10), textDelta (samplePlanText.drop 10)].filterMap
      RawEvent.text = [samplePlanText.take 10, samplePlanText.drop 10] := by
    decide +kernel
  change (sampleEvents w).filterMap RawEvent.text = _
  by_cases hw : w = 0
  · rw [sampleEvents, if_pos hw, if_pos hw]
    rfl
  · rw [sampleEvents, if_neg hw, if_neg hw, List.cons_append, List.filterMap_cons_none (by rfl),
      List.filterMap_append, hplan]
    rfl

theorem sampleSdk_faithful : Faithful sampleSdk where
  ended _ _ _ := rfl
  finished _ _ _ := rfl
  text client parameters w raw text hended htext := by
    cases hended
    change (sampleSdk.stream () [] w).deltas.flatten = text.getD []
    rw [sampleSdk_deltas]
    by_cases hw : w = 0
    · rw [sampleAnswer, if_pos hw] at htext
      rw [if_pos hw]
      cases htext
      rfl
    · rw [sampleAnswer, if_neg hw] at htext
      rw [if_neg hw]
      cases htext
      rw [List.flatten_cons, List.flatten_singleton, List.take_append_drop]
      rfl

def sampleAdapter : OpenAIProvider Unit ℕ where
  sdk := sampleSdk
  apiKey := some "synthetic-provider-key".toList
  constants := ⟨"instructions".toList, "PlanningResult".toList, .obj [], fun _ ↦ ([], .obj [])⟩

/-- Two tools are called before the plan. -/
theorem adapter_streams_sample :
    (runAgent sampleSessionHost sampleAdapter.generate (.validated Approval.sampleGoal)
      ⟨none, 0⟩).1.toBool = true ∧
    (runAgent sampleSessionHost sampleAdapter.generate (.validated Approval.sampleGoal)
      ⟨none, 0⟩).2.dispatched.length = 2 ∧
    Agrees (runAgent sampleSessionHost sampleAdapter.generate (.validated Approval.sampleGoal)
        ⟨none, 0⟩)
      (streamAgent sampleSessionHost sampleAdapter.stream sampleClock
        (.validated Approval.sampleGoal) ⟨none, 0⟩) := by
  refine ⟨by decide +kernel, by decide +kernel, ?_⟩
  obtain ⟨-, -, -, -, hagrees⟩ := adapter_streams (p := sampleAdapter) sampleSdk_faithful
    sampleSessionHost sampleClock (.validated Approval.sampleGoal) ⟨none, 0⟩
  have hshort : ∀ delta ∈ [samplePlanText.take 10, samplePlanText.drop 10],
      delta.length ≤ 20000 := by decide +kernel
  refine hagrees (fun request s client t _ ↦ ⟨fun delta hd ↦ ?_, fun _ hne ↦ ?_⟩) monotone_id ?_
  · change delta ∈ (sampleSdk.stream () [] t.outside).deltas at hd
    rw [sampleSdk_deltas] at hd
    split at hd
    · cases hd
    · exact hshort delta hd
  · change (sampleSdk.stream () [] t.outside).deltas ≠ [] at hne
    change strip (sampleSdk.stream () [] t.outside).deltas.flatten ≠ []
    rw [sampleSdk_deltas] at hne ⊢
    split at hne
    · exact absurd rfl hne
    · next hw =>
      rw [if_neg hw]
      decide +kernel
  · rintro g ⟨⟩
    decide +kernel

end LearningTasks.Agent.ProviderAdapter
