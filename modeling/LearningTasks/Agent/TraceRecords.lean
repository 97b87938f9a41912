import LearningTasks.Agent.Tracing
import LearningTasks.Library.Brackets

namespace LearningTasks.Agent.TraceRecords

open Library.Strings Library.Programs Library.Brackets Schemas.Scalars Tracing

/-- A sink and a clock that do not raise. No latency is negative. -/
structure Recorder (τ κ : Type) where
  emit : AgentTraceEvent → κ → κ
  clock : κ → τ × κ
  latencyMs : τ → τ → WithTop ℚ
  nonneg : ∀ later earlier, 0 ≤ latencyMs later earlier

/-- What a sink and a clock keep, and the events emitted so far. -/
structure Record (κ : Type) where
  host : κ
  events : List AgentTraceEvent

variable {τ κ : Type}

def Recorder.tracer (m : Recorder τ κ) : Tracer (Record κ) τ where
  emit event r := (.ok (), ⟨m.emit event r.host, r.events ++ [event]⟩)
  clock r := (.ok (m.clock r.host).1, ⟨(m.clock r.host).2, r.events⟩)
  latencyMs := m.latencyMs

def Recorder.Reads (m : Recorder τ κ) (t : τ) : Prop := ∃ k, (m.clock k).1 = t

def isStarted (event : AgentTraceEvent) : Bool := event.val.phase = .started

def spanOf (event : AgentTraceEvent) : UUID × SpanLabel :=
  (event.val.runId, ⟨event.val.threadId, event.val.component, event.val.name,
    event.val.promptVersion, event.val.attempt⟩)

def SameSpan (a b : AgentTraceEvent) : Prop := spanOf a = spanOf b

/-- A span that was started and has come to its end, with what was measured of it. -/
structure EndedSpan (τ : Type) where
  runId : UUID
  label : SpanLabel
  startedAt : τ
  endedAt : τ
  counters : TraceCounters
  terminal : Terminal
  valid : (label.started runId).valid = true

namespace EndedSpan

variable (m : Recorder τ κ) (e : EndedSpan τ)

def started : AgentTraceEvent := ⟨e.label.started e.runId, e.valid⟩

/-- The terminal event, unless what was measured is out of its bounds. -/
def reported : Option AgentTraceEvent :=
  (e.label.ended e.runId e.counters (m.latencyMs e.endedAt e.startedAt) e.terminal).event

def Within : Prop :=
  e.counters.valid = true ∧ m.latencyMs e.endedAt e.startedAt ≤ (maxTraceLatencyMs : WithTop ℚ)

end EndedSpan

theorem ended_valid {label : SpanLabel} {runId : UUID} (h : (label.started runId).valid = true)
    (counters : TraceCounters) {latencyMs : WithTop ℚ} (h0 : 0 ≤ latencyMs) (t : Terminal) :
    (label.ended runId counters latencyMs t).valid = true ↔
      counters.valid = true ∧ latencyMs ≤ (maxTraceLatencyMs : WithTop ℚ) := by
  simp only [TraceFields.valid, Bool.and_eq_true, decide_eq_true_eq] at h
  simp only [SpanLabel.started] at h
  obtain ⟨⟨⟨⟨⟨⟨hname, hversion⟩, hattempt⟩, -⟩, -⟩, hlisted⟩, -⟩ := h
  have hshape : (label.ended runId counters latencyMs t).shape = true := by
    cases t <;> rfl
  simp only [TraceFields.valid, Bool.and_eq_true, decide_eq_true_eq, hshape]
  simp only [SpanLabel.ended, SpanLabel.started, hname, hversion, hattempt, hlisted,
    Option.all_some, Bool.and_eq_true, decide_eq_true_eq, h0, true_and, and_true]

theorem ended_phase (label : SpanLabel) (runId : UUID) (counters : TraceCounters)
    (latencyMs : WithTop ℚ) (t : Terminal) :
    (label.ended runId counters latencyMs t).phase ≠ .started := by
  cases t <;> exact TracePhase.noConfusion

namespace EndedSpan

variable {m : Recorder τ κ} {e : EndedSpan τ}

theorem reported_of_within (h : e.Within m) : ∃ event, e.reported m = some event ∧
    isStarted event = false ∧ SameSpan e.started event := by
  have hvalid := (ended_valid e.valid e.counters (m.nonneg e.endedAt e.startedAt) e.terminal).mpr h
  exact ⟨⟨_, hvalid⟩, dif_pos hvalid, decide_eq_false (ended_phase _ _ _ _ _), rfl⟩

theorem reported_of_not_within (h : ¬ e.Within m) : e.reported m = none :=
  dif_neg fun hvalid ↦
    h ((ended_valid e.valid e.counters (m.nonneg e.endedAt e.startedAt) e.terminal).mp hvalid)

end EndedSpan

inductive Emitted (m : Recorder τ κ) : List (EndedSpan τ) → List AgentTraceEvent → Prop
  | nil : Emitted m [] []
  | span (e : EndedSpan τ) {inner rest : List (EndedSpan τ)} {es fs : List AgentTraceEvent} :
      Emitted m inner es → Emitted m rest fs →
      Emitted m (e :: (inner ++ rest)) (e.started :: (es ++ (e.reported m).toList ++ fs))

variable {m : Recorder τ κ}

theorem Emitted.append {spans spans' : List (EndedSpan τ)} {es es' : List AgentTraceEvent}
    (h : Emitted m spans es) (h' : Emitted m spans' es') :
    Emitted m (spans ++ spans') (es ++ es') := by
  induction h with
  | nil => exact h'
  | span e hinner _ _ ih =>
    have hspan := Emitted.span e hinner ih
    simpa using hspan

theorem Emitted.balanced {spans : List (EndedSpan τ)} {es : List AgentTraceEvent}
    (h : Emitted m spans es) (hw : ∀ e ∈ spans, e.Within m) : Balanced isStarted SameSpan es := by
  induction h with
  | nil => exact .nil
  | @span e inner rest es fs _ _ ihinner ihrest =>
    obtain ⟨event, hevent, hterminal, hsame⟩ :=
      EndedSpan.reported_of_within (hw e List.mem_cons_self)
    have hinner := ihinner fun e he ↦ hw e (List.mem_cons_of_mem _ (List.mem_append_left _ he))
    have hrest := ihrest fun e he ↦ hw e (List.mem_cons_of_mem _ (List.mem_append_right _ he))
    rw [hevent, Option.toList_some, List.append_assoc, List.singleton_append]
    exact .wrap rfl hterminal hsame hinner hrest

theorem Emitted.count {spans : List (EndedSpan τ)} {es : List AgentTraceEvent}
    (h : Emitted m spans es) : es.countP isStarted = spans.length ∧
      es.countP (fun event ↦ !isStarted event) =
        (spans.filter fun e ↦ (e.reported m).isSome).length := by
  induction h with
  | nil => exact ⟨rfl, rfl⟩
  | @span e inner rest es fs _ _ ihinner ihrest =>
    have hstarted : isStarted e.started = true := rfl
    by_cases hw : e.Within m
    · obtain ⟨event, hevent, hterminal, -⟩ := EndedSpan.reported_of_within hw
      simp only [hevent, List.countP_cons, List.countP_append, hstarted, hterminal,
        Option.toList_some, List.countP_nil, List.filter_cons, List.filter_append,
        Option.isSome_some, List.length_cons, List.length_append, Bool.not_true, Bool.not_false,
        Bool.false_eq_true, ↓reduceIte]
      omega
    · have hnone := EndedSpan.reported_of_not_within hw
      simp only [hnone, List.countP_cons, List.countP_append, hstarted, Option.toList_none,
        List.countP_nil, List.filter_cons, List.filter_append, Option.isSome_none,
        List.length_cons, List.length_append, Bool.not_true, Bool.false_eq_true, ↓reduceIte]
      omega

/-- The events are paired if and only if what was measured of every span is within the bounds of
the events. -/
theorem Emitted.paired_iff {spans : List (EndedSpan τ)} {es : List AgentTraceEvent}
    (h : Emitted m spans es) : Paired isStarted SameSpan es ↔ ∀ e ∈ spans, e.Within m := by
  refine ⟨fun hp e he ↦ ?_, fun hw ↦ (h.balanced hw).paired⟩
  obtain ⟨hstarted, hreported⟩ := h.count
  have hcount := (paired_iff_balanced.mp hp).count
  rw [hstarted, hreported] at hcount
  have hall := List.length_filter_eq_length_iff.mp hcount.symm e he
  by_contra hw
  rw [EndedSpan.reported_of_not_within hw] at hall
  cases hall

section

variable (m : Recorder τ κ) (P : EndedSpan τ → Prop)

/-- What was emitted between two records are the events of spans of one kind. -/
def Traced (r r' : Record κ) : Prop :=
  ∃ spans es, r'.events = r.events ++ es ∧ Emitted m spans es ∧ ∀ e ∈ spans, P e

/-- A span between its start and its end; an inert one emits nothing. -/
inductive Opened (label : SpanLabel) (r : Record κ) : TraceSpan τ → Record κ → Prop
  | inert {span : TraceSpan τ} {r' : Record κ} :
      span.runId = none ∨ span.startedAt = none → r'.events = r.events → Opened label r span r'
  | active {runId : UUID} {startedAt : τ} {host : κ}
      (valid : (label.started runId).valid = true) : m.Reads startedAt →
      Opened label r ⟨some runId, label, some startedAt⟩
        ⟨host, r.events ++ [⟨label.started runId, valid⟩]⟩

/-- What becomes of a span is measured by the clock and by the given counters. -/
structure Closing (label : SpanLabel) (counters : TraceCounters) (t : Terminal)
    (e : EndedSpan τ) : Prop where
  label : e.label = label
  startedAt : m.Reads e.startedAt
  endedAt : m.Reads e.endedAt
  counters : e.counters = counters
  terminal : e.terminal = t

end

variable {P : EndedSpan τ → Prop}

theorem traced_of_events {r r' : Record κ} (h : r'.events = r.events) : Traced m P r r' :=
  ⟨[], [], h.trans (List.append_nil _).symm, .nil, fun _ he ↦ absurd he List.not_mem_nil⟩

instance : Std.Refl (Traced m P) := ⟨fun _ ↦ traced_of_events rfl⟩

instance : IsTrans (Record κ) (Traced m P) := by
  refine ⟨?_⟩
  rintro r r' r'' ⟨spans, es, h, hes, hP⟩ ⟨spans', es', h', hes', hP'⟩
  refine ⟨spans ++ spans', es ++ es', ?_, hes.append hes', fun e he ↦ ?_⟩
  · rw [h', h, List.append_assoc]
  · exact (List.mem_append.mp he).elim (hP e) (hP' e)

theorem startTrace_opened (m : Recorder τ κ) (runId : Option UUID) (label : SpanLabel)
    (r : Record κ) :
    ∃ span r', startTrace m.tracer runId label r = (.ok span, r') ∧
      Opened m label r span r' := by
  cases runId with
  | none => exact ⟨_, _, rfl, .inert (.inl rfl) rfl⟩
  | some id =>
    by_cases hvalid : (label.started id).valid = true
    · have hevent : (label.started id).event = some ⟨label.started id, hvalid⟩ := dif_pos hvalid
      refine ⟨⟨some id, label, some (m.clock r.host).1⟩,
        ⟨m.emit ⟨label.started id, hvalid⟩ (m.clock r.host).2,
          r.events ++ [⟨label.started id, hvalid⟩]⟩, ?_, .active hvalid ⟨r.host, rfl⟩⟩
      rw [startTrace, hevent]
      rfl
    · have hevent : (label.started id).event = none := dif_neg hvalid
      refine ⟨⟨some id, label, none⟩, ⟨(m.clock r.host).2, r.events⟩, ?_,
        .inert (.inr rfl) rfl⟩
      rw [startTrace, hevent]
      rfl

theorem terminal_run (m : Recorder τ κ) (e : EndedSpan τ) {r : Record κ}
    (he : e.endedAt = (m.clock r.host).1) :
    ∃ host, TraceSpan.terminal m.tracer ⟨some e.runId, e.label, some e.startedAt⟩ e.counters
      e.terminal r = (.ok (), ⟨host, r.events ++ (e.reported m).toList⟩) := by
  have hbody : TraceSpan.terminal m.tracer ⟨some e.runId, e.label, some e.startedAt⟩ e.counters
      e.terminal r = Program.handle (fun _ ↦ (Program.ofOption .validation (e.reported m) >>=
        fun event ↦ emitTrace m.tracer event) ⟨(m.clock r.host).2, r.events⟩)
        (fun _ ↦ pure ()) r := by
    rw [EndedSpan.reported, he]
    rfl
  rw [hbody]
  cases e.reported m with
  | none =>
    refine ⟨(m.clock r.host).2, ?_⟩
    rw [Option.toList_none, List.append_nil]
    rfl
  | some event => exact ⟨m.emit event (m.clock r.host).2, rfl⟩

theorem Opened.close {label : SpanLabel} {span : TraceSpan τ} {r r₁ r₂ : Record κ}
    (h : Opened m label r span r₁) (hinner : Traced m P r₁ r₂) (counters : TraceCounters)
    (t : Terminal) (hP : ∀ e, Closing m label counters t e → P e) :
    ∃ r₃, span.terminal m.tracer counters t r₂ = (.ok (), r₃) ∧ Traced m P r r₃ := by
  obtain ⟨spans, es, hes, hemitted, hspans⟩ := hinner
  cases h with
  | inert hspan hevents =>
    refine ⟨r₂, ?_, spans, es, by rw [hes, hevents], hemitted, hspans⟩
    obtain ⟨runId, label, startedAt⟩ := span
    obtain rfl | rfl := hspan
    · rfl
    · cases runId <;> rfl
  | @active runId startedAt host valid hreads =>
    obtain ⟨e, he⟩ : ∃ e : EndedSpan τ, e =
        ⟨runId, label, startedAt, (m.clock r₂.host).1, counters, t, valid⟩ := ⟨_, rfl⟩
    have hclosing : P e := hP e (he ▸ ⟨rfl, hreads, ⟨r₂.host, rfl⟩, rfl, rfl⟩)
    obtain ⟨host', hterminal⟩ := terminal_run m e (r := r₂) (by rw [he])
    have hstarted : e.started = ⟨label.started runId, valid⟩ := by
      subst he
      rfl
    have hspan : TraceSpan.terminal m.tracer ⟨some runId, label, some startedAt⟩ counters t r₂ =
        (.ok (), ⟨host', r₂.events ++ (e.reported m).toList⟩) := by
      rw [← hterminal, he]
    refine ⟨_, hspan, e :: (spans ++ []), e.started :: (es ++ (e.reported m).toList ++ []), ?_,
      .span e hemitted .nil, ?_⟩
    · rw [hes, hstarted]
      simp
    · intro e' he'
      obtain rfl | he' := List.mem_cons.mp he'
      · exact hclosing
      · exact hspans e' (by simpa using he')

theorem Opened.finish {label : SpanLabel} {span : TraceSpan τ} {r r₁ r₂ : Record κ}
    (h : Opened m label r span r₁) (hinner : Traced m P r₁ r₂) (counters : TraceCounters)
    (hP : ∀ e, Closing m label counters .finish e → P e) :
    ∃ r₃, span.finish m.tracer counters r₂ = (.ok (), r₃) ∧ Traced m P r r₃ :=
  h.close hinner counters .finish hP

theorem Opened.fail {label : SpanLabel} {span : TraceSpan τ} {r r₁ r₂ : Record κ}
    (h : Opened m label r span r₁) (hinner : Traced m P r₁ r₂) (code : TraceErrorCode)
    (hP : ∀ e, Closing m label {} (.fail code) e → P e) :
    ∃ r₃, span.fail m.tracer code r₂ = (.ok (), r₃) ∧ Traced m P r r₃ :=
  h.close hinner {} (.fail code) hP

end LearningTasks.Agent.TraceRecords
