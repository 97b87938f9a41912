import LearningTasks.Middleware.RequestBodyLimit
import Mathlib.Data.List.GetD

namespace LearningTasks.Middleware.UploadAnswers

open Library.Strings Library.Transition Library.Interaction RequestBodyLimit

/-- The messages of one body: any number of parts, of which the last one says so. -/
structure IsBody (messages : List Received) : Prop where
  split : ∃ front last, messages = front ++ [last] ∧ (∀ m ∈ front, m.ends = false) ∧
    last.ends = true

/-- The first messages of a server that has those of a body, and reports the end of the
connection after them. -/
def handed (messages : List Received) (k : ℕ) : List Received :=
  (List.range k).map fun i ↦ messages.getD i .disconnect

theorem handed_succ (messages : List Received) (k : ℕ) :
    handed messages (k + 1) = handed messages k ++ [messages.getD k .disconnect] := by
  rw [handed, List.range_succ, List.map_append]
  rfl

theorem handed_eq (messages : List Received) (k : ℕ) :
    handed messages k =
      messages.take k ++ List.replicate (k - messages.length) .disconnect := by
  induction k with
  | zero => simp [handed]
  | succ k ih =>
    rw [handed_succ, ih]
    by_cases h : k < messages.length
    · have hzero : k - messages.length = 0 := by omega
      have hzero' : k + 1 - messages.length = 0 := by omega
      rw [hzero, hzero', List.replicate_zero, List.append_nil, List.append_nil,
        List.take_succ_eq_append_getElem h, List.getD_eq_getElem _ _ h]
    · have hsucc : k + 1 - messages.length = k - messages.length + 1 := by omega
      rw [List.getD_eq_default _ _ (by omega), List.take_of_length_le (by omega),
        List.take_of_length_le (by omega), hsucc, List.replicate_succ', List.append_assoc]

theorem bodyBytes_disconnect (n : ℕ) : bodyBytes (List.replicate n .disconnect) = 0 := by
  simp [bodyBytes, Received.bodyLength]

theorem handed_bytes_le (messages : List Received) (k : ℕ) :
    bodyBytes (handed messages k) ≤ bodyBytes messages := by
  have hall := bodyBytes_append (messages.take k) (messages.drop k)
  rw [List.take_append_drop] at hall
  rw [handed_eq, bodyBytes_append, bodyBytes_disconnect, hall]
  omega

theorem handed_ends {messages : List Received} (h : IsBody messages) (k : ℕ) :
    (handed messages k).any Received.ends = true ↔ messages.length ≤ k := by
  obtain ⟨front, last, rfl, hfront, hlast⟩ := h.split
  rw [handed_eq]
  constructor
  · intro hany
    by_contra hlt
    rw [List.length_append, List.length_singleton] at hlt
    have hzero : k - (front ++ [last]).length = 0 := by
      rw [List.length_append, List.length_singleton]
      omega
    rw [hzero, List.replicate_zero, List.append_nil, List.take_append_of_le_length (by omega)]
      at hany
    obtain ⟨m, hm, hends⟩ := List.any_eq_true.mp hany
    rw [hfront m (List.mem_of_mem_take hm)] at hends
    cases hends
  · intro hle
    rw [List.take_of_length_le hle, List.any_append, List.any_append, List.any_cons, hlast]
    simp

theorem handed_bytes {messages : List Received} {k : ℕ} (h : messages.length ≤ k) :
    bodyBytes (handed messages k) = bodyBytes messages := by
  rw [handed_eq, bodyBytes_append, bodyBytes_disconnect, List.take_of_length_le h, Nat.add_zero]

section

variable {β : Type}

/-- Surroundings that hand messages over, and do not raise the exception of the limit. -/
def Plain (_ : Trace Received Sent β) : Answer Received Fault → Prop
  | .received result => ∃ message, result = .ok message
  | .sent fault => fault ≠ some .limitExceeded

/-- An application that takes the whole body in before it does anything else, and lets the
exception of the limit pass, which is not its own. -/
structure ReadsAll (app : App Received Sent Fault β) (start : β) : Prop where
  reads : ∀ t, (machine app start).ReachableUnder Plain t →
    t.received.any Received.ends = false → ∃ resume, app t.state = .receive resume
  passes : ∀ t, (machine app start).ReachableUnder Plain t → ∀ resume,
    app t.state = .receive resume →
      app (resume (.error .limitExceeded)) = .finish (some .limitExceeded)
  own : ∀ t, (machine app start).ReachableUnder Plain t →
    app t.state ≠ .finish (some .limitExceeded)

variable {l : UploadBodyLimit} {app : App Received Sent Fault β} {start : β}
  {messages : List Received} {t t' : Trace Received Sent (Wrapped (Trace Received Sent β))}

/-- A server that hands a body over, and whose sends may fail. -/
def Serves (messages : List Received)
    (t : Trace Received Sent (Wrapped (Trace Received Sent β))) : Answer Received Fault → Prop
  | .received result => result = .ok (messages.getD t.received.length .disconnect)
  | .sent fault => fault ≠ some .limitExceeded

/-- The body is within the limit so far, and the middleware does not show. -/
structure Transparent (l : UploadBodyLimit) (app : App Received Sent Fault β) (start : β)
    (t : Trace Received Sent (Wrapped (Trace Received Sent β))) : Prop where
  phase : t.state.phase = .counting (bodyBytes t.received) (t.sent.any Sent.isStart)
  within : bodyBytes t.received ≤ l.maxBodyBytes
  run : (machine app start).ReachableUnder Plain t.state.app
  received : t.state.app.received = t.received
  sent : t.state.app.sent = t.sent
  silent : t.received.any Received.ends = false → t.sent = []

/-- The response of the middleware, in an application that has ended with the exception. -/
def Answering (l : UploadBodyLimit) (ended : Prop) (sent : List Sent) : Phase → Prop
  | .passing => False
  | .counting _ responseStarted => responseStarted = false ∧ ended ∧ sent = []
  | .refusing rest => sent ≠ [] ∧ sent ++ rest = l.tooLarge
  | .failed _ => sent ≠ [] ∧ sent <+: l.tooLarge

/-- The body is beyond the limit, and the application has given nothing out. -/
structure Beyond (l : UploadBodyLimit) (app : App Received Sent Fault β)
    (messages : List Received) (t : Trace Received Sent (Wrapped (Trace Received Sent β))) :
    Prop where
  total : l.maxBodyBytes < bodyBytes messages
  count : t.received.length ≤ messages.length
  silent : t.state.app.sent = []
  answer : Answering l (app t.state.app.state = .finish (some .limitExceeded)) t.sent t.state.phase

theorem Transparent.receive (hbody : IsBody messages) (happ : ReadsAll app start)
    (h : Transparent l app start t) (hhanded : t.received = handed messages t.received.length)
    (hs : advance (call l (recorded app)) t
      (.received (.ok (messages.getD t.received.length .disconnect))) = some t') :
    Transparent l app start t' ∨ Beyond l app messages t' := by
  obtain ⟨m, hm⟩ : ∃ m, m = messages.getD t.received.length .disconnect := ⟨_, rfl⟩
  rw [← hm] at hs
  have hnot : t.state.phase ≠ .passing := by
    rw [h.phase]
    exact Phase.noConfusion
  obtain ⟨resume, hcall, rfl⟩ := advance_received.mp hs
  obtain ⟨n, started, resume', hphase, hreceive, rfl⟩ := call_receive hnot hcall
  obtain ⟨resume, hstate, rfl⟩ := recorded_receive hreceive
  obtain ⟨rfl, rfl⟩ := Phase.counting.inj (h.phase.symm.trans hphase)
  have hbytes : bodyBytes (t.received ++ [m]) = bodyBytes t.received + m.bodyLength :=
    receive_bodyBytes t (.ok m) t.state
  obtain ⟨hlimit, heq⟩ | ⟨hwithin, heq⟩ := limitedReceive_cases (l := l)
    (fun given ↦ t.state.app.receive given (resume given)) (bodyBytes t.received)
    (t.sent.any Sent.isStart) (.ok m)
  · right
    have hmore : bodyBytes t.received + m.bodyLength ≤ bodyBytes messages := by
      rw [← hbytes, hhanded, hm, ← handed_succ]
      exact handed_bytes_le messages _
    have hcount : t.received.length < messages.length := by
      by_contra hle
      rw [List.getD_eq_default _ _ (not_lt.mp hle)] at hm
      rw [hm] at hlimit
      exact absurd h.within (not_le.mpr hlimit)
    have hincomplete : t.received.any Received.ends = false := by
      rw [hhanded, ← Bool.not_eq_true, handed_ends hbody]
      exact not_le.mpr hcount
    have hsilent := h.silent hincomplete
    rw [heq]
    refine ⟨lt_of_lt_of_le hlimit hmore, ?_, ?_, ?_, ?_, ?_⟩
    · exact (List.length_append : (t.received ++ [m]).length = _).le.trans hcount
    · exact h.sent.trans hsilent
    · rw [hsilent]
      rfl
    · exact happ.passes _ h.run resume hstate
    · exact hsilent
  · left
    have hle : bodyBytes t.received + m.bodyLength ≤ l.maxBodyBytes := by
      have hwithin' := h.within
      change (_ + m.bodyLength ≤ _ ∨ m.bodyLength = 0) at hwithin
      omega
    rw [heq]
    refine ⟨?_, ?_, ?_, ?_, ?_, ?_⟩
    · exact congrArg (Phase.counting · _) hbytes.symm
    · exact hbytes.le.trans hle
    · exact .step (i := .received (.ok m)) h.run ⟨m, rfl⟩
        (advance_received.mpr ⟨resume, hstate, rfl⟩)
    · exact congrArg (· ++ [m]) h.received
    · exact h.sent
    · intro hends
      have hends' : (t.received ++ [m]).any Received.ends = false := hends
      rw [List.any_append, Bool.or_eq_false_iff] at hends'
      exact h.silent hends'.1

theorem Transparent.send (happ : ReadsAll app start) (h : Transparent l app start t)
    {fault : Option Fault} (hfault : fault ≠ some .limitExceeded)
    (hs : advance (call l (recorded app)) t (.sent fault) = some t') :
    Transparent l app start t' := by
  have hnot : t.state.phase ≠ .passing := by
    rw [h.phase]
    exact Phase.noConfusion
  obtain ⟨message, resume, hcall, rfl⟩ := advance_sent.mp hs
  obtain ⟨n, started, resume', hphase, hsend, rfl⟩ | ⟨rest, hrest, rfl⟩ := call_send hnot hcall
  · obtain ⟨resume, hstate, rfl⟩ := recorded_send hsend
    obtain ⟨rfl, rfl⟩ := Phase.counting.inj (h.phase.symm.trans hphase)
    refine ⟨?_, h.within, ?_, h.received, ?_, ?_⟩
    · have hany : (t.sent ++ [message]).any Sent.isStart =
          (t.sent.any Sent.isStart || message.isStart) := by
        rw [List.any_append, List.any_cons, List.any_nil, Bool.or_false]
      exact congrArg (Phase.counting _) hany.symm
    · exact .step (i := .sent fault) h.run hfault
        (advance_sent.mpr ⟨message, resume, hstate, rfl⟩)
    · exact congrArg (· ++ [message]) h.sent
    · intro hends
      obtain ⟨resume', hreceive⟩ := happ.reads _ h.run (h.received ▸ hends)
      rw [hstate] at hreceive
      cases hreceive
  · obtain hphase | ⟨n, -, hfinish, -⟩ := hrest
    · rw [h.phase] at hphase
      cases hphase
    · exact absurd (recorded_finish.mp hfinish) (happ.own _ h.run)

theorem Beyond.not_passing (h : Beyond l app messages t) : t.state.phase ≠ .passing := by
  intro hphase
  have hanswer := h.answer
  rw [hphase] at hanswer
  exact hanswer

theorem Beyond.receive (h : Beyond l app messages t) {result : Except Fault Received} :
    advance (call l (recorded app)) t (.received result) ≠ some t' := by
  intro hs
  obtain ⟨resume, hcall, -⟩ := advance_received.mp hs
  obtain ⟨n, started, resume', hphase, hreceive, -⟩ := call_receive h.not_passing hcall
  have hanswer := h.answer
  rw [hphase] at hanswer
  rw [recorded_finish.mpr hanswer.2.1] at hreceive
  cases hreceive

theorem Beyond.send (h : Beyond l app messages t) {fault : Option Fault}
    (hs : advance (call l (recorded app)) t (.sent fault) = some t') :
    Beyond l app messages t' := by
  obtain ⟨message, resume, hcall, rfl⟩ := advance_sent.mp hs
  have hanswer := h.answer
  obtain ⟨n, started, resume', hphase, hsend, rfl⟩ | ⟨rest, hrest, rfl⟩ :=
    call_send h.not_passing hcall
  · rw [hphase] at hanswer
    rw [recorded_finish.mpr hanswer.2.1] at hsend
    cases hsend
  · have hall : (t.sent ++ [message]) ++ rest = l.tooLarge := by
      rw [List.append_assoc, List.singleton_append]
      obtain hphase | ⟨n, hphase, -, htooLarge⟩ := hrest
      · rw [hphase] at hanswer
        exact hanswer.2
      · rw [hphase] at hanswer
        rw [hanswer.2.2, List.nil_append, htooLarge]
    have hne : t.sent ++ [message] ≠ [] :=
      List.append_ne_nil_of_right_ne_nil _ (List.cons_ne_nil _ _)
    cases fault with
    | none => exact ⟨h.total, h.count, h.silent, hne, hall⟩
    | some fault => exact ⟨h.total, h.count, h.silent, hne, rest, hall⟩

structure Followed (l : UploadBodyLimit) (app : App Received Sent Fault β) (start : β)
    (messages : List Received) (t : Trace Received Sent (Wrapped (Trace Received Sent β))) :
    Prop where
  handed : t.received = handed messages t.received.length
  side : Transparent l app start t ∨ Beyond l app messages t

theorem enter_followed (messages : List Received) {scope : Scope}
    (hupload : l.isUpload scope = true)
    (hlength : ∀ length ∈ trustedContentLength (scope.headers.getD []),
      length ≤ l.maxBodyBytes) :
    Followed l app start messages ⟨enter l scope ⟨start, [], []⟩, [], []⟩ := by
  have hcounting : enter l scope (⟨start, [], []⟩ : Trace Received Sent β) =
      ⟨⟨start, [], []⟩, .counting 0 false⟩ := by
    unfold enter
    rw [if_pos hupload]
    split
    · next length heq => exact if_neg (Int.not_lt.mpr (hlength length heq))
    · rfl
  rw [hcounting]
  exact ⟨rfl, .inl ⟨rfl, Nat.zero_le _, .init rfl, rfl, rfl, fun _ ↦ rfl⟩⟩

theorem Followed.step (hbody : IsBody messages) (happ : ReadsAll app start)
    (h : Followed l app start messages t) {answer : Answer Received Fault}
    (hserves : Serves messages t answer)
    (hs : advance (call l (recorded app)) t answer = some t') :
    Followed l app start messages t' := by
  cases answer with
  | received result =>
    obtain rfl : result = _ := hserves
    obtain ⟨resume, -, hnext⟩ := advance_received.mp hs
    have hreceived : t'.received =
        t.received ++ [messages.getD t.received.length .disconnect] := by
      rw [hnext]
      rfl
    refine ⟨?_, ?_⟩
    · rw [hreceived, List.length_append, List.length_singleton, handed_succ, ← h.handed]
    · obtain hside | hside := h.side
      · exact hside.receive hbody happ h.handed hs
      · exact absurd hs hside.receive
  | sent fault =>
    obtain ⟨message, resume, -, hnext⟩ := advance_sent.mp hs
    refine ⟨?_, ?_⟩
    · rw [hnext]
      exact h.handed
    · obtain hside | hside := h.side
      · exact .inl (hside.send happ hserves hs)
      · exact .inr (hside.send hs)

def Finished (l : UploadBodyLimit) (app : App Received Sent Fault β)
    (t : Trace Received Sent (Wrapped (Trace Received Sent β))) : Prop :=
  ∃ fault, call l (recorded app) t.state = .finish fault

/-- The middleware has answered 413, in place of the application. -/
def Refused (t : Trace Received Sent (Wrapped (Trace Received Sent β))) : Prop :=
  t.state.app.sent = [] ∧ ∃ headers, t.sent.head? = some (.start 413 headers)

theorem Transparent.complete (happ : ReadsAll app start) (h : Transparent l app start t)
    (hfinished : Finished l app t) : t.received.any Received.ends = true := by
  by_contra hends
  obtain ⟨resume, hreceive⟩ := happ.reads _ h.run (h.received ▸ Bool.eq_false_iff.mpr hends)
  obtain ⟨fault, hcall⟩ := hfinished
  have hrecorded : recorded app t.state.app =
      .receive fun result ↦ t.state.app.receive result (resume result) := by
    rw [recorded, hreceive]
  rw [call, h.phase] at hcall
  dsimp only at hcall
  rw [hrecorded] at hcall
  cases hcall

theorem Transparent.total_le (hbody : IsBody messages) (h : Transparent l app start t)
    (hhanded : t.received = handed messages t.received.length)
    (hends : t.received.any Received.ends = true) : bodyBytes messages ≤ l.maxBodyBytes := by
  rw [hhanded, handed_ends hbody] at hends
  rw [← handed_bytes hends, ← hhanded]
  exact h.within

theorem Beyond.sent (h : Beyond l app messages t) : t.sent <+: l.tooLarge := by
  have hanswer := h.answer
  cases hphase : t.state.phase with
  | passing => exact absurd hphase h.not_passing
  | counting n started =>
    rw [hphase] at hanswer
    rw [hanswer.2.2]
    exact List.nil_prefix
  | refusing rest =>
    rw [hphase] at hanswer
    exact ⟨rest, hanswer.2⟩
  | failed fault =>
    rw [hphase] at hanswer
    exact hanswer.2

theorem Beyond.answered (h : Beyond l app messages t) (hfinished : Finished l app t) :
    t.sent ≠ [] := by
  have hanswer := h.answer
  obtain ⟨fault, hcall⟩ := hfinished
  cases hphase : t.state.phase with
  | passing => exact absurd hphase h.not_passing
  | counting n started =>
    rw [hphase] at hanswer
    obtain ⟨rfl, hended, -⟩ := hanswer
    rw [call, hphase] at hcall
    dsimp only at hcall
    rw [recorded_finish.mpr hended] at hcall
    cases hcall
  | refusing rest =>
    rw [hphase] at hanswer
    exact hanswer.1
  | failed fault =>
    rw [hphase] at hanswer
    exact hanswer.1

theorem Followed.refused_iff (hbody : IsBody messages) (happ : ReadsAll app start)
    (h : Followed l app start messages t) (hfinished : Finished l app t) :
    Refused t ↔ l.maxBodyBytes < bodyBytes messages := by
  obtain hside | hside := h.side
  · refine iff_of_false ?_ (not_lt.mpr (hside.total_le hbody h.handed
      (hside.complete happ hfinished)))
    rintro ⟨hsilent, headers, hhead⟩
    rw [← hside.sent, hsilent] at hhead
    cases hhead
  · refine iff_of_true ⟨hside.silent, l.responseHeaders, ?_⟩ hside.total
    obtain ⟨rest, hrest⟩ := hside.sent
    obtain ⟨message, more, hsent⟩ := List.exists_cons_of_ne_nil (hside.answered hfinished)
    rw [hsent] at hrest ⊢
    exact congrArg some (List.cons.inj hrest).1

theorem Followed.transparent (h : Followed l app start messages t)
    (hwithin : bodyBytes messages ≤ l.maxBodyBytes) : Transparent l app start t := by
  obtain hside | hside := h.side
  · exact hside
  · exact absurd hside.total (not_lt.mpr hwithin)

theorem Followed.bounded (hbody : IsBody messages) (h : Followed l app start messages t)
    (hbeyond : l.maxBodyBytes < bodyBytes messages) :
    t.received.length ≤ messages.length ∧ t.sent.length ≤ l.tooLarge.length := by
  obtain hside | hside := h.side
  · have hincomplete : t.received.any Received.ends = false := by
      rw [← Bool.not_eq_true]
      intro hends
      exact absurd (hside.total_le hbody h.handed hends) (not_le.mpr hbeyond)
    rw [hside.silent hincomplete]
    rw [h.handed, ← Bool.not_eq_true, handed_ends hbody] at hincomplete
    exact ⟨(not_le.mp hincomplete).le, Nat.zero_le _⟩
  · exact ⟨hside.count, hside.sent.length_le⟩

theorem goes_on (l : UploadBodyLimit) (app : App Received Sent Fault β) (messages : List Received)
    (h : ¬ Finished l app t) : ∃ answer t', Serves messages t answer ∧
      advance (call l (recorded app)) t answer = some t' := by
  cases hcall : call l (recorded app) t.state with
  | receive resume =>
    exact ⟨.received (.ok (messages.getD t.received.length .disconnect)), _, rfl,
      advance_received.mpr ⟨resume, hcall, rfl⟩⟩
  | send message resume =>
    exact ⟨.sent none, _, (Option.some_ne_none _).symm,
      advance_sent.mpr ⟨message, resume, hcall, rfl⟩⟩
  | finish fault => exact absurd ⟨fault, hcall⟩ h

end

theorem upload_limit (l : UploadBodyLimit) {β : Type} (app : App Received Sent Fault β)
    (start : β) (scope : Scope) (hupload : l.isUpload scope = true) :
    (∀ t, (served l app scope start).Reachable t →
      bodyBytes t.state.app.received ≤ l.maxBodyBytes ∧
        (StartsOnce app start → starts t.sent ≤ 1)) ∧
    (ReadsAll app start →
      (∀ length ∈ trustedContentLength (scope.headers.getD []), length ≤ l.maxBodyBytes) →
      ∀ messages, IsBody messages → ∀ t,
        (served l app scope start).ReachableUnder (Serves messages) t →
        (Finished l app t → (Refused t ↔ l.maxBodyBytes < bodyBytes messages)) ∧
        (bodyBytes messages ≤ l.maxBodyBytes →
          t.sent = t.state.app.sent ∧ t.received = t.state.app.received) ∧
        (l.maxBodyBytes < bodyBytes messages →
          t.received.length ≤ messages.length ∧ t.sent.length ≤ l.tooLarge.length) ∧
        (¬ Finished l app t → ∃ answer t', Serves messages t answer ∧
          (served l app scope start).step t answer = some t')) := by
  constructor
  · intro t ht
    have hkept := reachable_kept hupload ht
    exact ⟨hkept.delivered, hkept.starts⟩
  · intro happ hlength messages hbody t ht
    have hfollowed : Followed l app start messages t := by
      refine ht.invariant (Followed l app start messages) ?_ ?_
      · rintro t rfl
        exact enter_followed messages hupload hlength
      · intro t answer t' h hserves hs
        exact h.step hbody happ hserves hs
    refine ⟨hfollowed.refused_iff hbody happ, fun hwithin ↦ ?_, hfollowed.bounded hbody,
      goes_on l app messages⟩
    have htransparent := hfollowed.transparent hwithin
    exact ⟨htransparent.sent.symm, htransparent.received.symm⟩

/-- The states of an application that reads its body and answers one status. -/
inductive ReaderState
  | reading
  | answering
  | raised (fault : Fault)
  | done

def readerNext : Except Fault Received → ReaderState
  | .ok message => if message.ends then .answering else .reading
  | .error fault => .raised fault

def reader (status : ℕ) : App Received Sent Fault ReaderState
  | .reading => .receive readerNext
  | .answering => .send (.start status []) fun _ ↦ .done
  | .raised fault => .finish (some fault)
  | .done => .finish none

/-- What a reader has done, when nothing has been raised in it. -/
def ReaderKept (t : Trace Received Sent ReaderState) : Prop :=
  t.state = .reading ∨
    (t.state = .answering ∨ t.state = .done) ∧ t.received.any Received.ends = true

theorem reader_kept {status : ℕ} {t : Trace Received Sent ReaderState}
    (h : (machine (reader status) .reading).ReachableUnder Plain t) : ReaderKept t := by
  refine h.invariant ReaderKept ?_ ?_
  · rintro t rfl
    exact .inl rfl
  · intro t answer t' hkept hplain hs
    cases answer with
    | received result =>
      obtain ⟨message, rfl⟩ := hplain
      obtain ⟨resume, hreceive, rfl⟩ := advance_received.mp hs
      obtain hstate | ⟨hstate | hstate, -⟩ := hkept
      · rw [hstate] at hreceive
        cases hreceive
        by_cases hends : message.ends = true
        · refine .inr ⟨.inl (if_pos hends), ?_⟩
          change (t.received ++ [message]).any Received.ends = true
          rw [List.any_append, List.any_cons, hends, Bool.true_or, Bool.or_true]
        · exact .inl (if_neg hends)
      · rw [hstate] at hreceive
        cases hreceive
      · rw [hstate] at hreceive
        cases hreceive
    | sent fault =>
      obtain ⟨message, resume, hsend, rfl⟩ := advance_sent.mp hs
      obtain hstate | ⟨hstate | hstate, hends⟩ := hkept
      · rw [hstate] at hsend
        cases hsend
      · rw [hstate] at hsend
        cases hsend
        exact .inr ⟨.inr rfl, hends⟩
      · rw [hstate] at hsend
        cases hsend

theorem reader_readsAll (status : ℕ) : ReadsAll (reader status) .reading where
  reads t ht hends := by
    obtain hstate | ⟨-, hends'⟩ := reader_kept ht
    · exact ⟨readerNext, congrArg (reader status) hstate⟩
    · rw [hends] at hends'
      cases hends'
  passes t ht resume hreceive := by
    obtain hstate | ⟨hstate | hstate, -⟩ := reader_kept ht
    · rw [hstate] at hreceive
      cases hreceive
      rfl
    · rw [hstate] at hreceive
      cases hreceive
    · rw [hstate] at hreceive
      cases hreceive
  own t ht hfinish := by
    obtain hstate | ⟨hstate | hstate, -⟩ := reader_kept ht
    all_goals
      rw [hstate] at hfinish
      cases hfinish

theorem reader_startsOnce (status : ℕ) : StartsOnce (reader status) .reading := by
  intro t ht
  have hkept : t.state = .done ∧ starts t.sent = 1 ∨ t.sent = [] := by
    refine ht.invariant (fun t ↦ t.state = .done ∧ starts t.sent = 1 ∨ t.sent = []) ?_ ?_
    · rintro t rfl
      exact .inr rfl
    · intro t answer t' hkept hs
      cases answer with
      | received result =>
        obtain ⟨resume, hreceive, rfl⟩ := advance_received.mp hs
        rw [Trace.receive_state, Trace.receive_sent]
        obtain ⟨hstate, -⟩ | hsilent := hkept
        · rw [hstate] at hreceive
          cases hreceive
        · exact .inr hsilent
      | sent fault =>
        obtain ⟨message, resume, hsend, rfl⟩ := advance_sent.mp hs
        cases hstate : t.state with
        | answering =>
          rw [hstate] at hkept hsend
          cases hsend
          obtain ⟨hdone, -⟩ | hsilent := hkept
          · cases hdone
          · refine .inl ⟨rfl, ?_⟩
            change starts (t.sent ++ _) = 1
            rw [hsilent]
            rfl
        | reading | raised fault | done =>
          rw [hstate] at hsend
          cases hsend
  obtain ⟨-, hone⟩ | hsilent := hkept
  · exact hone.le
  · rw [hsilent]
    exact Nat.zero_le 1

def tenBytes : UploadBodyLimit where
  maxBodyBytes := 10
  positive := by decide
  path := knowledgeUploadPath
  upper := id
  responseHeaders := []
  responseBody := [.body [] false]
  oneStart := rfl

def uploadScope : Scope := ⟨"http".toList, some "POST".toList, some knowledgeUploadPath, none⟩

theorem uploadScope_lengths :
    ∀ length ∈ trustedContentLength (uploadScope.headers.getD []), length ≤ tenBytes.maxBodyBytes :=
  by simp [uploadScope, trustedContentLength]

def elevenBytes : List Received :=
  [.request (some (List.replicate 6 0)) (some true), .request (some (List.replicate 5 0)) none]

theorem elevenBytes_isBody : IsBody elevenBytes :=
  ⟨[.request (some (List.replicate 6 0)) (some true)],
    .request (some (List.replicate 5 0)) none, rfl, by simp [Received.ends], rfl⟩

theorem handed_on {l : UploadBodyLimit} {β : Type} {app : App Received Sent Fault β} {start : β}
    {scope : Scope} {messages : List Received}
    {t t' : Trace Received Sent (Wrapped (Trace Received Sent β))}
    (h : (served l app scope start).ReachableUnder (Serves messages) t)
    (hs : (served l app scope start).step t
      (.received (.ok (messages.getD t.received.length .disconnect))) = some t') :
    (served l app scope start).ReachableUnder (Serves messages) t' :=
  .step (i := .received (.ok (messages.getD t.received.length .disconnect))) h rfl hs

theorem sent_on {l : UploadBodyLimit} {β : Type} {app : App Received Sent Fault β} {start : β}
    {scope : Scope} {messages : List Received}
    {t t' : Trace Received Sent (Wrapped (Trace Received Sent β))}
    (h : (served l app scope start).ReachableUnder (Serves messages) t)
    (hs : (served l app scope start).step t (.sent none) = some t') :
    (served l app scope start).ReachableUnder (Serves messages) t' :=
  .step (i := .sent none) h (Option.some_ne_none _).symm hs

theorem upload_limit_sample :
    ∃ t, (served tenBytes (reader 200) uploadScope .reading).ReachableUnder (Serves elevenBytes) t ∧
      Finished tenBytes (reader 200) t ∧ Refused t ∧ starts t.sent ≤ 1 := by
  have hfinish : ∃ t, (served tenBytes (reader 200) uploadScope .reading).ReachableUnder
      (Serves elevenBytes) t ∧ Finished tenBytes (reader 200) t := by
    have h0 : (served tenBytes (reader 200) uploadScope .reading).ReachableUnder
        (Serves elevenBytes) _ := .init rfl
    exact ⟨_, sent_on (sent_on (handed_on (handed_on h0 rfl) rfl) rfl) rfl, none, rfl⟩
  obtain ⟨t, ht, hfinished⟩ := hfinish
  obtain ⟨hkept, hanswer⟩ := upload_limit tenBytes (reader 200) .reading uploadScope (by decide)
  have hrefused := ((hanswer (reader_readsAll 200) uploadScope_lengths elevenBytes
    elevenBytes_isBody t ht).1 hfinished).mpr (by decide)
  exact ⟨t, ht, hfinished, hrefused, (hkept t ht.reachable).2 (reader_startsOnce 200)⟩

/-- An application may answer 413 by itself, as the upload endpoint does for a document that is
too large for it. -/
theorem application_answers_413 :
    ¬ ∀ (l : UploadBodyLimit) (β : Type) (app : App Received Sent Fault β) (start : β)
      (scope : Scope), l.isUpload scope = true → ReadsAll app start →
      (∀ length ∈ trustedContentLength (scope.headers.getD []), length ≤ l.maxBodyBytes) →
      ∀ messages, IsBody messages → ∀ t,
        (served l app scope start).ReachableUnder (Serves messages) t → Finished l app t →
        ((∃ headers, t.sent.head? = some (.start 413 headers)) ↔
          l.maxBodyBytes < bodyBytes messages) := by
  intro h
  have hbody : IsBody [.request none none] := ⟨[], .request none none, rfl, by simp, rfl⟩
  have h0 : (served tenBytes (reader 413) uploadScope .reading).ReachableUnder
      (Serves [.request none none]) _ := .init rfl
  have hanswered := h tenBytes ReaderState (reader 413) .reading uploadScope (by decide)
    (reader_readsAll 413) uploadScope_lengths [.request none none] hbody _
    (sent_on (handed_on h0 rfl) rfl) ⟨none, rfl⟩
  exact absurd (hanswered.mp ⟨[], rfl⟩) (by decide)

end LearningTasks.Middleware.UploadAnswers
