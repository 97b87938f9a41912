import LearningTasks.Library.Interaction
import LearningTasks.Library.Strings
import Mathlib.Algebra.BigOperators.Group.List.Basic
import Mathlib.Algebra.GroupWithZero.Nat

namespace LearningTasks.Middleware.RequestBodyLimit

open Library.Strings Library.Transition Library.Interaction

abbrev Bytes := List UInt8

/-- A message of the server; the keys that it may leave out are options. -/
inductive Received
  | request (body : Option Bytes) (moreBody : Option Bool)
  | disconnect
  | other (type : Text)

inductive Sent
  | start (status : ℕ) (headers : List (Bytes × Bytes))
  | body (bytes : Bytes) (moreBody : Bool)
  | other (type : Text)

inductive Fault
  | limitExceeded
  | other
  deriving DecidableEq

structure Scope where
  type : Text
  method : Option Text
  path : Option Text
  headers : Option (List (Bytes × Bytes))

def toLower (b : UInt8) : UInt8 := if 65 ≤ b ∧ b ≤ 90 then b + 32 else b

def isWhitespace (b : UInt8) : Bool := b = 32 || (9 ≤ b && b ≤ 13)

def stripBytes (value : Bytes) : Bytes := (value.dropWhile isWhitespace).rdropWhile isWhitespace

def readDigits : Bytes → Option (List ℕ)
  | [] => none
  | [d] => if 48 ≤ d ∧ d ≤ 57 then some [(d - 48).toNat] else none
  | d :: 95 :: rest =>
    if 48 ≤ d ∧ d ≤ 57 then (readDigits rest).map ((d - 48).toNat :: ·) else none
  | d :: rest => if 48 ≤ d ∧ d ≤ 57 then (readDigits rest).map ((d - 48).toNat :: ·) else none

def maxIntDigits : ℕ := 4300

def readInt (value : Bytes) : Option ℤ :=
  let digits (value : Bytes) : Option ℤ := (readDigits value).bind fun digits ↦
    if digits.length ≤ maxIntDigits then some (digits.foldl (fun n d ↦ 10 * n + d) 0 : ℕ) else none
  match stripBytes value with
  | 45 :: rest => (digits rest).map (- ·)
  | 43 :: rest => digits rest
  | value => digits value

def contentLengthName : Bytes := "content-length".toList.map fun c ↦ UInt8.ofNat c.toNat

def trustedContentLength (headers : List (Bytes × Bytes)) : Option ℤ :=
  match (headers.filter fun h ↦ h.1.map toLower = contentLengthName).map
    fun h ↦ stripBytes h.2 with
  | [value] => (readInt value).filter fun length ↦ 0 ≤ length
  | _ => none

def Sent.isStart : Sent → Bool
  | .start _ _ => true
  | _ => false

def Received.bodyLength : Received → ℕ
  | .request body _ => (body.getD []).length
  | _ => 0

def Received.ends : Received → Bool
  | .request _ moreBody => moreBody ≠ some true
  | .disconnect => true
  | .other _ => false

def knowledgeUploadPath : Text := "/api/v1/knowledge/documents".toList

/-- A limiter with what it takes from elsewhere: the upper case of a text, and the messages of
its response, of which the first is the only start. -/
structure UploadBodyLimit where
  maxBodyBytes : ℕ
  positive : 1 ≤ maxBodyBytes
  path : Text
  upper : Text → Text
  responseHeaders : List (Bytes × Bytes)
  responseBody : List Sent
  oneStart : responseBody.any Sent.isStart = false

def UploadBodyLimit.tooLarge (l : UploadBodyLimit) : List Sent :=
  .start 413 l.responseHeaders :: l.responseBody

def UploadBodyLimit.isUpload (l : UploadBodyLimit) (scope : Scope) : Bool :=
  scope.type = "http".toList && l.upper (scope.method.getD []) = "POST".toList &&
    scope.path = some l.path

/-- What the middleware does with a request: it passes everything on, counts the body, or sends
its own response, which an exception may end. -/
inductive Phase
  | passing
  | counting (receivedBytes : ℕ) (responseStarted : Bool)
  | refusing (rest : List Sent)
  | failed (fault : Fault)

structure Wrapped (β : Type) where
  app : β
  phase : Phase

section

variable {β : Type}

def refuse (app : β) (rest : List Sent) : Option Fault → Wrapped β
  | none => ⟨app, .refusing rest⟩
  | some fault => ⟨app, .failed fault⟩

def sendAll (app : β) : List Sent → Action Received Sent Fault (Wrapped β)
  | [] => .finish none
  | message :: rest => .send message (refuse app rest)

variable (l : UploadBodyLimit)

def limitedReceive (resume : Except Fault Received → β) (receivedBytes : ℕ)
    (responseStarted : Bool) : Except Fault Received → Wrapped β
  | .ok (.request body moreBody) =>
    let receivedBytes := receivedBytes + (body.getD []).length
    if l.maxBodyBytes < receivedBytes then
      ⟨resume (.error .limitExceeded), .counting receivedBytes responseStarted⟩
    else ⟨resume (.ok (.request body moreBody)), .counting receivedBytes responseStarted⟩
  | result => ⟨resume result, .counting receivedBytes responseStarted⟩

def trackedSend (message : Sent) (resume : Option Fault → β) (receivedBytes : ℕ)
    (responseStarted : Bool) (fault : Option Fault) : Wrapped β :=
  ⟨resume fault, .counting receivedBytes (responseStarted || message.isStart)⟩

/-- `UploadBodyLimitMiddleware.__call__`, by what it does next. -/
def call (app : App Received Sent Fault β) : App Received Sent Fault (Wrapped β) := fun w ↦
  match w.phase with
  | .passing => match app w.app with
    | .receive resume => .receive fun result ↦ ⟨resume result, .passing⟩
    | .send message resume => .send message fun fault ↦ ⟨resume fault, .passing⟩
    | .finish fault => .finish fault
  | .counting receivedBytes responseStarted => match app w.app with
    | .receive resume => .receive (limitedReceive l resume receivedBytes responseStarted)
    | .send message resume =>
      .send message (trackedSend message resume receivedBytes responseStarted)
    | .finish (some .limitExceeded) =>
      if responseStarted then .finish (some .limitExceeded) else sendAll w.app l.tooLarge
    | .finish fault => .finish fault
  | .refusing rest => sendAll w.app rest
  | .failed fault => .finish (some fault)

def enter (scope : Scope) (app : β) : Wrapped β :=
  if l.isUpload scope then
    match trustedContentLength (scope.headers.getD []) with
    | some length =>
      if (l.maxBodyBytes : ℤ) < length then ⟨app, .refusing l.tooLarge⟩
      else ⟨app, .counting 0 false⟩
    | none => ⟨app, .counting 0 false⟩
  else ⟨app, .passing⟩

/-- The runs of an application behind the middleware, with a record of what the application
itself takes in and gives out. -/
def served (app : App Received Sent Fault β) (scope : Scope) (start : β) :
    Machine (Trace Received Sent (Wrapped (Trace Received Sent β))) (Answer Received Fault) :=
  machine (call l (recorded app)) (enter l scope ⟨start, [], []⟩)

end

example : trustedContentLength [("Content-Length".toList.map fun c ↦ UInt8.ofNat c.toNat,
    " 1_000 ".toList.map fun c ↦ UInt8.ofNat c.toNat)] = some 1000 := by decide

def bodyBytes (messages : List Received) : ℕ := (messages.map Received.bodyLength).sum

def starts (messages : List Sent) : ℕ := messages.countP Sent.isStart

theorem bodyBytes_append (l l' : List Received) :
    bodyBytes (l ++ l') = bodyBytes l + bodyBytes l' := by
  rw [bodyBytes, List.map_append, List.sum_append, bodyBytes, bodyBytes]

theorem starts_of_none {messages : List Sent} (h : messages.any Sent.isStart = false) :
    starts messages = 0 := by
  rw [starts, List.countP_eq_zero]
  exact fun m hm hs ↦ Bool.false_ne_true (h.symm.trans (List.any_eq_true.mpr ⟨m, hm, hs⟩))

theorem starts_append (l l' : List Sent) : starts (l ++ l') = starts l + starts l' :=
  List.countP_append

theorem starts_tooLarge (l : UploadBodyLimit) : starts l.tooLarge = 1 := by
  rw [UploadBodyLimit.tooLarge, starts, List.countP_cons_of_pos rfl]
  exact congrArg Nat.succ (starts_of_none l.oneStart)

section

variable {β : Type} {l : UploadBodyLimit} {app : App Received Sent Fault β} {w : Wrapped β}

theorem call_receive {resume : Except Fault Received → Wrapped β} (hw : w.phase ≠ .passing)
    (h : call l app w = .receive resume) : ∃ receivedBytes responseStarted resume',
      w.phase = .counting receivedBytes responseStarted ∧ app w.app = .receive resume' ∧
      resume = limitedReceive l resume' receivedBytes responseStarted := by
  unfold call at h
  cases hphase : w.phase with
  | passing => exact absurd hphase hw
  | counting receivedBytes responseStarted =>
    rw [hphase] at h
    dsimp only at h
    cases happ : app w.app with
    | receive resume' =>
      rw [happ] at h
      cases h
      exact ⟨receivedBytes, responseStarted, resume', rfl, rfl, rfl⟩
    | send message resume' =>
      rw [happ] at h
      cases h
    | finish fault =>
      rw [happ] at h
      cases fault with
      | none => cases h
      | some fault => cases fault <;> cases responseStarted <;> cases h
  | refusing rest =>
    rw [hphase] at h
    cases rest <;> cases h
  | failed fault =>
    rw [hphase] at h
    cases h

/-- The middleware goes on to its own response: after an exception of the limit that has passed
the application before its response, or from an earlier message of that response. -/
def Refusing (l : UploadBodyLimit) (app : App Received Sent Fault β) (w : Wrapped β)
    (rest : List Sent) : Prop :=
  w.phase = .refusing rest ∨ ∃ receivedBytes, w.phase = .counting receivedBytes false ∧
    app w.app = .finish (some .limitExceeded) ∧ rest = l.tooLarge

theorem call_send {message : Sent} {resume : Option Fault → Wrapped β} (hw : w.phase ≠ .passing)
    (h : call l app w = .send message resume) :
    (∃ receivedBytes responseStarted resume', w.phase = .counting receivedBytes responseStarted ∧
      app w.app = .send message resume' ∧
      resume = trackedSend message resume' receivedBytes responseStarted) ∨
    ∃ rest, Refusing l app w (message :: rest) ∧ resume = refuse w.app rest := by
  unfold call at h
  cases hphase : w.phase with
  | passing => exact absurd hphase hw
  | counting receivedBytes responseStarted =>
    rw [hphase] at h
    dsimp only at h
    cases happ : app w.app with
    | receive resume' =>
      rw [happ] at h
      cases h
    | send message' resume' =>
      rw [happ] at h
      cases h
      exact .inl ⟨receivedBytes, responseStarted, resume', rfl, rfl, rfl⟩
    | finish fault =>
      rw [happ] at h
      cases fault with
      | none => cases h
      | some fault =>
        cases fault with
        | other => cases h
        | limitExceeded =>
          cases responseStarted with
          | true => cases h
          | false =>
            cases h
            exact .inr ⟨l.responseBody, .inr ⟨receivedBytes, hphase, happ, rfl⟩, rfl⟩
  | refusing rest =>
    rw [hphase] at h
    cases rest with
    | nil => cases h
    | cons message' rest =>
      cases h
      exact .inr ⟨rest, .inl hphase, rfl⟩
  | failed fault =>
    rw [hphase] at h
    cases h

def resultBytes : Except Fault Received → ℕ
  | .ok message => message.bodyLength
  | .error _ => 0

theorem limitedReceive_cases (resume : Except Fault Received → β) (receivedBytes : ℕ)
    (responseStarted : Bool) (result : Except Fault Received) :
    (l.maxBodyBytes < receivedBytes + resultBytes result ∧
      limitedReceive l resume receivedBytes responseStarted result =
        ⟨resume (.error .limitExceeded),
          .counting (receivedBytes + resultBytes result) responseStarted⟩) ∨
    (receivedBytes + resultBytes result ≤ l.maxBodyBytes ∨ resultBytes result = 0) ∧
      limitedReceive l resume receivedBytes responseStarted result =
        ⟨resume result, .counting (receivedBytes + resultBytes result) responseStarted⟩ := by
  cases result with
  | error fault => exact .inr ⟨.inr rfl, rfl⟩
  | ok message =>
    cases message with
    | disconnect => exact .inr ⟨.inr rfl, rfl⟩
    | other type => exact .inr ⟨.inr rfl, rfl⟩
    | request body moreBody =>
      unfold limitedReceive
      dsimp only
      by_cases h : l.maxBodyBytes < receivedBytes + (body.getD []).length
      · exact .inl ⟨h, if_pos h⟩
      · exact .inr ⟨.inl (not_lt.mp h), if_neg h⟩

theorem receive_bodyBytes (t : Trace Received Sent β) (result : Except Fault Received) (next : β) :
    bodyBytes (t.receive result next).received = bodyBytes t.received + resultBytes result := by
  cases result with
  | error fault => rfl
  | ok message =>
    rw [Trace.receive, bodyBytes_append]
    rfl

variable {start : β}

/-- What the phase of the middleware says of the messages given out. -/
def SentKept (l : UploadBodyLimit) (own sent : List Sent) : Phase → Prop
  | .passing => False
  | .counting _ responseStarted => sent = own ∧ responseStarted = own.any Sent.isStart
  | .refusing rest => own.any Sent.isStart = false ∧ sent ++ rest = own ++ l.tooLarge
  | .failed _ => own.any Sent.isStart = false ∧ sent <+: own ++ l.tooLarge

def CountKept (l : UploadBodyLimit) (delivered : ℕ) : Phase → Prop
  | .counting receivedBytes _ => delivered ≤ receivedBytes ∧ delivered ≤ l.maxBodyBytes
  | _ => delivered ≤ l.maxBodyBytes

structure Kept (l : UploadBodyLimit) (app : App Received Sent Fault β) (start : β)
    (t : Trace Received Sent (Wrapped (Trace Received Sent β))) : Prop where
  run : (machine app start).Reachable t.state.app
  count : CountKept l (bodyBytes t.state.app.received) t.state.phase
  sent : SentKept l t.state.app.sent t.sent t.state.phase

theorem Kept.not_passing {t : Trace Received Sent (Wrapped (Trace Received Sent β))}
    (h : Kept l app start t) : t.state.phase ≠ .passing := by
  intro hphase
  have hsent := h.sent
  rw [hphase] at hsent
  exact hsent

theorem enter_kept (l : UploadBodyLimit) (app : App Received Sent Fault β) (start : β)
    {scope : Scope} (h : l.isUpload scope = true) :
    Kept l app start ⟨enter l scope ⟨start, [], []⟩, [], []⟩ := by
  have hrun : (machine app start).Reachable ⟨start, [], []⟩ := .start rfl
  have hcounting : Kept l app start ⟨⟨⟨start, [], []⟩, .counting 0 false⟩, [], []⟩ :=
    ⟨hrun, ⟨le_rfl, Nat.zero_le _⟩, rfl, rfl⟩
  unfold enter
  rw [if_pos h]
  split
  · split_ifs
    · exact ⟨hrun, Nat.zero_le _, rfl, rfl⟩
    · exact hcounting
  · exact hcounting

theorem Kept.receive {t t' : Trace Received Sent (Wrapped (Trace Received Sent β))}
    (h : Kept l app start t) {result : Except Fault Received}
    (hs : advance (call l (recorded app)) t (.received result) = some t') :
    Kept l app start t' := by
  obtain ⟨resume, hcall, rfl⟩ := advance_received.mp hs
  obtain ⟨n, started, resume', hphase, hreceive, rfl⟩ := call_receive h.not_passing hcall
  obtain ⟨resume, hstate, rfl⟩ := recorded_receive hreceive
  obtain ⟨hrun, hcount, hsent⟩ := h
  rw [hphase] at hcount hsent
  have hnext (given : Except Fault Received) :
      (machine app start).Reachable (t.state.app.receive given (resume given)) :=
    hrun.next (i := .received given) (advance_received.mpr ⟨resume, hstate, rfl⟩)
  have hdelivered : bodyBytes t.state.app.received ≤ n ∧
    bodyBytes t.state.app.received ≤ l.maxBodyBytes := hcount
  obtain ⟨hlimit, heq⟩ | ⟨hwithin, heq⟩ := limitedReceive_cases (l := l)
    (fun given ↦ t.state.app.receive given (resume given)) n started result
  · rw [heq]
    refine ⟨?_, ?_, ?_⟩
    · rw [Trace.receive_state]
      exact hnext (.error .limitExceeded)
    · rw [Trace.receive_state]
      exact ⟨hdelivered.1.trans (Nat.le_add_right _ _), hdelivered.2⟩
    · simp only [Trace.receive_state, Trace.receive_sent]
      exact hsent
  · rw [heq]
    refine ⟨?_, ?_, ?_⟩
    · rw [Trace.receive_state]
      exact hnext result
    · rw [Trace.receive_state, receive_bodyBytes]
      refine ⟨?_, ?_⟩
      · omega
      · omega
    · simp only [Trace.receive_state, Trace.receive_sent]
      exact hsent

theorem Kept.send {t t' : Trace Received Sent (Wrapped (Trace Received Sent β))}
    (h : Kept l app start t) {fault : Option Fault}
    (hs : advance (call l (recorded app)) t (.sent fault) = some t') : Kept l app start t' := by
  obtain ⟨message, resume, hcall, rfl⟩ := advance_sent.mp hs
  obtain ⟨n, started, resume', hphase, hsend, rfl⟩ | ⟨rest, hrest, rfl⟩ :=
    call_send h.not_passing hcall
  · obtain ⟨hrun, hcount, hsent⟩ := h
    rw [hphase] at hcount hsent
    obtain ⟨resume, hstate, rfl⟩ := recorded_send hsend
    refine ⟨hrun.next (i := .sent fault) (advance_sent.mpr ⟨message, resume, hstate, rfl⟩),
      hcount, ?_⟩
    have hany : (t.state.app.sent ++ [message]).any Sent.isStart =
        (started || message.isStart) := by
      rw [List.any_append, ← hsent.2, List.any_cons, List.any_nil, Bool.or_false]
    exact ⟨congrArg (· ++ [message]) hsent.1, hany.symm⟩
  · obtain ⟨hrun, hcount, hsent⟩ := h
    have hown : t.state.app.sent.any Sent.isStart = false ∧
        t.sent ++ message :: rest = t.state.app.sent ++ l.tooLarge := by
      obtain hphase | ⟨n, hphase, -, htooLarge⟩ := hrest
      · rw [hphase] at hsent
        exact hsent
      · rw [hphase] at hsent
        exact ⟨hsent.2.symm, by rw [htooLarge, hsent.1]⟩
    have hdelivered : bodyBytes t.state.app.received ≤ l.maxBodyBytes := by
      obtain hphase | ⟨n, hphase, -, -⟩ := hrest
      · rw [hphase] at hcount
        exact hcount
      · rw [hphase] at hcount
        exact hcount.2
    have hall : (t.sent ++ [message]) ++ rest = t.state.app.sent ++ l.tooLarge := by
      rw [List.append_assoc, List.singleton_append]
      exact hown.2
    cases fault with
    | none => exact ⟨hrun, hdelivered, hown.1, hall⟩
    | some fault => exact ⟨hrun, hdelivered, hown.1, rest, hall⟩

theorem reachable_kept {scope : Scope} (hupload : l.isUpload scope = true)
    {t : Trace Received Sent (Wrapped (Trace Received Sent β))}
    (h : (served l app scope start).Reachable t) : Kept l app start t := by
  refine h.invariant (Kept l app start) ?_ ?_
  · rintro t rfl
    exact enter_kept l app start hupload
  · intro t answer t' hkept hstep
    cases answer with
    | received result => exact hkept.receive hstep
    | sent fault => exact hkept.send hstep

theorem Kept.delivered {t : Trace Received Sent (Wrapped (Trace Received Sent β))}
    (h : Kept l app start t) : bodyBytes t.state.app.received ≤ l.maxBodyBytes := by
  have hcount := h.count
  cases hphase : t.state.phase with
  | counting n started =>
    rw [hphase] at hcount
    exact hcount.2
  | passing | refusing rest | failed fault =>
    rw [hphase] at hcount
    exact hcount

/-- An application that starts at most one response, whatever it is answered. -/
def StartsOnce (app : App Received Sent Fault β) (start : β) : Prop :=
  ∀ t, (machine app start).Reachable t → starts t.sent ≤ 1

theorem Kept.starts {t : Trace Received Sent (Wrapped (Trace Received Sent β))}
    (h : Kept l app start t) (hone : StartsOnce app start) : starts t.sent ≤ 1 := by
  have hsent := h.sent
  have hresponse {own : List Sent} (hown : own.any Sent.isStart = false) :
      RequestBodyLimit.starts (own ++ l.tooLarge) = 1 := by
    rw [starts_append, starts_of_none hown, starts_tooLarge]
  have hsub {own : List Sent} (hown : own.any Sent.isStart = false) {sent : List Sent}
      (hle : sent <+: own ++ l.tooLarge) : RequestBodyLimit.starts sent ≤ 1 :=
    (hle.sublist.countP_le).trans (hresponse hown).le
  cases hphase : t.state.phase with
  | passing => exact absurd hphase h.not_passing
  | counting n started =>
    rw [hphase] at hsent
    rw [hsent.1]
    exact hone _ h.run
  | refusing rest =>
    rw [hphase] at hsent
    exact hsub hsent.1 ⟨rest, hsent.2⟩
  | failed fault =>
    rw [hphase] at hsent
    exact hsub hsent.1 hsent.2

end

end LearningTasks.Middleware.RequestBodyLimit
