import LearningTasks.Library.Strings

namespace LearningTasks.Library.EventStream

open Strings

/-- The lines of a stream that have ended. What follows the last of them is pending. -/
def endedLines (pending : Text) : Text → List Text
  | [] => []
  | '\r' :: '\n' :: s => pending :: endedLines [] s
  | c :: s =>
    if c = '\n' ∨ c = '\r' then pending :: endedLines [] s else endedLines (pending ++ [c]) s

structure Message where
  lastEventId : Text
  eventType : Text
  data : Text
  deriving DecidableEq

/-- A reader of event streams: the buffers of the stream that it reads, the last event id that it
would ask a server to continue after, and the messages dispatched so far. -/
structure Reader where
  data : Text
  eventType : Text
  idBuffer : Text
  lastEventId : Text
  dispatched : List Message
  deriving DecidableEq

def Reader.field (r : Reader) (name value : Text) : Reader :=
  if name = "event".toList then { r with eventType := value }
  else if name = "data".toList then { r with data := r.data ++ value ++ ['\n'] }
  else if name = "id".toList then
    if Char.ofNat 0 ∈ value then r else { r with idBuffer := value }
  else r

def Reader.dispatch (r : Reader) : Reader where
  data := []
  eventType := []
  idBuffer := r.idBuffer
  lastEventId := r.idBuffer
  dispatched :=
    if r.data = [] then r.dispatched
    else r.dispatched ++ [⟨r.idBuffer, if r.eventType = [] then "message".toList else r.eventType,
      r.data.dropLast⟩]

/-- A line without a colon is the name of a field that has no value. -/
def Reader.line (r : Reader) (l : Text) : Reader :=
  if l = [] then r.dispatch
  else
    match l.dropWhile (· ≠ ':') with
    | [] => r.field l []
    | _ :: ' ' :: value => r.field (l.takeWhile (· ≠ ':')) value
    | _ :: value => r.field (l.takeWhile (· ≠ ':')) value

/-- A new stream starts with empty buffers, and what is pending at its end is discarded. -/
def Reader.read (r : Reader) (stream : Text) : Reader :=
  (endedLines [] stream).foldl Reader.line { r with data := [], eventType := [], idBuffer := [] }

def Reader.cursor (r : Reader) : Option Text :=
  if r.lastEventId = [] then none else some r.lastEventId

def Reader.new : Reader := ⟨[], [], [], [], []⟩

def Unbroken (l : Text) : Prop := ∀ c ∈ l, c ≠ '\n' ∧ c ≠ '\r'

structure Frame extends Message where
  id_unbroken : Unbroken lastEventId
  type_unbroken : Unbroken eventType
  data_unbroken : Unbroken data
  id_plain : Char.ofNat 0 ∉ lastEventId
  typed : eventType ≠ []

def Frame.lines (f : Frame) : List Text :=
  ["id: ".toList ++ f.lastEventId, "event: ".toList ++ f.eventType, "data: ".toList ++ f.data, []]

def unlines (lines : List Text) : Text := lines.flatMap (· ++ ['\n'])

theorem unlines_cons (l : Text) (lines : List Text) :
    unlines (l :: lines) = l ++ '\n' :: unlines lines := by
  rw [unlines, List.flatMap_cons, List.append_assoc, List.singleton_append, unlines]

def encode (frames : List Frame) : Text := unlines (frames.flatMap Frame.lines)

section

variable {l tail : Text} {lines : List Text}

theorem endedLines_unbroken (h : Unbroken tail) (pending : Text) :
    endedLines pending tail = [] := by
  induction tail generalizing pending with
  | nil => rfl
  | cons c tail ih =>
    obtain ⟨hn, hr⟩ := h c List.mem_cons_self
    rw [endedLines.eq_3 pending c tail fun s hc _ ↦ hr hc, if_neg (by simp [hn, hr])]
    exact ih (fun d hd ↦ h d (List.mem_cons_of_mem c hd)) _

theorem endedLines_line (h : Unbroken l) (pending s : Text) :
    endedLines pending (l ++ '\n' :: s) = (pending ++ l) :: endedLines [] s := by
  induction l generalizing pending with
  | nil =>
    rw [List.nil_append, List.append_nil, endedLines.eq_3 pending '\n' s (by simp),
      if_pos (by simp)]
  | cons c l ih =>
    obtain ⟨hn, hr⟩ := h c List.mem_cons_self
    rw [List.cons_append, endedLines.eq_3 pending c (l ++ '\n' :: s) fun s hc _ ↦ hr hc,
      if_neg (by simp [hn, hr]), ih fun d hd ↦ h d (List.mem_cons_of_mem c hd)]
    simp

theorem endedLines_unlines (h : ∀ l ∈ lines, Unbroken l) (ht : Unbroken tail) :
    endedLines [] (unlines lines ++ tail) = lines := by
  induction lines with
  | nil => exact endedLines_unbroken ht []
  | cons l lines ih =>
    rw [unlines_cons, List.append_assoc, List.cons_append,
      endedLines_line (h l List.mem_cons_self), ih fun m hm ↦ h m (List.mem_cons_of_mem l hm),
      List.nil_append]

theorem take_unlines (h : ∀ l ∈ lines, Unbroken l) (n : ℕ) :
    ∃ k tail, (unlines lines).take n = unlines (lines.take k) ++ tail ∧ Unbroken tail ∧
      ((unlines lines).length ≤ n → lines.length ≤ k) := by
  induction lines generalizing n with
  | nil => exact ⟨0, [], by simp [unlines], by simp [Unbroken], by simp⟩
  | cons l lines ih =>
    have hl := h l List.mem_cons_self
    rcases Nat.lt_or_ge l.length n with hn | hn
    · obtain ⟨m, rfl⟩ : ∃ m, n = l.length + (m + 1) := ⟨n - l.length - 1, by omega⟩
      obtain ⟨k, tail, htake, htail, hall⟩ := ih (fun m hm ↦ h m (List.mem_cons_of_mem l hm)) m
      refine ⟨k + 1, tail, ?_, htail, fun hlong ↦ ?_⟩
      · rw [unlines_cons, List.take_length_add_append, List.take_succ_cons, htake]
        simp [unlines]
      · rw [unlines_cons, List.length_append, List.length_cons] at hlong
        rw [List.length_cons]
        have := hall (by omega)
        omega
    · refine ⟨0, l.take n, ?_, fun c hc ↦ hl c (List.mem_of_mem_take hc), fun hlong ↦ ?_⟩
      · rw [unlines_cons, List.take_append_of_le_length hn]
        rfl
      · rw [unlines_cons, List.length_append, List.length_cons] at hlong
        omega

end

section

variable {r : Reader} {frames : List Frame}

theorem Frame.lines_unbroken (f : Frame) : ∀ l ∈ f.lines, Unbroken l := by
  intro l hl c hc
  simp only [Frame.lines, List.mem_cons, List.not_mem_nil, or_false] at hl
  rcases hl with rfl | rfl | rfl | rfl
  · rcases List.mem_append.mp hc with hc | hc
    · exact (by simp : ∀ c ∈ "id: ".toList, c ≠ '\n' ∧ c ≠ '\r') c hc
    · exact f.id_unbroken c hc
  · rcases List.mem_append.mp hc with hc | hc
    · exact (by simp : ∀ c ∈ "event: ".toList, c ≠ '\n' ∧ c ≠ '\r') c hc
    · exact f.type_unbroken c hc
  · rcases List.mem_append.mp hc with hc | hc
    · exact (by simp : ∀ c ∈ "data: ".toList, c ≠ '\n' ∧ c ≠ '\r') c hc
    · exact f.data_unbroken c hc
  · cases hc

def Reader.Idle (r : Reader) : Prop := r.data = [] ∧ r.eventType = []

theorem Reader.line_id (r : Reader) {value : Text} (h : Char.ofNat 0 ∉ value) :
    r.line ("id: ".toList ++ value) = { r with idBuffer := value } := by
  change (if Char.ofNat 0 ∈ value then r else { r with idBuffer := value }) = _
  rw [if_neg h]

theorem Reader.line_event (r : Reader) (value : Text) :
    r.line ("event: ".toList ++ value) = { r with eventType := value } := rfl

theorem Reader.line_data (r : Reader) (value : Text) :
    r.line ("data: ".toList ++ value) = { r with data := r.data ++ value ++ ['\n'] } := rfl

theorem Reader.read_frame (h : r.Idle) (f : Frame) :
    f.lines.foldl Reader.line r =
      ⟨[], [], f.lastEventId, f.lastEventId, r.dispatched ++ [f.toMessage]⟩ := by
  simp only [Frame.lines, List.foldl_cons, List.foldl_nil, line_id r f.id_plain, line_event,
    line_data, h.1, List.nil_append]
  simp [Reader.line, Reader.dispatch, f.typed]

theorem Reader.read_part (f : Frame) {k : ℕ} (hk : k < 4) :
    ((f.lines.take k).foldl Reader.line r).dispatched = r.dispatched ∧
      ((f.lines.take k).foldl Reader.line r).lastEventId = r.lastEventId := by
  have hcases : k = 0 ∨ k = 1 ∨ k = 2 ∨ k = 3 := by omega
  rcases hcases with rfl | rfl | rfl | rfl
  · exact ⟨rfl, rfl⟩
  all_goals
    simp only [Frame.lines, List.take_succ_cons, List.take_zero, List.foldl_cons, List.foldl_nil,
      line_id r f.id_plain, line_event, line_data, and_self]

theorem Reader.read_lines (h : r.Idle) (k : ℕ) :
    ∃ q ≤ frames.length,
      (((frames.flatMap Frame.lines).take k).foldl Reader.line r).dispatched =
        r.dispatched ++ (frames.take q).map Frame.toMessage ∧
      (((frames.flatMap Frame.lines).take k).foldl Reader.line r).lastEventId =
        ((frames.take q).getLast?.map (·.lastEventId)).getD r.lastEventId ∧
      ((frames.flatMap Frame.lines).length ≤ k → q = frames.length) := by
  induction frames generalizing r k with
  | nil => exact ⟨0, le_rfl, by simp, by simp, fun _ ↦ rfl⟩
  | cons f frames ih =>
    have hlength : f.lines.length = 4 := rfl
    rcases Nat.lt_or_ge k 4 with hk | hk
    · obtain ⟨hdispatched, hid⟩ := Reader.read_part (r := r) f hk
      refine ⟨0, Nat.zero_le _, ?_, ?_, fun hlong ↦ ?_⟩
      · rw [List.flatMap_cons, List.take_append_of_le_length (by omega), hdispatched]
        simp
      · rw [List.flatMap_cons, List.take_append_of_le_length (by omega), hid]
        simp
      · rw [List.flatMap_cons, List.length_append] at hlong
        omega
    · obtain ⟨m, rfl⟩ : ∃ m, k = f.lines.length + m := ⟨k - 4, by omega⟩
      have hread : ((f :: frames).flatMap Frame.lines).take (f.lines.length + m) =
          f.lines ++ (frames.flatMap Frame.lines).take m := by
        rw [List.flatMap_cons, List.take_length_add_append]
      obtain ⟨q, hq, hdispatched, hid, hall⟩ := @ih
        ⟨[], [], f.lastEventId, f.lastEventId, r.dispatched ++ [f.toMessage]⟩ ⟨rfl, rfl⟩ m
      refine ⟨q + 1, Nat.succ_le_succ hq, ?_, ?_, fun hlong ↦ ?_⟩
      · rw [hread, List.foldl_append, Reader.read_frame h, hdispatched]
        simp
      · rw [hread, List.foldl_append, Reader.read_frame h, hid, List.take_succ_cons]
        cases hlast : (frames.take q).getLast? <;> simp [List.getLast?_cons, hlast]
      · rw [List.flatMap_cons, List.length_append] at hlong
        rw [hall (by omega), List.length_cons]

/-- A stream that is cut anywhere dispatches the messages of the frames before the cut, and
leaves the id of the last of them to continue after. -/
theorem Reader.read_cut (r : Reader) (frames : List Frame) (n : ℕ) :
    ∃ q ≤ frames.length,
      (r.read ((encode frames).take n)).dispatched =
        r.dispatched ++ (frames.take q).map Frame.toMessage ∧
      (r.read ((encode frames).take n)).lastEventId =
        ((frames.take q).getLast?.map (·.lastEventId)).getD r.lastEventId ∧
      ((encode frames).length ≤ n → q = frames.length) := by
  have hlines : ∀ l ∈ frames.flatMap Frame.lines, Unbroken l := by
    intro l hl
    obtain ⟨f, -, hf⟩ := List.mem_flatMap.mp hl
    exact f.lines_unbroken l hf
  obtain ⟨k, tail, htake, htail, hall⟩ := take_unlines hlines n
  have hidle : ({ r with data := [], eventType := [], idBuffer := [] } : Reader).Idle := ⟨rfl, rfl⟩
  obtain ⟨q, hq, hdispatched, hid, hwhole⟩ := @Reader.read_lines _ frames hidle k
  have hread : endedLines [] ((encode frames).take n) = (frames.flatMap Frame.lines).take k := by
    rw [encode, htake, endedLines_unlines (fun l hl ↦ hlines l (List.mem_of_mem_take hl)) htail]
  refine ⟨q, hq, ?_, ?_, fun hlong ↦ hwhole (hall hlong)⟩
  · rw [Reader.read, hread, hdispatched]
  · rw [Reader.read, hread, hid]

end

end LearningTasks.Library.EventStream
