import OpenAdb.Lib.LineFrames
import OpenAdb.P2p.Bootstrap

namespace OpenAdb.P2p.ControlChannel

open OpenAdb.Lib.PyText OpenAdb.Lib.Encoding OpenAdb.Lib.LineFrames OpenAdb.P2p.Bootstrap

def P2P_CONTROL_MAX_LINE_BYTES : Nat := 65536

inductive ControlError
  | transfer (message : Text)
  | timeout (message : Text)
  | eof (message : Text)
  deriving DecidableEq

def oversized : ControlError := .transfer "ACBridge returned oversized control metadata.".toList
def cancelledByUser : ControlError := .transfer "P2P transfer cancelled by user.".toList
def timedOut : ControlError := .timeout "ACBridge P2P control channel timed out".toList
def channelClosed : ControlError := .eof "ACBridge closed the P2P control channel".toList

/-- What one turn of the loop finds: the cancel event, the clock past the deadline, the flag of
`close`, and what `recv` gives, which is nothing when the socket times out. -/
structure Poll where
  cancelled : Bool
  expired : Bool
  closed : Bool
  received : Option Bytes
  deriving DecidableEq

/-- The peer has closed the connection when no turn is left. -/
structure Channel where
  buffer : Bytes
  polls : List Poll
  deriving DecidableEq

variable (d : Utf8Decoder) (allow_timeout : Bool)

/-- The line at the start of the buffer, up to the newline that was found. -/
def takeLine (buffer : Bytes) (polls : List Poll) (newline : Nat) : Except ControlError Text × Channel :=
  if P2P_CONTROL_MAX_LINE_BYTES < newline then (.error oversized, ⟨buffer, polls⟩)
  else
    let raw := buffer.take newline
    (.ok (d.decode (dropCarriageReturn raw)), ⟨buffer.drop (newline + 1), polls⟩)

def readLineFrom (buffer : Bytes) : List Poll → Except ControlError Text × Channel
  | [] =>
    if 10 ∈ buffer then takeLine d buffer [] (buffer.idxOf 10)
    else if P2P_CONTROL_MAX_LINE_BYTES < buffer.length then (.error oversized, ⟨buffer, []⟩)
    else (.error channelClosed, ⟨buffer, []⟩)
  | poll :: polls =>
    if 10 ∈ buffer then takeLine d buffer (poll :: polls) (buffer.idxOf 10)
    else if P2P_CONTROL_MAX_LINE_BYTES < buffer.length then (.error oversized, ⟨buffer, poll :: polls⟩)
    else if poll.cancelled then (.error cancelledByUser, ⟨buffer, polls⟩)
    else if poll.expired then (if allow_timeout then .ok [] else .error timedOut, ⟨buffer, polls⟩)
    else if poll.closed then (.error channelClosed, ⟨buffer, polls⟩)
    else
      match poll.received with
      | none => readLineFrom buffer polls
      | some chunk =>
        if chunk = [] then (.error channelClosed, ⟨buffer, polls⟩)
        else if P2P_CONTROL_MAX_LINE_BYTES < (buffer ++ chunk).length ∧ 10 ∉ buffer ++ chunk then
          (.error oversized, ⟨buffer ++ chunk, polls⟩)
        else readLineFrom (buffer ++ chunk) polls

def readLine (channel : Channel) : Except ControlError Text × Channel :=
  readLineFrom d allow_timeout channel.buffer channel.polls

/-- Neither cancellation nor the deadline, and no empty chunk. -/
def Poll.Quiet (poll : Poll) : Prop :=
  poll.cancelled = false ∧ poll.expired = false ∧ poll.closed = false ∧ poll.received ≠ some []

instance (poll : Poll) : Decidable poll.Quiet := inferInstanceAs (Decidable (_ ∧ _))

def receivedBytes (polls : List Poll) : Bytes := polls.flatMap (fun poll => poll.received.getD [])

/-- The result of a call for the frame that it meets. -/
def lineResult : Frame UInt8 → Except ControlError Text
  | .line raw => .ok (d.decode (dropCarriageReturn raw))
  | .tooLong => .error oversized
  | .ended => .error channelClosed

/-- What the calls return for a stream: its lines in order, up to one over the limit or to its end. -/
def lineResults (stream : Bytes) : List (Except ControlError Text) :=
  (frames P2P_CONTROL_MAX_LINE_BYTES (stream.splitOn 10)).map (lineResult d)

variable {d} {allow_timeout}

/-- A channel without disturbances stands for the stream it still has to deliver. -/
def Delivers (channel : Channel) (stream : Bytes) : Prop :=
  channel.buffer ++ receivedBytes channel.polls = stream ∧ ∀ poll ∈ channel.polls, poll.Quiet

def firstFrame (stream : Bytes) : Frame UInt8 × Bytes := next 10 P2P_CONTROL_MAX_LINE_BYTES stream

/-- One call agrees with the first frame of the stream. -/
def Agrees (result : Except ControlError Text × Channel) (stream : Bytes) : Prop :=
  result.1 = lineResult d (firstFrame stream).1 ∧ Delivers result.2 (firstFrame stream).2

theorem takeLine_agrees {buffer : Bytes} {polls : List Poll} (h : 10 ∈ buffer)
    (hquiet : ∀ poll ∈ polls, poll.Quiet) :
    Agrees (d := d) (takeLine d buffer polls (buffer.idxOf 10)) (buffer ++ receivedBytes polls) := by
  obtain ⟨line, rest, rfl, hline⟩ := List.eq_append_cons_of_mem h
  have hindex : (line ++ 10 :: rest).idxOf 10 = line.length := by
    rw [List.idxOf_append, if_neg hline, List.idxOf_cons_self, Nat.zero_add]
  rw [Agrees, firstFrame, takeLine, hindex, List.append_assoc, List.cons_append, next_line hline]
  by_cases hlong : P2P_CONTROL_MAX_LINE_BYTES < line.length
  · rw [if_pos hlong, if_pos hlong]
    refine ⟨rfl, ?_, hquiet⟩
    rw [List.append_assoc, List.cons_append]
  · rw [if_neg hlong, if_neg hlong]
    refine ⟨?_, ?_, hquiet⟩
    · simp only [List.take_left]
      rfl
    · simp only [List.drop_length_add_append, List.drop_one, List.tail_cons]

theorem oversized_agrees {buffer : Bytes} {polls : List Poll} (h : 10 ∉ buffer)
    (hlong : P2P_CONTROL_MAX_LINE_BYTES < buffer.length) (hquiet : ∀ poll ∈ polls, poll.Quiet) :
    Agrees (d := d) (.error oversized, ⟨buffer, polls⟩) (buffer ++ receivedBytes polls) := by
  rw [Agrees, firstFrame, next_tooLong h hlong]
  exact ⟨rfl, rfl, hquiet⟩

theorem closed_agrees {buffer : Bytes} (h : 10 ∉ buffer)
    (hshort : ¬P2P_CONTROL_MAX_LINE_BYTES < buffer.length) :
    Agrees (d := d) (.error channelClosed, ⟨buffer, []⟩) (buffer ++ receivedBytes []) := by
  rw [receivedBytes, List.flatMap_nil, List.append_nil, Agrees, firstFrame, next_last h, Frame.last, if_neg hshort]
  exact ⟨rfl, List.append_nil _, List.forall_mem_nil _⟩

theorem readLineFrom_agrees (buffer : Bytes) {polls : List Poll} (hquiet : ∀ poll ∈ polls, poll.Quiet) :
    Agrees (d := d) (readLineFrom d allow_timeout buffer polls) (buffer ++ receivedBytes polls) := by
  induction polls generalizing buffer with
  | nil =>
    rw [readLineFrom]
    split_ifs with hline hlong
    · exact takeLine_agrees hline hquiet
    · exact oversized_agrees hline hlong hquiet
    · exact closed_agrees hline hlong
  | cons poll polls ih =>
    obtain ⟨hcancelled, hexpired, hclosed, hreceived⟩ := hquiet poll List.mem_cons_self
    have hrest : ∀ poll ∈ polls, poll.Quiet := fun p hp => hquiet p (List.mem_cons_of_mem _ hp)
    rw [readLineFrom, hcancelled, hexpired, hclosed]
    by_cases hline : 10 ∈ buffer
    · rw [if_pos hline]
      exact takeLine_agrees hline hquiet
    rw [if_neg hline]
    by_cases hlong : P2P_CONTROL_MAX_LINE_BYTES < buffer.length
    · rw [if_pos hlong]
      exact oversized_agrees hline hlong hquiet
    rw [if_neg hlong]
    cases hchunk : poll.received with
    | none =>
      have hsame : receivedBytes (poll :: polls) = receivedBytes polls := by
        rw [receivedBytes, List.flatMap_cons, hchunk]
        rfl
      rw [hsame]
      exact ih buffer hrest
    | some chunk =>
      have hmore : buffer ++ receivedBytes (poll :: polls) = (buffer ++ chunk) ++ receivedBytes polls := by
        rw [receivedBytes, List.flatMap_cons, hchunk, List.append_assoc]
        rfl
      have hne : chunk ≠ [] := fun h => hreceived (by rw [hchunk, h])
      rw [hmore]
      simp only [Bool.false_eq_true, if_false, if_neg hne]
      split_ifs with hover
      · exact oversized_agrees hover.2 hover.1 hrest
      · exact ih (buffer ++ chunk) hrest

theorem readLine_agrees {channel : Channel} {stream : Bytes} (h : Delivers channel stream) :
    (readLine d allow_timeout channel).1 = lineResult d (firstFrame stream).1 ∧
      Delivers (readLine d allow_timeout channel).2 (firstFrame stream).2 := by
  obtain ⟨rfl, hquiet⟩ := h
  exact readLineFrom_agrees channel.buffer hquiet

theorem results_readLine {polls : List Poll} (hquiet : ∀ poll ∈ polls, poll.Quiet) (n : Nat) :
    results (readLine d allow_timeout) n ⟨[], polls⟩ =
      (results firstFrame n (receivedBytes polls)).map (lineResult d) :=
  results_simulated Delivers (lineResult d) (fun _ _ => readLine_agrees) n ⟨rfl, hquiet⟩

/-- However a stream is split, the calls return its lines up to the first failure, and then fail so again. -/
theorem readLine_results {polls polls' : List Poll} (hquiet : ∀ poll ∈ polls, poll.Quiet)
    (hquiet' : ∀ poll ∈ polls', poll.Quiet) (hsame : receivedBytes polls = receivedBytes polls') (n : Nat) :
    results (readLine d allow_timeout) n ⟨[], polls⟩ = results (readLine d allow_timeout) n ⟨[], polls'⟩ ∧
      ∃ failure, (lineResults d (receivedBytes polls)).getLast? = some failure ∧
        results (readLine d allow_timeout) ((lineResults d (receivedBytes polls)).length + n) ⟨[], polls⟩ =
          lineResults d (receivedBytes polls) ++ List.replicate n failure := by
  constructor
  · rw [results_readLine hquiet, results_readLine hquiet', hsame]
  · obtain ⟨last, hlast, hresults⟩ : ∃ last,
        (frames P2P_CONTROL_MAX_LINE_BYTES ((receivedBytes polls).splitOn 10)).getLast? = some last ∧ _ :=
      results_next (receivedBytes polls) n
    refine ⟨lineResult d last, ?_, ?_⟩
    · rw [lineResults, List.getLast?_map, hlast]
      rfl
    · rw [results_readLine hquiet, lineResults, List.length_map]
      unfold firstFrame
      rw [hresults, List.map_append, List.map_replicate]

def arrived (chunk : Bytes) : Poll := ⟨false, false, false, some chunk⟩

/-- `OK`, a carriage return and a newline, cut inside the line end. -/
theorem readLine_results_cut_line_end :
    results (readLine .replacing false) 2 ⟨[], [arrived [79, 75, 13], arrived [10]]⟩ =
        results (readLine .replacing false) 2 ⟨[], [arrived [79], ⟨false, false, false, none⟩, arrived [75, 13, 10]]⟩ ∧
      ∃ failure, (lineResults .replacing [79, 75, 13, 10]).getLast? = some failure ∧
        results (readLine .replacing false) ((lineResults .replacing [79, 75, 13, 10]).length + 2)
            ⟨[], [arrived [79, 75, 13], arrived [10]]⟩ =
          lineResults .replacing [79, 75, 13, 10] ++ List.replicate 2 failure :=
  readLine_results (List.forall_iff_forall_mem.mp (by decide)) (List.forall_iff_forall_mem.mp (by decide)) rfl 2

end OpenAdb.P2p.ControlChannel
