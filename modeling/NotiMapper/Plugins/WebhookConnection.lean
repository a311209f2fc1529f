import NotiMapper.Plugins.Webhook

/-! A connection to the webhook receiver that is kept open: each request is read from the
first byte that is unread, which is where the handler of the one before it stopped. -/
namespace NotiMapper

open Python

inductive Method
  | get
  | post
  deriving DecidableEq

structure RequestHead where
  method : Method
  request : PostRequest

/-- What `http.server` finds at the first unread byte: the head of a request, something it
refuses before it closes the connection, or nothing. -/
inductive FoundHead
  | head (found : RequestHead) (unread : Bytes)
  | refused (response : Response)
  | over

/-- How `http.server` reads a head, of which there is at least one byte. -/
structure HeadReader where
  parse : Bytes → FoundHead
  shorter : ∀ bytes found unread, parse bytes = .head found unread → unread.length < bytes.length
  ended : parse [] = .over

/-- A request as it is sent. Its head is read whatever follows, and a Content-Length is the
length of its body. -/
structure SentRequest (reader : HeadReader) where
  headBytes : Bytes
  head : RequestHead
  body : Bytes
  read : ∀ rest, reader.parse (headBytes ++ rest) = .head head rest
  framed : ∀ raw, head.request.header "Content-Length" = some raw →
    ∃ length, numeral raw.text = some length ∧ length.value = body.length

/-- What goes over the wire. -/
def SentRequest.bytes {reader : HeadReader} (sent : SentRequest reader) : Bytes :=
  sent.headBytes ++ sent.body

namespace WebhookInput

variable (env : BodyReader) (hook : WebhookInput) (reader : HeadReader) (clock : Nat → Time)

/-- The method's handler. -/
def handle (now : Time) (head : RequestHead) (unread : Bytes) : Handled :=
  match head.method with
  | .get => doGet unread
  | .post => hook.doPost env head.request now unread

theorem doPost_unread (request : PostRequest) (now : Time) (unread : Bytes) :
    (hook.doPost env request now unread).unread.length ≤ unread.length := by
  unfold doPost
  split
  · exact le_refl _
  · split
    · exact le_refl _
    · exact le_refl _
    · split
      · exact le_refl _
      · split
        · exact le_refl _
        · split <;> simp

theorem handle_unread (now : Time) (head : RequestHead) (unread : Bytes) :
    (hook.handle env now head unread).unread.length ≤ unread.length := by
  unfold handle
  split
  · exact le_refl _
  · exact doPost_unread env hook _ now unread

/-- What is done on one connection, until there is nothing more to read, something that is
refused, or an exception; `k` requests have come before. -/
def serve (k : Nat) (bytes : Bytes) : List Handled :=
  match found : reader.parse bytes with
  | .over => []
  | .refused response => [⟨[response], [], 0, 0, [], none⟩]
  | .head head unread =>
    let handled := hook.handle env (clock k) head unread
    have : handled.unread.length < bytes.length :=
      lt_of_le_of_lt (handle_unread env hook _ head unread) (reader.shorter bytes head unread found)
    match handled.raised with
    | some _ => [handled]
    | none => handled :: serve (k + 1) handled.unread
termination_by bytes.length

/- What the outcome should be. -/

/-- What the sender and the core see. -/
def seen (handled : Handled) : List Response × List (List (String × String)) :=
  (handled.responses, handled.events.map (·.metadata))

/-- What the handler makes of a request with nothing but its own body behind the head. -/
def alone {reader : HeadReader} (now : Time) (sent : SentRequest reader) : Handled :=
  hook.handle env now sent.head sent.body

/-- Each request on the connection gets its one response, in order, and is judged as it is
alone. -/
def Independent (requests : List (SentRequest reader)) : Prop :=
  (hook.serve env reader clock 0 (requests.flatMap SentRequest.bytes)).map seen =
      requests.map (fun sent => seen (hook.alone env (clock 0) sent)) ∧
    ∀ sent ∈ requests, (hook.alone env (clock 0) sent).responses.length = 1

/-- A POST to the path, with the secret and a length within the limit. -/
def Acceptable (head : RequestHead) : Prop :=
  head.method = .post ∧ head.request.path = hook.path ∧ Presents hook head.request ∧
    ∃ length, contentLength head.request = some length ∧ ¬ hook.maxBody < length

/-- A request whose handler does not raise, and which has no body if it is refused. -/
structure Clean {reader : HeadReader} (sent : SentRequest reader) : Prop where
  comparable : sent.head.method = .post → sent.head.request.path = hook.path →
    Comparable hook sent.head.request
  shallow : Acceptable hook sent.head → env.loads sent.body ≠ .tooDeep
  empty : ¬ Acceptable hook sent.head → sent.body = []

variable {env hook reader clock}

theorem serve_head {bytes unread : Bytes} {head : RequestHead} {k : Nat}
    (found : reader.parse bytes = .head head unread)
    (returned : (hook.handle env (clock k) head unread).raised = none) :
    hook.serve env reader clock k bytes = hook.handle env (clock k) head unread ::
      hook.serve env reader clock (k + 1) (hook.handle env (clock k) head unread).unread := by
  rw [serve]
  split
  · rename_i ended
    rw [found] at ended
    cases ended
  · rename_i refused
    rw [found] at refused
    cases refused
  · rename_i other rest same
    rw [found] at same
    cases same
    dsimp only
    rw [returned]

theorem serve_over {k : Nat} : hook.serve env reader clock k [] = [] := by
  rw [serve]
  split
  · rfl
  · rename_i refused
    rw [reader.ended] at refused
    cases refused
  · rename_i found
    rw [reader.ended] at found
    cases found

/-- A refusal does not touch what is unread. -/
theorem handle_refused {head : RequestHead} (refusable : ¬ Acceptable hook head)
    (comparable : head.method = .post → head.request.path = hook.path →
      Comparable hook head.request) :
    ∃ status message, ∀ now unread, hook.handle env now head unread = refuse status message unread := by
  unfold handle
  cases method : head.method with
  | get => exact ⟨405, "method not allowed", fun _ _ => rfl⟩
  | post =>
    dsimp only
    unfold doPost
    by_cases path : head.request.path ≠ hook.path
    · exact ⟨404, "not found", fun _ _ => if_pos path⟩
    · have same : head.request.path = hook.path := not_not.mp path
      rcases authorized_eq (comparable method same) with ⟨allowed, presented⟩ | ⟨denied, _⟩
      · cases length : contentLength head.request with
        | none =>
          refine ⟨411, "length required", fun _ _ => ?_⟩
          rw [if_neg path, allowed]
        | some length' =>
          refine ⟨413, "payload too large", fun _ _ => ?_⟩
          have large : hook.maxBody < length' := by
            by_contra small
            exact refusable ⟨method, same, presented, length', length, small⟩
          rw [if_neg path, allowed]
          exact if_pos large
      · refine ⟨401, "unauthorized", fun _ _ => ?_⟩
        rw [if_neg path, denied]

/-- What is accepted is read to its end, and no further. -/
theorem handle_accepted {sent : SentRequest reader} (acceptable : Acceptable hook sent.head)
    (comparable : Comparable hook sent.head.request) (shallow : env.loads sent.body ≠ .tooDeep)
    (now : Time) (rest : Bytes) : hook.handle env now sent.head (sent.body ++ rest) =
      ⟨[⟨204, ""⟩], [eventOf env now sent.head.request.source sent.body], 1, 0, rest, none⟩ := by
  obtain ⟨method, path, presented, length, announced, small⟩ := acceptable
  have whole : length = sent.body.length := by
    obtain ⟨raw, header, spelled⟩ := Option.bind_eq_some_iff.mp (contentLength_eq_some announced)
    obtain ⟨number, read, value⟩ := sent.framed raw header
    rw [read, Option.bind_some, value, if_neg (by omega)] at spelled
    exact (Option.some.inj spelled).symm
  have allowed : hook.authorized (sent.head.request.header hook.header) = .ok true := by
    rcases authorized_eq comparable with ⟨allowed, _⟩ | ⟨_, absent⟩
    · exact allowed
    · exact absurd presented absent
  simp only [handle, method, doPost, path, ne_eq, not_true, if_false, allowed, announced, small]
  rw [whole, List.take_left, List.drop_left]
  split
  · rename_i deep
    exact absurd deep shallow
  · rfl

/-- Whatever follows a clean request is what is unread after it. -/
theorem handle_clean {sent : SentRequest reader} (clean : Clean env hook sent) (now now' : Time)
    (rest : Bytes) :
    (hook.handle env now sent.head (sent.body ++ rest)).raised = none ∧
      (hook.handle env now sent.head (sent.body ++ rest)).unread = rest ∧
      seen (hook.handle env now sent.head (sent.body ++ rest)) =
        seen (hook.alone env now' sent) ∧
      (hook.alone env now' sent).responses.length = 1 := by
  by_cases acceptable : Acceptable hook sent.head
  · have comparable := clean.comparable acceptable.1 acceptable.2.1
    have handled := handle_accepted acceptable comparable (clean.shallow acceptable)
    have own := handled now' []
    rw [List.append_nil] at own
    rw [alone, handled now rest, own]
    exact ⟨rfl, rfl, rfl, rfl⟩
  · obtain ⟨status, message, handled⟩ : ∃ status message, ∀ now unread,
        hook.handle env now sent.head unread = refuse status message unread :=
      handle_refused acceptable clean.comparable
    rw [alone, handled, handled, clean.empty acceptable]
    exact ⟨rfl, rfl, rfl, rfl⟩

theorem serve_clean (requests : List (SentRequest reader))
    (clean : ∀ sent ∈ requests, Clean env hook sent) (k : Nat) (now : Time) :
    (hook.serve env reader clock k (requests.flatMap SentRequest.bytes)).map seen =
      requests.map fun sent => seen (hook.alone env now sent) := by
  induction requests generalizing k with
  | nil => rw [List.flatMap_nil, serve_over]; rfl
  | cons sent requests ih =>
    obtain ⟨first, others⟩ := List.forall_mem_cons.mp clean
    obtain ⟨returned, unread, same, _⟩ :=
      handle_clean first (clock k) now (requests.flatMap SentRequest.bytes)
    rw [List.flatMap_cons, SentRequest.bytes, List.append_assoc,
      serve_head (sent.read _) returned, unread, List.map_cons, List.map_cons, same, ih others]

/-- Requests on one connection are judged independently if none of them makes its handler
raise, and none that is refused has a body. -/
theorem connection_independent (env : BodyReader) (hook : WebhookInput) (reader : HeadReader)
    (clock : Nat → Time) (requests : List (SentRequest reader))
    (clean : ∀ sent ∈ requests, Clean env hook sent) :
    Independent env hook reader clock requests :=
  ⟨serve_clean requests clean 0 (clock 0),
    fun sent among => (handle_clean (clean sent among) 0 (clock 0) []).2.2.2⟩

theorem serve_refused {bytes : Bytes} {response : Response} {k : Nat}
    (found : reader.parse bytes = .refused response) :
    hook.serve env reader clock k bytes = [⟨[response], [], 0, 0, [], none⟩] := by
  rw [serve]
  split
  · rename_i ended
    rw [found] at ended
    cases ended
  · rename_i refused
    rw [found] at refused
    cases refused
    rfl
  · rename_i head
    rw [found] at head
    cases head

def bytesOf (text : String) : Bytes := text.toList.map fun c => UInt8.ofNat c.toNat

def wrongToken : HeaderText := ⟨"fedcba9876543210", forall_chars (by decide +kernel)⟩

def headBytesOf (token : HeaderText) : Bytes :=
  bytesOf ("POST / HTTP/1.1\r\nX-Noti-Mapper-Token: " ++ token.text ++
    "\r\nContent-Length: 5\r\n\r\n")

/-- What is read of heads with these two tokens, and of what has no method at its start. -/
def tokenReader : HeadReader where
  parse bytes :=
    if bytes = [] then .over
    else if headBytesOf rightToken <+: bytes then
      .head ⟨.post, tokened rightToken⟩ (bytes.drop (headBytesOf rightToken).length)
    else if headBytesOf wrongToken <+: bytes then
      .head ⟨.post, tokened wrongToken⟩ (bytes.drop (headBytesOf wrongToken).length)
    else .refused ⟨501, "Unsupported method"⟩
  shorter := by
    have taken {start bytes : Bytes} (starts : start <+: bytes) (some : 0 < start.length) :
        (bytes.drop start.length).length < bytes.length := by
      have := starts.length_le
      rw [List.length_drop]
      omega
    intro bytes found unread parsed
    split at parsed
    · cases parsed
    · split at parsed
      · rename_i starts
        cases parsed
        exact taken starts (by decide +kernel)
      · split at parsed
        · rename_i starts
          cases parsed
          exact taken starts (by decide +kernel)
        · cases parsed
  ended := if_pos rfl

theorem tokenReader_framed (token : HeaderText) (raw : HeaderText)
    (header : (tokened token).header "Content-Length" = some raw) :
    ∃ length, numeral raw.text = some length ∧ length.value = hello.length := by
  cases header
  exact ⟨⟨false, ['5']⟩, by decide +kernel, by decide⟩

theorem parse_right (rest : Bytes) : tokenReader.parse (headBytesOf rightToken ++ rest) =
    .head ⟨.post, tokened rightToken⟩ rest := by
  have some : headBytesOf rightToken ++ rest ≠ [] :=
    List.append_ne_nil_of_left_ne_nil (by decide +kernel) rest
  unfold tokenReader
  dsimp only
  rw [if_neg some, if_pos (List.prefix_append _ _), List.drop_left]

theorem parse_wrong (rest : Bytes) : tokenReader.parse (headBytesOf wrongToken ++ rest) =
    .head ⟨.post, tokened wrongToken⟩ rest := by
  have some : headBytesOf wrongToken ++ rest ≠ [] :=
    List.append_ne_nil_of_left_ne_nil (by decide +kernel) rest
  have differ : ¬ headBytesOf rightToken <+: headBytesOf wrongToken ++ rest := by
    intro starts
    have inside := List.prefix_of_prefix_length_le starts (List.prefix_append _ rest)
      (show (headBytesOf rightToken).length ≤ (headBytesOf wrongToken).length by decide +kernel)
    exact absurd inside (by decide +kernel)
  unfold tokenReader
  dsimp only
  rw [if_neg some, if_neg differ, if_pos (List.prefix_append _ _), List.drop_left]

def sentRight : SentRequest tokenReader where
  headBytes := headBytesOf rightToken
  head := ⟨.post, tokened rightToken⟩
  body := hello
  read := parse_right
  framed := tokenReader_framed rightToken

def sentWrong : SentRequest tokenReader where
  headBytes := headBytesOf wrongToken
  head := ⟨.post, tokened wrongToken⟩
  body := hello
  read := parse_wrong
  framed := tokenReader_framed wrongToken

def receiver : WebhookInput := built plainReader.writer secretOnly

theorem receiver_reads (token : HeaderText) (ascii : isAscii token.text = true) :
    Comparable receiver (tokened token) := by
  intro presented found
  cases found
  exact ⟨ascii, by decide⟩

theorem connection_independent_hello :
    Independent plainReader receiver tokenReader (fun _ => 0) [sentRight, sentRight] := by
  have acceptable : Acceptable receiver sentRight.head :=
    ⟨rfl, rfl, rfl, 5, by decide +kernel, by decide⟩
  apply connection_independent
  intro sent among
  have same : sent = sentRight := by simpa using among
  rw [same]
  exact ⟨fun _ _ => receiver_reads rightToken (by decide), (fun _ deep => by cases deep),
    fun refused => absurd acceptable refused⟩

/-- The body of a request with a wrong token stands in front of the next request, which is
refused though its token is right. -/
theorem body_left_unread :
    ¬ Independent plainReader receiver tokenReader (fun _ => 0) [sentWrong, sentRight] := by
  rintro ⟨served, _⟩
  have left : tokenReader.parse (hello ++ (headBytesOf rightToken ++ hello)) =
      .refused ⟨501, "Unsupported method"⟩ := by
    unfold tokenReader
    dsimp only
    rw [if_neg (by decide +kernel), if_neg (by decide +kernel), if_neg (by decide +kernel)]
  have refused : receiver.handle plainReader 0 ⟨.post, tokened wrongToken⟩
      (hello ++ (headBytesOf rightToken ++ hello)) =
        refuse 401 "unauthorized" (hello ++ (headBytesOf rightToken ++ hello)) := by
    rfl
  have bytes : [sentWrong, sentRight].flatMap SentRequest.bytes =
      headBytesOf wrongToken ++ (hello ++ (headBytesOf rightToken ++ hello)) := by
    simp [SentRequest.bytes, sentWrong, sentRight]
  have ended : receiver.serve plainReader tokenReader (fun _ => 0) 1
      (hello ++ (headBytesOf rightToken ++ hello)) = _ := serve_refused left
  rw [bytes, serve_head (parse_wrong _) (by rw [refused]; rfl), refused, refuse, ended] at served
  have second := congrArg Prod.fst (List.cons.inj (List.cons.inj served).2).1
  exact absurd second (by decide +kernel)

end WebhookInput

end NotiMapper
