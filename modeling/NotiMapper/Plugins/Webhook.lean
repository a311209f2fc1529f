import NotiMapper.Plugins.Settings
import NotiMapper.Storage

/-! The webhook receiver: its settings, and what its handler does with one request. -/
namespace NotiMapper

open Python

abbrev Bytes := List UInt8

/-- A header as `http.server` reads it. -/
structure HeaderText where
  text : String
  latin1 : ∀ c ∈ text.toList, c.toNat < 256

/-- A body as `_parse_json` takes it. -/
inductive LoadedBody
  | notJson
  | tooDeep
  | json (value : Json)

/-- What Python does with the bytes of a body, and with values that are not texts. -/
structure BodyReader where
  writer : Writer
  decode : Bytes → String
  loads : Bytes → LoadedBody

/-- The head of a POST request; `header` is `self.headers.get`. -/
structure PostRequest where
  source : String
  path : String
  header : String → Option HeaderText

/-- The metadata of an event, before it is rendered. -/
structure WebhookEvent where
  occurredAt : Time
  metadata : List (String × String)

structure Response where
  status : Nat
  message : String
  deriving DecidableEq

/-- What the handler of a request does. -/
structure Handled where
  responses : List Response
  events : List WebhookEvent
  accepted : Nat
  rejected : Nat
  unread : Bytes
  raised : Option String

def defaultBind : String := "127.0.0.1"
def defaultPort : Int := 9736
def defaultHeader : String := "X-Noti-Mapper-Token"
def defaultPath : String := "/"
def maxBodyBytes : Int := 64 * 1024

def maxMetadataValueLength : Nat := 1024

def clampMetadata (metadata : List (String × String)) : List (String × String) :=
  metadata.map fun (key, value) =>
    if maxMetadataValueLength < value.length then
      (key, String.ofList (value.toList.take maxMetadataValueLength) ++ "...[truncated]")
    else (key, value)

structure WebhookInput where
  bind : String
  port : Int
  path : String
  header : String
  secret : String
  maxBody : Int

namespace WebhookInput

def knownSettings : List String := ["secret", "bind", "port", "path", "header", "max_body_bytes"]

def secretProblems (settings : SettingsObject) : List String :=
  match settings.given "secret" with
  | none =>
    ["\"secret\" is required; this plugin has no anonymous mode. Put the " ++
      "value in /etc/noti-mapper/secrets.json and reference it as " ++ "\"$\x7bsecret:name\x7d\"."]
  | some (.string secret) =>
    if secret.length < 16 then [SettingsObject.mustBe "secret" "a string of at least 16 characters"]
    else []
  | some _ => [SettingsObject.mustBe "secret" "a string of at least 16 characters"]

def pathProblems (settings : SettingsObject) : List String :=
  match settings.given "path" with
  | some (.string path) =>
    if path.toList.head? = some '/' then [] else ["\"path\" must start with \"/\""]
  | _ => []

def portProblems (settings : SettingsObject) : List String :=
  match settings.given "port" with
  | some (.int port) => if 65535 < port then ["\"port\" must be below 65536"] else []
  | _ => []

def validateSettings (settings : SettingsObject) : List String :=
  settings.unknownSettings knownSettings ++ secretProblems settings ++
    ["bind", "path", "header"].flatMap
      (settings.optional SettingsObject.isText "a non-empty string") ++
    pathProblems settings ++
    settings.optional (SettingsObject.isIntegerFrom 0) "a positive integer" "port" ++
    settings.optional (SettingsObject.isIntegerFrom 1) "a positive integer" "max_body_bytes" ++
    portProblems settings

/-- `__init__`, as far as the settings go. -/
def init (w : Writer) (settings : SettingsObject) : Except SettingError WebhookInput := do
  let bind := settings.text w "bind" defaultBind
  let port ← settings.integer w "port" defaultPort
  let path := settings.text w "path" defaultPath
  let header := settings.text w "header" defaultHeader
  let secret ← settings.required w "secret"
  let maxBody ← settings.integer w "max_body_bytes" maxBodyBytes
  return ⟨bind, port, path, header, secret, maxBody⟩

/-- What the documentation makes of the settings. -/
def documented (settings : SettingsObject) : WebhookInput where
  bind := settings.textOr "bind" defaultBind
  port := settings.integerOr "port" defaultPort
  path := settings.textOr "path" defaultPath
  header := settings.textOr "header" defaultHeader
  secret := settings.textOr "secret" ""
  maxBody := settings.integerOr "max_body_bytes" maxBodyBytes

def isAscii (text : String) : Bool := text.toList.all (·.toNat < 128)

/-- `hmac.compare_digest`, of two texts. -/
def compareDigest (a b : String) : Except String Bool :=
  if isAscii a && isAscii b then .ok (a = b)
  else .error "TypeError: comparing strings with non-ASCII characters is not supported"

variable (env : BodyReader) (hook : WebhookInput) (request : PostRequest) (now : Time)

def authorized : Option HeaderText → Except String Bool
  | none => .ok false
  | some presented => compareDigest presented.text hook.secret

/-- `_content_length`. -/
def contentLength : Option Nat :=
  match request.header "Content-Length" with
  | none => none
  | some raw =>
    match int raw.text with
    | none => none
    | some length => if length < 0 then none else some length.toNat

/-- The event that `accept` emits for a body. -/
def eventOf (source : String) (body : Bytes) : WebhookEvent :=
  let parsed :=
    match env.loads body with
    | .json (.object members) => members
    | _ => []
  ⟨now, clampMetadata ([("source", source), ("body", env.decode body)] ++
    parsed.map fun member => ("json." ++ member.1, member.2.str env.writer))⟩

/-- `reject` and the answer. -/
def refuse (status : Nat) (message : String) (unread : Bytes) : Handled :=
  ⟨[⟨status, message⟩], [], 0, 1, unread, none⟩

/-- `do_POST`, with what is unread of the connection behind the head. -/
def doPost (unread : Bytes) : Handled :=
  if request.path ≠ hook.path then refuse 404 "not found" unread
  else
    match hook.authorized (request.header hook.header) with
    | .error raised => ⟨[], [], 0, 0, unread, some raised⟩
    | .ok false => refuse 401 "unauthorized" unread
    | .ok true =>
      match contentLength request with
      | none => refuse 411 "length required" unread
      | some length =>
        if hook.maxBody < length then refuse 413 "payload too large" unread
        else
          match env.loads (unread.take length) with
          | .tooDeep => ⟨[], [], 0, 0, unread.drop length, some "RecursionError"⟩
          | _ => ⟨[⟨204, ""⟩], [eventOf env now request.source (unread.take length)], 1, 0,
              unread.drop length, none⟩

/-- `do_GET`. -/
def doGet (unread : Bytes) : Handled := refuse 405 "method not allowed" unread

/- What the outcome should be. -/

/-- The number a Content-Length is, however long it is written. -/
def lengthOf : Option Nat :=
  (request.header "Content-Length").bind fun raw =>
    (numeral raw.text).bind fun numeral =>
      if numeral.value < 0 then none else some numeral.value.toNat

inductive Verdict
  | accepted (length : Nat)
  | refused (status : Nat)
  deriving DecidableEq

/-- The first check that fails. -/
def verdict : Verdict :=
  if request.path ≠ hook.path then .refused 404
  else if (request.header hook.header).map HeaderText.text ≠ some hook.secret then .refused 401
  else
    match lengthOf request with
    | none => .refused 411
    | some length => if hook.maxBody < length then .refused 413 else .accepted length

/-- One response; and one event and no rejection, or no event and one rejection. -/
def Outcome (unread : Bytes) (handled : Handled) : Verdict → Prop
  | .accepted length =>
    handled.responses.map (·.status) = [204] ∧ handled.rejected = 0 ∧
      handled.events = [eventOf env now request.source (unread.take length)]
  | .refused status =>
    handled.responses.map (·.status) = [status] ∧ handled.rejected = 1 ∧ handled.events = []

/-- The plugin is there, and does with a request what the documentation says. -/
def Answers (settings : SettingsObject) (unread : Bytes) : Prop :=
  ∃ hook, init env.writer settings = .ok hook ∧
    Outcome env request now unread (hook.doPost env request now unread)
      (verdict (documented settings) request)

/- What valid settings are. -/

section Valid

variable {settings : SettingsObject} (valid : validateSettings settings = [])
include valid

theorem valid_secret : ∃ secret, settings.members.lookup "secret" = some (.string secret) := by
  have checked : secretProblems settings = [] := by
    simp only [validateSettings, List.append_eq_nil_iff] at valid
    exact valid.1.1.1.1.1.2
  unfold secretProblems at checked
  split at checked
  · cases checked
  · rename_i secret found
    exact ⟨secret, (SettingsObject.given_eq_some.mp found).1⟩
  · cases checked

theorem valid_text {key : String} (one : key ∈ ["bind", "path", "header"]) (value : Json)
    (found : settings.given key = some value) : SettingsObject.isText value = true := by
  simp only [validateSettings, List.append_eq_nil_iff, List.flatMap_eq_nil_iff] at valid
  exact SettingsObject.optional_nil.mp (valid.1.1.1.1.2 key one) value found

theorem valid_port (value : Json) (found : settings.given "port" = some value) :
    SettingsObject.isIntegerFrom 0 value = true := by
  simp only [validateSettings, List.append_eq_nil_iff] at valid
  exact SettingsObject.optional_nil.mp valid.1.1.2 value found

theorem valid_maxBody (value : Json) (found : settings.given "max_body_bytes" = some value) :
    SettingsObject.isIntegerFrom 1 value = true := by
  simp only [validateSettings, List.append_eq_nil_iff] at valid
  exact SettingsObject.optional_nil.mp valid.1.2 value found

end Valid

/-- The plugin that valid settings make, if neither number is null. -/
def built (w : Writer) (settings : SettingsObject) : WebhookInput :=
  { documented settings with
    bind := settings.text w "bind" defaultBind
    path := settings.text w "path" defaultPath
    header := settings.text w "header" defaultHeader }

theorem init_of_valid {settings : SettingsObject} (valid : validateSettings settings = [])
    (w : Writer) : init w settings =
      if settings.isNull "port" ∨ settings.isNull "max_body_bytes" then
        .error (.valueError ("invalid literal for int() with base 10: " ++ "None"))
      else .ok (built w settings) := by
  obtain ⟨secret, found⟩ := valid_secret valid
  have given : settings.given "secret" = some (.string secret) :=
    SettingsObject.given_eq_some.mpr ⟨found, fun no => by cases no⟩
  have required : settings.required w "secret" = .ok (settings.textOr "secret" "") := by
    rw [SettingsObject.required, found, SettingsObject.textOr, given]
    rfl
  unfold init
  rw [SettingsObject.integer_of_valid (valid_port valid),
    SettingsObject.integer_of_valid (valid_maxBody valid), required]
  cases settings.isNull "port" <;> cases settings.isNull "max_body_bytes" <;> rfl

/- Where the handler does what is documented. -/

variable {env hook request now} {unread : Bytes}

/-- What the handler comes to, if it does not raise. -/
def reached (env : BodyReader) (hook : WebhookInput) (request : PostRequest) (unread : Bytes) :
    Option Verdict :=
  if request.path ≠ hook.path then some (.refused 404)
  else
    match hook.authorized (request.header hook.header) with
    | .error _ => none
    | .ok false => some (.refused 401)
    | .ok true =>
      match contentLength request with
      | none => some (.refused 411)
      | some length =>
        if hook.maxBody < length then some (.refused 413)
        else
          match env.loads (unread.take length) with
          | .tooDeep => none
          | _ => some (.accepted length)

theorem outcome_refuse {status : Nat} {message : String} {verdict : Verdict}
    (refusal : status ≠ 204) : Outcome env request now unread (refuse status message unread) verdict ↔
      verdict = .refused status := by
  cases verdict with
  | accepted length => simp [Outcome, refuse, refusal]
  | refused other => simp [Outcome, refuse, eq_comm]

theorem outcome_raised {raised : Option String} {rest : Bytes} {verdict : Verdict} :
    ¬ Outcome env request now unread ⟨[], [], 0, 0, rest, raised⟩ verdict := by
  cases verdict <;> simp [Outcome]

/-- The Content-Length is a number that is not negative, in more digits than `int` reads. -/
def LongLength (request : PostRequest) : Prop :=
  ∃ raw length, request.header "Content-Length" = some raw ∧ numeral raw.text = some length ∧
    0 ≤ length.value ∧ JsonText.maxDigits < length.digits.length

theorem contentLength_of_short (short : ¬ LongLength request) :
    contentLength request = lengthOf request := by
  unfold contentLength lengthOf int
  cases header : request.header "Content-Length" with
  | none => rfl
  | some raw =>
    cases spelled : numeral raw.text with
    | none => simp [spelled]
    | some length =>
      by_cases long : JsonText.maxDigits < length.digits.length
      · have negative : length.value < 0 :=
          not_le.mp fun positive => short ⟨raw, length, header, spelled, positive, long⟩
        simp [spelled, long, negative]
      · simp [spelled, long]

theorem contentLength_of_long (long : LongLength request) :
    contentLength request = none ∧ ∃ length, lengthOf request = some length := by
  obtain ⟨raw, length, header, spelled, positive, digits⟩ := long
  unfold contentLength lengthOf int
  simp only [header, spelled, if_pos digits, Option.bind_some]
  exact ⟨trivial, length.value.toNat, if_neg (not_lt.mpr positive)⟩

theorem contentLength_eq_some {length : Nat} (found : contentLength request = some length) :
    lengthOf request = some length := by
  by_cases long : LongLength request
  · rw [(contentLength_of_long long).1] at found
    cases found
  · rw [← contentLength_of_short long, found]

theorem verdict_accepted {length : Nat} (accepted : verdict hook request = .accepted length) :
    lengthOf request = some length := by
  unfold verdict at accepted
  split at accepted
  · cases accepted
  · split at accepted
    · cases accepted
    · split at accepted
      · cases accepted
      · rename_i found
        split at accepted
        · cases accepted
        · exact found.trans (congrArg some (Verdict.accepted.inj accepted))

theorem outcome_accepted {length : Nat} {documented : WebhookInput}
    (found : contentLength request = some length) :
    Outcome env request now unread
        ⟨[⟨204, ""⟩], [eventOf env now request.source (unread.take length)], 1, 0,
          unread.drop length, none⟩ (verdict documented request) ↔
      verdict documented request = .accepted length := by
  cases judged : verdict documented request with
  | accepted other =>
    have same : some other = some length :=
      (verdict_accepted judged).symm.trans (contentLength_eq_some found)
    cases same
    simp [Outcome]
  | refused status => simp [Outcome]

theorem outcome_reached {documented : WebhookInput} :
    Outcome env request now unread (hook.doPost env request now unread)
        (verdict documented request) ↔
      reached env hook request unread = some (verdict documented request) := by
  unfold doPost reached
  by_cases path : request.path ≠ hook.path
  · rw [if_pos path, if_pos path, outcome_refuse (by decide), Option.some.injEq, eq_comm]
  · rw [if_neg path, if_neg path]
    cases hook.authorized (request.header hook.header) with
    | error raised => exact iff_of_false outcome_raised fun no => by cases no
    | ok same =>
      cases same with
      | false => exact (outcome_refuse (by decide)).trans (by rw [Option.some.injEq, eq_comm])
      | true =>
        cases found : contentLength request with
        | none => exact (outcome_refuse (by decide)).trans (by rw [Option.some.injEq, eq_comm])
        | some length =>
          dsimp only
          by_cases large : hook.maxBody < length
          · rw [if_pos large, if_pos large, outcome_refuse (by decide), Option.some.injEq, eq_comm]
          · rw [if_neg large, if_neg large]
            cases env.loads (unread.take length) with
            | tooDeep => exact iff_of_false outcome_raised fun no => by cases no
            | notJson => exact (outcome_accepted found).trans (by rw [Option.some.injEq, eq_comm])
            | json value =>
              exact (outcome_accepted found).trans (by rw [Option.some.injEq, eq_comm])

/-- The secret is presented in the plugin's header. -/
def Presents (hook : WebhookInput) (request : PostRequest) : Prop :=
  (request.header hook.header).map HeaderText.text = some hook.secret

/-- What is compared with the secret, and the secret, are in ASCII. -/
def Comparable (hook : WebhookInput) (request : PostRequest) : Prop :=
  ∀ presented, request.header hook.header = some presented →
    isAscii presented.text = true ∧ isAscii hook.secret = true

theorem authorized_eq (comparable : Comparable hook request) :
    (hook.authorized (request.header hook.header) = .ok true ∧ Presents hook request) ∨
      (hook.authorized (request.header hook.header) = .ok false ∧ ¬ Presents hook request) := by
  unfold Presents
  cases presented : request.header hook.header with
  | none => exact .inr ⟨rfl, fun no => by cases no⟩
  | some value =>
    obtain ⟨plain, secret⟩ := comparable value presented
    have compared : hook.authorized (some value) = .ok (value.text = hook.secret) := by
      simp [authorized, compareDigest, plain, secret]
    rw [compared]
    by_cases same : value.text = hook.secret <;> simp [same]

theorem authorized_raises (strange : ¬ Comparable hook request) :
    ∃ raised, hook.authorized (request.header hook.header) = .error raised := by
  unfold Comparable at strange
  push Not at strange
  obtain ⟨value, presented, mixed⟩ := strange
  refine ⟨"TypeError: comparing strings with non-ASCII characters is not supported", ?_⟩
  rw [presented, authorized, compareDigest]
  cases plain : isAscii value.text with
  | false => rfl
  | true => simp [mixed plain]

/-- A length that is read, and a body that is not nested too deeply. -/
structure Sized (env : BodyReader) (documented : WebhookInput) (request : PostRequest)
    (unread : Bytes) : Prop where
  short : ¬ LongLength request
  shallow : ∀ length, verdict documented request = .accepted length →
    env.loads (unread.take length) ≠ .tooDeep

/-- The handler comes to the documented verdict on a request whose path and secret both of
them take for right. -/
theorem reached_sized {documented : WebhookInput} (here : request.path = hook.path)
    (there : request.path = documented.path)
    (allowed : hook.authorized (request.header hook.header) = .ok true)
    (presented : Presents documented request) (limit : hook.maxBody = documented.maxBody) :
    reached env hook request unread = some (verdict documented request) ↔
      Sized env documented request unread := by
  have judged : verdict documented request =
      match lengthOf request with
      | none => .refused 411
      | some length => if documented.maxBody < length then .refused 413 else .accepted length := by
    unfold Presents at presented
    rw [verdict, if_neg (not_not_intro there), if_neg (not_not_intro presented)]
  have found : reached env hook request unread =
      match contentLength request with
      | none => some (.refused 411)
      | some length =>
        if hook.maxBody < length then some (.refused 413)
        else
          match env.loads (unread.take length) with
          | .tooDeep => none
          | _ => some (.accepted length) := by
    rw [reached, if_neg (not_not_intro here), allowed]
  by_cases long : LongLength request
  · obtain ⟨unreadable, length, spelled⟩ := contentLength_of_long long
    refine iff_of_false ?_ fun sized => sized.short long
    rw [found, judged, unreadable, spelled]
    dsimp only
    split <;> exact fun no => by cases no
  · rw [contentLength_of_short long, limit] at found
    cases spelled : lengthOf request with
    | none =>
      simp only [spelled] at found judged
      refine iff_of_true (found.trans (congrArg some judged.symm)) ⟨long, fun length accepted => ?_⟩
      rw [judged] at accepted
      cases accepted
    | some length =>
      simp only [spelled] at found judged
      by_cases large : documented.maxBody < length
      · rw [if_pos large] at found judged
        refine iff_of_true (found.trans (congrArg some judged.symm)) ⟨long, fun _ accepted => ?_⟩
        rw [judged] at accepted
        cases accepted
      · rw [if_neg large] at found judged
        rw [found, judged]
        constructor
        · intro same
          refine ⟨long, fun other accepted deep => ?_⟩
          cases Verdict.accepted.inj (judged.symm.trans accepted)
          rw [deep] at same
          cases same
        · intro sized
          have shallow := sized.shallow length judged
          split
          · rename_i deep
            exact absurd deep shallow
          · rfl

theorem verdict_found {documented : WebhookInput} (there : request.path = documented.path) :
    verdict documented request ≠ .refused 404 ∧
      (verdict documented request = .refused 401 ↔ ¬ Presents documented request) := by
  unfold verdict Presents
  rw [if_neg (not_not_intro there)]
  by_cases presented : (request.header documented.header).map HeaderText.text =
      some documented.secret
  · rw [if_neg (not_not_intro presented)]
    cases lengthOf request with
    | none => simp [presented]
    | some length =>
      by_cases large : documented.maxBody < length <;> simp [presented, large]
  · rw [if_pos presented]
    simp [presented]

theorem reached_found (here : request.path = hook.path) :
    reached env hook request unread ≠ some (.refused 404) ∧
      (Presents hook request → reached env hook request unread ≠ some (.refused 401)) := by
  unfold reached
  rw [if_neg (not_not_intro here)]
  by_cases comparable : Comparable hook request
  · rcases authorized_eq comparable with ⟨allowed, presented⟩ | ⟨denied, absent⟩
    · rw [allowed]
      dsimp only
      split
      · simp
      · split
        · simp
        · split <;> simp
    · rw [denied]
      exact ⟨by simp, fun presented => absurd presented absent⟩
  · obtain ⟨raised, raises⟩ := authorized_raises comparable
    rw [raises]
    simp

theorem reached_iff {documented : WebhookInput} (limit : hook.maxBody = documented.maxBody) :
    reached env hook request unread = some (verdict documented request) ↔
      (request.path = hook.path ↔ request.path = documented.path) ∧
      (request.path = documented.path → Comparable hook request ∧
        (Presents hook request ↔ Presents documented request) ∧
        (Presents documented request → Sized env documented request unread)) := by
  by_cases there : request.path = documented.path
  · by_cases here : request.path = hook.path
    · have both : (request.path = hook.path ↔ request.path = documented.path) :=
        iff_of_true here there
      by_cases comparable : Comparable hook request
      · rcases authorized_eq comparable with ⟨allowed, presented⟩ | ⟨denied, absent⟩
        · by_cases present : Presents documented request
          · rw [reached_sized here there allowed present limit]
            exact ⟨fun sized => ⟨both, fun _ => ⟨comparable, iff_of_true presented present,
              fun _ => sized⟩⟩, fun all => (all.2 there).2.2 present⟩
          · rw [(verdict_found there).2.mpr present]
            exact iff_of_false ((reached_found here).2 presented)
              fun all => present ((all.2 there).2.1.mp presented)
        · have refused : reached env hook request unread = some (.refused 401) := by
            rw [reached, if_neg (not_not_intro here), denied]
          rw [refused, Option.some.injEq, eq_comm, (verdict_found there).2]
          exact ⟨fun other => ⟨both, fun _ => ⟨comparable, iff_of_false absent other,
            fun present => absurd present other⟩⟩, fun all => mt (all.2 there).2.1.mpr absent⟩
      · obtain ⟨raised, raises⟩ := authorized_raises comparable
        have lost : reached env hook request unread = none := by
          rw [reached, if_neg (not_not_intro here), raises]
        rw [lost]
        exact iff_of_false (fun no => by cases no) fun all => comparable (all.2 there).1
    · have missed : reached env hook request unread = some (.refused 404) := if_pos here
      refine iff_of_false ?_ fun both => here (both.1.mpr there)
      rw [missed]
      exact fun same => (verdict_found there).1 (Option.some.inj same).symm
  · have judged : verdict documented request = .refused 404 := if_pos there
    by_cases here : request.path = hook.path
    · rw [judged]
      exact iff_of_false (reached_found here).1 fun both => there (both.1.mp here)
    · have missed : reached env hook request unread = some (.refused 404) := if_pos here
      rw [judged, missed]
      exact iff_of_true rfl ⟨iff_of_false here there, fun is => absurd is there⟩

/-- When the plugin does what its documentation says: neither number is null; a null path
or header makes no difference for the request; and where the path is right, what is
compared with the secret is in ASCII, as the secret is, the length is one that `int` reads,
and the body is one that `json.loads` can go through. -/
structure Tellable (env : BodyReader) (settings : SettingsObject) (request : PostRequest)
    (unread : Bytes) : Prop where
  numbers : settings.isNull "port" = false ∧ settings.isNull "max_body_bytes" = false
  path : settings.isNull "path" = true → request.path ≠ "None" ∧ request.path ≠ defaultPath
  comparable : request.path = (documented settings).path →
    Comparable (built env.writer settings) request
  header : request.path = (documented settings).path → settings.isNull "header" = true →
    (Presents { documented settings with header := "None" } request ↔
      Presents (documented settings) request)
  sized : request.path = (documented settings).path → Presents (documented settings) request →
    Sized env (documented settings) request unread

def plainReader : BodyReader where
  writer := plainWriter
  decode bytes := String.ofList (bytes.map fun byte => Char.ofNat byte.toNat)
  loads _ := .notJson

def secretOnly : SettingsObject where
  members := [("secret", .string "0123456789abcdef")]
  distinct := by decide
  short key n found := by
    rw [List.lookup_cons] at found
    split at found <;> cases found

/-- A request with a token, and five bytes announced. -/
def tokened (token : HeaderText) : PostRequest where
  source := "127.0.0.1"
  path := "/"
  header name :=
    if name = defaultHeader then some token
    else if name = "Content-Length" then some ⟨"5", forall_chars (by decide +kernel)⟩
    else none

def rightToken : HeaderText := ⟨"0123456789abcdef", forall_chars (by decide +kernel)⟩

def hello : Bytes := [104, 101, 108, 108, 111]

end WebhookInput

end NotiMapper
