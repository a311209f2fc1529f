import NotiMapper.Library.Json
import NotiMapper.Library.Newest
import NotiMapper.Plugins.PagerDuty
import NotiMapper.Storage.Timestamps

/-! A polling step of the PagerDuty output, from the answer of the REST API to the unlatch
that is requested. What comes back is any JSON value at all. -/
namespace NotiMapper

open Python

/-- An exception, by what catches it. -/
inductive Raised
  | pluginError (message : String)
  | osError (type message : String)
  | other (type message : String)

/-- The body of an answer; `tooDeep` is one that `json.loads` has no frames left for. -/
inductive ResponseBody
  | empty
  | notJson (message : String)
  | tooDeep
  | json (value : Json)

/-- How a request goes. The body of an error answer has still to be read. -/
inductive Exchange
  | answered (body : ResponseBody)
  | httpError (code : Nat) (detail : Except Raised String)
  | unreachable (message : String)
  | failed (raised : Raised)

/-- What `json.loads` made of an answer that is read. -/
def ResponseBody.value : ResponseBody → Option Json
  | .json value => some value
  | .empty => none
  | .notJson _ => none
  | .tooDeep => none

structure PagerDutyOutput where
  instanceName : Name
  incidentsUrl : String
  pollSeconds : Int
  writer : Writer
  fromisoformat : String → Option Datetime

namespace PagerDutyOutput

variable (p : PagerDutyOutput)

/-- `_send`, of a GET request. -/
def send : Exchange → Except Raised Members
  | .answered .empty => .ok []
  | .answered (.notJson message) =>
    .error (.pluginError ("PagerDuty returned a body that is not JSON: " ++ message))
  | .answered .tooDeep =>
    .error (.other "RecursionError" "maximum recursion depth exceeded while decoding a JSON value")
  | .answered (.json (.object members)) => .ok members
  | .answered (.json _) => .ok []
  | .httpError code (.ok detail) =>
    let shown := String.ofList (detail.toList.take 500)
    .error (.pluginError
      ("PagerDuty returned " ++ toString code ++ " for GET " ++ p.incidentsUrl ++ ": " ++ shown))
  | .httpError _ (.error raised) => .error raised
  | .unreachable message => .error (.pluginError ("PagerDuty is unreachable: " ++ message))
  | .failed raised => .error raised

/-- What `_fetch_incidents` takes from the body: the objects in its list. -/
def incidentsIn (body : Members) : List Members :=
  match body.lookup "incidents" with
  | some (.array items) => items.filterMap Json.object?
  | _ => []

def fetchIncidents (exchange : Exchange) : Except Raised (List Members) :=
  (p.send exchange).map incidentsIn

def zulu (c : Char) : List Char := if c = 'Z' then ['+', '0', '0', ':', '0', '0'] else [c]

/-- An aware time in UTC. What leaves the calendar is an `OverflowError`, which is no
`ValueError`. -/
def inUtc (parsed : Datetime) : Except Raised Time :=
  match parsed.utcoffset with
  | none => .ok parsed.localMicros
  | some _ =>
    match astimezone parsed with
    | .ok moment => .ok moment.localMicros
    | .error _ => .error (.other "OverflowError" "date value out of range")

/-- `_parse_time`. -/
def parseTime : Option Json → Except Raised (Option Time)
  | some (.string text) =>
    if text = "" then .ok none
    else
      match p.fromisoformat (String.ofList (text.toList.flatMap zulu)) with
      | none => .ok none
      | some parsed => (inUtc parsed).map some
  | _ => .ok none

def status (incident : Members) : String :=
  match incident.lookup "status" with
  | none => ""
  | some value => value.str p.writer

def moment (incident : Members) : Except Raised (Option Time) :=
  match p.parseTime (incident.lookup "resolved_at") with
  | .error raised => .error raised
  | .ok (some time) => .ok (some time)
  | .ok none => p.parseTime (incident.lookup "last_status_change_at")

/-- The loop of `query`, over the incidents still to be looked at. -/
def scan : List Members → Option Time → Except Raised RemoteState
  | [], resolvedAt => .ok ⟨.cleared, resolvedAt⟩
  | incident :: incidents, resolvedAt =>
    if p.status incident ∈ openStatuses then .ok ⟨.active, none⟩
    else
      match p.moment incident with
      | .error raised => .error raised
      | .ok moment =>
        scan incidents (if Engine.isNewer moment resolvedAt then moment else resolvedAt)

def polling : PluginHealth := ⟨.ok, "polling every " ++ toString p.pollSeconds ++ "s"⟩

/-- `query`: the belief or what is raised, and the health it leaves. -/
def query (exchange : Exchange) (health : PluginHealth) :
    Except Raised RemoteState × PluginHealth :=
  match p.fetchIncidents exchange with
  | .error (.pluginError message) => (.ok ⟨.unknown, none⟩, ⟨.degraded, message⟩)
  | .error raised => (.error raised, health)
  | .ok incidents =>
    -- No incident ever: saying CLEARED would clear a latch for never having alerted.
    (if incidents.isEmpty then .ok ⟨.unknown, none⟩ else p.scan incidents none, p.polling)

/-- What a polling step leaves and asks for, and what it raises. -/
structure Polled where
  health : PluginHealth
  requests : List UnlatchRequestMessage
  raised : Option Raised

/-- `poll_once`; `refused` is what `request_unlatch` raises. -/
def pollOnce (refused : Option Raised) (exchange : Exchange) (health : PluginHealth) : Polled :=
  match p.query exchange health with
  | (.error raised, health) => ⟨health, [], some raised⟩
  | (.ok state, health) =>
    if state.belief ≠ .cleared then ⟨health, [], none⟩
    else ⟨health, [PagerDuty.unlatchRequest p.instanceName], refused⟩

/- What the answer should say. -/

/-- The incidents of a body. -/
def listed (body : ResponseBody) : List Members :=
  match body.value with
  | some (.object members) => incidentsIn members
  | _ => []

def IsOpen (incident : Members) : Prop :=
  ∃ status ∈ openStatuses, incident.lookup "status" = some (.string status)

def IsResolved (incident : Members) : Prop :=
  incident.lookup "status" = some (.string "resolved")

def parsed (value : Option Json) : Option Time := (p.parseTime value).toOption.join

/-- Its `resolved_at`, else its `last_status_change_at`, if that is a time. -/
def resolutionTime (incident : Members) : Option Time :=
  (p.parsed (incident.lookup "resolved_at")).or
    (p.parsed (incident.lookup "last_status_change_at"))

structure OnEvidence (incidents : List Members) (state : RemoteState) : Prop where
  active : state.belief = .active ↔ ∃ incident ∈ incidents, IsOpen incident
  cleared : state.belief = .cleared ↔
    incidents ≠ [] ∧ ∀ incident ∈ incidents, IsResolved incident
  latest : state.belief = .cleared →
    state.clearedAt = (incidents.filterMap p.resolutionTime).max?

/-- The same incidents in any order. -/
def Reordered (body body' : ResponseBody) : Prop :=
  body' = body ∨ ∃ value, body' = .json value ∧ (listed body').Perm (listed body)

/-- One answer, on the evidence of the body, whatever the order of its incidents; and an
unlatch is requested exactly if it is CLEARED. -/
def Evident (body : ResponseBody) : Prop :=
  ∃ state, p.OnEvidence (listed body) state ∧ ∀ body', Reordered body body' →
    ∀ health, (p.query (.answered body') health).1 = .ok state ∧
      ∀ refused, (p.pollOnce refused (.answered body') health).requests =
        if state.belief = .cleared then [PagerDuty.unlatchRequest p.instanceName] else []

/- What `query` answers. -/

variable {p}

theorem status_open_iff {incident : Members} :
    p.status incident ∈ openStatuses ↔ IsOpen incident := by
  have spelled {value : Json} {word : String} (one : word ∈ openStatuses) :
      value.str p.writer = word ↔ value = .string word := by
    have small : ∀ word ∈ openStatuses, word.toList.all (fun c => decide (c.isLower = true)) := by
      decide +kernel
    have foreign : ∀ word ∈ openStatuses,
        word.toList.any fun c => decide (c ∉ "0123456789+-.einf".toList) := by decide +kernel
    apply Json.str_eq_word (forall_chars (small word one))
    obtain ⟨c, member, outside⟩ := List.any_eq_true.mp (foreign word one)
    exact ⟨c, member, of_decide_eq_true outside⟩
  unfold IsOpen status
  cases incident.lookup "status" with
  | none => simp [openStatuses]
  | some value =>
    constructor
    · exact fun one => ⟨_, one, congrArg some ((spelled one).mp rfl)⟩
    · rintro ⟨word, one, same⟩
      have written : value.str p.writer = word := (spelled one).mpr (Option.some.inj same)
      simpa only [written] using one

/-- The text of a time is no date, or one that UTC has too. -/
def Representable (p : PagerDutyOutput) (value : Option Json) : Prop :=
  ∀ text date, value = some (.string text) → text ≠ "" →
    p.fromisoformat (String.ofList (text.toList.flatMap zulu)) = some date →
    date.utcoffset ≠ none → 0 ≤ date.instant ∧ date.instant < Datetime.limit

theorem representable_string {text : String} : p.Representable (some (.string text)) ↔
    ∀ date, text ≠ "" →
      p.fromisoformat (String.ofList (text.toList.flatMap zulu)) = some date →
      date.utcoffset ≠ none → 0 ≤ date.instant ∧ date.instant < Datetime.limit := by
  constructor
  · exact fun all date => all text date rfl
  · intro all _ date same
    cases Json.string.inj (Option.some.inj same)
    exact all date

theorem inUtc_ok_iff {date : Datetime} : (∃ time, inUtc date = .ok time) ↔
    (date.utcoffset ≠ none → 0 ≤ date.instant ∧ date.instant < Datetime.limit) := by
  unfold inUtc
  cases date.utcoffset with
  | none => simp
  | some offset =>
    by_cases fits : 0 ≤ date.instant ∧ date.instant < Datetime.limit
    · simp [astimezone, fits]
    · simp [astimezone, fits]

theorem parseTime_ok_iff {value : Option Json} :
    (∃ time, p.parseTime value = .ok time) ↔ p.Representable value := by
  by_cases shape : ∃ text, value = some (.string text)
  · obtain ⟨text, rfl⟩ := shape
    rw [representable_string]
    by_cases empty : text = ""
    · simp [parseTime, empty]
    · cases read : p.fromisoformat (String.ofList (text.toList.flatMap zulu)) with
      | none => simp [parseTime, empty, read]
      | some date =>
        have same : (∃ time, p.parseTime (some (.string text)) = .ok time) ↔
            ∃ time, inUtc date = .ok time := by
          simp only [parseTime, if_neg empty, read]
          cases inUtc date <;> simp [Except.map]
        rw [same, inUtc_ok_iff]
        simp [empty]
  · have other : p.parseTime value = .ok none := by
      unfold parseTime
      split
      · exact absurd ⟨_, rfl⟩ shape
      · rfl
    have free : p.Representable value := fun text _ is _ _ _ => absurd ⟨text, is⟩ shape
    simp [other, free]

/-- Both times that are looked at are in UTC's calendar. -/
def Timely (p : PagerDutyOutput) (incident : Members) : Prop :=
  p.Representable (incident.lookup "resolved_at") ∧
    (p.parsed (incident.lookup "resolved_at") = none →
      p.Representable (incident.lookup "last_status_change_at"))

theorem moment_eq {incident : Members} (timely : p.Timely incident) :
    p.moment incident = .ok (p.resolutionTime incident) := by
  obtain ⟨first, second⟩ := timely
  obtain ⟨time, resolved⟩ := parseTime_ok_iff.mpr first
  have read : p.parsed (incident.lookup "resolved_at") = time := by
    simp [parsed, resolved, Except.toOption]
  unfold moment resolutionTime
  rw [resolved, read]
  cases time with
  | some time => rfl
  | none =>
    obtain ⟨time, changed⟩ := parseTime_ok_iff.mpr (second read)
    simp [changed, parsed, Except.toOption]

theorem moment_raises {incident : Members} (untimely : ¬ p.Timely incident) :
    ∃ raised, p.moment incident = .error raised := by
  unfold moment
  cases resolved : p.parseTime (incident.lookup "resolved_at") with
  | error raised => exact ⟨raised, rfl⟩
  | ok time =>
    have first := parseTime_ok_iff.mp ⟨time, resolved⟩
    cases time with
    | some time => exact absurd ⟨first, by simp [parsed, resolved, Except.toOption]⟩ untimely
    | none =>
      cases changed : p.parseTime (incident.lookup "last_status_change_at") with
      | error raised => exact ⟨raised, rfl⟩
      | ok time =>
        exact absurd ⟨first, fun _ => parseTime_ok_iff.mp ⟨time, changed⟩⟩ untimely

/-- An incident as the scan reads it. -/
def read (p : PagerDutyOutput) (incident : Members) : Incident where
  status := p.status incident
  resolvedAt := p.parsed (incident.lookup "resolved_at")
  lastStatusChangeAt := p.parsed (incident.lookup "last_status_change_at")

theorem scan_read {incidents : List Members} {resolvedAt : Option Time}
    (timely : ∀ incident ∈ incidents, ¬ IsOpen incident → p.Timely incident) :
    p.scan incidents resolvedAt = .ok (PagerDuty.scan (incidents.map p.read) resolvedAt) := by
  induction incidents generalizing resolvedAt with
  | nil => rfl
  | cons incident incidents ih =>
    rw [List.map_cons, scan, PagerDuty.scan]
    by_cases outstanding : p.status incident ∈ openStatuses
    · rw [if_pos outstanding, if_pos (show (p.read incident).IsOpen from outstanding)]
    · have here := timely incident List.mem_cons_self (mt status_open_iff.mpr outstanding)
      rw [if_neg outstanding, if_neg (show ¬ (p.read incident).IsOpen from outstanding),
        moment_eq here]
      exact ih fun later member => timely later (List.mem_cons_of_mem _ member)

theorem PagerDuty.scan_active {incidents : List Incident} {resolvedAt : Option Time}
    (outstanding : ∃ incident ∈ incidents, incident.IsOpen) :
    PagerDuty.scan incidents resolvedAt = ⟨.active, none⟩ := by
  induction incidents generalizing resolvedAt with
  | nil =>
    obtain ⟨_, member, _⟩ := outstanding
    cases member
  | cons incident incidents ih =>
    rw [PagerDuty.scan]
    split
    · rfl
    · rename_i resolved
      obtain ⟨found, member, stands⟩ := outstanding
      rcases List.mem_cons.mp member with rfl | later
      · exact absurd stands resolved
      · exact ih ⟨found, later, stands⟩

theorem PagerDuty.scan_no_active {incidents : List Incident} {resolvedAt : Option Time}
    (none_open : ∀ incident ∈ incidents, ¬ incident.IsOpen) :
    ∃ reported, PagerDuty.scan incidents resolvedAt = ⟨.cleared, reported⟩ := by
  induction incidents generalizing resolvedAt with
  | nil => exact ⟨resolvedAt, rfl⟩
  | cons incident incidents ih =>
    rw [PagerDuty.scan, if_neg (none_open incident List.mem_cons_self)]
    exact ih fun later member => none_open later (List.mem_cons_of_mem _ member)

open Classical in
/-- What `query` makes of the incidents, if it can read all times it looks at. -/
noncomputable def answer (p : PagerDutyOutput) (incidents : List Members) : RemoteState :=
  if ∃ incident ∈ incidents, IsOpen incident then ⟨.active, none⟩
  else if incidents = [] then ⟨.unknown, none⟩
  else ⟨.cleared, (incidents.filterMap p.resolutionTime).max?⟩

theorem scan_answer {incidents : List Members} (nonempty : incidents ≠ [])
    (timely : ∀ incident ∈ incidents, ¬ IsOpen incident → p.Timely incident) :
    p.scan incidents none = .ok (p.answer incidents) := by
  rw [scan_read timely]
  unfold answer
  by_cases outstanding : ∃ incident ∈ incidents, IsOpen incident
  · rw [if_pos outstanding]
    obtain ⟨incident, member, stands⟩ := outstanding
    have stands : (p.read incident).IsOpen := status_open_iff.mpr stands
    rw [PagerDuty.scan_active ⟨_, List.mem_map_of_mem member, stands⟩]
  · rw [if_neg outstanding, if_neg nonempty]
    have none_open : ∀ incident ∈ incidents.map p.read, ¬ incident.IsOpen := by
      intro incident member stands
      obtain ⟨found, among, rfl⟩ := List.mem_map.mp member
      exact outstanding ⟨found, among, status_open_iff.mp stands⟩
    obtain ⟨reported, cleared⟩ := PagerDuty.scan_no_active none_open
    rw [cleared, (PagerDuty.scan_cleared cleared).2, List.filterMap_map]
    rfl

theorem answer_perm {incidents incidents' : List Members} (perm : incidents.Perm incidents') :
    p.answer incidents = p.answer incidents' := by
  have none_listed : incidents = [] ↔ incidents' = [] :=
    ⟨fun empty => (empty ▸ perm).nil_eq.symm ▸ rfl, fun empty => (empty ▸ perm).eq_nil⟩
  have open_listed : (∃ incident ∈ incidents, IsOpen incident) ↔
      ∃ incident ∈ incidents', IsOpen incident := by simp only [perm.mem_iff]
  unfold answer
  by_cases outstanding : ∃ incident ∈ incidents', IsOpen incident
  · rw [if_pos outstanding, if_pos (open_listed.mpr outstanding)]
  · rw [if_neg outstanding, if_neg (mt open_listed.mp outstanding)]
    simp only [none_listed, Newest.max?_perm (perm.filterMap p.resolutionTime)]

theorem not_open_of_resolved {incident : Members} (resolved : IsResolved incident) :
    ¬ IsOpen incident := by
  rintro ⟨status, one, found⟩
  rw [IsResolved] at resolved
  cases Json.string.inj (Option.some.inj (resolved.symm.trans found))
  exact absurd one (by decide)

/-- The answer is on evidence exactly if an incident is open or all are resolved. -/
theorem answer_onEvidence_iff {incidents : List Members} :
    p.OnEvidence incidents (p.answer incidents) ↔
      (∃ incident ∈ incidents, IsOpen incident) ∨ ∀ incident ∈ incidents, IsResolved incident := by
  by_cases outstanding : ∃ incident ∈ incidents, IsOpen incident
  · have given : p.answer incidents = ⟨.active, none⟩ := by
      unfold answer
      exact if_pos outstanding
    refine ⟨fun _ => .inl outstanding, fun _ => ?_⟩
    rw [given]
    refine ⟨⟨fun _ => outstanding, fun _ => rfl⟩, ⟨fun no => absurd no (by decide), ?_⟩,
      fun no => absurd no (by decide)⟩
    rintro ⟨_, resolved⟩
    obtain ⟨incident, member, stands⟩ := outstanding
    exact absurd stands (not_open_of_resolved (resolved incident member))
  · by_cases empty : incidents = []
    · have given : p.answer incidents = ⟨.unknown, none⟩ := by
        unfold answer
        rw [if_neg outstanding, if_pos empty]
      refine ⟨fun _ => .inr fun incident member => ?_, fun _ => ?_⟩
      · rw [empty] at member
        cases member
      · rw [given]
        exact ⟨⟨fun no => absurd no (by decide), fun some => absurd some outstanding⟩,
          ⟨fun no => absurd no (by decide), fun all => absurd empty all.1⟩,
          fun no => absurd no (by decide)⟩
    · have given : p.answer incidents =
          ⟨.cleared, (incidents.filterMap p.resolutionTime).max?⟩ := by
        unfold answer
        rw [if_neg outstanding, if_neg empty]
      rw [given]
      constructor
      · exact fun evident => .inr (evident.cleared.mp rfl).2
      · intro decided
        have resolved := decided.resolve_left outstanding
        have different : RemoteBelief.cleared ≠ .active := by decide
        exact ⟨⟨fun no => absurd no different, fun some => absurd some outstanding⟩,
          ⟨fun _ => ⟨empty, resolved⟩, fun _ => rfl⟩, fun _ => rfl⟩

/- The step around it. -/

theorem fetchIncidents_listed {body : ResponseBody} (readable : body ≠ .tooDeep) :
    p.fetchIncidents (.answered body) = .ok (listed body) ∨
      listed body = [] ∧
        ∃ message, p.fetchIncidents (.answered body) = .error (.pluginError message) := by
  cases body with
  | empty => exact .inl rfl
  | notJson message => exact .inr ⟨rfl, _, rfl⟩
  | tooDeep => exact absurd rfl readable
  | json value => cases value <;> exact .inl rfl

theorem query_answer {body : ResponseBody} (readable : body ≠ .tooDeep)
    (timely : ∀ incident ∈ listed body, ¬ IsOpen incident → p.Timely incident)
    (health : PluginHealth) :
    (p.query (.answered body) health).1 = .ok (p.answer (listed body)) := by
  have nothing : p.answer [] = ⟨.unknown, none⟩ := by simp [answer]
  unfold query
  rcases fetchIncidents_listed (p := p) readable with fetched | ⟨none_listed, message, failed⟩
  · rw [fetched]
    by_cases empty : listed body = []
    · rw [empty, nothing]
      rfl
    · have some : (listed body).isEmpty = false := by simpa using empty
      simp only [some, Bool.false_eq_true, if_false]
      exact scan_answer empty timely
  · rw [failed, none_listed, nothing]

theorem pollOnce_requests {exchange : Exchange} {health : PluginHealth} {state : RemoteState}
    (answered : (p.query exchange health).1 = .ok state) (refused : Option Raised) :
    (p.pollOnce refused exchange health).requests =
      if state.belief = .cleared then [PagerDuty.unlatchRequest p.instanceName] else [] := by
  unfold pollOnce
  generalize p.query exchange health = asked at *
  obtain ⟨given, after⟩ := asked
  cases answered
  simp only
  by_cases cleared : state.belief = .cleared
  · rw [if_neg (not_not_intro cleared), if_pos cleared]
  · rw [if_pos cleared, if_neg cleared]

/-- A body that lists given incidents. -/
def bodyOf (incidents : List Members) : ResponseBody :=
  .json (.object [("incidents", .array (incidents.map .object))])

theorem listed_bodyOf (incidents : List Members) : listed (bodyOf incidents) = incidents := by
  have objects : (incidents.map Json.object).filterMap Json.object? = incidents := by
    rw [List.filterMap_map]
    exact List.filterMap_some
  exact objects

theorem query_untimely {incident : Members} {incidents : List Members}
    (closed : ¬ IsOpen incident) (untimely : ¬ p.Timely incident) (health : PluginHealth) :
    ∃ raised, (p.query (.answered (bodyOf (incident :: incidents))) health).1 = .error raised := by
  obtain ⟨raised, moment⟩ := moment_raises untimely
  have fetched : p.fetchIncidents (.answered (bodyOf (incident :: incidents))) =
      .ok (incident :: incidents) := by
    have given : p.fetchIncidents (.answered (bodyOf (incident :: incidents))) =
      .ok (listed (bodyOf (incident :: incidents))) := rfl
    rw [given, listed_bodyOf]
  refine ⟨raised, ?_⟩
  unfold query
  rw [fetched]
  simp only [List.isEmpty_cons, Bool.false_eq_true, if_false, scan]
  rw [if_neg (mt status_open_iff.mp closed), moment]

/-- A poll answers on evidence exactly if the body can be read, each time of an incident
that is not open is within the calendar in UTC, and some incident is open or all of them
are resolved. -/
theorem query_evident_iff (p : PagerDutyOutput) (body : ResponseBody) :
    p.Evident body ↔ body ≠ .tooDeep ∧
      (∀ incident ∈ listed body, ¬ IsOpen incident → p.Timely incident) ∧
      ((∃ incident ∈ listed body, IsOpen incident) ∨
        ∀ incident ∈ listed body, IsResolved incident) := by
  constructor
  · rintro ⟨state, evident, answers⟩
    have itself (health : PluginHealth) := (answers body (.inl rfl) health).1
    have readable : body ≠ .tooDeep := by
      rintro rfl
      cases itself ⟨.ok, ""⟩
    have timely : ∀ incident ∈ listed body, ¬ IsOpen incident → p.Timely incident := by
      intro incident member closed
      by_contra untimely
      obtain ⟨before, after, split⟩ := List.append_of_mem member
      have reordered : Reordered body (bodyOf (incident :: (before ++ after))) :=
        .inr ⟨_, rfl, by rw [listed_bodyOf, split]; exact List.perm_middle.symm⟩
      obtain ⟨raised, fails⟩ : ∃ raised, (p.query (.answered
          (bodyOf (incident :: (before ++ after)))) ⟨.ok, ""⟩).1 = .error raised :=
        query_untimely closed untimely _
      rw [(answers _ reordered ⟨.ok, ""⟩).1] at fails
      cases fails
    have given := (itself ⟨.ok, ""⟩).symm.trans (query_answer readable timely ⟨.ok, ""⟩)
    cases given
    exact ⟨readable, timely, answer_onEvidence_iff.mp evident⟩
  · rintro ⟨readable, timely, decided⟩
    refine ⟨p.answer (listed body), answer_onEvidence_iff.mpr decided, ?_⟩
    intro body' reordered health
    have readable' : body' ≠ .tooDeep := by
      rcases reordered with rfl | ⟨value, rfl, _⟩
      · exact readable
      · exact fun same => by cases same
    have perm : (listed body').Perm (listed body) := by
      rcases reordered with rfl | ⟨_, _, perm⟩
      · exact .refl _
      · exact perm
    have answered := query_answer readable'
      (fun incident member => timely incident (perm.mem_iff.mp member)) health
    rw [answer_perm perm] at answered
    exact ⟨answered, pollOnce_requests answered⟩

/-- A poller of the service; the times are read as `isoformat` writes them. -/
def lamps : PagerDutyOutput where
  instanceName := "Pager"
  incidentsUrl := "https://api.pagerduty.com/incidents?incident_key=noti-mapper%2FPager"
  pollSeconds := 45
  writer := plainWriter
  fromisoformat := Python.fromisoformat

/-- An incident of which only a summary came back is taken for resolved. -/
theorem statusless_cleared :
    ¬ lamps.Evident (bodyOf [[("summary", .string "Porch")]]) := by
  rintro ⟨state, evident, answers⟩
  have cleared : (lamps.query (.answered (bodyOf [[("summary", .string "Porch")]])) ⟨.ok, ""⟩).1 =
      .ok ⟨.cleared, none⟩ := by rfl
  rw [(answers _ (.inl rfl) ⟨.ok, ""⟩).1] at cleared
  cases cleared
  have resolved := (evident.cleared.mp rfl).2 _ List.mem_cons_self
  cases resolved

end PagerDutyOutput

end NotiMapper
