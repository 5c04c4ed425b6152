import OpenCdc.Foundation.Http
import OpenCdc.Mcp.Server

/-!
# The health endpoint

What the server answers to a request for its health or its metrics, and what a
client reads from the answer.
-/

namespace OpenCdc.Mcp

open Foundation

/-! ## The state of health -/

/-- What the server counts beside the state of its connectors. -/
structure Gauges where
  uptimeSeconds : UInt64
  totalEventsSent : UInt64
  totalErrors : UInt64

structure HealthStatus where
  uptimeSeconds : UInt64
  totalConnectors : UInt64
  runningConnectors : UInt64
  erroredConnectors : UInt64
  totalEventsReceived : UInt64
  totalEventsSent : UInt64
  totalErrors : UInt64
  status : String

namespace ConnectorStatus

def isRunning : ConnectorStatus → Bool
  | streaming => true
  | running => true
  | _ => false

def isError : ConnectorStatus → Bool
  | error _ => true
  | _ => false

end ConnectorStatus

namespace AppState

/-- The number of connectors in a status. -/
def countStatus (app : AppState) (p : ConnectorStatus → Bool) : ℕ :=
  app.connectors.entries.countP fun entry => p entry.2.status

def healthStatus (app : AppState) (gauges : Gauges) : HealthStatus :=
  let errors := UInt64.ofNat (app.countStatus ConnectorStatus.isError)
  { uptimeSeconds := gauges.uptimeSeconds
    totalConnectors := UInt64.ofNat app.connectors.entries.length
    runningConnectors :=
      UInt64.ofNat (app.countStatus ConnectorStatus.isRunning)
    erroredConnectors := errors
    totalEventsReceived := app.totalEventsReceived
    totalEventsSent := gauges.totalEventsSent
    totalErrors := gauges.totalErrors
    status := if 0 < errors then "degraded" else "healthy" }

end AppState

namespace HealthStatus

/-- The field of a number in a pretty-printed JSON object. -/
def prettyField (name : String) (value : UInt64) : String :=
  "  \"" ++ name ++ "\": " ++ toString value.toNat ++ ",\n"

/-- `serde_json::to_string_pretty` -/
def toStringPretty (health : HealthStatus) : String :=
  "\x7b\n" ++
    prettyField "uptime_seconds" health.uptimeSeconds ++
    prettyField "total_connectors" health.totalConnectors ++
    prettyField "running_connectors" health.runningConnectors ++
    prettyField "errored_connectors" health.erroredConnectors ++
    prettyField "total_events_received" health.totalEventsReceived ++
    prettyField "total_events_sent" health.totalEventsSent ++
    prettyField "total_errors" health.totalErrors ++
    "  \"status\": \"" ++ health.status ++ "\"\n\x7d"

/-- One metric in the text format of a scrape. -/
def metric (name help type : String) (value : UInt64) : String :=
  "# HELP " ++ name ++ " " ++ help ++ "\n" ++
    "# TYPE " ++ name ++ " " ++ type ++ "\n" ++
    name ++ " " ++ toString value.toNat ++ "\n"

def metrics (health : HealthStatus) : String :=
  metric "opencdc_events_received" "Total events received" "counter"
      health.totalEventsReceived ++
    metric "opencdc_events_sent" "Total events sent to sinks" "counter"
      health.totalEventsSent ++
    metric "opencdc_errors" "Total errors" "counter" health.totalErrors ++
    metric "opencdc_connectors_running" "Currently running connectors" "gauge"
      health.runningConnectors ++
    metric "opencdc_uptime_seconds" "Server uptime in seconds" "gauge"
      health.uptimeSeconds

end HealthStatus

/-! ## Requests and responses -/

/-- A line of a head with its end. -/
def headLine (text : String) : String := text ++ "\r\n"

def corsHeaders : String :=
  headLine "Access-Control-Allow-Origin: *" ++
    headLine "Access-Control-Allow-Methods: GET, OPTIONS" ++
    headLine "Access-Control-Allow-Headers: Content-Type, Authorization"

def jsonError (code message : String) : String :=
  "\x7b\"error\":\"" ++ code ++ "\",\"message\":\"" ++ message ++ "\"\x7d"

/-- What a request gets beside the body. -/
structure Answer where
  statusCode : ℕ
  statusText : String
  body : String
  contentType : String
deriving DecidableEq, Repr

/-- `request.starts_with(..)` on the text of the request -/
def startsWith (request : Bytes) (start : String) : Bool :=
  decide (start.toList <+: utf8Lossy request)

/-- The endpoints behind the preflight. -/
def route (app : AppState) (gauges : Gauges) (request : Bytes) : Answer :=
  if startsWith request "GET /health " || startsWith request "GET /health\r\n"
  then
    let health := app.healthStatus gauges
    if health.status = "healthy" then
      ⟨200, "OK", health.toStringPretty, "application/json"⟩
    else
      ⟨503, "Service Unavailable", health.toStringPretty, "application/json"⟩
  else if startsWith request "GET /metrics " ||
      startsWith request "GET /metrics\r\n" then
    let health := app.healthStatus gauges
    ⟨200, "OK", health.metrics, "text/plain; charset=utf-8"⟩
  else
    ⟨404, "Not Found",
      jsonError "not_found" "the requested endpoint does not exist",
      "application/json"⟩

def preflight : String :=
  headLine "HTTP/1.1 204 No Content" ++ corsHeaders ++
    headLine "Content-Length: 0" ++ headLine "Connection: close" ++ headLine ""

def Answer.response (answer : Answer) : String :=
  headLine ("HTTP/1.1 " ++ toString answer.statusCode ++ " " ++
      answer.statusText) ++
    corsHeaders ++
    headLine ("Content-Type: " ++ answer.contentType) ++
    headLine ("Content-Length: " ++
      toString (encodeUtf8 answer.body.toList).length) ++
    headLine "Connection: close" ++ headLine "" ++ answer.body

/-- What is written for a request; nothing if nothing was read. -/
def handleHealthRequest (app : AppState) (gauges : Gauges) (request : Bytes) :
    Option Bytes :=
  if request = [] then none
  else if startsWith request "OPTIONS " then
    some (encodeUtf8 preflight.toList)
  else some (encodeUtf8 (route app gauges request).response.toList)

/-! ## What a client reads -/

/-- The lines of `corsHeaders`. -/
def corsLines : List (List Char) :=
  ["Access-Control-Allow-Origin: *".toList,
    "Access-Control-Allow-Methods: GET, OPTIONS".toList,
    "Access-Control-Allow-Headers: Content-Type, Authorization".toList]

namespace Answer

variable (answer : Answer)

def statusLine : List Char :=
  ("HTTP/1.1 " ++ toString answer.statusCode ++ " " ++
    answer.statusText).toList

def headers : List (List Char) :=
  corsLines ++
    [("Content-Type: " ++ answer.contentType).toList,
      ("Content-Length: " ++
        toString (encodeUtf8 answer.body.toList).length).toList,
      "Connection: close".toList]

/-- The answer as a reply. -/
def reply : Http.Reply :=
  ⟨answer.statusLine, answer.headers, encodeUtf8 answer.body.toList⟩

theorem body_reply : answer.reply.body = encodeUtf8 answer.body.toList := rfl

theorem toList_append_toString (text : String) (n : ℕ) :
    (text ++ toString n).toList = text.toList ++ Nat.toDigits 10 n :=
  String.toList_append.trans (congrArg (text.toList ++ ·) Nat.toList_repr)

theorem cr_notMem_toDigits (n : ℕ) : '\r' ∉ Nat.toDigits 10 n := by
  intro hmem
  have hdigit := Nat.isDigit_of_mem_toDigits (by decide) (by decide) hmem
  exact absurd hdigit (by decide)

theorem toList_headLine (text : String) :
    (headLine text).toList = text.toList ++ Http.crlf :=
  String.toList_append

theorem toList_corsHeaders :
    corsHeaders.toList = corsLines.flatMap (· ++ Http.crlf) := by
  simp only [corsHeaders, corsLines, String.toList_append, toList_headLine,
    List.flatMap_cons, List.flatMap_nil, List.append_assoc, List.append_nil]

theorem encodeUtf8_response :
    encodeUtf8 answer.response.toList =
      Http.message (answer.statusLine :: answer.headers)
        (encodeUtf8 answer.body.toList) := by
  have htext : answer.response.toList =
      (answer.statusLine :: answer.headers).flatMap (· ++ Http.crlf) ++
        Http.crlf ++ answer.body.toList := by
    simp only [response, statusLine, headers, String.toList_append,
      toList_headLine, toList_corsHeaders,
      String.toList_empty, List.flatMap_cons, List.flatMap_append,
      List.flatMap_nil, List.append_assoc, List.append_nil, List.nil_append]
  rw [htext, encodeUtf8_append, encodeUtf8_append]
  rfl

theorem isLine_of_mem_headers (h : '\r' ∉ answer.contentType.toList)
    {line : List Char} (hline : line ∈ answer.headers) : Http.IsLine line := by
  simp only [headers, corsLines, List.mem_append, List.mem_cons,
    List.not_mem_nil, or_false] at hline
  rcases hline with (rfl | rfl | rfl) | rfl | rfl | rfl
  · decide
  · decide
  · decide
  · rw [String.toList_append]
    apply Http.IsLine.append _ h
    decide
  · rw [toList_append_toString]
    apply Http.IsLine.append _ (cr_notMem_toDigits _)
    decide
  · decide

theorem isLine_statusLine (h : '\r' ∉ answer.statusText.toList) :
    Http.IsLine answer.statusLine := by
  rw [statusLine, String.toList_append, String.toList_append,
    toList_append_toString]
  apply Http.IsLine.append _ h
  apply Http.IsLine.append _ (by decide)
  apply Http.IsLine.append _ (cr_notMem_toDigits _)
  decide

theorem contentLength_headers :
    Http.contentLength answer.headers =
      some (encodeUtf8 answer.body.toList).length := by
  -- two beginnings of one line agree as far as the shorter one goes
  have htype : ¬Http.contentLengthName <+:
      ("Content-Type: " ++ answer.contentType).toList := by
    intro h
    rw [String.toList_append] at h
    rcases List.prefix_or_prefix_of_prefix h (List.prefix_append _ _) with
      hpre | hpre
    · exact absurd hpre (by decide)
    · exact absurd hpre (by decide)
  rw [headers, corsLines, List.cons_append, List.cons_append, List.cons_append,
    List.nil_append, Http.contentLength_cons_of_not_prefix (by decide),
    Http.contentLength_cons_of_not_prefix (by decide),
    Http.contentLength_cons_of_not_prefix (by decide),
    Http.contentLength_cons_of_not_prefix htype, toList_append_toString]
  exact Http.contentLength_cons_length _ _

/-- A client reads the answer and nothing behind it. -/
theorem readReply_response (hstatus : '\r' ∉ answer.statusText.toList)
    (hcontentType : '\r' ∉ answer.contentType.toList) :
    Http.readReply (encodeUtf8 answer.response.toList) =
      some (answer.reply, []) := by
  have hlines : ∀ line ∈ answer.statusLine :: answer.headers,
      Http.IsLine line := by
    apply List.forall_mem_cons.mpr ⟨answer.isLine_statusLine hstatus, _⟩
    intro line hline
    exact answer.isLine_of_mem_headers hcontentType hline
  have hread := Http.readReply_message hlines answer.contentLength_headers []
  rw [List.append_nil, ← encodeUtf8_response] at hread
  exact hread

end Answer

/-! ## Reading a scrape -/

/-- The name and the value on a line that is not a comment. -/
def sampleOf (line : List Char) : Option (List Char × ℕ) :=
  if ['#'] <+: line then none
  else
    (readDecimal ((line.dropWhile (· != ' ')).drop 1)).map fun n =>
      (line.takeWhile (· != ' '), n)

/-- What a scrape reads from a text. -/
def samples (text : List Char) : List (List Char × ℕ) :=
  (text.splitOn '\n').filterMap sampleOf

theorem samples_line {line : List Char} (h : '\n' ∉ line) (rest : List Char) :
    samples (line ++ '\n' :: rest) =
      (sampleOf line).toList ++ samples rest := by
  rw [samples, List.splitOn_append_cons_self_of_not_mem h,
    List.filterMap_cons]
  cases sampleOf line <;> rfl

theorem sampleOf_comment (text : List Char) : sampleOf ('#' :: text) = none :=
  if_pos (List.cons_prefix_cons.mpr ⟨rfl, List.nil_prefix⟩)

theorem sampleOf_value {name digits : List Char} {n : ℕ} (hname : ' ' ∉ name)
    (hcomment : ¬['#'] <+: name ++ [' '])
    (hdigits : readDecimal digits = some n) :
    sampleOf (name ++ ' ' :: digits) = some (name, n) := by
  have hstart : ¬['#'] <+: name ++ ' ' :: digits := by
    cases name with
    | nil => simp
    | cons c name => simpa using hcomment
  have hall : ∀ c ∈ name, (c != ' ') = true := fun c hc =>
    bne_iff_ne.mpr fun heq => hname (heq ▸ hc)
  have htake : (name ++ ' ' :: digits).takeWhile (· != ' ') = name := by
    rw [List.takeWhile_append_of_pos hall]
    exact List.append_nil name
  have hdrop : (name ++ ' ' :: digits).dropWhile (· != ' ') =
      ' ' :: digits := by
    rw [List.dropWhile_append_of_pos hall]
    rfl
  rw [sampleOf, if_neg hstart, htake, hdrop, List.drop_one, List.tail_cons,
    hdigits]
  rfl

/-- What stands in the lines of a metric. -/
structure IsMetric (name help type : String) : Prop where
  noSpace : ' ' ∉ name.toList
  noComment : ¬['#'] <+: name.toList ++ [' ']
  oneLine : ∀ text ∈ [name, help, type], '\n' ∉ text.toList

theorem samples_metric {name help type : String}
    (h : IsMetric name help type) (value : UInt64) (rest : List Char) :
    samples ((HealthStatus.metric name help type value).toList ++ rest) =
      (name.toList, value.toNat) :: samples rest := by
  have hdigits : (toString value.toNat).toList =
      Nat.toDigits 10 value.toNat := Nat.toList_repr
  have hread := readDecimal_toDigits value.toNat
  have hnoEnd : '\n' ∉ Nat.toDigits 10 value.toNat := fun hmem =>
    absurd (Nat.isDigit_of_mem_toDigits (by decide) (by decide) hmem)
      (by decide)
  rw [← hdigits] at hread hnoEnd
  unfold HealthStatus.metric
  -- from here on the value is a text that is read as the value
  generalize toString value.toNat = digits at hread hnoEnd
  have hname := h.oneLine name (by simp)
  have hhelp := h.oneLine help (by simp)
  have htype := h.oneLine type (by simp)
  have hhash : "# HELP ".toList = '#' :: " HELP ".toList := by decide
  have hhash' : "# TYPE ".toList = '#' :: " TYPE ".toList := by decide
  have hfirst : '\n' ∉ '#' :: (" HELP ".toList ++ (name.toList ++
      (" ".toList ++ help.toList))) := by
    simp [hname, hhelp]
  have hsecond : '\n' ∉ '#' :: (" TYPE ".toList ++ (name.toList ++
      (" ".toList ++ type.toList))) := by
    simp [hname, htype]
  have hthird : '\n' ∉ name.toList ++ ' ' :: digits.toList := by
    simp [hname, hnoEnd]
  have hsplit : ("# HELP " ++ name ++ " " ++ help ++ "\n" ++ "# TYPE " ++
      name ++ " " ++ type ++ "\n" ++ name ++ " " ++ digits ++
      "\n").toList ++ rest =
        '#' :: (" HELP ".toList ++ (name.toList ++
          (" ".toList ++ help.toList))) ++
        '\n' :: ('#' :: (" TYPE ".toList ++ (name.toList ++
          (" ".toList ++ type.toList))) ++
        '\n' :: (name.toList ++ ' ' :: digits.toList ++ '\n' :: rest)) := by
    have hspace : " ".toList = [' '] := rfl
    have hend : "\n".toList = ['\n'] := rfl
    simp only [String.toList_append, hhash, hhash', hspace, hend,
      List.cons_append, List.nil_append, List.append_assoc]
  rw [hsplit, samples_line hfirst, samples_line hsecond, samples_line hthird,
    sampleOf_comment, sampleOf_comment,
    sampleOf_value h.noSpace h.noComment hread]
  rfl

/-- A scrape reads the five values of the state of health. -/
theorem samples_metrics (health : HealthStatus) :
    samples health.metrics.toList =
      [("opencdc_events_received".toList, health.totalEventsReceived.toNat),
        ("opencdc_events_sent".toList, health.totalEventsSent.toNat),
        ("opencdc_errors".toList, health.totalErrors.toNat),
        ("opencdc_connectors_running".toList,
          health.runningConnectors.toNat),
        ("opencdc_uptime_seconds".toList, health.uptimeSeconds.toNat)] := by
  have hnil : samples [] = [] := rfl
  have hlast := @samples_metric "opencdc_uptime_seconds"
    "Server uptime in seconds" "gauge" ⟨by decide, by decide, by decide⟩
    health.uptimeSeconds []
  rw [List.append_nil, hnil] at hlast
  simp only [HealthStatus.metrics, String.toList_append, List.append_assoc]
  rw [samples_metric ⟨by decide, by decide, by decide⟩,
    samples_metric ⟨by decide, by decide, by decide⟩,
    samples_metric ⟨by decide, by decide, by decide⟩,
    samples_metric ⟨by decide, by decide, by decide⟩, hlast]

/-! ## The connectors of a run -/

/-- The action gives no connector an error from outside; the server itself
never does. -/
def Action.LeavesHealthy (a : Action) : Prop :=
  ∀ name text, a ≠ .updateStatus name (.error text)

namespace World

/-- No connector has failed. -/
def Healthy (w : World) : Prop :=
  ∀ name c, w.app.connectors.lookup name = some c → c.status.isError = false

variable {w w' : World} {a : Action}

/-- Every connector of a step that was not there before is new, and every other
keeps its status or gets one that the step gives. -/
theorem healthy_of_lookup (h : w.Healthy)
    (hlookup : ∀ name c', w'.app.connectors.lookup name = some c' →
      c'.status.isError = false ∨
        ∃ c, w.app.connectors.lookup name = some c ∧ c'.status = c.status) :
    w'.Healthy := by
  intro name c' hc'
  rcases hlookup name c' hc' with hnew | ⟨c, hc, hstatus⟩
  · exact hnew
  · rw [hstatus]
    exact h name c hc

/-- Connectors that an update under a name leaves as they are or gives a
status. -/
theorem healthy_of_modify {name : String} {f : ManagedConnector → ManagedConnector}
    (h : w.Healthy)
    (hf : ∀ c, (f c).status.isError = false ∨ (f c).status = c.status)
    (hlookup : ∀ other, w'.app.connectors.lookup other =
      if other = name then (w.app.connectors.lookup name).map f
      else w.app.connectors.lookup other) : w'.Healthy := by
  apply healthy_of_lookup h
  intro other c' hc'
  rw [hlookup] at hc'
  split_ifs at hc' with hother
  · obtain ⟨c, hc, rfl⟩ := Option.map_eq_some_iff.mp hc'
    exact (hf c).imp id fun hstatus => ⟨c, hother ▸ hc, hstatus⟩
  · exact Or.inr ⟨c', hc', rfl⟩

theorem healthy_step (ha : a.LeavesHealthy) (h : w.Healthy)
    (hstep : w.step a = some w') : w'.Healthy := by
  cases step_cases hstep with
  | register name =>
      apply healthy_of_lookup h
      intro other c' hc'
      rw [app_register, AppState.lookup_registerConnector] at hc'
      split_ifs at hc' with hother
      · rw [hother]
        rcases hname : w.app.connectors.lookup name with _ | c <;>
          rw [hname] at hc' <;> obtain rfl := Option.some.inj hc'
        · exact Or.inl rfl
        · exact Or.inr ⟨_, rfl, rfl⟩
      · exact Or.inr ⟨c', hc', rfl⟩
  | remove name =>
      apply healthy_of_lookup h
      intro other c' hc'
      rw [app_remove, AppState.lookup_connectorRemove] at hc'
      split_ifs at hc'
      exact Or.inr ⟨c', hc', rfl⟩
  | updateStatus name status =>
      apply healthy_of_modify h _ (AppState.lookup_updateStatus _ _ · status)
      intro c
      cases status with
      | error text => exact absurd rfl (ha name text)
      | _ => exact Or.inl rfl
  | shutdownAll =>
      apply healthy_of_lookup h
      intro other c' hc'
      rw [app_shutdownAll, AppState.lookup_shutdownAll] at hc'
      obtain ⟨c, -, rfl⟩ := Option.map_eq_some_iff.mp hc'
      exact Or.inl rfl
  | accept id name tables hlock hfresh => exact h
  | refuse => exact h
  | setStatus id name tables hlock htask =>
      exact healthy_of_modify h (fun _ => Or.inl rfl)
        (AppState.lookup_updateStatus _ _ · .snapshotting)
  | spawn id name tables htask => exact h
  | complete id name tables hlock htask =>
      exact healthy_of_modify h (fun _ => Or.inl rfl)
        (AppState.lookup_completeSnapshot _ _ · _)
  | finish count => exact h
  | add id name count hfresh => exact h
  | apply id name count hlock htask =>
      exact healthy_of_modify (f := .received count) h (fun _ => Or.inr rfl)
        (AppState.lookup_applyReceived _ _ · count)

theorem Healthy.healthStatus (h : w.Healthy) (gauges : Gauges) :
    (w.app.healthStatus gauges).erroredConnectors = 0 ∧
      (w.app.healthStatus gauges).status = "healthy" := by
  have hcount : w.app.countStatus ConnectorStatus.isError = 0 := by
    apply List.countP_eq_zero.mpr
    intro entry hentry herror
    have hlookup : w.app.connectors.lookup entry.1 = some entry.2 :=
      AList.mem_lookup_iff.mpr hentry
    rw [h entry.1 entry.2 hlookup] at herror
    cases herror
  rw [AppState.healthStatus, hcount]
  exact ⟨rfl, rfl⟩

end World

/-! ## What requests get -/

/-- The request begins with a text. -/
def Asks (request : Bytes) (start : String) : Prop :=
  encodeUtf8 start.toList <+: request

def asksForHealth (request : Bytes) : Prop :=
  Asks request "GET /health " ∨ Asks request "GET /health\r\n"

def asksForMetrics (request : Bytes) : Prop :=
  Asks request "GET /metrics " ∨ Asks request "GET /metrics\r\n"

/-- What a client is told that asks a server in good health. -/
structure Tells (health : HealthStatus) (request : Bytes)
    (reply : Http.Reply) : Prop where
  onPreflight : Asks request "OPTIONS " →
    reply.status = "HTTP/1.1 204 No Content".toList ∧ reply.body = []
  onHealth : asksForHealth request →
    reply.status = "HTTP/1.1 200 OK".toList ∧
      reply.body = encodeUtf8 health.toStringPretty.toList
  onMetrics : asksForMetrics request →
    reply.status = "HTTP/1.1 200 OK".toList ∧
      samples (utf8Lossy reply.body) =
        [("opencdc_events_received".toList, health.totalEventsReceived.toNat),
          ("opencdc_events_sent".toList, health.totalEventsSent.toNat),
          ("opencdc_errors".toList, health.totalErrors.toNat),
          ("opencdc_connectors_running".toList,
            health.runningConnectors.toNat),
          ("opencdc_uptime_seconds".toList, health.uptimeSeconds.toNat)]
  otherwise : ¬Asks request "OPTIONS " → ¬asksForHealth request →
    ¬asksForMetrics request →
      reply.status = "HTTP/1.1 404 Not Found".toList

theorem startsWith_iff {request : Bytes} {start : String}
    (h : start.toList.all fun c => decide (c.toNat < 0x80)) :
    startsWith request start = true ↔ Asks request start := by
  have hascii : ∀ c ∈ start.toList, c.toNat < 0x80 := fun c hc =>
    of_decide_eq_true (List.all_eq_true.mp h c hc)
  rw [startsWith, decide_eq_true_iff, isPrefix_utf8Lossy_iff hascii]
  rfl

/-- A request begins with one of two texts only, unless one text begins with
the other. -/
theorem Asks.not_asks {request : Bytes} {start start' : String}
    (h : Asks request start)
    (hapart : ¬encodeUtf8 start.toList <+: encodeUtf8 start'.toList ∧
      ¬encodeUtf8 start'.toList <+: encodeUtf8 start.toList) :
    ¬Asks request start' := by
  intro h'
  rcases List.prefix_or_prefix_of_prefix h h' with hpre | hpre
  · exact hapart.1 hpre
  · exact hapart.2 hpre

theorem not_asks_of_preflight {request : Bytes} (h : Asks request "OPTIONS ") :
    ¬asksForHealth request ∧ ¬asksForMetrics request :=
  ⟨not_or.mpr ⟨h.not_asks (by decide), h.not_asks (by decide)⟩,
    not_or.mpr ⟨h.not_asks (by decide), h.not_asks (by decide)⟩⟩

theorem not_asksForMetrics {request : Bytes} (h : asksForHealth request) :
    ¬asksForMetrics request := by
  rcases h with h | h
  · exact not_or.mpr ⟨h.not_asks (by decide), h.not_asks (by decide)⟩
  · exact not_or.mpr ⟨h.not_asks (by decide), h.not_asks (by decide)⟩

theorem route_of_asksForHealth {app : AppState} {gauges : Gauges}
    {request : Bytes} (hstatus : (app.healthStatus gauges).status = "healthy")
    (h : asksForHealth request) :
    route app gauges request = ⟨200, "OK",
      (app.healthStatus gauges).toStringPretty, "application/json"⟩ := by
  have hstarts : (startsWith request "GET /health " ||
      startsWith request "GET /health\r\n") = true := by
    rw [Bool.or_eq_true, startsWith_iff (by decide), startsWith_iff (by decide)]
    exact h
  rw [route, if_pos hstarts]
  exact if_pos hstatus

theorem not_startsWith_health {request : Bytes} (h : ¬asksForHealth request) :
    ¬(startsWith request "GET /health " ||
      startsWith request "GET /health\r\n") = true := by
  rw [Bool.or_eq_true, startsWith_iff (by decide), startsWith_iff (by decide)]
  exact h

theorem startsWith_metrics_iff {request : Bytes} :
    (startsWith request "GET /metrics " ||
      startsWith request "GET /metrics\r\n") = true ↔
        asksForMetrics request := by
  rw [Bool.or_eq_true, startsWith_iff (by decide), startsWith_iff (by decide)]
  rfl

theorem route_of_asksForMetrics {app : AppState} {gauges : Gauges}
    {request : Bytes} (hhealth : ¬asksForHealth request)
    (h : asksForMetrics request) :
    route app gauges request = ⟨200, "OK",
      (app.healthStatus gauges).metrics, "text/plain; charset=utf-8"⟩ := by
  rw [route, if_neg (not_startsWith_health hhealth)]
  exact if_pos (startsWith_metrics_iff.mpr h)

theorem route_of_not_asks {app : AppState} {gauges : Gauges} {request : Bytes}
    (hhealth : ¬asksForHealth request) (h : ¬asksForMetrics request) :
    route app gauges request = ⟨404, "Not Found",
      jsonError "not_found" "the requested endpoint does not exist",
      "application/json"⟩ := by
  rw [route, if_neg (not_startsWith_health hhealth)]
  exact if_neg fun hstarts => h (startsWith_metrics_iff.mp hstarts)

theorem readReply_preflight :
    Http.readReply (encodeUtf8 preflight.toList) =
      some (⟨"HTTP/1.1 204 No Content".toList,
        corsLines ++ ["Content-Length: 0".toList, "Connection: close".toList],
        []⟩, []) := by
  have htext : preflight.toList =
      ("HTTP/1.1 204 No Content".toList :: (corsLines ++
        ["Content-Length: 0".toList, "Connection: close".toList])).flatMap
          (· ++ Http.crlf) ++ Http.crlf := by
    simp only [preflight, String.toList_append, Answer.toList_headLine,
      Answer.toList_corsHeaders, String.toList_empty, List.flatMap_cons,
      List.flatMap_append, List.flatMap_nil, List.append_assoc,
      List.append_nil, List.nil_append]
  have hbytes : encodeUtf8 preflight.toList = Http.message
      ("HTTP/1.1 204 No Content".toList :: (corsLines ++
        ["Content-Length: 0".toList, "Connection: close".toList])) [] ++ [] := by
    rw [htext, encodeUtf8_append, Http.message, List.append_nil,
      List.append_nil]
  rw [hbytes]
  exact Http.readReply_message (by decide) (by decide) []

theorem reply_status_ok (body contentType : String) :
    (Answer.reply ⟨200, "OK", body, contentType⟩).status =
      "HTTP/1.1 200 OK".toList := by
  rw [Answer.reply, Answer.statusLine, String.toList_append,
    String.toList_append, Answer.toList_append_toString]
  have hdigits : "HTTP/1.1 ".toList ++ Nat.toDigits 10 200 ++ " ".toList ++
      "OK".toList = "HTTP/1.1 200 OK".toList := by decide
  exact hdigits

theorem reply_status_notFound (body contentType : String) :
    (Answer.reply ⟨404, "Not Found", body, contentType⟩).status =
      "HTTP/1.1 404 Not Found".toList := by
  rw [Answer.reply, Answer.statusLine, String.toList_append,
    String.toList_append, Answer.toList_append_toString]
  have hdigits : "HTTP/1.1 ".toList ++ Nat.toDigits 10 404 ++ " ".toList ++
      "Not Found".toList = "HTTP/1.1 404 Not Found".toList := by decide
  exact hdigits

theorem handleHealthRequest_of_not_preflight {app : AppState}
    {gauges : Gauges} {request : Bytes} (hrequest : request ≠ [])
    (h : ¬Asks request "OPTIONS ") :
    handleHealthRequest app gauges request =
      some (encodeUtf8 (route app gauges request).response.toList) := by
  rw [handleHealthRequest, if_neg hrequest]
  exact if_neg fun hstarts => h ((startsWith_iff (by decide)).mp hstarts)

theorem tells_route {app : AppState} {gauges : Gauges} {request : Bytes}
    (hstatus : (app.healthStatus gauges).status = "healthy")
    (hpreflight : ¬Asks request "OPTIONS ") :
    Tells (app.healthStatus gauges) request
      (route app gauges request).reply := by
  by_cases hhealth : asksForHealth request
  · rw [route_of_asksForHealth hstatus hhealth]
    constructor
    · exact fun h => absurd h hpreflight
    · exact fun _ => ⟨reply_status_ok _ _, Answer.body_reply _⟩
    · exact fun h => absurd h (not_asksForMetrics hhealth)
    · exact fun _ h => absurd hhealth h
  · by_cases hmetrics : asksForMetrics request
    · rw [route_of_asksForMetrics hhealth hmetrics]
      constructor
      · exact fun h => absurd h hpreflight
      · exact fun h => absurd h hhealth
      · intro _
        refine ⟨reply_status_ok _ _, ?_⟩
        rw [Answer.body_reply, utf8Lossy_encodeUtf8, samples_metrics]
      · exact fun _ _ h => absurd hmetrics h
    · rw [route_of_not_asks hhealth hmetrics]
      constructor
      · exact fun h => absurd h hpreflight
      · exact fun h => absurd h hhealth
      · exact fun h => absurd h hmetrics
      · exact fun _ _ _ => reply_status_notFound _ _

/-- No answer has a line end in what it says. -/
theorem cr_notMem_route (app : AppState) (gauges : Gauges) (request : Bytes) :
    '\r' ∉ (route app gauges request).statusText.toList ∧
      '\r' ∉ (route app gauges request).contentType.toList := by
  have hok : '\r' ∉ "OK".toList := by decide
  have hjson : '\r' ∉ "application/json".toList := by decide
  have htext : '\r' ∉ "text/plain; charset=utf-8".toList := by decide
  have hnotFound : '\r' ∉ "Not Found".toList := by decide
  have hunavailable : '\r' ∉ "Service Unavailable".toList := by decide
  rw [route]
  split_ifs
  · dsimp only
    split_ifs
    · exact ⟨hok, hjson⟩
    · exact ⟨hunavailable, hjson⟩
  · exact ⟨hok, htext⟩
  · exact ⟨hnotFound, hjson⟩

theorem tells_handleHealthRequest {app : AppState} {gauges : Gauges}
    {request : Bytes} (hstatus : (app.healthStatus gauges).status = "healthy")
    (hrequest : request ≠ []) :
    ∃ bytes reply, handleHealthRequest app gauges request = some bytes ∧
      Http.readReply bytes = some (reply, []) ∧
      Tells (app.healthStatus gauges) request reply := by
  by_cases hpreflight : Asks request "OPTIONS "
  · obtain ⟨hhealth, hmetrics⟩ := not_asks_of_preflight hpreflight
    refine ⟨_, _, ?_, readReply_preflight, fun _ => ⟨rfl, rfl⟩,
      fun h => absurd h hhealth, fun h => absurd h hmetrics,
      fun h => absurd hpreflight h⟩
    rw [handleHealthRequest, if_neg hrequest]
    exact if_pos ((startsWith_iff (by decide)).mpr hpreflight)
  · obtain ⟨hstatusText, hcontentType⟩ := cr_notMem_route app gauges request
    exact ⟨_, _, handleHealthRequest_of_not_preflight hrequest hpreflight,
      Answer.readReply_response _ hstatusText hcontentType,
      tells_route hstatus hpreflight⟩

end OpenCdc.Mcp
