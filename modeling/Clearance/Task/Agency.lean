import Clearance.Act
import Clearance.Ids
import Clearance.Json.Reader
import Clearance.Table
import Clearance.Task.Url

/-!
# Clearance — Task — Agencies

Calls to the services of agencies.  An `Agency` is everything outside: whether it can be reached, the
replies it has ready for each address, and a journal of the calls attempted.  A call made in a
cancelled context fails before anything is sent.
-/

namespace Clearance

/-- The circumstances of one operation. -/
structure CallContext where
  cancelled : Bool := false
  /-- Milliseconds an outbound call may take. -/
  timeoutMs : Option Nat := none
  deriving DecidableEq, Repr, Inhabited

inductive HttpMethod where
  | get
  | post
  deriving DecidableEq, Repr

def HttpMethod.text : HttpMethod → String
  | .get => "GET"
  | .post => "POST"

/-- What an agency does with a request. -/
inductive AgencyReply where
  | answer (status : Nat) (body : String)
  /-- Closes the connection without an answer. -/
  | refuse
  /-- Never answers. -/
  | hang
  deriving DecidableEq, Repr

/-- One attempted call. -/
structure AgencyCall where
  method : HttpMethod
  url : String
  body : Json
  /-- Whether a request went out. -/
  sent : Bool
  deriving DecidableEq

def AgencyCall.toJson (c : AgencyCall) : Json :=
  .obj [("method", .str c.method.text), ("url", .str c.url), ("body", c.body)]

structure Agency where
  /-- Whether connections to the outside get through. -/
  reachable : Bool := true
  /-- The replies ready for a method and an address, used up in order. -/
  replies : Table (HttpMethod × String) (List AgencyReply) := .empty
  journal : List AgencyCall := []
  /-- How much of the journal was read. -/
  read : Nat := 0

instance : Inhabited Agency := ⟨{}⟩

/-- The standard phrase of a status. -/
def reasonPhrase? : Nat → Option String
  | 100 => "Continue" | 101 => "Switching Protocols" | 102 => "Processing"
  | 200 => "OK" | 201 => "Created" | 202 => "Accepted" | 203 => "Non Authoritative Information"
  | 204 => "No Content" | 205 => "Reset Content" | 206 => "Partial Content" | 207 => "Multi-Status"
  | 208 => "Already Reported" | 226 => "IM Used"
  | 300 => "Multiple Choices" | 301 => "Moved Permanently" | 302 => "Found" | 303 => "See Other"
  | 304 => "Not Modified" | 305 => "Use Proxy" | 307 => "Temporary Redirect"
  | 308 => "Permanent Redirect"
  | 400 => "Bad Request" | 401 => "Unauthorized" | 402 => "Payment Required" | 403 => "Forbidden"
  | 404 => "Not Found" | 405 => "Method Not Allowed" | 406 => "Not Acceptable"
  | 407 => "Proxy Authentication Required" | 408 => "Request Timeout" | 409 => "Conflict"
  | 410 => "Gone" | 411 => "Length Required" | 412 => "Precondition Failed"
  | 413 => "Payload Too Large" | 414 => "URI Too Long" | 415 => "Unsupported Media Type"
  | 416 => "Range Not Satisfiable" | 417 => "Expectation Failed" | 418 => "I'm a teapot"
  | 421 => "Misdirected Request" | 422 => "Unprocessable Entity" | 423 => "Locked"
  | 424 => "Failed Dependency" | 425 => "Too Early" | 426 => "Upgrade Required"
  | 428 => "Precondition Required" | 429 => "Too Many Requests"
  | 431 => "Request Header Fields Too Large" | 451 => "Unavailable For Legal Reasons"
  | 500 => "Internal Server Error" | 501 => "Not Implemented" | 502 => "Bad Gateway"
  | 503 => "Service Unavailable" | 504 => "Gateway Timeout" | 505 => "HTTP Version Not Supported"
  | 506 => "Variant Also Negotiates" | 507 => "Insufficient Storage" | 508 => "Loop Detected"
  | 510 => "Not Extended" | 511 => "Network Authentication Required"
  | _ => none

/-- A status with its phrase. -/
def statusText (status : Nat) : String :=
  toString status ++ " " ++ (reasonPhrase? status).getD "<unknown status code>"

/-- A time span with its unit. -/
def spanText (ms : Nat) : String :=
  if ms = 0 then "0ns"
  else if ms < 1000 then toString ms ++ "ms"
  else
    let parts := Text.dropEndWhile (· == '0') (digitsOf (1000 + ms % 1000)).toList.tail
    toString (ms / 1000) ++ (if parts.isEmpty then "" else "." ++ String.ofList parts) ++ "s"

namespace Agency

/-- Milliseconds a call may take unless its context says otherwise. -/
def defaultTimeoutMs : Nat := 30000

/-- Takes the next reply ready for an address; without one the address is not found. -/
def takeReply (a : Agency) (key : HttpMethod × String) : AgencyReply × Agency :=
  match a.replies.get? key with
  | some (r :: rest) => (r, { a with replies := a.replies.insert key rest })
  | _ => (.answer 404 "", a)

/-- The value an agency's answer stands for. -/
def readAnswer (url : String) (status : Nat) (body : String) : Except Failure Json :=
  if status < 200 ∨ 300 ≤ status then .error (.callRejected url (statusText status))
  else if body = "" then .ok .null
  else
    match Json.parse? body with
    | some v => .ok v
    | none => .error (.callUnreadable url)

/-- Notes an attempted call. -/
def note (a : Agency) (c : AgencyCall) : Agency := { a with journal := a.journal ++ [c] }

/-- Calls an address and answers the JSON of the reply; an empty reply is `null`. -/
def call (ctx : CallContext) (method : HttpMethod) (url : String) (body : Json) :
    Act Agency Json :=
  .of fun a =>
    let unsent := a.note ⟨method, url, body, false⟩
    if ctx.cancelled then (.error (.callCancelled url), unsent)
    else
      match Url.check url with
      | .error problem => (.error (.callFailed url problem), unsent)
      | .ok address =>
        let failed := Failure.callFailed url ("error sending request for url (" ++ address ++ ")")
        if !a.reachable then (.error failed, unsent)
        else
          let (reply, a) := (a.note ⟨method, url, body, true⟩).takeReply (method, url)
          match reply with
          | .refuse => (.error failed, a)
          | .hang =>
            (.error (.callTimedOut url (spanText (ctx.timeoutMs.getD defaultTimeoutMs))), a)
          | .answer status text => (readAnswer url status text, a)

/-- Fetches a document. -/
def fetch (ctx : CallContext) (url : String) : Act Agency Json := call ctx .get url .null

/-- Submits data on behalf of a task. -/
def submit (ctx : CallContext) (url : String) (data : Json) (task : NodeId)
    (workflow : InstanceId) : Act Agency Json :=
  call ctx .post url (.obj [
    ("data", data),
    ("taskId", .str task.text),
    ("workflowId", .str workflow.text),
    ("serviceUrl", .str url)])

/-- The requests sent since the journal was last read. -/
def readJournal (a : Agency) : List AgencyCall × Agency :=
  ((a.journal.drop a.read).filter (·.sent), { a with read := a.journal.length })

end Agency

end Clearance
