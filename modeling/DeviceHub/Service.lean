import DeviceHub.Service.Failure
import DeviceHub.Service.MediaType
import DeviceHub.Service.Model
import DeviceHub.Service.Route

/-!
# The HTTP service

* `Request`         a request;
* `Answer`          a response, or a command whose result makes the response;
* `handle`          the answer to a request;
* `sent`            the response to the result of a command.

Scripts of every origin may read the responses.  Requests with the method `OPTIONS` are answered
whatever their path; a `HEAD` request is answered like a `GET` request, without the body.
-/

namespace DeviceHub.Service

open Json

/-- a request; header names are in any case -/
structure Request where
  method : String
  target : String
  headers : List (String × String)
  body : List UInt8

/-- a response; the body is present when it is JSON -/
structure Response where
  status : Nat
  allow : Option String := none
  body : Option String := none
deriving DecidableEq

/-- The origins whose scripts may read a response. -/
def allowedOrigins : String := "*"

/-- what a request leads to -/
inductive Answer
  | respond (r : Response)
  | send (r : Command.Request)

/-- what requests can see of the hub -/
structure View where
  status : Connection.Status
  uptimeSecs : Nat
  pending : Nat
  stats : Option Stats
  registry : Registry

/-- The largest body, in octets. -/
def maxBody : Nat := 64 * 1024

def ok (status : Nat) (d : Doc) : Response := { status := status, body := some d.render }

def Failure.response (f : Failure) : Response := ok f.status f.body

/-- the value of the first header of a name -/
def header? (r : Request) (name : String) : Option String :=
  (r.headers.find? fun h => h.1.toLower = name).map (·.2)

def showDevice (v : View) : Option String → Response
  | none => { status := 400 }
  | some id =>
    let id := Text.trim id
    if id = "" then (Failure.badRequest "device id is required").response
    else
      match v.registry.get? id with
      | some e => ok 200 (deviceDetail e)
      | none => (Failure.notFound ("device '" ++ id ++ "' not found")).response

/-- the command in a request, or the response that refuses it -/
def readCommand (r : Request) (id : Option String) : Answer :=
  let refuse (status : Nat) : Answer := .respond { status := status }
  match id with
  -- the octets in the path are no text
  | none => refuse 400
  | some id =>
    if ((header? r "content-type").bind MediaType.ofText?).any MediaType.isJson then
      if maxBody < r.body.length then refuse 413
      else
        -- what follows the value in the body does not count
        match CommandBody.record.codec.decodeStart (Text.Utf8.decode r.body) with
        | .error .malformed => refuse 400
        | .error .mismatch => refuse 422
        | .ok b => .send ⟨id, b.kind, b.params, b.limit⟩
    else refuse 415

def read (v : View) : Route → Response
  | .health => ok 200 (health v.status v.uptimeSecs v.pending v.stats)
  | .devices => ok 200 (deviceList v.registry)
  | .device id => showDevice v id
  | .command _ => { status := 405 }

def handleRoute (v : View) (r : Request) (route : Route) : Answer :=
  if r.method ∈ route.methods then
    match route with
    | .command id => readCommand r id
    | _ =>
      let response := read v route
      .respond (if r.method = "HEAD" then { response with body := response.body.map fun _ => "" }
        else response)
  else .respond { status := 405, allow := some route.allow }

def handle (v : View) (r : Request) : Option Answer := do
  let path ← pathOfTarget? r.target
  let route := Route.ofPath? path
  if r.method = "OPTIONS" then
    return .respond { status := 200, allow := route.map Route.allow }
  else
    match route with
    | none => return .respond { status := 404 }
    | some route => return handleRoute v r route

def sent : Except Command.Error Message.Ack → Response
  | .ok a => ok 200 (ackDoc a)
  | .error (.timeout a _) => ok 504 (ackDoc a)
  | .error e => (Failure.ofCommand e).response

end DeviceHub.Service
