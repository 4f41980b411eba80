import FeatureBatch.Config.Dictionary
import FeatureBatch.Log
import FeatureBatch.Text.Utf8

/-!
The settings of the clients that runtimes make requests with, and the checks that are made when a
client is created.
-/

namespace FeatureBatch

/-- Why no client could be created. -/
inductive HttpError where
  | headerName (name : String)
  | headerValue (name : String)
  | client
  deriving DecidableEq, Repr

def HttpError.message : HttpError → String
  | .headerName name => "Invalid header name: " ++ name
  | .headerValue name => "Invalid header value for " ++ name
  | .client => "Failed to create HTTP client"

structure HttpClients where
  timeoutSecs : UInt64
  acceptInvalidCerts : Bool
  userAgent : Option String
  headers : Dictionary
  deriving DecidableEq

namespace HttpClients

def default : HttpClients := ⟨30, false, none, .empty⟩

/-- The later value of a header replaces the earlier one. -/
def header (h : HttpClients) (name value : String) : HttpClients :=
  { h with headers := h.headers.insert name value }

/-- A call that makes a setting. -/
inductive Call where
  | timeout (secs : UInt64)
  | acceptInvalidCerts (accept : Bool)
  | userAgent (agent : String)
  | header (name value : String)
  deriving DecidableEq, Repr

def call (h : HttpClients) : Call → HttpClients
  | .timeout secs => { h with timeoutSecs := secs }
  | .acceptInvalidCerts accept => { h with acceptInvalidCerts := accept }
  | .userAgent agent => { h with userAgent := some agent }
  | .header name value => h.header name value

/-- The settings that calls make, one after the other. -/
def ofCalls (calls : List Call) : HttpClients := calls.foldl call default

/-- The characters of names of headers. -/
def isTokenChar (c : Char) : Bool := c.isAlphanum || "!#$%&\x27*+-.^_\x60|~".toList.contains c

def isHeaderName (name : String) : Bool :=
  let cs := name.toList
  !cs.isEmpty && cs.length ≤ 65535 && cs.all isTokenChar

/-- The characters of values: all but control characters, the tab apart. -/
def isValueChar (c : Char) : Bool := (32 ≤ c.toNat && c.toNat ≠ 127) || c = '\t'

def isHeaderValue (value : String) : Bool := value.toList.all isValueChar

/-- Checks a header: its name, then its value. -/
def checkHeader : String × String → Except HttpError Unit
  | (name, value) =>
    if !isHeaderName name then .error (.headerName name)
    else if !isHeaderValue value then .error (.headerValue name)
    else .ok ()

/-- Checks all headers in the order of their names, and then the user agent. -/
def check (h : HttpClients) : Except HttpError Unit := do
  h.headers.toList.forM checkHeader
  match h.userAgent with
  | none => .ok ()
  | some agent => if isHeaderValue agent then .ok () else .error .client

/-- Creates a client, which is reported. -/
def create (h : HttpClients) : Except HttpError Unit × Log :=
  match h.check with
  | .error e => (.error e, [])
  | .ok () =>
    let certs := if h.acceptInvalidCerts then "accepted" else "rejected"
    (.ok (), [⟨.debug,
      s!"http client ready (timeout {h.timeoutSecs.toNat}s, invalid certs {certs})"⟩])

end HttpClients

end FeatureBatch
