import AuditTrail.Error
import AuditTrail.Secret
import AuditTrail.Text.Blank
import AuditTrail.Text.Utf8

/-!
# Exchanges with a server

The database is a server that answers requests. What it answers may depend on all that has been exchanged before. A request that
finds no server fails without a reason; a refusal carries what the server says, or its status if it says nothing.
-/

namespace AuditTrail.Columnar

/-- What a request asks for. -/
inductive Body where
  /-- A statement. -/
  | statement (sql : String)
  /-- Rows for an insertion. -/
  | rows (sql : String) (content : Octets)
  deriving DecidableEq, Repr

/-- A request to the database. -/
structure Request where
  /-- The selected database, if one is. -/
  database : Option String
  user : String
  key : Option Secret
  body : Body
  deriving DecidableEq, Repr

/-- What becomes of a request. -/
inductive Reply where
  | unreachable
  | response (status : Nat) (body : Octets)
  deriving DecidableEq, Repr

/-- A request and what became of it. -/
structure Exchange where
  request : Request
  reply : Reply
  deriving DecidableEq, Repr

/-- A server: how it answers a request after all that has been exchanged. -/
abbrev Server := List Exchange → Request → Reply

namespace Server

/-- The server that no request reaches. -/
def unreachable : Server := fun _ _ => .unreachable

/-- The server that answers one request after the other as written, and then with nothing. -/
def scripted (replies : List Reply) : Server := fun log _ => (replies[log.length]?).getD (.response 200 [])

end Server

/-- The reason phrase of a status. -/
def reasonPhrase : Nat → String
  | 201 => "Created"
  | 202 => "Accepted"
  | 204 => "No Content"
  | 301 => "Moved Permanently"
  | 302 => "Found"
  | 400 => "Bad Request"
  | 401 => "Unauthorized"
  | 403 => "Forbidden"
  | 404 => "Not Found"
  | 405 => "Method Not Allowed"
  | 408 => "Request Timeout"
  | 413 => "Payload Too Large"
  | 429 => "Too Many Requests"
  | 500 => "Internal Server Error"
  | 501 => "Not Implemented"
  | 502 => "Bad Gateway"
  | 503 => "Service Unavailable"
  | 504 => "Gateway Timeout"
  | _ => "<unknown>"

/-- What a refusal says. -/
def refusal (status : Nat) (body : Octets) : String :=
  let text := Text.trim ((Utf8.decode? body).getD "")
  if text.isEmpty then toString status ++ " " ++ reasonPhrase status else text

/-- A use of the database: it may fail, and what it exchanged is kept either way. -/
abbrev Use (α : Type) := ReaderT Server (ExceptT Error (StateM (List Exchange))) α

namespace Use

/-- What a use comes to with a server, and all that has been exchanged after it. -/
def run (u : Use α) (server : Server) (log : List Exchange) : Except Error α × List Exchange :=
  Id.run ((ReaderT.run u server).run.run log)

/-- Fails as a store does. -/
def fail (what : String) : Use α := throw (.store what)

/-- Sends a request for some purpose, and gives what is answered. -/
def send (what : String) (r : Request) : Use Octets := do
  let server ← read
  let log ← get
  let reply := server log r
  set (log ++ [⟨r, reply⟩])
  match reply with
  | .unreachable => fail what
  | .response 200 body => pure body
  | .response status body => fail (what ++ ": bad response: " ++ refusal status body)

end Use

end AuditTrail.Columnar
