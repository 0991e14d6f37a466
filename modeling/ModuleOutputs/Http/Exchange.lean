import ModuleOutputs.Http.Status
import ModuleOutputs.Http.Url

/-!
Requests and replies. A server is the list of replies it will give; a request
takes the next of them, and what was sent is kept in order. Redirects are followed on
the way to a reply, and a request may come to no reply at all.
-/

namespace ModuleOutputs.Http

open Text (Bytes)

/-- How the program names itself to servers. -/
def userAgent : String :=
  "tfmodule-schema/0.1.0"

/-- A request that was sent. -/
inductive Sent where
  /-- A request for a document. -/
  | document (method target : String) (authorization contentType : Option String) (body : String)
  /-- A request of a clone. `depth` is the history asked for, and `done` says that
  nothing more is asked for. -/
  | pack (method target : String) (depth : Option String) (done : Bool)
deriving Repr, DecidableEq

/-- What a request comes to once redirects have been followed: a document with its
status, what a repository answers to a clone, or no reply. -/
inductive Reply where
  | document (status : Nat) (body : Bytes)
  | repository (name : String)
  /-- There is no connection, the time is up, or redirects come to no end. -/
  | missing (reason : String)
deriving Repr, DecidableEq

/-- Why there is no reply, if there is none. -/
def Reply.fault? : Reply → Option String
  | .missing reason => some reason
  | .document _ _ | .repository _ => none

/-- A server: the replies that are left, and the requests received. -/
structure Server where
  replies : List Reply := []
  /-- The requests by which redirects are followed on the way to each of the replies. -/
  detours : List (List Sent) := []
  received : List Sent := []
  /-- The requests by which redirects have been followed. -/
  followed : List Sent := []
deriving Repr

namespace Server

/-- What is replied when no reply is left. -/
def exhausted : Reply :=
  .document 500 (Text.utf8 "no reply left")

/-- The server once requests have been answered. -/
def after (s : Server) (requests : List Sent) : Server where
  replies := s.replies.drop requests.length
  detours := s.detours.drop requests.length
  received := s.received ++ requests
  followed := s.followed ++ (s.detours.take requests.length).flatten

/-- Receives a request and gives the next reply. -/
def exchange (s : Server) (request : Sent) : Reply × Server :=
  (s.replies.head?.getD exhausted, s.after [request])

end Server

/-- Why a request for a document is not sent. -/
inductive RequestFault where
  | url (fault : UrlFault)
  /-- The credential cannot stand in a header. -/
  | header
deriving Repr, DecidableEq

namespace RequestFault

def message : RequestFault → String
  | .url f => f.message
  | .header => "builder error: failed to parse header value"

end RequestFault

/-- Whether a text can stand in a header. -/
def isHeaderText (s : String) : Bool :=
  s.toList.all fun c => c == '\t' || (0x20 ≤ c.toNat && c.toNat != 0x7F)

/-- A header's value as it is received: without blanks at its ends. -/
def headerValue (s : String) : String :=
  String.ofList (Text.stripWhile (fun c => c == ' ' || c == '\t') s.toList)

/-- The status and the body of a reply to a request for a document. No status is that
of a missing reply. -/
def documentOf : Reply → Nat × Bytes
  | .document status body => (status, if isBodiless status then [] else body)
  | .repository _ => (200, [])
  | .missing _ => (0, [])

end ModuleOutputs.Http
