import FlowAccess.Grpc.Client

/-!
# Scripted nodes

A node that replies from a script: a request takes the first reply of its procedure that has not
been taken. It keeps the requests that reach it.
-/

namespace FlowAccess.Grpc

structure Script where
  /-- Replies that have not been taken, each under the last part of its path. -/
  replies : List (String × Reply)
  /-- The paths and messages of requests, the latest first. -/
  requests : List (String × Bytes) := []
  /-- The length of the longest message that is sent or received. -/
  limit : Nat := 20971520

namespace Script

/-- The reply to a request for which there is none in the script. -/
def unscripted : Reply := { status := .unimplemented, text := "no reply scripted" }

/-- The part of a path behind the last slash. -/
def lastPart (path : String) : String :=
  String.ofList (path.toList.reverse.takeWhile (· ≠ '/')).reverse

/-- Takes the first reply of a name. -/
def takeReply (name : String) : List (String × Reply) → Reply × List (String × Reply)
  | [] => (unscripted, [])
  | (n, reply) :: rest =>
    if n = name then (reply, rest)
    else
      let (found, rest) := takeReply name rest
      (found, (n, reply) :: rest)

/-- Sends a request, unless its message is too long. -/
def send (path : String) (message : Bytes) (s : Script) : Except TransportError Reply × Script :=
  if s.limit < message.length then
    (.error { code := .internal, message := TransportError.unnamed }, s)
  else
    let (reply, replies) := takeReply (lastPart path) s.replies
    (.ok reply, { s with replies, requests := (path, message) :: s.requests })

/-- Carries out a call. -/
def run {α : Type} (s : Script) : Call Rpc α → Except ClientError α × Script
  | .done answer => (answer, s)
  | .ask rpc answer =>
    match s.send rpc.path rpc.message with
    | (.error e, s) => (.error (.transport e), s)
    | (.ok reply, s) =>
      match reply.unary s.limit rpc.decode? with
      | .error e => (.error (.transport e), s)
      | .ok r => (answer r, s)

/-- Opens a subscription and takes its results until there are no more. -/
def subscribe {α : Type} (s : Script) :
    Client.Opening α → Except ClientError (List (Except ClientError α)) × Script
  | .refused e => (.error e, s)
  | .cancelled => (.ok [], s)
  | .ask feed decode =>
    match s.send feed.path feed.message with
    | (.error e, s) => (.error (.transport e), s)
    | (.ok reply, s) => (.ok (Subscription.collect decode (reply.stream s.limit feed.decode?)), s)

end Script
end FlowAccess.Grpc
