import RepairLedger.Text.Utf8

/-!
# Exchanges with a server

What is asked of a server, and how it answers or fails to.
-/

namespace RepairLedger.Host

/-- A request for what is at a URL. -/
structure Request where
  url : String
  /-- The kind of content that is wanted. -/
  accept : String
  userAgent : String
  authorization : Option String
deriving DecidableEq, Repr

structure Response where
  status : Nat
  body : Bytes
deriving DecidableEq, Repr

/-- Why there is no answer. -/
inductive ConnectionFailure where
  | unreachable
  | refused
  | other (message : String)
deriving DecidableEq, Repr

/-- The text of a failure. -/
def ConnectionFailure.message : ConnectionFailure → String
  | .unreachable =>
    "Connection Failed: Connect error: Network is unreachable (os error 101)"
  | .refused => "Connection Failed: Connect error: Connection refused (os error 111)"
  | .other message => message

/-- The network as a client sees it. -/
inductive Network where
  | unreachable
  /-- There is a network, and nobody listens. -/
  | refusing
  /-- A server with an answer for each of some URLs; it knows nothing of any other. -/
  | serving (answers : List (String × Response))
  /-- The requests are answered in their order, whatever they ask for, as long as there are answers
  left; some of them may fail. -/
  | scripted (answers : List (ConnectionFailure ⊕ Response))
deriving DecidableEq, Repr

namespace Network

/-- The answer to a request, before which there have been so many others. -/
def answer (network : Network) (earlier : Nat) (request : Request) :
    Except ConnectionFailure Response :=
  match network with
  | unreachable => .error .unreachable
  | refusing => .error .refused
  | serving answers => .ok ((answers.lookup request.url).getD ⟨404, []⟩)
  | scripted answers =>
    match answers[earlier]? with
    | none => .error .refused
    | some (.inl failure) => .error failure
    | some (.inr response) => .ok response

/-- Does the request come to a server? -/
def reaches : Network → Bool
  | serving _ | scripted _ => true
  | unreachable | refusing => false

end Network

end RepairLedger.Host
