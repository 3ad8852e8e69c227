import QueryPipeline.Aggregation.Association
import QueryPipeline.Aggregation.Page

namespace QueryPipeline

/-- Connections are told apart by how many were opened before them. -/
structure Connection where
  serial : Nat
  deriving DecidableEq

/-- `connection` is the one in hand, which was opened and not given up, and `connected` says
that it also answered.  `opened` counts the connections so far, so that the next one is a new
one.  Without a URI the pool chooses one itself. -/
structure Client where
  uri : Option String
  database : Option String
  opened : Nat
  connection : Option Connection
  connected : Bool
  deriving DecidableEq

namespace Client

def create (uri database : Option String) : Client := ⟨uri, database, 0, none, false⟩

def holdsConnection (client : Client) : Bool :=
  client.connection.isSome

def poolOptions : List (String × Int) := [
  ("connectTimeoutMS", 10000),
  ("maxIdleTimeMS", 45000),
  ("maxPoolSize", 50),
  ("minPoolSize", 10),
  ("serverSelectionTimeoutMS", 5000),
  ("socketTimeoutMS", 20000)]

inductive Call where
  | create (uri : Option String)
  | ping
  | close
  | aggregate (database : Option String) (collection : String) (pipeline : Value)

structure Sent where
  connection : Connection
  call : Call

inductive Fault where
  | notInitialized
  | connection (message : String)
  | store (message : String)
  | query (cause : QueryPipeline.Fault)

def notInitializedMessage : String :=
  "MongoDB client not initialized. Call connect() first."

/-- How an attempt to connect goes: the connection cannot even be opened, or it is
opened and does not answer, or it answers. -/
inductive Attempt where
  | refused (message : String)
  | silent (message : String)
  | answered

abbrev Reply := Except String Value

structure Outcome where
  client : Client
  sent : List Sent
  result : Except Fault Value

def Outcome.calls (outcome : Outcome) : List Call :=
  outcome.sent.map Sent.call

def fresh (client : Client) : Connection := ⟨client.opened⟩

def holding (client : Client) : Client :=
  { client with opened := client.opened + 1, connection := some client.fresh }

def opening (client : Client) : List Sent :=
  [⟨client.fresh, .create client.uri⟩, ⟨client.fresh, .ping⟩]

def connect (client : Client) (attempt : Attempt) : Outcome :=
  if client.connected && client.holdsConnection then ⟨client, [], .ok .null⟩
  else
    match attempt with
    | .refused message => ⟨client, [], .error (.connection message)⟩
    | .silent message => ⟨client.holding, client.opening, .error (.connection message)⟩
    | .answered => ⟨{ client.holding with connected := true }, client.opening, .ok .null⟩

/-- The second attempt waits for the first, and the first failure is reported. -/
def connectTwice (client : Client) (first second : Attempt) : Outcome :=
  let before := client.connect first
  let after := before.client.connect second
  { client := after.client
    sent := before.sent ++ after.sent
    result := do
      let _ ← before.result
      after.result }

def disconnect (client : Client) : Outcome where
  client := { client with connection := none, connected := false }
  sent := client.connection.toList.map (⟨·, .close⟩)
  result := .ok .null

/-- The call to make for a pipeline; an empty database name means the client's own. -/
def aggregateCall (client : Client) (collection : String) (pipeline : Value)
    (database : Option String) : Call :=
  .aggregate ((database.filter (· != "")).or client.database) collection pipeline

def aggregate (client : Client) (collection : String) (pipeline : Value)
    (database : Option String) (reply : Reply) : Outcome :=
  match client.connection with
  | some connection =>
      { client := client
        sent := [⟨connection, client.aggregateCall collection pipeline database⟩]
        result := reply.mapError .store }
  | none => ⟨client, [], .error .notInitialized⟩

def pageValue (page : Page) : Value :=
  .document [("content", page.content), ("total", page.total)]

def runPage (client : Client)
    (compiled : Except QueryPipeline.Fault (Collection × Pipeline)) (reply : Reply) :
    Outcome :=
  match compiled with
  | .error cause => ⟨client, [], .error (.query cause)⟩
  | .ok (collection, pipeline) =>
      let outcome := client.aggregate collection.physicalName pipeline.toValue none reply
      { outcome with
        result := do
          let documents ← outcome.result
          let page ← (Page.ofDocuments documents).mapError fun cause =>
            .query (.misuse cause)
          return pageValue page }

def listDocuments (client : Client) (registry : Registry) (collection : CollectionRef)
    (query : Query) (reply : Reply) : Outcome :=
  client.runPage (do
    let handle ← registry.locate collection
    return (handle, ← listing registry (.resolved handle) query)) reply

def listAssociated (client : Client) (registry : Registry) (association : Association)
    (query : Query) (reply : Reply) : Outcome :=
  client.runPage (do
    let owner ← registry.locate association.owner
    let located := { association with owner := .resolved owner }
    return (owner, ← located.pipeline registry query)) reply

inductive Step where
  | connect (attempt : Attempt)
  | connectTwice (first second : Attempt)
  | disconnect
  | aggregate (collection : String) (pipeline : Value) (database : Option String)
      (reply : Reply)
  | listDocuments (registry : Registry) (collection : CollectionRef) (query : Query)
      (reply : Reply)
  | listAssociated (registry : Registry) (association : Association) (query : Query)
      (reply : Reply)

def step (client : Client) : Step → Outcome
  | .connect attempt => client.connect attempt
  | .connectTwice first second => client.connectTwice first second
  | .disconnect => client.disconnect
  | .aggregate collection pipeline database reply =>
      client.aggregate collection pipeline database reply
  | .listDocuments registry collection query reply =>
      client.listDocuments registry collection query reply
  | .listAssociated registry association query reply =>
      client.listAssociated registry association query reply

def run (client : Client) : List Step → List Outcome
  | [] => []
  | first :: rest =>
      let outcome := client.step first
      outcome :: outcome.client.run rest

end Client

end QueryPipeline
