import QueryPipeline.Query.Normalize

namespace QueryPipeline

structure Settings where
  uri : String
  database : String
  maxEmbedDepth : Int
  schemaPath : Option String
  deriving DecidableEq

namespace Settings

inductive Warning where
  | emptyUri
  | depthNotInteger (text : String)
  deriving DecidableEq

def uriVariables : List String := ["MONGODB_URI", "MONGODB_CONNECTION_STRING"]

def databaseVariable : String := "MONGODB_DATABASE"

def depthVariable : String := "EMBEDQUERY_MAX_EMBED_DEPTH"

def schemaPathVariable : String := "EMBEDQUERY_SCHEMA_PATH"

def defaultUri : String := "mongodb://localhost:27017"

def defaultDatabase : String := "embedquery"

def Warning.message : Warning → String
  | .emptyUri => "MONGODB connection string env var was empty; falling back to default URI."
  | .depthNotInteger text =>
      depthVariable ++ "=" ++ Text.quoted text ++ " is not an integer; using default " ++
        toString Query.defaultMaxDepth ++ "."

abbrev Environment := String → Option String

/-- The first candidate with more than blanks in it. -/
def chooseUri (environment : Environment) : String × List Warning :=
  let candidates := uriVariables.map environment
  match (candidates.filterMap fun text => text.map Text.trim).find? (· != "") with
  | some uri => (uri, [])
  | none => (defaultUri, if some "" ∈ candidates then [.emptyUri] else [])

def chooseDepth (environment : Environment) : Int × List Warning :=
  let text := Text.trim ((environment depthVariable).getD "")
  if text = "" then (Query.defaultMaxDepth, [])
  else
    match Text.integer? text with
    | some depth => (depth, [])
    | none => (Query.defaultMaxDepth, [.depthNotInteger text])

def ofEnvironment (environment : Environment) : Settings × List Warning :=
  let (uri, uriWarnings) := chooseUri environment
  let (depth, depthWarnings) := chooseDepth environment
  ({ uri := uri
     database := (environment databaseVariable).getD defaultDatabase
     maxEmbedDepth := depth
     schemaPath := (environment schemaPathVariable).filter (· != "") },
    uriWarnings ++ depthWarnings)

end Settings

end QueryPipeline
