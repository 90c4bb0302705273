import SdkClients.ClientTree.Build
import SdkClients.ClientTree.SubClients
import SdkClients.Decode
import SdkClients.Description.Lowering
import SdkClients.Document
import SdkClients.Json.Printer
import SdkClients.Text.Emphasis

set_option autoImplicit false

/-!
Reports about clients.

A document is read as a service description and its client tree is built. The report
lists the sub-clients of one client: the one with a given qualified name, or the first
root. Reports are written as a document or as lines of text.
-/

namespace SdkClients

/-- What a report says about a sub-client. -/
structure SubClientEntry where
  name : String
  qualifiedName : String
  kind : ContainerKind
deriving DecidableEq, Repr

/-- A client of a document and its sub-clients. -/
structure ClientReport where
  source : String
  client : String
  subClients : List SubClientEntry
deriving DecidableEq, Repr

/-- Which clients a report is about. -/
structure ClientQuery where
  client : Option String
  recursive : Bool
  rule : PromotionRule
deriving DecidableEq, Repr

/-- Why there is no report about a document. -/
inductive ClientReportError where
  | notDescription (source : String) (failure : Decode.Failure)
  | noSuchClient (name source : String)
  | noRoot (source : String)
  | unlisted (error : ListingError)
  | lostContainer (client : String)
deriving Repr

def ClientReportError.message : ClientReportError → String
  | .notDescription source failure => source ++ " is not a service description: " ++ failure.report
  | .noSuchClient name source => "no client named `" ++ name ++ "` in " ++ source
  | .noRoot source => source ++ " has no root client"
  | .unlisted error => error.message
  | .lostContainer client => "client `" ++ client ++ "` lost its container"

namespace ClientReport

/-- The qualified name of a client, or its own name if it has none. -/
def nameOf (tree : ClientTree) (client : Client) : String :=
  (tree.qualifiedName? client.id).getD client.name

/-- What is said about a sub-client. -/
def entryOf (tree : ClientTree) (client : Client) : Except ClientReportError SubClientEntry :=
  match tree.graph.container? client.container with
  | some container => .ok ⟨client.name, nameOf tree client, container.kind⟩
  | none => .error (.lostContainer client.name)

/-- The client that a query asks for. -/
def clientOf (query : ClientQuery) (source : String) (tree : ClientTree) :
    Except ClientReportError Client :=
  match query.client with
  | some name =>
      match tree.find? name with
      | some client => .ok client
      | none => .error (.noSuchClient name source)
  | none =>
      match tree.roots with
      | client :: _ => .ok client
      | [] => .error (.noRoot source)

/-- The report about a client tree. -/
def ofTree (query : ClientQuery) (source : String) (tree : ClientTree) :
    Except ClientReportError ClientReport := do
  let client ← clientOf query source tree
  let subClients ← (tree.subClients client.id query.recursive).mapError .unlisted
  let entries ← subClients.mapM (entryOf tree)
  return ⟨source, nameOf tree client, entries⟩

/-- The report about a document. -/
def ofDocument (query : ClientQuery) (document : Document) :
    Except ClientReportError ClientReport :=
  match Decode.fromValue Decode.readContainer document.value with
  | .error failure => .error (.notDescription document.source failure)
  | .ok description =>
      ofTree query document.source (ClientTree.build description.lower query.rule)

/-! ### Writing -/

/-- A sub-client as a document value. -/
def entryToJson (entry : SubClientEntry) : Json.Value :=
  .object [("name", .string entry.name), ("qualifiedName", .string entry.qualifiedName),
    ("kind", .string entry.kind.word)]

/-- A report as a document value. -/
def toJson (report : ClientReport) : Json.Value :=
  .object [("source", .string report.source), ("client", .string report.client),
    ("subClients", .array (report.subClients.map entryToJson))]

/-- The line about a sub-client. -/
def entryLine (coloured : Bool) (entry : SubClientEntry) : String :=
  "  " ++ entry.qualifiedName ++ " " ++ Text.emphasize coloured .dimmed entry.kind.word ++ "\n"

/-- The lines about a client. -/
def render (coloured : Bool) (report : ClientReport) : String :=
  Text.emphasize coloured .bold report.client ++ " " ++
    Text.emphasize coloured .dimmed ("(" ++ report.source ++ ")") ++ "\n" ++
    (if report.subClients.isEmpty then
      "  " ++ Text.emphasize coloured .dimmed "no sub-clients" ++ "\n"
    else "") ++ String.join (report.subClients.map (entryLine coloured))

/-- All reports as a document. -/
def renderJson (reports : List ClientReport) : String :=
  (Json.Value.array (reports.map toJson)).renderIndented

/-- All reports as text. -/
def renderText (coloured : Bool) (reports : List ClientReport) : String :=
  String.join (reports.map (render coloured))

end ClientReport

end SdkClients
