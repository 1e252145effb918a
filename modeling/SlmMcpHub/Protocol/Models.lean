import SlmMcpHub.Core.Registry
import SlmMcpHub.Library.Text

/-!
# What the operations of the hub return

`protocol/models.py`, and what the operations know of the router and of the plugins. A `dict` is a
`Dict` where the code reads it, and a `Json` where it only hands it on.

The router finds the entry of a name in the registry. What becomes of the call from there on (the
connection is looked up or made, and the backend answers or fails) is left open: it is the subject
of the model of the hub.

## Main definitions

* `Raised` — what the operations raise
* `CallToolOutcome` and the other outcomes
* `Router`, with `routeToolCall`, `routeResourceRead` and `routePromptGet`
-/

namespace SlmMcpHub

namespace Protocol

/-- What is raised. -/
inductive Raised where
  /-- `InvalidParams` -/
  | invalidParams (message : String)
  /-- Another `Exception`, by the name of its type. -/
  | exception (typeName : String)
  /-- `CancelledError`, which is no `Exception`. -/
  | cancelled
  deriving DecidableEq

/-- Whether `except Exception` catches it. -/
def Raised.isException : Raised → Bool
  | .cancelled => false
  | _ => true

/-- Results of this layer. -/
abbrev Result (α : Type) : Type := Except Raised α

/-- Functions of the language that are left open. -/
structure Formats extends Runtime where
  /-- `json.dumps(value, indent=2)` -/
  dumps : Json → String

/-- `CallToolOutcome` -/
structure CallToolOutcome where
  content : List Json
  isError : Bool
  serverName : String
  raw : Option (Dict String Json) := none

/-- `ToolsListOutcome`, `ResourcesListOutcome`, `ResourceTemplatesListOutcome` and
`PromptsListOutcome` -/
structure ListOutcome where
  items : List Json

/-- `ResourceReadOutcome` and `PromptGetOutcome` -/
structure RawOutcome where
  raw : Dict String Json

/-- `InitializeOutcome` -/
structure InitializeOutcome where
  protocolVersion : String
  capabilities : List (String × Json)
  serverName : String
  serverVersion : String

/-- `DiscoverOutcome` -/
structure DiscoverOutcome where
  supportedVersions : List String
  capabilities : List (String × Json)
  serverName : String
  serverVersion : String
  instructions : String

/-! ### The router -/

/-- `RouteResult`, without its duration. -/
structure RouteResult where
  result : Dict String Json
  serverName : String
  toolName : Json
  success : Bool

/-- `FederationRouter`: its registry, and what becomes of a request once its entry is found. -/
structure Router where
  registry : Registry
  toolCall : RegisteredCapability → Dict String Json → Result RouteResult
  resourceRead : RegisteredCapability → Result RouteResult
  promptGet : RegisteredCapability → Json → Result RouteResult

/-- `{"type": "text", "text": text}` -/
def textBlock (text : String) : Json := .obj [("type", .str "text"), ("text", .str text)]

/-- A dictionary as a value. -/
def ofDict (d : Dict String Json) : Json := .obj d.entries

theorem toDict_ofDict (d : Dict String Json) : Json.toDict d.entries = d :=
  Dict.setAll_empty_entries d

namespace Router

/-- `route_tool_call` -/
def routeToolCall (router : Router) (namespacedName : String) (arguments : Dict String Json) :
    Result RouteResult :=
  match router.registry.lookupTool namespacedName with
  | none => .ok {
      result := Json.toDict [("content", .arr [textBlock s!"Tool not found: {namespacedName}"]),
        ("isError", .bool true)]
      serverName := "unknown"
      toolName := .str namespacedName
      success := false }
  | some cap => router.toolCall cap arguments

/-- Look up a key that may be any value. -/
def lookup (table : Dict String RegisteredCapability) : Json →
    Result (Option RegisteredCapability)
  | .str key => .ok (table.get? key)
  | key => if key.hashable then .ok none else .error (.exception "TypeError")

/-- A name the registry does not have. -/
def notFound (name : Json) : RouteResult := ⟨.empty, "unknown", name, false⟩

/-- `route_resource_read` -/
def routeResourceRead (router : Router) (namespacedUri : Json) : Result RouteResult := do
  match ← lookup router.registry.resources namespacedUri with
  | none => pure (notFound namespacedUri)
  | some cap => router.resourceRead cap

/-- `route_prompt_get` -/
def routePromptGet (router : Router) (namespacedName arguments : Json) : Result RouteResult := do
  match ← lookup router.registry.prompts namespacedName with
  | none => pure (notFound namespacedName)
  | some cap => router.promptGet cap arguments

end Router

/-- What the plugins are told of a call, without its duration. -/
structure PluginCall where
  sessionId : String
  server : String
  tool : String
  args : Dict String Json
  result : Dict String Json
  success : Bool

/-! ### For examples -/

/-- Functions for examples. -/
def plainFormats : Formats where
  lower s := s
  repr _ := ""
  loads _ := .error ""
  digest _ := ""
  dumps _ := ""

/-- A router for examples: every request is answered with nothing. -/
def plainRouter (registry : Registry) : Router where
  registry := registry
  toolCall cap _ := .ok ⟨.empty, cap.serverName, .str cap.originalName, true⟩
  resourceRead cap := .ok ⟨.empty, cap.serverName, .str cap.originalName, true⟩
  promptGet cap _ := .ok ⟨.empty, cap.serverName, .str cap.originalName, true⟩

end Protocol

end SlmMcpHub
