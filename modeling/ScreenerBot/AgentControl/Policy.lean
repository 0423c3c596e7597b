import Mathlib
import ScreenerBot.Library.Json

/-! Agent-facing tools and the decision whether a caller may run one. -/
namespace ScreenerBot.AgentControl
open Library

/-- What a policy says of a category of tools, from the least to the most capable. -/
inductive PermissionLevel
  | deny | askUser | allow
  deriving DecidableEq, Repr

inductive ToolCategory
  | analysis | portfolio | trading | config | system
  deriving DecidableEq, Repr

/-- The policy of one actor, by category. -/
structure ToolPermissions where
  analysis : PermissionLevel
  portfolio : PermissionLevel
  trading : PermissionLevel
  config : PermissionLevel
  system : PermissionLevel
  deriving DecidableEq, Repr

namespace ToolPermissions

def fullAccess : ToolPermissions := ⟨.allow, .allow, .allow, .allow, .allow⟩

def denied : ToolPermissions := ⟨.deny, .deny, .deny, .deny, .deny⟩

def getPermission (permissions : ToolPermissions) : ToolCategory → PermissionLevel
  | .analysis => permissions.analysis
  | .portfolio => permissions.portfolio
  | .trading => permissions.trading
  | .config => permissions.config
  | .system => permissions.system

end ToolPermissions

structure ToolDefinition where
  name : String
  category : ToolCategory
  mutating : Bool
  requiresConfirmation : Bool
  deriving DecidableEq, Repr

/-- A tool as the control surface sees it. -/
structure Tool where
  definition : ToolDefinition
  sendsTransaction : Bool
  deriving DecidableEq, Repr

/-- The registered tools, one for each name. -/
structure ToolRegistry where
  tools : List Tool

namespace ToolRegistry

def new : ToolRegistry := ⟨[]⟩

def register (registry : ToolRegistry) (tool : Tool) : ToolRegistry :=
  ⟨registry.tools.filter (fun other => other.definition.name ≠ tool.definition.name) ++ [tool]⟩

def get (registry : ToolRegistry) (name : String) : Option Tool :=
  registry.tools.find? fun tool => tool.definition.name = name

end ToolRegistry

structure ToolResult where
  success : Bool
  data : Option Json
  error : Option String

namespace ToolResult

def failure (message : String) : ToolResult := ⟨false, none, some message⟩

def toJson (result : ToolResult) : Json :=
  .obj ([("success", .bool result.success)] ++
    (result.data.map fun data => ("data", data)).toList ++
    (result.error.map fun error => ("error", .str error)).toList)

/-- Reads a stored result; what is not one is `none`. -/
def fromJson (value : Json) : Option ToolResult := do
  let success ← match value.get "success" with
    | some (.bool success) => some success
    | _ => none
  let data := match value.get "data" with
    | some .null => none
    | data => data
  match value.get "error" with
  | none => some ⟨success, data, none⟩
  | some .null => some ⟨success, data, none⟩
  | some (.str error) => some ⟨success, data, some error⟩
  | some _ => none

end ToolResult

inductive InvocationSource
  | assistant | scheduledReadOnly | scheduledFull
  | mcp (permissions : ToolPermissions)
  deriving DecidableEq, Repr

inductive Decision
  | execute | requireApproval | deny
  deriving DecidableEq, Repr

/-- A paired connection brings its own policy; everything else is under the in-app one. -/
def effectivePermission (inApp : ToolPermissions) (category : ToolCategory) :
    InvocationSource → PermissionLevel
  | .mcp permissions => permissions.getPermission category
  | _ => inApp.getPermission category

def ToolDefinition.isReadOnly (definition : ToolDefinition) : Bool := !definition.mutating

/-- The authorization decision for a tool. -/
def ToolDefinition.decide (definition : ToolDefinition) (inApp : ToolPermissions)
    (source : InvocationSource) : Decision :=
  let permission := effectivePermission inApp definition.category source
  if permission = .deny then .deny
  else match source with
    | .scheduledReadOnly => if definition.isReadOnly then .execute else .deny
    | .scheduledFull | .mcp _ => if permission = .allow then .execute else .requireApproval
    | .assistant =>
      if definition.requiresConfirmation || permission =
        .askUser then .requireApproval else .execute

end ScreenerBot.AgentControl
