import WorkflowPolicy.Settings.Basic
import WorkflowPolicy.Text.Quoted
import WorkflowPolicy.Toml.Parse

/-!
# Reading settings

Settings are written in TOML. All of them are texts; what is not set keeps its default, and what is
no setting is passed over. The policy section is a table, or a list of its settings in their order.

The namespace of the control plane may not be empty, since a policy without it would admit nobody
to look after the workflow.
-/

namespace WorkflowPolicy

/-- Why settings are refused. -/
inductive SettingsFault where
  /-- The text is no TOML, or a setting is no text. -/
  | malformed
  | noControlPlane
  /-- There is no file of that name. -/
  | noFile (path : String)
  deriving DecidableEq, Repr

/-- A refusal in words. -/
def SettingsFault.message : SettingsFault → String
  | .malformed => "<toml>"
  | .noControlPlane => "policy.control_plane_namespace must not be empty"
  | .noFile path =>
    "failed to load config file " ++ Text.quoted path ++
      ": No such file or directory (os error 2)"

namespace Settings

open Toml (Value Entries)

/-- A text setting: the one that is given, or the default. -/
def text? (given : Option Value) (default : String) : Option String :=
  match given with
  | none => some default
  | some (.text s) => some s
  | some _ => none

/-- The policy section, from what is given for its settings. -/
def policyOf? (given : Nat → String → Option Value) : Option PolicySettings := do
  let default : PolicySettings := {}
  return {
    controlPlaneNamespace :=
      ← text? (given 0 "control_plane_namespace") default.controlPlaneNamespace
    controlPlaneApp := ← text? (given 1 "control_plane_app") default.controlPlaneApp
    gatewayNamespace := ← text? (given 2 "ingress_gateway_namespace") default.gatewayNamespace
    packageProxy := ← text? (given 3 "module_proxy_host") default.packageProxy }

/-- A list of tables as a list of values. -/
def allTables (earlier : List Value) (origin : Toml.Origin) (last : Entries) : List Value :=
  earlier ++ [.table origin last]

/-- The policy section: a table by the names of the settings, a list by their order. -/
def policy? : Value → Option PolicySettings
  | .table _ entries => policyOf? fun _ name => entries.lookup name
  | .array items => policyOf? fun i _ => items[i]?
  | .tables earlier origin last => policyOf? fun i _ => (allTables earlier origin last)[i]?
  | _ => none

/-- The settings of a table. -/
def ofEntries? (entries : Entries) : Option Settings := do
  let default : Settings := {}
  let defaultNamespace ← text? (entries.lookup "default_namespace") default.defaultNamespace
  let policy ←
    match entries.lookup "policy" with
    | some given => policy? given
    | none => some default.policy
  return { defaultNamespace, policy }

/-- **Reads settings.** -/
def parse (text : String) : Except SettingsFault Settings :=
  match (Toml.parse? text).bind ofEntries? with
  | none => .error .malformed
  | some settings =>
    if settings.policy.controlPlaneNamespace.isEmpty then .error .noControlPlane
    else .ok settings

/-- Reads settings from the content of a file, if there is one. -/
def load (path : String) (content : Option String) : Except SettingsFault Settings :=
  match content with
  | some text => parse text
  | none => .error (.noFile path)

end Settings

end WorkflowPolicy
