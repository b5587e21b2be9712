import WorkflowPolicy.Draft.Check
import WorkflowPolicy.Draft.Reading
import WorkflowPolicy.NetworkPolicy.Reading
import WorkflowPolicy.Settings.Reading

/-!
# Failures

What an operation may fail with, as its callers see it: one of seven kinds and a text, or for a
draft with violations the list of their texts. The causes are told apart by the modules in which
they arise; a `Failure` is what is left of a cause when it leaves the library.
-/

namespace WorkflowPolicy

/-- **What an operation may fail with.** -/
inductive Failure where
  /-- Settings cannot be read. -/
  | config (text : String)
  /-- A document cannot be read. -/
  | convert (text : String)
  /-- A workflow is not fit for the operation. -/
  | workflow (text : String)
  /-- A draft is no workflow. -/
  | validation (messages : List String)
  /-- A live policy cannot be audited. -/
  | audit (text : String)
  /-- The store of policies fails. -/
  | store (text : String)
  /-- The system fails. -/
  | io (text : String)
  deriving DecidableEq, Repr

/-- The texts of violations as one text. -/
def violationsText (messages : List String) : String :=
  "workflow spec has " ++ toString messages.length ++ " validation error(s):" ++
    String.join (messages.map ("\n  - " ++ ·))

/-- Does one of the texts contain the other text? -/
def mentions (messages : List String) (part : String) : Bool :=
  messages.any fun m => Text.occursIn part.toList m.toList

namespace Failure

/-- The name of the kind of failure. -/
def kindName : Failure → String
  | .config _ => "Config"
  | .convert _ => "Convert"
  | .workflow _ => "Workflow"
  | .validation _ => "Validation"
  | .audit _ => "Audit"
  | .store _ => "Store"
  | .io _ => "IoError"

/-- **A failure in words.** -/
def text : Failure → String
  | .config s | .convert s | .workflow s | .audit s | .store s | .io s => s
  | .validation messages => violationsText messages

/-- A failure as one of the system; the kind is lost and the words stay. -/
def asSystem (f : Failure) : Failure := .io f.text

/-- A failure as JSON: its kind with its text or its texts. -/
def toJson (f : Failure) : Json :=
  let content :=
    match f with
    | .validation messages => Json.strings messages
    | f => .string f.text
  .object [(f.kindName, content)]

/-- Texts, if all items are texts. -/
def texts? : List Json → Option (List String)
  | [] => some []
  | .string s :: rest => (texts? rest).map (s :: ·)
  | _ => none

/-- The failure of a JSON value. -/
def ofJson? : Json → Option Failure
  | .object [(kind, .string s)] =>
    if kind == "Config" then some (.config s)
    else if kind == "Convert" then some (.convert s)
    else if kind == "Workflow" then some (.workflow s)
    else if kind == "Audit" then some (.audit s)
    else if kind == "Store" then some (.store s)
    else if kind == "IoError" then some (.io s)
    else none
  | .object [(kind, .array items)] =>
    if kind == "Validation" then (texts? items).map .validation else none
  | _ => none

/-- What is wrong with the text of a draft, in words. -/
def unreadable (r : Reading.Refusal) : Failure :=
  .validation ["YAML parse error: " ++ r.message .yaml]

/-- The violations of a draft. -/
def violations (findings : List Draft.Finding) : Failure :=
  .validation (findings.map Draft.Finding.message)

/-- What is wrong with settings. -/
def ofSettings (f : SettingsFault) : Failure := .config f.message

/-- What is wrong with the text of a policy. -/
def ofPolicy (words : Reading.Dialect) (r : Reading.Refusal) : Failure :=
  .convert (r.message words)

/-- What is wrong with a text for a port. -/
def ofPort (s : String) : Failure := .convert (Net.PortSpec.refusal s)

end Failure

namespace Workflow

/-- **Reads and checks a workflow.** -/
def parse (text : String) : Except Failure Workflow :=
  match Reading.fromYaml Draft.Workflow.read text with
  | .error r => .error (.unreadable r)
  | .ok draft => draft.validate.mapError .violations

end Workflow

/-- **Reads and checks a contract** that stands by itself. -/
def Contract.parse (text : String) : Except Failure Contract :=
  match Reading.fromYaml Draft.Contract.read text with
  | .error r => .error (.unreadable r)
  | .ok draft => draft.validate.mapError .violations

namespace NetworkPolicy

/-- The policy of a YAML text. -/
def parseYaml (text : String) : Except Failure NetworkPolicy :=
  (fromYaml text).mapError (.ofPolicy .yaml)

/-- The policy of a JSON text. -/
def parseJson (text : String) : Except Failure NetworkPolicy :=
  (fromJson text).mapError (.ofPolicy .json)

end NetworkPolicy

end WorkflowPolicy
