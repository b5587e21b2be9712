/-!
# Triggers

What starts a run of a workflow: a person, a schedule, a request, or a message. A trigger may have
a name, by which it is told from the other triggers of its workflow.
-/

namespace WorkflowPolicy

/-- **What starts a run.** -/
inductive Event where
  | manual
  | cron (schedule : String)
  | webhook (path : String)
  | queue (subject : String)
  deriving DecidableEq, Repr, Inhabited

namespace Event

/-- The name of the kind of event. -/
def kindName : Event → String
  | .manual => "manual"
  | .cron _ => "cron"
  | .webhook _ => "webhook"
  | .queue _ => "queue"

/-- Is the event a request from outside? -/
def isWebhook : Event → Bool
  | .webhook _ => true
  | _ => false

/-- Does the event follow a schedule? -/
def isCron : Event → Bool
  | .cron _ => true
  | _ => false

end Event

/-- A trigger of a workflow. -/
structure Trigger where
  name : Option String := none
  event : Event
  deriving DecidableEq, Repr, Inhabited

end WorkflowPolicy
