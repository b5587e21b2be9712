import WorkflowPolicy.Text.Blank
import WorkflowPolicy.Text.Digits
import WorkflowPolicy.Text.Quoted
import WorkflowPolicy.Text.Split

/-!
# Ports

A port specification is a port number and, after a slash, the transport protocol: `443`,
`443/TCP`, `53/udp`. Without a protocol it is TCP.

`PortSpec.parse?` reads a specification and `PortSpec.text` writes it. Reading is lenient about
blanks around the parts, about the case of the protocol, and about zeros or one plus sign before
the number; it refuses port 0.
-/

namespace WorkflowPolicy.Net

/-- A port number. -/
abbrev Port := UInt16

/-- The protocols of the transport layer. -/
inductive Transport where
  | tcp
  | udp
  deriving DecidableEq, Repr, Inhabited

namespace Transport

/-- The name of a protocol. -/
def name : Transport → String
  | .tcp => "TCP"
  | .udp => "UDP"

/-- The protocol of a name. -/
def ofName? (s : String) : Option Transport :=
  if s == "TCP" then some .tcp else if s == "UDP" then some .udp else none

/-- The protocol of a name in capital or small letters. -/
def ofWord? (s : List Char) : Option Transport :=
  if Text.smallLetters s == "tcp".toList then some .tcp
  else if Text.smallLetters s == "udp".toList then some .udp
  else none

/-- Does the one protocol come before the other, or are they the same? -/
def precedes : Transport → Transport → Bool
  | .udp, .tcp => false
  | _, _ => true

theorem ofName?_name (t : Transport) : ofName? t.name = some t := by cases t <;> rfl

end Transport

/-- **A port number as text**: decimal digits, with a plus sign before them or not. -/
def readPort? (s : List Char) : Option Port :=
  let digits :=
    match s with
    | '+' :: rest => rest
    | s => s
  match Text.digits? 10 digits with
  | some n => if n < Nat.pow 2 16 then some (.ofNat n) else none
  | none => none

/-- The decimal digits of a port number. -/
def portText (p : Port) : String := toString p.toNat

/-- A port and its transport protocol. -/
structure PortSpec where
  port : Port
  protocol : Transport := .tcp
  deriving DecidableEq, Repr, Inhabited

namespace PortSpec

/-- The two parts of a specification: the number and, after a slash, the protocol. -/
def parts (s : List Char) : List Char × Option (List Char) :=
  match Text.splitFirst '/' (Text.trim s) with
  | some (port, protocol) => (Text.trim port, some (Text.trim protocol))
  | none => (Text.trim s, none)

/-- The protocol that is given, or TCP. -/
def protocol? : Option (List Char) → Option Transport
  | some word => Transport.ofWord? word
  | none => some .tcp

/-- **Reads a port specification.** -/
def parse? (s : String) : Option PortSpec :=
  let (number, word) := parts s.toList
  match protocol? word, readPort? number with
  | some protocol, some port => if port = 0 then none else some ⟨port, protocol⟩
  | _, _ => none

/-- **Writes a port specification.** -/
def text (p : PortSpec) : String := portText p.port ++ "/" ++ p.protocol.name

/-- What is said of a text that is no port specification. -/
def refusal (s : String) : String := "invalid port spec " ++ Text.quoted s

end PortSpec

end WorkflowPolicy.Net
