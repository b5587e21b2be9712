import WorkflowPolicy.Text.Split

/-!
# Forms of names

The four forms that names and references in a workflow have to match, over the whole text and
with ASCII letters and digits only:

* `isKebab` — small letters and digits in groups joined by single hyphens, a letter first;
* `isIdent` — a small letter, then small letters, digits, hyphens and underscores;
* `isVersion` — digits, a point, digits;
* `isSecretRef` — two identifiers joined by a point.
-/

namespace WorkflowPolicy.Text

/-- A small ASCII letter. -/
def isSmall (c : Char) : Bool := 'a' ≤ c && c ≤ 'z'

/-- An ASCII digit. -/
def isDigit (c : Char) : Bool := '0' ≤ c && c ≤ '9'

/-- A small letter or a digit. -/
def isSmallOrDigit (c : Char) : Bool := isSmall c || isDigit c

/-- What may follow the first letter of an identifier. -/
def isIdentChar (c : Char) : Bool := isSmallOrDigit c || c == '-' || c == '_'

/-- What may follow a letter or digit in kebab-case: a hyphen only before a letter or digit. -/
def kebabTail : List Char → Bool
  | [] => true
  | '-' :: c :: cs => isSmallOrDigit c && kebabTail cs
  | c :: cs => isSmallOrDigit c && kebabTail cs

/-- **Kebab-case**: groups of small letters and digits joined by single hyphens, the first
group beginning with a letter. -/
def isKebab (s : String) : Bool :=
  match s.toList with
  | [] => false
  | c :: cs => isSmall c && kebabTail cs

/-- An identifier, as a list of characters. -/
def identChars : List Char → Bool
  | [] => false
  | c :: cs => isSmall c && cs.all isIdentChar

/-- **Identifiers**: a small letter, then small letters, digits, hyphens and underscores. -/
def isIdent (s : String) : Bool := identChars s.toList

/-- **Versions**: digits, a point, digits. -/
def isVersion (s : String) : Bool :=
  match splitFirst '.' s.toList with
  | none => false
  | some (major, minor) =>
    !major.isEmpty && major.all isDigit && !minor.isEmpty && minor.all isDigit

/-- The rest of a secret reference after the first letter of its service. -/
def secretTail : List Char → Bool
  | [] => false
  | c :: cs => if c = '.' then identChars cs else isIdentChar c && secretTail cs

/-- **Secret references**: a service and a key, both identifiers, with a point between. -/
def isSecretRef (s : String) : Bool :=
  match s.toList with
  | [] => false
  | c :: cs => isSmall c && secretTail cs

end WorkflowPolicy.Text
