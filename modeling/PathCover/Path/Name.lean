/-!
# Qualified names

A name test names a node by a local part and, when a colon was written, by a qualifier that stands
for a namespace.  Either half may be the wildcard `*`.
-/

namespace PathCover

/-- One half of a qualified name: a concrete name or the wildcard. -/
inductive NamePart where
  | any
  | named (text : String)
  deriving DecidableEq, Inhabited

namespace NamePart

/-- The written form of one half of a name. -/
def render : NamePart → String
  | .any => "*"
  | .named text => text

/-- Reads one half of a name; every text but `*` is a concrete name. -/
def ofText (text : String) : NamePart :=
  if text = "*" then .any else .named text

end NamePart

/-- A name test.  A qualifier that was not written differs from every one that was. -/
structure QName where
  qualifier : Option NamePart
  localPart : NamePart
  deriving DecidableEq, Inhabited

namespace QName

/-- The name test `*`. -/
def wildcard : QName := ⟨none, .any⟩

/-- The name test `*:*`. -/
def anyNamespace : QName := ⟨some .any, .any⟩

/-- Splits a written name at its first colon.  Nothing is checked: either half may be empty, and
the second may hold further colons. -/
def ofText (text : String) : QName :=
  match text.toList.span (· != ':') with
  | (name, []) => ⟨none, .ofText (String.ofList name)⟩
  | (qualifier, _ :: name) =>
      ⟨some (.ofText (String.ofList qualifier)), .ofText (String.ofList name)⟩

/-- The qualifier's text, where a qualifier that was not written reads as the empty one. -/
def qualifierText (name : QName) : String :=
  match name.qualifier with
  | none => ""
  | some part => part.render

/-- The written form of a name test. -/
def render (name : QName) : String :=
  match name.qualifier with
  | none => name.localPart.render
  | some part => part.render ++ ":" ++ name.localPart.render

end QName

end PathCover
