import DocAtlas.Atlas.Basic
import DocAtlas.Text.Blank

/-!
# Review

A review lists what is missing in an atlas: references without a kind, references to names that
nobody declares, and roots without a summary. In strict mode the findings are errors, otherwise
warnings.
-/

namespace DocAtlas

/-- What is wrong with an entry: a reference does not say whether it means a namespace or a module,
the namespace or module that it names is not declared, or a root has no summary. -/
inductive Finding where
  | noKind (name : String)
  | unknownNamespace (name : String)
  | unknownModule (name : String)
  | noSummary
deriving DecidableEq

/-- The text of a finding. -/
def Finding.message : Finding → String
  | noKind name => "@memberof " ++ name ++ " has no namespace:/module: prefix"
  | unknownNamespace name => "@memberof namespace:" ++ name ++ " matches no @namespace"
  | unknownModule name => "@memberof module:" ++ name ++ " matches no @module"
  | noSummary => "root item missing @summary"

/-- The result of a review: errors stop the build, and warnings are only reported. -/
structure Review where
  errors : List String
  warnings : List String
deriving DecidableEq

namespace Atlas

/-- What is wrong with a reference. -/
def refFinding? (atlas : Atlas) (ref : MemberRef) : Option Finding :=
  if ref.kind = "" then some (.noKind ref.description)
  else if ref.kind = "namespace" ∧ ref.description ∉ atlas.namespaces.map (·.description) then
    some (.unknownNamespace ref.description)
  else if ref.kind = "module" ∧ ref.description ∉ atlas.modules.map (·.description) then
    some (.unknownModule ref.description)
  else none

/-- What is wrong with an entry: first its references, then its summary. -/
def findingsOf (atlas : Atlas) (entry : Entry) : List Finding :=
  entry.memberOf.filterMap atlas.refFinding? ++
    if entry.isRoot && (entry.summary.bind Text.nonempty?).isNone then [.noSummary] else []

/-- The texts of what is wrong with an entry, each beginning with its place. -/
def messagesOf (atlas : Atlas) (entry : Entry) : List String :=
  (atlas.findingsOf entry).map fun finding =>
    entry.origin.filePath ++ " (" ++ entry.title ++ "): " ++ finding.message

/-- Everything that is wrong, in the order of the entries. -/
def messages (atlas : Atlas) : List String :=
  atlas.entries.flatMap atlas.messagesOf

/-- Review an atlas. -/
def review (atlas : Atlas) (strict : Bool) : Review :=
  if strict then { errors := atlas.messages, warnings := [] }
  else { errors := [], warnings := atlas.messages }

end Atlas

end DocAtlas
