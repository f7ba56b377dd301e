import DocAtlas.Atlas.Basic
import DocAtlas.Number.Binary
import DocAtlas.Text.Blank

/-!
# Coverage

How much of an atlas is documented: the share of entries with a summary or a description, and the
share of the entries below the roots that belong to some other entry.
-/

namespace DocAtlas

/-- A part of a whole; the part of nothing is all of it. -/
structure Share where
  part : Nat
  whole : Nat
deriving DecidableEq

/-- The share as a binary fraction. -/
def Share.toBinary (share : Share) : Number.Binary :=
  if share.whole = 0 then ⟨1, 0⟩ else Number.Binary.ofQuotient share.part share.whole

/-- How much of an atlas is documented: the share of the entries that say something about
themselves, and the share of those below the roots that belong to another one. -/
structure Coverage where
  documented : Share
  linked : Share
deriving DecidableEq

/-- Does an entry have a summary or a description? -/
def Entry.isDocumented (entry : Entry) : Bool :=
  (entry.summary.bind Text.nonempty?).isSome || (entry.description.bind Text.nonempty?).isSome

/-- The coverage of an atlas. -/
def Atlas.coverage (atlas : Atlas) : Coverage :=
  let members := atlas.entries.filter fun entry => !entry.isRoot
  { documented :=
      { part := atlas.entries.countP Entry.isDocumented
        whole := atlas.entries.length }
    linked :=
      { part := members.countP fun entry => !entry.parents.isEmpty
        whole := members.length } }

end DocAtlas
