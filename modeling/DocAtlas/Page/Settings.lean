/-!
# Page settings

What a project may add to its page: meta entries, scripts, styles and the classes of the body. The
settings are first given by texts that may be unusable, so the kind of text is left open.
-/

namespace DocAtlas

/-- Settings of an HTML page, made of texts of some kind: attributes of meta elements, addresses of
scripts and of style sheets, and classes of the body. -/
structure PageSettings (α : Type) where
  metaEntries : List α
  scripts : List α
  styles : List α
  bodyClasses : List α
deriving DecidableEq

namespace PageSettings

variable {α β : Type}

/-- The settings of a page without any of its own. -/
def standard : PageSettings String where
  metaEntries :=
    ["charset=\"utf-8\"", "name=\"viewport\" content=\"width=device-width, initial-scale=1\""]
  scripts := []
  styles := []
  bodyClasses := ["build-docs"]

/-- Settings with every text turned into another. -/
def map (f : α → β) (settings : PageSettings α) : PageSettings β where
  metaEntries := settings.metaEntries.map f
  scripts := settings.scripts.map f
  styles := settings.styles.map f
  bodyClasses := settings.bodyClasses.map f

/-- Settings with every text turned into another, nothing if one of them cannot be. -/
def map? (f : α → Option β) (settings : PageSettings α) : Option (PageSettings β) := do
  let metaEntries ← settings.metaEntries.mapM f
  let scripts ← settings.scripts.mapM f
  let styles ← settings.styles.mapM f
  let bodyClasses ← settings.bodyClasses.mapM f
  return { metaEntries, scripts, styles, bodyClasses }

end PageSettings

end DocAtlas
