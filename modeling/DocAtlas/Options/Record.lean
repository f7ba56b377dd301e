import DocAtlas.Options.Basic

/-!
# Options as JSON

The JSON form of options, which is itself a configuration.
-/

namespace DocAtlas

/-- The members of page settings in JSON form. -/
def PageSettings.toMembers (settings : PageSettings Text.LooseString) : List (String × Json) :=
  [("meta", .ofLooseStrings settings.metaEntries),
   ("scripts", .ofLooseStrings settings.scripts),
   ("styles", .ofLooseStrings settings.styles),
   ("body_classes", .ofLooseStrings settings.bodyClasses)]

/-- The members of options in JSON form. -/
def Options.toMembers (options : Options) : List (String × Json) :=
  [("target_path", .ofLoose options.targetPath),
   ("ignore_paths", .ofLooseStrings options.ignorePaths),
   ("file_types", .ofLooseStrings options.fileTypes),
   ("output_path", .ofLoose options.outputPath),
   ("output_name", .str options.outputName),
   ("output_formats", .ofStrings (options.formats.map Format.name)),
   ("title", .ofLoose options.title),
   ("log_level", .str options.logLevel.name),
   ("strict", .bool options.strict),
   ("html", .obj options.page.toMembers)]

/-- The JSON form of options. -/
def Options.toJson (options : Options) : Json :=
  .obj options.toMembers

end DocAtlas
