import DocAtlas.Proofs.Atlas.Sessions

/-!
# What an atlas declares

The lists of namespaces, modules and files in an atlas can be read off the comments. Every name that
some comment declares is listed once, where it comes up first, with the first comment that declares
it. Linking finds these lists by registering name after name. A registry lists its declarations
under their names, and what is declared under a name carries that name, so nothing is listed twice.
-/

namespace DocAtlas

namespace Registry

variable {α : Type} {registry : Registry α}

/-- If what is declared under a name carries the name, a registry lists its names in order. -/
theorem map_values_eq_names {key : α → String}
    (hkey : ∀ name value, registry.get? name = some value → key value = name) :
    registry.values.map key = registry.names := by
  rw [values, names, List.map_map]
  refine List.map_congr_left fun pair hpair => ?_
  exact hkey pair.1 pair.2 ((registry.mem_entries_iff pair.1 pair.2).mp hpair)

/-- What a registry lists is declared under some name. -/
theorem exists_get?_of_mem_values {value : α} (h : value ∈ registry.values) :
    ∃ name, registry.get? name = some value := by
  obtain ⟨⟨name, declared⟩, hpair, rfl⟩ := List.mem_map.mp h
  exact ⟨name, (registry.mem_entries_iff name declared).mp hpair⟩

end Registry

namespace Comment

/-- Declarations that list the names of comments: every name once, in the order of the first
comments that declare it and of their names, with the identity of the first comment. -/
structure FirstDeclarations (names : Comment → List String) (comments : List Comment)
    (declarations : List Declaration) : Prop where
  names_eq : declarations.map Declaration.description = (comments.flatMap names).eraseDups
  declarer : ∀ declaration ∈ declarations, ∃ first,
    comments.find? (fun comment => declaration.description ∈ names comment) = some first ∧
      declaration.id = first.id

/-- Declarations that list the files which comments describe: every path once, in the order of the
first comments that describe it, with the identity of the first comment and what it says. -/
structure FirstDescriptions (comments : List Comment) (files : List FileDeclaration) : Prop where
  paths_eq : files.map FileDeclaration.filePath = (comments.flatMap describedPaths).eraseDups
  describer : ∀ file ∈ files, ∃ first,
    describer? comments file.filePath = some (first, file.description) ∧ file.id = first.id

/-- A registry that has the names of comments and their first declarers lists their declarations. -/
theorem firstDeclarations_values {names : Comment → List String} {comments : List Comment}
    {registry : Registry Declaration}
    (hnames : registry.names = (comments.flatMap names).eraseDups)
    (hdeclarers : ∀ name, registry.get? name =
      (comments.find? fun comment => name ∈ names comment).map fun declarer =>
        { id := declarer.id, description := name }) :
    FirstDeclarations names comments registry.values := by
  have hget {name : String} {declaration : Declaration}
      (h : registry.get? name = some declaration) : ∃ first,
        comments.find? (fun comment => name ∈ names comment) = some first ∧
          { id := first.id, description := name } = declaration := by
    rw [hdeclarers] at h
    exact Option.map_eq_some_iff.mp h
  constructor
  case names_eq =>
    rw [Registry.map_values_eq_names, hnames]
    intro name declaration h
    obtain ⟨first, _, rfl⟩ := hget h
    rfl
  case declarer =>
    intro declaration hdeclaration
    obtain ⟨name, h⟩ := Registry.exists_get?_of_mem_values hdeclaration
    obtain ⟨first, hfirst, rfl⟩ := hget h
    exact ⟨first, hfirst, rfl⟩

/-- A registry that has the described paths and their first describers lists the files. -/
theorem firstDescriptions_values {comments : List Comment} {registry : Registry FileDeclaration}
    (hpaths : registry.names = (comments.flatMap describedPaths).eraseDups)
    (hdescribers : ∀ path, registry.get? path =
      (describer? comments path).map fun (describer, note) =>
        { id := describer.id, description := note, filePath := path }) :
    FirstDescriptions comments registry.values := by
  have hget {path : String} {file : FileDeclaration} (h : registry.get? path = some file) :
      ∃ found, describer? comments path = some found ∧
        { id := found.1.id, description := found.2, filePath := path } = file := by
    rw [hdescribers] at h
    exact Option.map_eq_some_iff.mp h
  constructor
  case paths_eq =>
    rw [Registry.map_values_eq_names, hpaths]
    intro path file h
    obtain ⟨found, _, rfl⟩ := hget h
    rfl
  case describer =>
    intro file hfile
    obtain ⟨path, h⟩ := Registry.exists_get?_of_mem_values hfile
    obtain ⟨found, hfound, rfl⟩ := hget h
    exact ⟨found.1, hfound, rfl⟩

end Comment

namespace Atlas

/-- An atlas lists the namespaces that its comments declare. -/
theorem firstDeclarations_namespaces (comments : List Comment) :
    Comment.FirstDeclarations Comment.namespaceNames comments (link comments).namespaces := by
  have hdeclared := Registries.declaredBy_ofComments comments
  exact Comment.firstDeclarations_values hdeclared.namespaceNames hdeclared.namespaces

/-- An atlas lists the modules that its comments declare. -/
theorem firstDeclarations_modules (comments : List Comment) :
    Comment.FirstDeclarations Comment.moduleNames comments (link comments).modules := by
  have hdeclared := Registries.declaredBy_ofComments comments
  exact Comment.firstDeclarations_values hdeclared.moduleNames hdeclared.modules

/-- An atlas lists the files that its comments describe. -/
theorem firstDescriptions_files (comments : List Comment) :
    Comment.FirstDescriptions comments (link comments).files := by
  have hdeclared := Registries.declaredBy_ofComments comments
  exact Comment.firstDescriptions_values hdeclared.filePaths hdeclared.files

/-- Linking lists every namespace and module that is declared and every file that is described
exactly once, in order of first declaration, with the comment that did so first. No two of them
have the same name, and no two files the same path. -/
theorem link_declarations (comments : List Comment) :
    Comment.FirstDeclarations Comment.namespaceNames comments (link comments).namespaces ∧
      Comment.FirstDeclarations Comment.moduleNames comments (link comments).modules ∧
      Comment.FirstDescriptions comments (link comments).files ∧
      ((link comments).namespaces.map Declaration.description).Nodup ∧
      ((link comments).modules.map Declaration.description).Nodup ∧
      ((link comments).files.map FileDeclaration.filePath).Nodup := by
  have hnamespaces := firstDeclarations_namespaces comments
  have hmodules := firstDeclarations_modules comments
  have hfiles := firstDescriptions_files comments
  refine ⟨hnamespaces, hmodules, hfiles, ?_, ?_, ?_⟩
  · rw [hnamespaces.names_eq]
    exact nodup_eraseDups _
  · rw [hmodules.names_eq]
    exact nodup_eraseDups _
  · rw [hfiles.paths_eq]
    exact nodup_eraseDups _

end Atlas

end DocAtlas
