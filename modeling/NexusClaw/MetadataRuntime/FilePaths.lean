import NexusClaw.MetadataRuntime.Normalize

/-!
# File paths of components

`buildMetadataRuntimeTaxonomyFilePath` and `inferMetadataRuntimeTaxonomyKind` of
`metadata-runtime-taxonomy.ts`, and `isMetadataRuntimeTaxonomyFile` of `metadata-runtime-paths.ts`. A
path is built from one or two names of the payload, in which slashes have become underscores; the
identity of the component is read from the payload by another switch.
-/

namespace NexusClaw.MetadataRuntime

open AuditChain

/-! ## Building a path -/

inductive MetadataRuntimeFileFormat where
  | json
  | yaml
deriving DecidableEq, Repr

def MetadataRuntimeFileFormat.extension : MetadataRuntimeFileFormat → Units
  | .json => units ".json"
  | .yaml => units ".yaml"

def sanitizeSegment (value : Units) : Units :=
  value.map fun c => if c = unit '\\' ∨ c = unit '/' then unit '_' else c

/-- ``${segments.join('/')}`` -/
def joinPath (segments : List Units) : Units :=
  [unit '/'].intercalate segments

/-- A file of a kind, with the singular name of the kind before the extension. -/
def componentFile (kind : TaxonomyKind) (name : Units) (format : MetadataRuntimeFileFormat) : Units :=
  name ++ units "." ++ units (metadataRuntimeSingularKind kind) ++ format.extension

/-- The segments of `buildMetadataRuntimeTaxonomyFilePath`. -/
def pathSegments (kind : TaxonomyKind) (payload : JsonRecord) (format : MetadataRuntimeFileFormat) :
    List Units :=
  let apiName := sanitizeSegment (firstString payload ["apiName", "name", "label"] "unknown")
  match kind with
  | .roles =>
    [units "roles", sanitizeSegment (firstString payload ["apiName", "name"] "unknown"),
      units "role" ++ format.extension]
  | .apps => [units "apps", componentFile .apps apiName format]
  | .relationships =>
    [units "objects", sanitizeSegment (firstString payload ["objectNameSingular"] "unknown-object"),
      units "relationships",
      componentFile .relationships
        (sanitizeSegment (firstString payload ["fieldName", "name"] "unknown")) format]
  | .layouts =>
    [units "layouts", sanitizeSegment (firstString payload ["objectNameSingular"] "unknown-object"),
      componentFile .layouts apiName format]
  | .recordPages =>
    [units "record-pages",
      sanitizeSegment (firstString payload ["objectNameSingular"] "unknown-object"),
      componentFile .recordPages apiName format]
  | .views =>
    [units "views", sanitizeSegment (firstString payload ["objectNameSingular"] "unknown-object"),
      componentFile .views apiName format]
  | .menus =>
    [units "menus", sanitizeSegment (firstString payload ["appApiName"] "unknown-app"),
      componentFile .menus apiName format]
  | .reportFolders =>
    [units "report-folders", sanitizeSegment (firstString payload ["folderType"] "REPORT"),
      componentFile .reportFolders apiName format]
  | .dashboards => [units "dashboards", componentFile .dashboards apiName format]
  | .reports =>
    [units "reports", sanitizeSegment (firstString payload ["folderApiName"] "root"),
      componentFile .reports apiName format]
  | .actions => [units "actions", componentFile .actions apiName format]
  | .flows => [units "flows", componentFile .flows apiName format]
  | .approvals => [units "approvals", componentFile .approvals apiName format]
  | .prompts =>
    [units "prompts", sanitizeSegment (firstString payload ["promptType"] "template"),
      componentFile .prompts apiName format]
  | .agents => [units "agents", componentFile .agents apiName format]
  | .permissionsets =>
    [units "permissionsets", sanitizeSegment (firstString payload ["apiName", "label"] "unknown"),
      units "permissionset" ++ format.extension]
  | .permissions =>
    let permissionName := sanitizeSegment (firstString payload
      ["permissionName", "fieldName", "objectNameSingular", "appApiName", "menuApiName",
        "permissionType"] "unknown")
    let file := componentFile .permissions permissionName format
    if ownedByRole payload then
      [units "roles", sanitizeSegment (firstString payload ["roleApiName"] "unknown-role"),
        units "permissions", file]
    else
      [units "permissionsets",
        sanitizeSegment (firstString payload ["permissionSetApiName"] "unknown-permissionset"),
        units "permissions", file]

def buildMetadataRuntimeTaxonomyFilePath (kind : TaxonomyKind) (payload : JsonRecord)
    (format : MetadataRuntimeFileFormat) : Units :=
  joinPath (pathSegments kind payload format)

/-! ## Reading a path -/

/-- `METADATA_RUNTIME_TAXONOMY_FILE_SUFFIXES` -/
def taxonomyFileSuffixes : List Units :=
  ["app", "relationship", "layout", "record-page", "view", "menu", "dashboard", "report",
    "report-folder", "action", "flow", "approval", "prompt", "agent", "permissionset",
    "permission"].flatMap fun kind =>
      [".json", ".yaml", ".yml"].map fun extension => units "." ++ units kind ++ units extension

/-- `METADATA_RUNTIME_TAXONOMY_SINGLETON_FILE_NAMES` -/
def taxonomySingletonFileNames : List Units :=
  ["role", "permissionset"].flatMap fun kind =>
    [".json", ".yaml", ".yml"].map fun extension => units kind ++ units extension

/-- `path.basename` -/
def basename (path : Units) : Units :=
  ((path.reverse.dropWhile (· = unit '/')).takeWhile (· ≠ unit '/')).reverse

def isMetadataRuntimeTaxonomyFile (path : Units) : Bool :=
  taxonomyFileSuffixes.any (·.isSuffixOf path) || taxonomySingletonFileNames.contains (basename path)

/-- ``filePath.replace(/\\/g, '/').replace(/^\.?\//, '')`` -/
def normalizeMetadataRuntimeFilePath (path : Units) : Units :=
  match path.map fun c => if c = unit '\\' then unit '/' else c with
  | [] => []
  | c :: rest =>
    if c = unit '/' then rest
    else if c = unit '.' ∧ rest.head? = some (unit '/') then rest.tail
    else c :: rest

/-- The names of the kinds. -/
def pluralName : TaxonomyKind → String
  | .roles => "roles"
  | .apps => "apps"
  | .relationships => "relationships"
  | .layouts => "layouts"
  | .recordPages => "record-pages"
  | .views => "views"
  | .menus => "menus"
  | .reportFolders => "report-folders"
  | .dashboards => "dashboards"
  | .reports => "reports"
  | .actions => "actions"
  | .flows => "flows"
  | .approvals => "approvals"
  | .prompts => "prompts"
  | .agents => "agents"
  | .permissionsets => "permissionsets"
  | .permissions => "permissions"

def lowerUnit (c : UInt16) : UInt16 :=
  if unit 'A' ≤ c ∧ c ≤ unit 'Z' then c + 32 else c

/-- `normalized.match(/\.([a-z]+)\.(json|ya?ml)$/i)?.[1]?.toLowerCase()` -/
def suffixWord (path : Units) : Option Units :=
  let last := path.reverse.takeWhile (· ≠ unit '.')
  match path.reverse.dropWhile (· ≠ unit '.') with
  | [] => none
  | _ :: before =>
    let word := (before.takeWhile (· ≠ unit '.')).reverse.map lowerUnit
    if last.reverse.map lowerUnit ∈ ["json", "yaml", "yml"].map units ∧ word ≠ [] ∧
        word.all (fun c => unit 'a' ≤ c && c ≤ unit 'z') = true ∧
        before.dropWhile (· ≠ unit '.') ≠ [] then
      some word
    else none

/-- What the lookup of a kind gives: `PLURAL_KIND_BY_SINGULAR` is a plain object, in which the word
`constructor` finds an inherited function. -/
inductive InferredKind where
  | none
  | kind (kind : TaxonomyKind)
  | inherited
deriving DecidableEq

def inferMetadataRuntimeTaxonomyKind (path : Units) : InferredKind :=
  let normalized := normalizeMetadataRuntimeFilePath path
  let directRoot := (normalized.splitOn (unit '/')).headD []
  match taxonomyKinds.find? fun kind => units (pluralName kind) = directRoot with
  | some kind => .kind kind
  | none =>
    match suffixWord normalized with
    | none => .none
    | some singular =>
      match taxonomyKinds.find? fun kind => units (metadataRuntimeSingularKind kind) = singular with
      | some kind => .kind kind
      | none => if singular = units "constructor" then .inherited else .none

/-! ## The names in a path -/

/-- The folder that a path begins with. -/
def rootFolder (kind : TaxonomyKind) (payload : JsonRecord) : Units :=
  match kind with
  | .relationships => units "objects"
  | .permissions => if ownedByRole payload then units "roles" else units "permissionsets"
  | kind => units (pluralName kind)

/-- The name that the folder of a file is called after. -/
def folderName (kind : TaxonomyKind) (payload : JsonRecord) : Option Units :=
  match kind with
  | .roles => some (firstString payload ["apiName", "name"] "unknown")
  | .relationships | .layouts | .recordPages | .views =>
    some (firstString payload ["objectNameSingular"] "unknown-object")
  | .menus => some (firstString payload ["appApiName"] "unknown-app")
  | .reportFolders => some (firstString payload ["folderType"] "REPORT")
  | .reports => some (firstString payload ["folderApiName"] "root")
  | .prompts => some (firstString payload ["promptType"] "template")
  | .permissionsets => some (firstString payload ["apiName", "label"] "unknown")
  | .permissions =>
    if ownedByRole payload then some (firstString payload ["roleApiName"] "unknown-role")
    else some (firstString payload ["permissionSetApiName"] "unknown-permissionset")
  | .apps | .dashboards | .actions | .flows | .approvals | .agents => none

/-- The folder of that folder in which the file is, for two of the kinds. -/
def innerFolder : TaxonomyKind → List Units
  | .relationships => [units "relationships"]
  | .permissions => [units "permissions"]
  | _ => []

/-- The name that a file is called after; a role and a permission set have one file each. -/
def fileName (kind : TaxonomyKind) (payload : JsonRecord) : Option Units :=
  match kind with
  | .roles | .permissionsets => none
  | .relationships => some (firstString payload ["fieldName", "name"] "unknown")
  | .permissions =>
    some (firstString payload ["permissionName", "fieldName", "objectNameSingular", "appApiName",
      "menuApiName", "permissionType"] "unknown")
  | _ => some (firstString payload ["apiName", "name", "label"] "unknown")

def fileSegment (kind : TaxonomyKind) (name : Option Units) (format : MetadataRuntimeFileFormat) :
    Units :=
  match name with
  | some name => componentFile kind name format
  | none => units (metadataRuntimeSingularKind kind) ++ format.extension

/-- Two payloads whose names are the same once slashes have become underscores. -/
def SameNames (kind : TaxonomyKind) (payload payload' : JsonRecord) : Prop :=
  (folderName kind payload).map sanitizeSegment = (folderName kind payload').map sanitizeSegment ∧
    (fileName kind payload).map sanitizeSegment = (fileName kind payload').map sanitizeSegment

/-- A path tells which component it is for, next to the path of another payload of the kind. -/
structure PathIdentifies (kind : TaxonomyKind) (payload payload' : JsonRecord)
    (format : MetadataRuntimeFileFormat) : Prop where
  accepted : isMetadataRuntimeTaxonomyFile
    (buildMetadataRuntimeTaxonomyFilePath kind payload format) = true
  inferred : inferMetadataRuntimeTaxonomyKind
    (buildMetadataRuntimeTaxonomyFilePath kind payload format) = .kind kind
  dots : ∀ segment ∈ (buildMetadataRuntimeTaxonomyFilePath kind payload format).splitOn (unit '/'),
    segment ≠ units "." ∧ segment ≠ units ".."
  apart : getMetadataRuntimeComponentIdentity kind payload ≠
      getMetadataRuntimeComponentIdentity kind payload' →
    buildMetadataRuntimeTaxonomyFilePath kind payload format ≠
      buildMetadataRuntimeTaxonomyFilePath kind payload' format

section
variable {kind : TaxonomyKind} {payload payload' : JsonRecord} {format : MetadataRuntimeFileFormat}

/-- A path is its root, its folders and its file. -/
lemma pathSegments_eq : pathSegments kind payload format =
    rootFolder kind payload :: (((folderName kind payload).map sanitizeSegment).toList ++
      innerFolder kind) ++ [fileSegment kind ((fileName kind payload).map sanitizeSegment) format] := by
  cases kind with
  | permissions =>
    by_cases hrole : ownedByRole payload = true
    · simp only [pathSegments, rootFolder, folderName, hrole, if_true]
      rfl
    · simp only [pathSegments, rootFolder, folderName, hrole]
      rfl
  | _ => rfl

/-! ## Segments and paths -/

/-- A segment without separators. -/
def IsSegment (s : Units) : Prop :=
  unit '/' ∉ s ∧ unit '\\' ∉ s

instance (s : Units) : Decidable (IsSegment s) :=
  inferInstanceAs (Decidable (_ ∧ _))

/-- Two segments make one. -/
lemma IsSegment.append {s t : Units} (hs : IsSegment s) (ht : IsSegment t) : IsSegment (s ++ t) :=
  ⟨fun h => (List.mem_append.1 h).elim hs.1 ht.1, fun h => (List.mem_append.1 h).elim hs.2 ht.2⟩

/-- A sanitized name is a segment. -/
lemma isSegment_sanitize (value : Units) : IsSegment (sanitizeSegment value) := by
  have hne (c : UInt16) : (if c = unit '\\' ∨ c = unit '/' then unit '_' else c) ≠ unit '/' ∧
      (if c = unit '\\' ∨ c = unit '/' then unit '_' else c) ≠ unit '\\' := by
    split
    · decide
    · rename_i h
      exact ⟨fun hc => h (.inr hc), fun hc => h (.inl hc)⟩
  constructor
  · intro h
    obtain ⟨c, _, hc⟩ := List.mem_map.1 h
    exact (hne c).1 hc
  · intro h
    obtain ⟨c, _, hc⟩ := List.mem_map.1 h
    exact (hne c).2 hc

/-- So is the name of a file. -/
lemma isSegment_fileSegment (kind : TaxonomyKind) (format : MetadataRuntimeFileFormat)
    (name : Option Units) : IsSegment (fileSegment kind (name.map sanitizeSegment) format) := by
  have hkind : IsSegment (units (metadataRuntimeSingularKind kind)) := by
    cases kind <;> decide
  have hformat : IsSegment format.extension := by
    cases format <;> decide
  cases name with
  | none => exact hkind.append hformat
  | some name =>
    exact (((isSegment_sanitize name).append (by decide)).append hkind).append hformat

/-- So is a root. -/
lemma isSegment_root : IsSegment (rootFolder kind payload) := by
  cases kind with
  | permissions =>
    unfold rootFolder
    dsimp only
    split <;> decide
  | _ => exact of_decide_eq_true rfl

/-- So is every part of a path. -/
lemma isSegment_of_mem {s : Units} (h : s ∈ pathSegments kind payload format) : IsSegment s := by
  rw [pathSegments_eq] at h
  rcases List.mem_append.1 h with h | h
  · rcases List.mem_cons.1 h with rfl | h
    · exact isSegment_root
    · rcases List.mem_append.1 h with h | h
      · obtain ⟨name, _, rfl⟩ := Option.map_eq_some_iff.1 (Option.mem_toList.1 h)
        exact isSegment_sanitize name
      · cases kind <;> simp [innerFolder] at h <;> subst h <;> decide
  · obtain rfl := List.mem_singleton.1 h
    exact isSegment_fileSegment ..

/-- A path is split into its parts. -/
lemma splitOn_path : (buildMetadataRuntimeTaxonomyFilePath kind payload format).splitOn (unit '/') =
    pathSegments kind payload format := by
  unfold buildMetadataRuntimeTaxonomyFilePath joinPath
  refine List.splitOn_intercalate _ (fun s hs => (isSegment_of_mem hs).1) ?_
  rw [pathSegments_eq]
  exact List.cons_ne_nil _ _

/-- A path begins with its first part. -/
lemma joinPath_cons (s : Units) (ss : List Units) : ∃ after, joinPath (s :: ss) = s ++ after := by
  cases ss with
  | nil => exact ⟨[], by simp [joinPath]⟩
  | cons t ts => exact ⟨_, by rw [joinPath, List.intercalate_cons_cons, List.append_assoc]⟩

/-- A path ends with its last part. -/
lemma joinPath_concat {ss : List Units} (h : ss ≠ []) (s : Units) :
    ∃ before, joinPath (ss ++ [s]) = before ++ unit '/' :: s := by
  induction ss with
  | nil => exact absurd rfl h
  | cons t ts ih =>
    cases ts with
    | nil => exact ⟨t, by simp [joinPath]⟩
    | cons u us =>
      obtain ⟨before, hbefore⟩ := ih (List.cons_ne_nil _ _)
      refine ⟨t ++ [unit '/'] ++ before, ?_⟩
      rw [joinPath] at hbefore ⊢
      rw [List.cons_append, List.cons_append, List.intercalate_cons_cons, ← List.cons_append, hbefore]
      simp

/-- A path has no backslash. -/
lemma backslash_not_mem {ss : List Units} (h : ∀ s ∈ ss, IsSegment s) : unit '\\' ∉ joinPath ss := by
  induction ss with
  | nil => simp [joinPath]
  | cons s ss ih =>
    cases ss with
    | nil => simpa [joinPath] using (h s (List.mem_singleton_self s)).2
    | cons t ts =>
      have hrest := ih fun u hu => h u (List.mem_cons_of_mem _ hu)
      rw [joinPath] at hrest ⊢
      rw [List.intercalate_cons_cons]
      intro hmem
      rcases List.mem_append.1 hmem with hmem | hmem
      · rcases List.mem_append.1 hmem with hmem | hmem
        · exact (h s (List.mem_cons_self ..)).2 hmem
        · exact absurd hmem (by decide)
      · exact hrest hmem

/-- The file is the last segment of its path. -/
lemma path_file (kind : TaxonomyKind) (payload : JsonRecord) (format : MetadataRuntimeFileFormat) :
    ∃ before, buildMetadataRuntimeTaxonomyFilePath kind payload format =
      before ++ unit '/' :: fileSegment kind ((fileName kind payload).map sanitizeSegment) format := by
  unfold buildMetadataRuntimeTaxonomyFilePath
  rw [pathSegments_eq]
  exact joinPath_concat (List.cons_ne_nil _ _) _

/-- A path that was built is read as it is. -/
lemma normalize_path :
    normalizeMetadataRuntimeFilePath (buildMetadataRuntimeTaxonomyFilePath kind payload format) =
      buildMetadataRuntimeTaxonomyFilePath kind payload format := by
  have hslash : unit '\\' ∉ joinPath (pathSegments kind payload format) :=
    backslash_not_mem fun _ hs => isSegment_of_mem hs
  have hmap : (buildMetadataRuntimeTaxonomyFilePath kind payload format).map
      (fun c => if c = unit '\\' then unit '/' else c) =
        buildMetadataRuntimeTaxonomyFilePath kind payload format := by
    refine (List.map_congr_left fun c hc => ?_).trans (List.map_id _)
    have hne : c ≠ unit '\\' := fun h => hslash (h ▸ hc)
    exact if_neg hne
  obtain ⟨c, cs, hroot, hc⟩ : ∃ c cs, rootFolder kind payload = c :: cs ∧
      c ≠ unit '/' ∧ c ≠ unit '.' := by
    -- the folder of a permission depends on its owner
    cases kind with
    | permissions =>
      unfold rootFolder
      dsimp only
      split
      · exact ⟨_, _, rfl, by decide⟩
      · exact ⟨_, _, rfl, by decide⟩
    | _ => exact ⟨_, _, rfl, by decide⟩
  obtain ⟨after, hafter⟩ := joinPath_cons (c :: cs)
    ((((folderName kind payload).map sanitizeSegment).toList ++ innerFolder kind) ++
      [fileSegment kind ((fileName kind payload).map sanitizeSegment) format])
  have hpath : buildMetadataRuntimeTaxonomyFilePath kind payload format = c :: (cs ++ after) := by
    unfold buildMetadataRuntimeTaxonomyFilePath
    rw [pathSegments_eq, hroot]
    exact hafter
  unfold normalizeMetadataRuntimeFilePath
  rw [hmap, hpath]
  dsimp only
  rw [if_neg hc.1, if_neg fun h => hc.2 h.1]

/-! ## Reading a path that was built -/

/-- A path with one of the suffixes is accepted. -/
lemma accepted_suffix {path before suffix : Units} (hpath : path = before ++ suffix)
    (h : suffix ∈ taxonomyFileSuffixes) : isMetadataRuntimeTaxonomyFile path = true := by
  refine Bool.or_eq_true_iff.2 (.inl (List.any_eq_true.2 ⟨suffix, h, ?_⟩))
  exact List.isSuffixOf_iff_suffix.2 ⟨before, hpath.symm⟩

/-- The base name of a path is its file. -/
lemma basename_file {before file : Units} {c : UInt16} {rest : Units} (hfile : unit '/' ∉ file)
    (hlast : file.reverse = c :: rest) : basename (before ++ unit '/' :: file) = file := by
  have hne : ∀ d ∈ file.reverse, d ≠ unit '/' := by
    intro d hd hslash
    exact hfile (List.mem_reverse.1 (hslash ▸ hd))
  unfold basename
  rw [List.reverse_append, List.reverse_cons, List.append_assoc, hlast, List.cons_append,
    List.dropWhile_cons_of_neg (by simpa using hne c (hlast ▸ List.mem_cons_self ..)),
    ← List.cons_append, ← hlast, List.takeWhile_append_of_pos (by simpa using hne)]
  simp

/-- The suffix of a named kind is one of the suffixes. -/
lemma suffix_mem {format : MetadataRuntimeFileFormat} (hnamed : kind ≠ .roles) :
    units "." ++ units (metadataRuntimeSingularKind kind) ++ format.extension ∈
      taxonomyFileSuffixes := by
  cases kind <;> first | exact absurd rfl hnamed | (cases format <;> decide)

/-- Every path that is built is read as a file of a component. -/
lemma path_accepted : isMetadataRuntimeTaxonomyFile
    (buildMetadataRuntimeTaxonomyFilePath kind payload format) = true := by
  obtain ⟨before, hpath⟩ := path_file kind payload format
  cases hname : fileName kind payload with
  | some name =>
    rw [hname] at hpath
    have hkind : kind ≠ .roles := by
      rintro rfl
      cases hname
    have hwhole : buildMetadataRuntimeTaxonomyFilePath kind payload format =
        (before ++ unit '/' :: sanitizeSegment name) ++
          (units "." ++ units (metadataRuntimeSingularKind kind) ++ format.extension) := by
      rw [hpath, fileSegment.eq_def]
      simp [componentFile]
    exact accepted_suffix hwhole (suffix_mem hkind)
  | none =>
    rw [hname] at hpath
    have hsingle : fileSegment kind none format ∈ taxonomySingletonFileNames ∧
        unit '/' ∉ fileSegment kind none format ∧
        ∃ c rest, (fileSegment kind none format).reverse = c :: rest := by
      cases kind with
      | roles => cases format <;> exact ⟨by decide, by decide, _, _, rfl⟩
      | permissionsets => cases format <;> exact ⟨by decide, by decide, _, _, rfl⟩
      | _ => cases hname
    obtain ⟨hmem, hslash, c, rest, hlast⟩ := hsingle
    refine Bool.or_eq_true_iff.2 (.inr ?_)
    rw [hpath, Option.map_none, basename_file hslash hlast]
    exact List.contains_iff_mem.2 hmem

/-- The word before the extension. -/
lemma suffixWord_append {before word last : Units} (hword : unit '.' ∉ word)
    (hlast : unit '.' ∉ last) :
    suffixWord (before ++ unit '.' :: word ++ unit '.' :: last) =
      if last.map lowerUnit ∈ ["json", "yaml", "yml"].map units ∧ word.map lowerUnit ≠ [] ∧
          (word.map lowerUnit).all (fun c => unit 'a' ≤ c && c ≤ unit 'z') = true then
        some (word.map lowerUnit)
      else none := by
  have hnot {s : Units} (h : unit '.' ∉ s) : ∀ c ∈ s.reverse, decide (c ≠ unit '.') = true := by
    intro c hc
    exact decide_eq_true fun hdot => h (List.mem_reverse.1 (hdot ▸ hc))
  have hreverse : (before ++ unit '.' :: word ++ unit '.' :: last).reverse =
      last.reverse ++ unit '.' :: (word.reverse ++ unit '.' :: before.reverse) := by
    simp
  unfold suffixWord
  rw [hreverse, List.takeWhile_append_of_pos (hnot hlast), List.dropWhile_append_of_pos (hnot hlast)]
  simp only [List.takeWhile_cons_of_neg, List.dropWhile_cons_of_neg, ne_eq, not_true_eq_false,
    decide_false, Bool.false_eq_true, not_false_eq_true, List.append_nil, List.reverse_reverse]
  rw [List.takeWhile_append_of_pos (by simpa using hnot hword),
    List.dropWhile_append_of_pos (by simpa using hnot hword)]
  simp [List.takeWhile_cons_of_neg, List.dropWhile_cons_of_neg]

/-- A kind is found by its plural. -/
lemma find_plural (kind : TaxonomyKind) :
    taxonomyKinds.find? (fun kind' => units (pluralName kind') = units (pluralName kind)) =
      some kind := by
  cases kind <;> decide

/-- The first part of a path is its root. -/
lemma head_path : ((buildMetadataRuntimeTaxonomyFilePath kind payload format).splitOn
    (unit '/')).headD [] = rootFolder kind payload := by
  rw [splitOn_path, pathSegments_eq]
  rfl

/-- The kind is inferred from the root. -/
lemma root_inferred {found : TaxonomyKind}
    (h : rootFolder kind payload = units (pluralName found)) :
    inferMetadataRuntimeTaxonomyKind (buildMetadataRuntimeTaxonomyFilePath kind payload format) =
      .kind found := by
  unfold inferMetadataRuntimeTaxonomyKind
  simp only [normalize_path, head_path, h, find_plural]

/-- A permission is read as a role or as a permission set. -/
lemma permission_inferred : inferMetadataRuntimeTaxonomyKind
    (buildMetadataRuntimeTaxonomyFilePath .permissions payload format) =
      .kind (if ownedByRole payload then .roles else .permissionsets) := by
  apply root_inferred
  unfold rootFolder
  dsimp only
  split
  · rfl
  · rfl

/-- The kind of a relationship is inferred. -/
lemma relationship_inferred : inferMetadataRuntimeTaxonomyKind
    (buildMetadataRuntimeTaxonomyFilePath .relationships payload format) =
      .kind .relationships := by
  obtain ⟨before, hpath⟩ :=
    path_file .relationships payload format
  have hword : suffixWord (buildMetadataRuntimeTaxonomyFilePath .relationships payload format) =
      some (units "relationship") := by
    obtain ⟨last, hformat, hdot, hlast⟩ : ∃ last, format.extension = unit '.' :: last ∧
        unit '.' ∉ last ∧ last.map lowerUnit ∈ ["json", "yaml", "yml"].map units := by
      -- both formats end in a word of letters
      cases format with
      | json => exact ⟨units "json", by decide, by decide, by decide⟩
      | yaml => exact ⟨units "yaml", by decide, by decide, by decide⟩
    have hsplit : fileSegment .relationships
        ((fileName .relationships payload).map sanitizeSegment) format =
        sanitizeSegment (firstString payload ["fieldName", "name"] "unknown") ++
          unit '.' :: units "relationship" ++ unit '.' :: last := by
      rw [← hformat]
      simp only [fileName, Option.map_some, fileSegment, componentFile, List.append_assoc,
        List.cons_append]
      rfl
    rw [hpath, hsplit, ← List.cons_append, ← List.cons_append, ← List.append_assoc,
      ← List.append_assoc, suffixWord_append (by decide) hdot,
      if_pos ⟨hlast, by decide, by decide⟩]
    decide
  have hnone : taxonomyKinds.find? (fun kind' => units (pluralName kind') = units "objects") =
      none := by decide
  have hsingular : taxonomyKinds.find? (fun kind' =>
      units (metadataRuntimeSingularKind kind') = units "relationship") = some .relationships := by
    decide
  unfold inferMetadataRuntimeTaxonomyKind
  simp only [normalize_path, head_path, rootFolder, hnone, hword, hsingular]

/-- The kind is read off the path again but for permissions. -/
lemma path_inferred_iff : inferMetadataRuntimeTaxonomyKind
    (buildMetadataRuntimeTaxonomyFilePath kind payload format) = .kind kind ↔
      kind ≠ .permissions := by
  constructor
  · rintro h rfl
    rw [permission_inferred] at h
    split at h <;> cases h
  · intro h
    cases kind with
    | permissions => exact absurd rfl h
    | relationships => exact relationship_inferred
    | _ => exact root_inferred rfl

/-- A text without underscores is what only itself becomes. -/
lemma sanitize_eq_iff {name s : Units} (hs : IsSegment s) (hunder : unit '_' ∉ s) :
    sanitizeSegment name = s ↔ name = s := by
  have hkeep {t : Units} (h : ∀ c ∈ t, ¬ (c = unit '\\' ∨ c = unit '/')) : sanitizeSegment t = t :=
    (List.map_congr_left fun c hc => if_neg (h c hc)).trans (List.map_id _)
  constructor
  · intro h
    rw [← h]
    refine (hkeep fun c hc hslash => hunder ?_).symm
    rw [← h]
    exact List.mem_map.2 ⟨c, hc, if_pos hslash⟩
  · rintro rfl
    exact hkeep fun c hc hslash => hslash.elim (fun h => hs.2 (h ▸ hc)) fun h => hs.1 (h ▸ hc)

/-- Only dots are sanitized to dots. -/
lemma sanitize_dots {name : Units} : (sanitizeSegment name ≠ units "." ∧
    sanitizeSegment name ≠ units "..") ↔ name ≠ units "." ∧ name ≠ units ".." := by
  rw [ne_eq, ne_eq, sanitize_eq_iff (by decide) (by decide),
    sanitize_eq_iff (by decide) (by decide)]

/-- A segment of dots is the folder of a name of dots. -/
lemma path_dots_iff :
    (∀ segment ∈ (buildMetadataRuntimeTaxonomyFilePath kind payload format).splitOn (unit '/'),
      segment ≠ units "." ∧ segment ≠ units "..") ↔
    ∀ name ∈ folderName kind payload, name ≠ units "." ∧ name ≠ units ".." := by
  rw [splitOn_path, pathSegments_eq]
  constructor
  · intro h name hname
    refine sanitize_dots.1 (h _ (List.mem_append_left _ (List.mem_cons_of_mem _
      (List.mem_append_left _ (Option.mem_toList.2 ?_)))))
    exact Option.mem_map_of_mem _ hname
  · intro h segment hsegment
    rcases List.mem_append.1 hsegment with hsegment | hsegment
    · rcases List.mem_cons.1 hsegment with rfl | hsegment
      · cases kind with
        | permissions =>
          unfold rootFolder
          dsimp only
          split <;> decide
        | _ => exact of_decide_eq_true rfl
      · rcases List.mem_append.1 hsegment with hsegment | hsegment
        · obtain ⟨name, hname, rfl⟩ := Option.map_eq_some_iff.1 (Option.mem_toList.1 hsegment)
          exact sanitize_dots.2 (h name hname)
        · cases kind <;> simp [innerFolder] at hsegment <;> subst hsegment <;> decide
    · obtain rfl := List.mem_singleton.1 hsegment
      have hlong : 2 < (fileSegment kind ((fileName kind payload).map sanitizeSegment)
          format).length := by
        have hextension : 2 < format.extension.length := by
          cases format <;> decide
        unfold fileSegment
        split <;> simp only [componentFile, List.length_append] <;> omega
      constructor
      · intro h
        rw [h] at hlong
        exact absurd hlong (by decide)
      · intro h
        rw [h] at hlong
        exact absurd hlong (by decide)

/-- Two names of files differ if the names do. -/
lemma fileSegment_inj {name name' : Option Units} (h : name.isSome = name'.isSome)
    (heq : fileSegment kind name format = fileSegment kind name' format) : name = name' := by
  cases name with
  | none =>
    cases name' with
    | none => rfl
    | some name' => cases h
  | some name =>
    cases name' with
    | none => cases h
    | some name' =>
      refine congrArg some ?_
      simp only [fileSegment, componentFile, List.append_assoc] at heq
      exact List.append_cancel_right heq

/-- Two payloads of one kind are given one path just when their names are the same. -/
lemma path_eq_iff (h : kind ≠ .permissions) :
    buildMetadataRuntimeTaxonomyFilePath kind payload format =
      buildMetadataRuntimeTaxonomyFilePath kind payload' format ↔
    SameNames kind payload payload' := by
  have hroot : rootFolder kind payload = rootFolder kind payload' := by
    cases kind with
    | permissions => exact absurd rfl h
    | _ => rfl
  constructor
  · intro heq
    have hsegments := congrArg (List.splitOn (unit '/')) heq
    rw [splitOn_path, splitOn_path, pathSegments_eq, pathSegments_eq] at hsegments
    obtain ⟨hfolders, hfile⟩ := List.append_inj' hsegments rfl
    have hfolder := List.append_cancel_right (List.cons.inj hfolders).2
    have hoption {o o' : Option Units} (h : o.toList = o'.toList) : o = o' := by
      cases o <;> cases o' <;> cases h <;> rfl
    refine ⟨hoption hfolder, fileSegment_inj ?_ (List.singleton_inj.1 hfile)⟩
    cases kind <;> rfl
  · intro hsame
    unfold buildMetadataRuntimeTaxonomyFilePath
    rw [pathSegments_eq, pathSegments_eq, hroot, hsame.1, hsame.2]

end

/-- A path identifies its component where the kind is not that of permissions, no folder has a name of
dots, and components with the same names are the same. -/
theorem path_identifies_iff (kind : TaxonomyKind) (payload payload' : JsonRecord)
    (format : MetadataRuntimeFileFormat) : PathIdentifies kind payload payload' format ↔
      kind ≠ .permissions ∧
      (∀ name ∈ folderName kind payload, name ≠ units "." ∧ name ≠ units "..") ∧
      (SameNames kind payload payload' →
        getMetadataRuntimeComponentIdentity kind payload =
          getMetadataRuntimeComponentIdentity kind payload') := by
  constructor
  · intro h
    have hkind := path_inferred_iff.1 h.inferred
    refine ⟨hkind, path_dots_iff.1 h.dots, fun hsame => ?_⟩
    by_contra hne
    exact h.apart hne ((path_eq_iff hkind).2 hsame)
  · rintro ⟨hkind, hdots, hsame⟩
    exact ⟨path_accepted, path_inferred_iff.2 hkind, path_dots_iff.2 hdots,
      fun hne heq => hne (hsame ((path_eq_iff hkind).1 heq))⟩

/-- The path of a permission of a set is read as the path of a permission set. -/
theorem permission_path_misread : ¬ PathIdentifies .permissions
    [(units "permissionSetApiName", .str (units "sales")), (units "permissionType", .str (units "OBJECT"))]
    [(units "permissionSetApiName", .str (units "sales"))] .json := by
  intro h
  exact path_inferred_iff.1 h.inferred rfl

end NexusClaw.MetadataRuntime
