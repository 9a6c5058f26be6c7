import SwiftLens.Lens.Artifact
import SwiftLens.Proofs.Lens.CurrentFiles

namespace SwiftLens

/-- Without dots a type name is a plain name. -/
theorem isTypeName_of_undotted {name : String} (undotted : '.' ∉ name.toList) :
    isTypeName name = isPlainName name := by
  simp [isTypeName, dotComponents, splitText, splitChars_of_not_mem undotted]

def Property.faults (owner : String) (property : Property SemanticType) : List UnusableName :=
  (if isIdentifier property.name then [] else [⟨property.name, .propertyOf owner⟩]) ++
    if isTypeName property.type.baseName then [] else [⟨property.type.baseName, .propertyType⟩]

def Structure.faults (described : StructureType) : List UnusableName :=
  (if isPlainName described.name && !described.name.toList.contains '.' then []
    else [⟨described.name, .structureName⟩]) ++
    described.properties.flatMap (Property.faults described.name)

theorem Property.faults_eq_nil_iff {owner : String} {property : Property SemanticType} :
    property.faults owner = [] ↔ property.Writable := by
  unfold faults
  rw [List.append_eq_nil_iff]
  constructor
  · rintro ⟨name, type⟩
    exact ⟨by simpa using name, by simpa using type⟩
  · rintro ⟨name, type⟩
    exact ⟨if_pos name, if_pos type⟩

theorem Structure.faults_eq_nil_iff {described : StructureType} :
    described.faults = [] ↔ described.Writable := by
  unfold faults
  rw [List.append_eq_nil_iff, List.flatMap_eq_nil_iff]
  constructor
  · rintro ⟨name, properties⟩
    have named : isPlainName described.name = true ∧ '.' ∉ described.name.toList := by
      simpa using name
    refine ⟨(isTypeName_of_undotted named.2).trans named.1, named.2, ?_⟩
    exact fun property listed => Property.faults_eq_nil_iff.mp (properties property listed)
  · rintro ⟨name, undotted, properties⟩
    have plain := (isTypeName_of_undotted undotted).symm.trans name
    refine ⟨by simp [plain, undotted], ?_⟩
    exact fun property listed => Property.faults_eq_nil_iff.mpr (properties property listed)

instance (described : StructureType) : Decidable described.Writable :=
  decidable_of_iff (described.faults = []) Structure.faults_eq_nil_iff

def verdict {α : Type} (value : α) : List UnusableName → Except UnusableName α
  | [] => .ok value
  | first :: _ => .error first

theorem verdict_append {α : Type} (value : α) (front back : List UnusableName) :
    verdict value (front ++ back) = verdict () front >>= fun _ => verdict value back := by
  cases front with
  | nil => rfl
  | cons first rest => rfl

theorem verdict_eq_error_iff {α : Type} {value : α} {faults : List UnusableName}
    {fault : UnusableName} : verdict value faults = .error fault ↔ faults.head? = some fault := by
  cases faults with
  | nil => simp [verdict]
  | cons first rest => simp [verdict]

namespace LensFile

variable {settings : LensSettings} {package : String} {described : StructureType}

theorem lensOf_eq_verdict (property : Property SemanticType) :
    lensOf settings described property =
      verdict (lensFor settings described property) (property.faults described.name) := by
  unfold lensOf Property.faults
  rw [SemanticType.render_eq]
  by_cases name : isIdentifier property.name = true
  · by_cases type : isTypeName property.type.baseName = true
    · simp [name, type, verdict, Except.map, lensFor]
    · simp [name, type, verdict, Except.map]
  · simp [name, verdict]

theorem mapM_lensOf_eq_verdict (properties : List (Property SemanticType)) :
    properties.mapM (lensOf settings described) =
      verdict (properties.map (lensFor settings described))
        (properties.flatMap (Property.faults described.name)) := by
  induction properties with
  | nil => rfl
  | cons property rest ih =>
    rw [List.mapM_cons, lensOf_eq_verdict, ih, List.flatMap_cons, List.map_cons, verdict_append]
    cases property.faults described.name with
    | cons first others => rfl
    | nil => cases rest.flatMap (Property.faults described.name) <;> rfl

theorem checkStructureName_eq_verdict (name : String) :
    checkStructureName name = verdict ()
      (if isPlainName name && !name.toList.contains '.' then [] else [⟨name, .structureName⟩]) := by
  unfold checkStructureName
  by_cases undotted : '.' ∈ name.toList
  · simp [undotted, verdict]
  · rw [isTypeName_of_undotted undotted]
    cases isPlainName name <;> simp [undotted, verdict]

/-- In a package that can be written the first fault of a structure decides. -/
theorem build_eq_verdict (plain : isPlainName package = true) :
    build settings package described =
      verdict (fileFor settings package described) described.faults := by
  have checked : checkPackage package = .ok () := checkPackage_ok_iff.mpr plain
  unfold build Structure.faults
  rw [checked, checkStructureName_eq_verdict, mapM_lensOf_eq_verdict, verdict_append]
  simp only [bind, Except.bind]
  split
  · rfl
  · cases described.properties.flatMap (Property.faults described.name) <;> rfl

theorem build_of_unusable (unusable : isPlainName package = false) :
    build settings package described = .error ⟨package, .package⟩ := by
  have checked : checkPackage package = .error ⟨package, .package⟩ := by
    simp [checkPackage, unusable]
  unfold build
  rw [checked]
  rfl

end LensFile

namespace OrderedMap

variable {κ α : Type} [DecidableEq κ]

def keySet (map : OrderedMap κ α) : OrderedSet κ :=
  ⟨map.keys, map.nodup⟩

theorem keySet_insert (map : OrderedMap κ α) (key : κ) (value : α) :
    (map.insert key value).keySet = map.keySet.insert key := by
  apply OrderedSet.ext_toList
  have keys : (map.insert key value).keySet.toList =
      if key ∈ map.keys then map.keys else map.keys ++ [key] := map.keys_insert key value
  rw [keys]
  split
  · next present =>
    rw [OrderedSet.insert_of_mem present]
    rfl
  · next absent =>
    rw [OrderedSet.toList_insert_of_not_mem absent]
    rfl

theorem keySet_insertAll (map : OrderedMap κ α) (entries : List (κ × α)) :
    (map.insertAll entries).keySet = (entries.map Prod.fst).foldl OrderedSet.insert map.keySet := by
  induction entries generalizing map with
  | nil => rfl
  | cons entry rest ih =>
    have later : (map.insertAll (entry :: rest)).keySet =
        ((map.insert entry.1 entry.2).insertAll rest).keySet := rfl
    rw [later, ih, keySet_insert]
    rfl

/-- The keys stand where they first came. -/
theorem keys_insertAll_empty (entries : List (κ × α)) :
    (empty.insertAll entries).keys = (entries.map Prod.fst).eraseDups := by
  have listed : (empty.insertAll entries).keys = (empty.insertAll entries).keySet.toList := rfl
  rw [listed, keySet_insertAll]
  exact OrderedSet.toList_foldl_insert _

end OrderedMap

theorem Entries.split_of_find? {κ α : Type} [DecidableEq κ] {key : κ} {value : α}
    {entries : List (κ × α)} (found : find? key entries = some value) :
    ∃ before after, entries = before ++ (key, value) :: after ∧ key ∉ before.map Prod.fst := by
  induction entries with
  | nil => cases found
  | cons entry rest ih =>
    obtain ⟨other, held⟩ := entry
    simp only [find?] at found
    by_cases same : other = key
    · rw [if_pos same] at found
      obtain rfl := Option.some.inj found
      subst same
      exact ⟨[], rest, rfl, by simp⟩
    · rw [if_neg same] at found
      obtain ⟨before, after, rfl, first⟩ := ih found
      exact ⟨(other, held) :: before, after, rfl, by simp [first, Ne.symm same]⟩

def writableStructures (types : List SemanticType) : List StructureType :=
  (types.filterMap SemanticType.structure?).filter fun described => described.Writable

theorem writableStructures_append (front back : List SemanticType) :
    writableStructures (front ++ back) = writableStructures front ++ writableStructures back := by
  simp [writableStructures]

theorem writableStructures_eq_nil {types : List SemanticType}
    (none : ∀ type ∈ types, ∀ described, type.structure? = some described →
      ¬ described.Writable) : writableStructures types = [] := by
  apply List.filter_eq_nil_iff.mpr
  intro described listed
  obtain ⟨type, member, found⟩ := List.mem_filterMap.mp listed
  simpa using none type member described found

namespace Generation

variable {settings : LensSettings} {package : String}

def entryFor (settings : LensSettings) (package : String) (described : StructureType) :
    String × String :=
  (settings.fileName described.name, (LensFile.fileFor settings package described).text)

section Plain

variable (plain : isPlainName package = true)

include plain

theorem contents_add (generation : Generation) (described : StructureType) :
    (generation.add settings package described).contents =
      if described.Writable then
        generation.contents.insertAll [entryFor settings package described]
      else generation.contents := by
  unfold Generation.add LensFile.generate
  rw [LensFile.build_eq_verdict plain]
  cases faults : described.faults with
  | nil =>
    rw [if_pos (Structure.faults_eq_nil_iff.mp faults)]
    rfl
  | cons first rest =>
    have unwritable : ¬ described.Writable := fun writable =>
      List.cons_ne_nil first rest (faults.symm.trans (Structure.faults_eq_nil_iff.mpr writable))
    rw [if_neg unwritable]
    rfl

theorem contents_foldl_add (structures : List StructureType) (generation : Generation) :
    (structures.foldl (add settings package) generation).contents =
      generation.contents.insertAll
        ((structures.filter fun described => described.Writable).map
          (entryFor settings package)) := by
  induction structures generalizing generation with
  | nil => rfl
  | cons described rest ih =>
    rw [List.foldl_cons, ih, contents_add plain]
    by_cases writable : described.Writable
    · rw [if_pos writable, List.filter_cons_of_pos (by simpa using writable), List.map_cons]
      rfl
    · rw [if_neg writable, List.filter_cons_of_neg (by simpa using writable)]

/-- The contents of the files are entered from the structures that can be written, in order. -/
theorem ofTypes_contents (settings : LensSettings) (types : List SemanticType) :
    ∃ generation, ofTypes settings package types = .ok generation ∧
      generation.contents = OrderedMap.empty.insertAll
        ((writableStructures types).map (entryFor settings package)) := by
  have checked : LensFile.checkPackage package = .ok () := LensFile.checkPackage_ok_iff.mpr plain
  unfold ofTypes
  rw [checked]
  exact ⟨_, rfl, contents_foldl_add plain _ {}⟩

end Plain

end Generation

/-- There is a file for each name among the structures. The first structure of a name gives its
place and the last one its contents. -/
structure Artifact.KeepLast (settings : LensSettings) (package : String)
    (structures : List StructureType) (artifacts : List Artifact) : Prop where
  distinct : (artifacts.map (·.fileName)).Nodup
  places : artifacts.map (·.fileName) =
    (structures.map fun described => settings.fileName described.name).eraseDups
  contents : ∀ artifact ∈ artifacts, ∃ before described after,
    structures = before ++ described :: after ∧ (∀ later ∈ after, later.name ≠ described.name) ∧
      artifact.fileName = settings.fileName described.name ∧
        LensFile.generate settings package described = .ok artifact.contents

theorem Generation.keepLast_artifacts {settings : LensSettings} {package : String}
    {structures : List StructureType} {generation : Generation}
    (plain : isPlainName package = true)
    (writable : ∀ described ∈ structures, described.Writable)
    (entered : generation.contents =
      OrderedMap.empty.insertAll (structures.map (entryFor settings package))) :
    Artifact.KeepLast settings package structures generation.artifacts := by
  constructor
  · exact generation.fileNames_nodup
  · rw [fileNames_artifacts, entered, OrderedMap.keys_insertAll_empty, List.map_map]
    rfl
  · intro artifact listed
    have held := mem_artifacts_iff.mp listed
    rw [entered, OrderedMap.find?_insertAll] at held
    -- An empty map holds nothing, so the contents come from the last entry of the file.
    have found : Entries.find? artifact.fileName
        (structures.map (entryFor settings package)).reverse = some artifact.contents := by
      simpa [OrderedMap.find?, OrderedMap.empty, Entries.find?] using held
    obtain ⟨back, front, split, last⟩ := Entries.split_of_find? found
    rw [← List.map_reverse] at split
    obtain ⟨after, others, reversed, rfl, rest⟩ := List.map_eq_append_iff.mp split
    obtain ⟨described, before, rfl, entry, rfl⟩ := List.map_eq_cons_iff.mp rest
    have parts : structures = before.reverse ++ described :: after.reverse := by
      have turned := congrArg List.reverse reversed
      simpa using turned
    have fileName : settings.fileName described.name = artifact.fileName := congrArg Prod.fst entry
    have text : (LensFile.fileFor settings package described).text = artifact.contents :=
      congrArg Prod.snd entry
    refine ⟨before.reverse, described, after.reverse, parts, ?_, fileName.symm, ?_⟩
    · intro later member same
      apply last
      rw [← fileName, ← same]
      exact List.mem_map_of_mem (List.mem_map_of_mem (List.mem_reverse.mp member))
    · apply LensFile.generate_ok_iff.mpr
      have member : described ∈ structures := by simp [parts]
      exact ⟨_, LensFile.build_ok_iff.mpr ⟨plain, writable described member, rfl⟩, text⟩

structure Artifact.KeepsLastWritable (settings : LensSettings) (package : String) : Prop where
  built : ∀ described, (∃ file, LensFile.build settings package described = .ok file) ↔
    described.Writable
  faulted : ∀ described fault, LensFile.build settings package described = .error fault ↔
    described.faults.head? = some fault
  generated : ∀ types, ∃ artifacts, (ofTypes settings package types).value = .ok artifacts ∧
    KeepLast settings package (writableStructures types) artifacts
  unaffected : ∀ front extra back,
    (∀ type ∈ extra, ∀ described, type.structure? = some described → ¬ described.Writable) →
      (ofTypes settings package (front ++ extra ++ back)).value =
        (ofTypes settings package (front ++ back)).value

namespace Artifact

variable {settings : LensSettings} {package : String}

theorem value_ofTypes {types : List SemanticType} {generation : Generation}
    (generated : Generation.ofTypes settings package types = .ok generation) :
    (ofTypes settings package types).value = .ok generation.artifacts := by
  simp [ofTypes, generated]

theorem value_eq_of_writableStructures (plain : isPlainName package = true)
    {types others : List SemanticType}
    (same : writableStructures types = writableStructures others) :
    (ofTypes settings package types).value = (ofTypes settings package others).value := by
  obtain ⟨left, generatedLeft, enteredLeft⟩ :=
    Generation.ofTypes_contents plain settings types
  obtain ⟨right, generatedRight, enteredRight⟩ :=
    Generation.ofTypes_contents plain settings others
  have contents : left.contents = right.contents := by
    rw [enteredLeft, enteredRight, same]
  rw [value_ofTypes generatedLeft, value_ofTypes generatedRight, Generation.artifacts, contents]
  rfl

/-- Generation keeps the last definition of every name that can be written, unless the package
cannot be written. -/
theorem keepsLastWritable (settings : LensSettings) (package : String) :
    (isPlainName package = true → KeepsLastWritable settings package) ∧
      (isPlainName package = false →
        (∀ described, LensFile.build settings package described = .error ⟨package, .package⟩) ∧
          ∀ types, (ofTypes settings package types).value =
            .error (.unusableName ⟨package, .package⟩)) := by
  refine ⟨fun plain => ⟨?_, ?_, ?_, ?_⟩, fun unusable => ⟨?_, ?_⟩⟩
  · intro described
    simp only [LensFile.build_ok_iff, plain, true_and, exists_and_left, exists_eq', and_true]
  · intro described fault
    rw [LensFile.build_eq_verdict plain, verdict_eq_error_iff]
  · intro types
    obtain ⟨generation, generated, entered⟩ := Generation.ofTypes_contents plain settings types
    have writable : ∀ described ∈ writableStructures types, described.Writable := by
      intro described listed
      simpa using (List.mem_filter.mp listed).2
    exact ⟨_, value_ofTypes generated, Generation.keepLast_artifacts plain writable entered⟩
  · intro front extra back none
    apply value_eq_of_writableStructures plain
    simp only [writableStructures_append, writableStructures_eq_nil none, List.append_nil]
  · exact fun described => LensFile.build_of_unusable unusable
  · intro types
    simp [ofTypes, Generation.ofTypes, LensFile.checkPackage, unusable, bind, Except.bind]

def lampType (property : String) : SemanticType :=
  .defined (.ofStructure ⟨"Lamp", [⟨property, .optional (.named "Lamp.Mode")⟩]⟩)

def roomType : SemanticType :=
  .defined (.ofStructure ⟨"Room", []⟩)

/-- The last lamp cannot be written and leaves its file to the one before. -/
theorem keepsLastWritable_lamp :
    KeepsLastWritable {} "Shapes" ∧
      (ofTypes {} "Shapes" [lampType "on", roomType, lampType "let", lampType "2nd"]).value =
        (ofTypes {} "Shapes" [lampType "on", roomType, lampType "let"]).value ∧
      (ofTypes {} "let" [roomType]).value = .error (.unusableName ⟨"let", .package⟩) := by
  have kept : KeepsLastWritable {} "Shapes" := (keepsLastWritable {} "Shapes").1 (by decide)
  have unwritable : ∀ type ∈ [lampType "2nd"], ∀ described, type.structure? = some described →
      ¬ described.Writable := by
    intro type listed described found
    obtain rfl := List.mem_singleton.mp listed
    obtain rfl := Option.some.inj found
    decide +kernel
  have unaffected :=
    kept.unaffected [lampType "on", roomType, lampType "let"] [lampType "2nd"] [] unwritable
  exact ⟨kept, unaffected, ((keepsLastWritable {} "let").2 (by decide)).2 [roomType]⟩

example : ((Generation.ofTypes {} "Shapes"
    [lampType "on", .named "Lamp", roomType, lampType "let", lampType "2nd"]).toOption.map
      (·.contents.keys)) = some ["LampMicroscope.swift", "RoomMicroscope.swift"] := by
  decide +kernel

end Artifact
end SwiftLens
