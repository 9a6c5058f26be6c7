import SwiftLens.Lens.Generation
import SwiftLens.Proofs.Extraction.Coherence
import SwiftLens.Proofs.Lens.Built

namespace SwiftLens

theorem LensSettings.fileName_inj (settings : LensSettings) {left right : String} :
    settings.fileName left = settings.fileName right ↔ left = right := by
  simp only [fileName, className, String.append_left_inj]

namespace Generation

variable {settings : LensSettings} {package : String}

structure Covers (settings : LensSettings) (package : String) (structures : List StructureType)
    (generation : Generation) : Prop where
  find?_iff : ∀ fileName text, generation.contents.find? fileName = some text ↔
    ∃ described ∈ structures, settings.fileName described.name = fileName ∧
      LensFile.generate settings package described = .ok text
  unreplaced : ∀ fileName name, .replaced fileName name ∉ generation.notices

theorem covers_nil : Covers settings package [] {} where
  find?_iff fileName text := by
    constructor
    · intro found
      cases found
    · rintro ⟨described, member, -⟩
      cases member
  unreplaced fileName name member := by cases member

section Add

variable {generation : Generation} {described : StructureType}
  (free : generation.contents.find? (settings.fileName described.name) = none)

include free

theorem find?_add_iff {fileName text : String} :
    (generation.add settings package described).contents.find? fileName = some text ↔
      generation.contents.find? fileName = some text ∨
        (settings.fileName described.name = fileName ∧
          LensFile.generate settings package described = .ok text) := by
  unfold Generation.add
  cases LensFile.generate settings package described with
  | error reason => simp
  | ok made =>
    simp only [OrderedMap.find?_insert, Except.ok.injEq]
    by_cases here : settings.fileName described.name = fileName
    · subst here
      simp [free]
    · simp [here]

theorem mem_notices_add {notice : GenerationNotice}
    (noticed : notice ∈ (generation.add settings package described).notices) :
    notice ∈ generation.notices ∨ ∃ reason, notice = .skipped described.name reason := by
  unfold Generation.add at noticed
  cases made : LensFile.generate settings package described with
  | error reason =>
    rw [made] at noticed
    rcases List.mem_append.mp noticed with earlier | here
    · exact .inl earlier
    · exact .inr ⟨reason, List.mem_singleton.mp here⟩
  | ok text =>
    rw [made] at noticed
    simp only [OrderedMap.contains, free, Option.isSome_none, Bool.false_eq_true, if_false]
      at noticed
    exact .inl noticed

end Add

theorem Covers.add {structures : List StructureType} {generation : Generation}
    (covers : Covers settings package structures generation) {described : StructureType}
    (new : described.name ∉ structures.map (·.name)) :
    Covers settings package (structures ++ [described])
      (generation.add settings package described) := by
  have free : generation.contents.find? (settings.fileName described.name) = none := by
    rw [Option.eq_none_iff_forall_not_mem]
    intro text found
    obtain ⟨other, member, sameFile, -⟩ := (covers.find?_iff _ _).mp found
    have sameName := settings.fileName_inj.mp sameFile
    exact new (sameName ▸ List.mem_map_of_mem member)
  constructor
  · intro fileName text
    rw [find?_add_iff free, covers.find?_iff]
    simp only [List.mem_append, List.mem_singleton, or_and_right, exists_or, exists_eq_left]
  · intro fileName name noticed
    rcases mem_notices_add free noticed with earlier | ⟨reason, skipped⟩
    · exact covers.unreplaced fileName name earlier
    · cases skipped

theorem Covers.foldl_add {later earlier : List StructureType} {generation : Generation}
    (covers : Covers settings package earlier generation)
    (apart : ((earlier ++ later).map (·.name)).Nodup) :
    Covers settings package (earlier ++ later)
      (later.foldl (Generation.add settings package) generation) := by
  induction later generalizing earlier generation with
  | nil =>
    rw [List.append_nil]
    exact covers
  | cons described rest ih =>
    have new : described.name ∉ earlier.map (·.name) := by
      intro member
      rw [List.map_append, List.nodup_append] at apart
      exact apart.2.2 _ member described.name (by simp) rfl
    have regrouped : earlier ++ described :: rest = earlier ++ [described] ++ rest := by simp
    rw [regrouped] at apart ⊢
    exact ih (covers.add new) apart

theorem covers_ofTypes {types : List SemanticType} {generation : Generation}
    (apart : ((types.filterMap SemanticType.structure?).map (·.name)).Nodup)
    (generated : ofTypes settings package types = .ok generation) :
    Covers settings package (types.filterMap SemanticType.structure?) generation := by
  unfold ofTypes at generated
  cases checked : LensFile.checkPackage package with
  | error unusable =>
    rw [checked] at generated
    cases generated
  | ok _ =>
    rw [checked] at generated
    cases generated
    exact covers_nil.foldl_add apart

theorem mem_artifacts_iff {generation : Generation} {artifact : Artifact} :
    artifact ∈ generation.artifacts ↔
      generation.contents.find? artifact.fileName = some artifact.contents := by
  rw [OrderedMap.find?_eq_some_iff_mem, artifacts, List.mem_map]
  constructor
  · rintro ⟨entry, member, rfl⟩
    exact member
  · intro member
    exact ⟨_, member, rfl⟩

theorem fileNames_artifacts (generation : Generation) :
    generation.artifacts.map (·.fileName) = generation.contents.keys := by
  simp [artifacts, OrderedMap.keys]

theorem fileNames_nodup (generation : Generation) :
    (generation.artifacts.map (·.fileName)).Nodup := by
  rw [fileNames_artifacts]
  exact generation.contents.nodup

theorem artifacts_nodup (generation : Generation) : generation.artifacts.Nodup :=
  List.Pairwise.imp (fun differs same => differs (by rw [same]))
    (List.pairwise_map.mp generation.fileNames_nodup)

theorem filter_artifacts_of_find? {generation : Generation} {fileName text : String}
    (found : generation.contents.find? fileName = some text) :
    generation.artifacts.filter (·.fileName = fileName) = [⟨fileName, text⟩] := by
  apply List.perm_singleton.mp
  have filtered := generation.artifacts_nodup.filter fun artifact =>
    decide (artifact.fileName = fileName)
  apply (List.perm_ext_iff_of_nodup filtered (by simp)).mpr
  intro artifact
  rw [List.mem_filter, decide_eq_true_iff, List.mem_singleton, mem_artifacts_iff]
  constructor
  · rintro ⟨held, rfl⟩
    rw [held] at found
    rw [← Option.some.inj found]
  · rintro rfl
    exact ⟨found, rfl⟩

end Generation

namespace Catalog

variable {catalog : Catalog} (coherent : catalog.Coherent)

include coherent

theorem Coherent.mem_currentStructures_iff {described : StructureType} :
    described ∈ catalog.currentTypes.filterMap SemanticType.structure? ↔
      catalog.find? described.name = some (.ofStructure described) := by
  have listed : described ∈ catalog.currentTypes.filterMap SemanticType.structure? ↔
      .ofStructure described ∈ catalog.currentDefinitions := by
    rw [List.mem_filterMap]
    constructor
    · rintro ⟨type, member, found⟩
      obtain ⟨definition, current, rfl⟩ := List.mem_map.mp member
      cases definition with
      | ofStructure other =>
        cases found
        exact current
      | ofChoice other => cases found
      | optional wrapped => cases found
    · intro current
      exact ⟨.defined (.ofStructure described), List.mem_map_of_mem current, rfl⟩
  rw [listed, coherent.mem_currentDefinitions_iff, OrderedMap.mem_values_iff]
  constructor
  · rintro ⟨name, found⟩
    have ownName := (coherent.registered name _ found).1
    rw [Option.some.inj ownName]
    exact found
  · intro found
    exact ⟨described.name, found⟩

theorem Coherent.currentStructures_nodup :
    ((catalog.currentTypes.filterMap SemanticType.structure?).map (·.name)).Nodup := by
  have texts : (catalog.currentTypes.map SemanticType.text).Nodup :=
    coherent.listsRegistered.names.nodup_iff.mpr catalog.registrations.nodup
  have ownText : ∀ {type : SemanticType} {described : StructureType},
      type.structure? = some described → type.text = described.name := by
    intro type described found
    cases type with
    | named name => cases found
    | defined definition =>
      cases definition with
      | ofStructure other =>
        cases found
        rfl
      | ofChoice other => cases found
      | optional wrapped => cases found
  apply List.pairwise_map.mpr
  apply List.pairwise_filterMap.mpr
  apply (List.pairwise_map.mp texts).imp
  intro left right differ first foundFirst second foundSecond same
  rw [← ownText foundFirst, ← ownText foundSecond] at same
  exact differ same

end Catalog

/-- The files of a generation are those of the structures that names stand for, one for each. -/
structure Generation.Reflects (settings : LensSettings) (package : String) (catalog : Catalog)
    (generation : Generation) : Prop where
  unreplaced : ∀ fileName name, .replaced fileName name ∉ generation.notices
  one : ∀ name described file, catalog.find? name = some (.ofStructure described) →
    LensFile.build settings package described = .ok file →
      ∃ text, LensFile.generate settings package described = .ok text ∧
        generation.artifacts.filter (·.fileName = settings.fileName name) =
          [⟨settings.fileName name, text⟩]
  only : ∀ artifact ∈ generation.artifacts, ∃ name described,
    catalog.find? name = some (.ofStructure described) ∧
      artifact.fileName = settings.fileName name ∧
        LensFile.generate settings package described = .ok artifact.contents
  none : ∀ name, (∀ described file, catalog.find? name = some (.ofStructure described) →
      LensFile.build settings package described ≠ .ok file) →
    ∀ artifact ∈ generation.artifacts, artifact.fileName ≠ settings.fileName name

theorem Catalog.Coherent.reflects {catalog : Catalog} (coherent : catalog.Coherent)
    {settings : LensSettings} {package : String} {generation : Generation}
    (generated : Generation.ofTypes settings package catalog.currentTypes = .ok generation) :
    generation.Reflects settings package catalog := by
  have covers := Generation.covers_ofTypes coherent.currentStructures_nodup generated
  have only : ∀ artifact ∈ generation.artifacts, ∃ name described,
      catalog.find? name = some (.ofStructure described) ∧
        artifact.fileName = settings.fileName name ∧
          LensFile.generate settings package described = .ok artifact.contents := by
    intro artifact member
    have held := Generation.mem_artifacts_iff.mp member
    obtain ⟨described, current, sameFile, made⟩ := (covers.find?_iff _ _).mp held
    exact ⟨described.name, described, coherent.mem_currentStructures_iff.mp current, sameFile.symm,
      made⟩
  constructor
  · exact covers.unreplaced
  · intro name described file stands built
    have ownName : described.name = name :=
      Option.some.inj (coherent.registered name _ stands).1
    subst ownName
    have made : LensFile.generate settings package described = .ok file.text :=
      LensFile.generate_ok_iff.mpr ⟨file, built, rfl⟩
    have current := coherent.mem_currentStructures_iff.mpr stands
    have held := (covers.find?_iff _ _).mpr ⟨described, current, rfl, made⟩
    exact ⟨file.text, made, Generation.filter_artifacts_of_find? held⟩
  · exact only
  · intro name without artifact member sameFile
    obtain ⟨other, described, stands, otherFile, made⟩ := only artifact member
    have sameName := settings.fileName_inj.mp (sameFile.symm.trans otherFile)
    subst sameName
    obtain ⟨file, built, -⟩ := LensFile.generate_ok_iff.mp made
    exact without described file stands built

/-- Whatever calls have filled a catalog, its files are those of the structures registered now. -/
theorem Generation.reflects_afterCalls (calls : List ExtractionCall) (settings : LensSettings)
    {package : String} (usable : isPlainName package = true) :
    ∃ generation, ofTypes settings package (Catalog.empty.afterCalls calls).currentTypes =
        .ok generation ∧ generation.Reflects settings package (Catalog.empty.afterCalls calls) := by
  have checked : LensFile.checkPackage package = .ok () := by
    simp [LensFile.checkPackage, usable]
  have generated : ∃ generation, ofTypes settings package
      (Catalog.empty.afterCalls calls).currentTypes = .ok generation := by
    unfold ofTypes
    rw [checked]
    exact ⟨_, rfl⟩
  obtain ⟨generation, generated⟩ := generated
  have coherent := Catalog.coherent_empty.afterCalls calls
  exact ⟨generation, generated, coherent.reflects generated⟩

def lampWith (field : String) : Declaration :=
  .composite ⟨.structType, .none, .plain "Lamp", [], none,
    [.letDeclaration .none [⟨.identifier (.plain field) (some (.simple "Int")), none⟩]]⟩

def roomWithLamp : Declaration :=
  .composite ⟨.structType, .none, .plain "Room", [], none,
    [.enumeration ⟨.none, .plain "Lamp", [], none, []⟩]⟩

/-- A name that has two structures and a choice one after the other, the last call being stopped. -/
def lampCalls : List ExtractionCall :=
  [.convert {} ⟨[lampWith "on", lampWith "level"]⟩, .convert {} ⟨[roomWithLamp]⟩,
    .convert ⟨false, true, [.structType]⟩ ⟨[lampWith "on"]⟩]

theorem Generation.reflects_afterCalls_lamp : isPlainName "Shapes" = true ∧
    ∃ generation, ofTypes {} "Shapes" (Catalog.empty.afterCalls lampCalls).currentTypes =
        .ok generation ∧ generation.Reflects {} "Shapes" (Catalog.empty.afterCalls lampCalls) ∧
      generation.artifacts.filter (·.fileName = "RoomMicroscope.swift") =
        [⟨"RoomMicroscope.swift", "import Foundation\nimport Focus\nimport Shapes\n\n" ++
          "public class RoomMicroscope\n\x7b\n\x7d\n"⟩] ∧
      ∀ artifact ∈ generation.artifacts, artifact.fileName ≠ "LampMicroscope.swift" := by
  have usable : isPlainName "Shapes" = true := rfl
  obtain ⟨generation, generated, reflects⟩ := reflects_afterCalls lampCalls {} usable
  have room : (Catalog.empty.afterCalls lampCalls).find? "Room" =
      some (.ofStructure ⟨"Room", []⟩) := rfl
  have lamp : (Catalog.empty.afterCalls lampCalls).find? "Lamp" =
      some (.ofChoice ⟨"Lamp", []⟩) := rfl
  refine ⟨usable, generation, generated, reflects, ?_, ?_⟩
  · obtain ⟨text, made, filed⟩ := reflects.one "Room" _ _ room rfl
    cases made
    exact filed
  · -- the structures of the first call are no longer what the name stands for
    apply reflects.none "Lamp"
    intro described file stands
    rw [lamp] at stands
    cases stands

end SwiftLens
