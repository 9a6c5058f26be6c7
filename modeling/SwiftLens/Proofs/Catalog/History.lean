import Mathlib.Data.List.Induction
import Mathlib.Data.List.Nodup
import SwiftLens.Catalog.Command
import SwiftLens.Proofs.Extraction.Meaning

namespace SwiftLens

namespace CatalogCommand

def definition? : CatalogCommand → Option TypeDefinition
  | addDefinition definition => some definition
  | _ => none

def relation? : CatalogCommand → Option Relation
  | relate relation => some relation
  | _ => none

def Registers (name : String) : CatalogCommand → Prop
  | register other _ => other = name
  | registerNew other _ => other = name
  | _ => False

/-- After the commands before it, the command gives `name` a definition. A registration of a new
name does so only while the name is free. -/
inductive Writes (before : List CatalogCommand) (name : String) (definition : TypeDefinition) :
    CatalogCommand → Prop
  | register : Writes before name definition (register name definition)
  | registerNew (free : ∀ earlier ∈ before, ¬ earlier.Registers name) :
      Writes before name definition (registerNew name definition)

end CatalogCommand

inductive LastWrite (commands : List CatalogCommand) (name : String) (definition : TypeDefinition) :
    Prop
  | intro {before after : List CatalogCommand} {command : CatalogCommand}
      (split : commands = before ++ command :: after)
      (writes : command.Writes before name definition)
      (unwritten : ∀ middle later rest other, after = middle ++ later :: rest →
        ¬ later.Writes (before ++ command :: middle) name other)

/-- The answer that a command calls for after the commands before it. The conditions of the two
answers to one command exclude each other. -/
inductive Answered (before : List CatalogCommand) : CatalogCommand → CatalogAnswer → Prop
  | newDefinition {definition : TypeDefinition} (isNew : .addDefinition definition ∉ before) :
      Answered before (.addDefinition definition) (.added true)
  | knownDefinition {definition : TypeDefinition} (known : .addDefinition definition ∈ before) :
      Answered before (.addDefinition definition) (.added false)
  | replaced {name : String} {definition : TypeDefinition} {previous : Option TypeDefinition}
      (held : ∀ other, previous = some other ↔ LastWrite before name other) :
      Answered before (.register name definition) (.replaced previous)
  | accepted {name : String} {definition : TypeDefinition}
      (agrees : ∀ current, LastWrite before name current → current = definition) :
      Answered before (.registerNew name definition) .accepted
  | refused {name : String} {definition current : TypeDefinition}
      (held : LastWrite before name current) (differs : current ≠ definition) :
      Answered before (.registerNew name definition) (.refused ⟨name⟩)
  | newRelation {relation : Relation} (isNew : .relate relation ∉ before) :
      Answered before (.relate relation) (.added true)
  | knownRelation {relation : Relation} (known : .relate relation ∈ before) :
      Answered before (.relate relation) (.added false)

theorem mem_definitions_iff {commands : List CatalogCommand} {definition : TypeDefinition} :
    definition ∈ commands.filterMap CatalogCommand.definition? ↔
      .addDefinition definition ∈ commands := by
  rw [List.mem_filterMap]
  constructor
  · rintro ⟨command, member, adds⟩
    cases command <;> simp only [CatalogCommand.definition?, Option.some.injEq, reduceCtorEq] at adds
    exact adds ▸ member
  · intro member
    exact ⟨_, member, rfl⟩

theorem mem_relations_iff {commands : List CatalogCommand} {relation : Relation} :
    relation ∈ commands.filterMap CatalogCommand.relation? ↔ .relate relation ∈ commands := by
  rw [List.mem_filterMap]
  constructor
  · rintro ⟨command, member, states⟩
    cases command <;> simp only [CatalogCommand.relation?, Option.some.injEq, reduceCtorEq] at states
    exact states ▸ member
  · intro member
    exact ⟨_, member, rfl⟩

/-- The last command either writes the name itself or leaves the last write to those before it. -/
theorem lastWrite_concat {before : List CatalogCommand} {command : CatalogCommand} {name : String}
    {definition : TypeDefinition} :
    LastWrite (before ++ [command]) name definition ↔
      command.Writes before name definition ∨
        (∀ other, ¬ command.Writes before name other) ∧ LastWrite before name definition := by
  constructor
  · rintro ⟨split, writes, unwritten⟩
    next front after found =>
    cases after using List.reverseRecOn with
    | nil =>
      obtain ⟨rfl, same⟩ := List.append_inj' split rfl
      obtain rfl := List.singleton_inj.mp same
      exact .inl writes
    | append_singleton middle last =>
      rw [← List.cons_append, ← List.append_assoc] at split
      obtain ⟨rfl, same⟩ := List.append_inj' split rfl
      obtain rfl := List.singleton_inj.mp same
      refine .inr ⟨fun other => unwritten middle command [] other rfl, ⟨rfl, writes, ?_⟩⟩
      rintro earlier later rest other rfl
      exact unwritten earlier later (rest ++ [command]) other (by simp)
  · rintro (writes | ⟨silent, rfl, writes, unwritten⟩)
    · exact ⟨rfl, writes, by simp⟩
    · next front after found =>
      refine ⟨List.append_assoc front (found :: after) [command], writes, ?_⟩
      intro middle later rest other split
      cases rest using List.reverseRecOn with
      | nil =>
        obtain ⟨rfl, same⟩ := List.append_inj' split rfl
        obtain rfl := List.singleton_inj.mp same
        exact silent other
      | append_singleton rest last =>
        rw [← List.cons_append, ← List.append_assoc] at split
        obtain ⟨rfl, -⟩ := List.append_inj' split rfl
        exact unwritten middle later rest other rfl

namespace Catalog

theorem performAll_concat (catalog : Catalog) (before : List CatalogCommand)
    (command : CatalogCommand) :
    catalog.performAll (before ++ [command]) = ((catalog.performAll before).perform command).1 := by
  simp [performAll]

/-- A registration of a new name that is refused changes nothing; every other one registers. -/
theorem perform_registerNew (catalog : Catalog) (name : String) (definition : TypeDefinition) :
    catalog.perform (.registerNew name definition) =
      match catalog.find? name with
      | none => (catalog.register name definition, .accepted)
      | some current =>
        if current = definition then (catalog, .accepted) else (catalog, .refused ⟨name⟩) := by
  simp only [perform, registerNew]
  cases catalog.find? name with
  | none => rfl
  | some current => by_cases same : current = definition <;> simp [same]

/-- What a command adds besides registrations. -/
theorem perform_additions (catalog : Catalog) (command : CatalogCommand) :
    (catalog.perform command).1.definitions =
        catalog.definitions.insertAll command.definition?.toList ∧
      (catalog.perform command).1.relations =
        catalog.relations.insertAll command.relation?.toList := by
  cases command with
  | addDefinition definition => exact ⟨rfl, rfl⟩
  | register name definition => exact ⟨rfl, rfl⟩
  | registerNew name definition =>
    rw [perform_registerNew]
    split
    · exact ⟨rfl, rfl⟩
    · split <;> exact ⟨rfl, rfl⟩
  | relate relation => exact ⟨rfl, rfl⟩

theorem performAll_additions (commands : List CatalogCommand) :
    (empty.performAll commands).definitions =
        OrderedSet.empty.insertAll (commands.filterMap CatalogCommand.definition?) ∧
      (empty.performAll commands).relations =
        OrderedSet.empty.insertAll (commands.filterMap CatalogCommand.relation?) := by
  induction commands using List.reverseRecOn with
  | nil => exact ⟨rfl, rfl⟩
  | append_singleton before command ih =>
    obtain ⟨definitions, relations⟩ := perform_additions (empty.performAll before) command
    rw [performAll_concat, definitions, relations, ih.1, ih.2, List.filterMap_append,
      List.filterMap_append, OrderedSet.insertAll_append, OrderedSet.insertAll_append]
    cases command <;> exact ⟨rfl, rfl⟩

theorem mem_definitions_performAll {commands : List CatalogCommand} {definition : TypeDefinition} :
    definition ∈ (empty.performAll commands).definitions ↔
      .addDefinition definition ∈ commands := by
  rw [(performAll_additions commands).1, OrderedSet.mem_insertAll, mem_definitions_iff]
  exact or_iff_right List.not_mem_nil

theorem mem_relations_performAll {commands : List CatalogCommand} {relation : Relation} :
    relation ∈ (empty.performAll commands).relations ↔ .relate relation ∈ commands := by
  rw [(performAll_additions commands).2, OrderedSet.mem_insertAll, mem_relations_iff]
  exact or_iff_right List.not_mem_nil

@[simp]
theorem find?_addDefinition (catalog : Catalog) (definition : TypeDefinition) (name : String) :
    (catalog.addDefinition definition).find? name = catalog.find? name :=
  rfl

@[simp]
theorem find?_register (catalog : Catalog) (name other : String) (definition : TypeDefinition) :
    (catalog.register name definition).find? other =
      if name = other then some definition else catalog.find? other :=
  OrderedMap.find?_insert catalog.registrations name other definition

/-- A command that asks for a name leaves it with a definition, and no other command does. -/
theorem find?_perform_eq_none_iff {catalog : Catalog} {command : CatalogCommand} {name : String} :
    (catalog.perform command).1.find? name = none ↔
      catalog.find? name = none ∧ ¬ command.Registers name := by
  cases command with
  | addDefinition definition => simp [perform, CatalogCommand.Registers]
  | register other definition =>
    by_cases same : other = name <;> simp [perform, CatalogCommand.Registers, same]
  | registerNew other definition =>
    rw [perform_registerNew]
    by_cases same : other = name
    · subst same
      cases held : catalog.find? other with
      | none => simp [CatalogCommand.Registers]
      | some current => by_cases agrees : current = definition <;> simp [agrees, held]
    · cases held : catalog.find? other with
      | none => simp [CatalogCommand.Registers, same]
      | some current =>
        by_cases agrees : current = definition <;> simp [CatalogCommand.Registers, agrees, same]
  | relate relation => simp [perform, CatalogCommand.Registers]

/-- A name is free until a command asks for it. -/
theorem find?_performAll_eq_none_iff {commands : List CatalogCommand} {name : String} :
    (empty.performAll commands).find? name = none ↔
      ∀ command ∈ commands, ¬ command.Registers name := by
  induction commands using List.reverseRecOn with
  | nil => exact iff_of_true rfl (by simp)
  | append_singleton before command ih =>
    rw [performAll_concat, find?_perform_eq_none_iff, ih]
    simp only [List.mem_append, List.mem_singleton, or_imp, forall_and, forall_eq]

section Step

variable {before : List CatalogCommand} {command : CatalogCommand} {name : String}

theorem find?_of_writes {definition : TypeDefinition}
    (writes : command.Writes before name definition) :
    (empty.performAll (before ++ [command])).find? name = some definition := by
  rw [performAll_concat]
  cases writes with
  | register => simp [perform]
  | registerNew free =>
    rw [perform_registerNew, find?_performAll_eq_none_iff.mpr free]
    simp

theorem find?_of_silent (silent : ∀ other, ¬ command.Writes before name other) :
    (empty.performAll (before ++ [command])).find? name =
      (empty.performAll before).find? name := by
  rw [performAll_concat]
  cases command with
  | addDefinition definition => rfl
  | register other definition =>
    have differs : other ≠ name := by
      rintro rfl
      exact silent definition .register
    simp [perform, differs]
  | registerNew other definition =>
    rw [perform_registerNew]
    cases held : (empty.performAll before).find? other with
    | none =>
      have differs : other ≠ name := by
        rintro rfl
        exact silent definition (.registerNew (find?_performAll_eq_none_iff.mp held))
      simp [differs]
    | some current => by_cases agrees : current = definition <;> simp [agrees]
  | relate relation => rfl

end Step

/-- The last command that wrote a name decides what it stands for. -/
theorem find?_performAll_iff {commands : List CatalogCommand} {name : String}
    {definition : TypeDefinition} :
    (empty.performAll commands).find? name = some definition ↔
      LastWrite commands name definition := by
  induction commands using List.reverseRecOn with
  | nil =>
    refine iff_of_false (by simp [performAll, empty, find?, OrderedMap.find?, OrderedMap.empty,
      Entries.find?]) ?_
    rintro ⟨split, -, -⟩
    simp at split
  | append_singleton before command ih =>
    rw [lastWrite_concat]
    by_cases written : ∃ other, command.Writes before name other
    · obtain ⟨other, writes⟩ := written
      rw [find?_of_writes writes, Option.some.injEq]
      constructor
      · rintro rfl
        exact .inl writes
      · rintro (again | ⟨silent, -⟩)
        · have same := (find?_of_writes writes).symm.trans (find?_of_writes again)
          exact Option.some.inj same
        · exact absurd writes (silent other)
    · rw [not_exists] at written
      rw [find?_of_silent written, ih]
      constructor
      · exact fun earlier => .inr ⟨written, earlier⟩
      · rintro (writes | ⟨-, earlier⟩)
        · exact absurd writes (written definition)
        · exact earlier

def answerAfter (before : List CatalogCommand) (command : CatalogCommand) : CatalogAnswer :=
  ((empty.performAll before).perform command).2

theorem answered_answerAfter (before : List CatalogCommand) (command : CatalogCommand) :
    Answered before command (answerAfter before command) := by
  unfold answerAfter
  cases command with
  | addDefinition definition =>
    by_cases known : definition ∈ (empty.performAll before).definitions
    · simpa [perform, known] using .knownDefinition (mem_definitions_performAll.mp known)
    · simpa [perform, known] using .newDefinition (mt mem_definitions_performAll.mpr known)
  | register name definition => exact .replaced fun other => find?_performAll_iff
  | registerNew name definition =>
    rw [perform_registerNew]
    cases held : (empty.performAll before).find? name with
    | none =>
      refine .accepted fun current last => ?_
      rw [find?_performAll_iff.mpr last] at held
      cases held
    | some current =>
      have last := find?_performAll_iff.mp held
      by_cases agrees : current = definition
      · subst agrees
        simp only [if_true]
        refine .accepted fun other lastOther => ?_
        exact Option.some.inj ((find?_performAll_iff.mpr lastOther).symm.trans held)
      · simpa [agrees] using .refused last agrees
  | relate relation =>
    by_cases known : relation ∈ (empty.performAll before).relations
    · simpa [perform, known] using .knownRelation (mem_relations_performAll.mp known)
    · simpa [perform, known] using .newRelation (mt mem_relations_performAll.mpr known)

theorem performAll_of_refused {before : List CatalogCommand} {command : CatalogCommand}
    {conflict : NameConflict} (refused : answerAfter before command = .refused conflict) :
    empty.performAll (before ++ [command]) = empty.performAll before := by
  rw [performAll_concat]
  unfold answerAfter at refused
  cases command with
  | addDefinition definition => cases refused
  | register name definition => cases refused
  | registerNew name definition =>
    rw [perform_registerNew] at refused ⊢
    cases held : (empty.performAll before).find? name with
    | none =>
      rw [held] at refused
      cases refused
    | some current => by_cases agrees : current = definition <;> simp [agrees]
  | relate relation => cases refused

theorem mem_targets_iff {catalog : Catalog} {kind : Relation.Kind} {left right : SemanticType} :
    right ∈ catalog.targets kind left ↔ ⟨kind, left, right⟩ ∈ catalog.relations := by
  simp only [targets, List.mem_map, List.mem_filter, Bool.and_eq_true, decide_eq_true_eq]
  constructor
  · rintro ⟨relation, ⟨listed, rfl, rfl⟩, rfl⟩
    exact listed
  · intro listed
    exact ⟨⟨kind, left, right⟩, ⟨listed, rfl, rfl⟩, rfl⟩

theorem targets_nodup (catalog : Catalog) (kind : Relation.Kind) (left : SemanticType) :
    (catalog.targets kind left).Nodup := by
  apply List.Nodup.map_on _ (catalog.relations.nodup.filter _)
  rintro ⟨kind, left, right⟩ first ⟨otherKind, otherLeft, otherRight⟩ second same
  simp only [List.mem_filter, Bool.and_eq_true, decide_eq_true_eq] at first second
  obtain ⟨-, rfl, rfl⟩ := first
  obtain ⟨-, rfl, rfl⟩ := second
  simpa using same

/-- A catalog is what its commands say: it holds what they added, each command is answered by what
was said before it, and its queries find the stated relations from both sides, in whatever order
they were stated. -/
structure FollowsHistory (commands : List CatalogCommand) : Prop where
  definitions : (empty.performAll commands).definitions.toList =
    (commands.filterMap CatalogCommand.definition?).eraseDups
  registered : ∀ name definition, (empty.performAll commands).find? name = some definition ↔
    LastWrite commands name definition
  free : ∀ name, (empty.performAll commands).find? name = none ↔
    ∀ command ∈ commands, ¬ command.Registers name
  related : ∀ relation, relation ∈ (empty.performAll commands).relations ↔
    .relate relation ∈ commands
  answered : ∀ before command after, commands = before ++ command :: after →
    Answered before command (answerAfter before command)
  refused : ∀ before command after conflict, commands = before ++ command :: after →
    answerAfter before command = .refused conflict →
      empty.performAll (before ++ [command]) = empty.performAll before
  distinctSources : ∀ kind right, ((empty.performAll commands).sources kind right).Nodup
  distinctTargets : ∀ kind left, ((empty.performAll commands).targets kind left).Nodup
  sources : ∀ kind left right, left ∈ (empty.performAll commands).sources kind right ↔
    ⟨kind, left, right⟩ ∈ (empty.performAll commands).relations
  targets : ∀ kind left right, right ∈ (empty.performAll commands).targets kind left ↔
    ⟨kind, left, right⟩ ∈ (empty.performAll commands).relations
  converse : ∀ kind left right, left ∈ (empty.performAll commands).sources kind right ↔
    right ∈ (empty.performAll commands).targets kind left
  reordered : ∀ others : List CatalogCommand,
    (others.filterMap CatalogCommand.relation?).Perm
      (commands.filterMap CatalogCommand.relation?) → ∀ kind type,
      ((empty.performAll others).sources kind type).Perm
          ((empty.performAll commands).sources kind type) ∧
        ((empty.performAll others).targets kind type).Perm
          ((empty.performAll commands).targets kind type)

/-- Queries tell which relations are stated, not in which order. -/
theorem queries_perm {left right : Catalog}
    (same : ∀ relation, relation ∈ left.relations ↔ relation ∈ right.relations)
    (kind : Relation.Kind) (type : SemanticType) :
    (left.sources kind type).Perm (right.sources kind type) ∧
      (left.targets kind type).Perm (right.targets kind type) := by
  constructor
  · apply (List.perm_ext_iff_of_nodup (left.sources_nodup kind type)
      (right.sources_nodup kind type)).mpr
    intro source
    rw [mem_sources_iff, mem_sources_iff, same]
  · apply (List.perm_ext_iff_of_nodup (left.targets_nodup kind type)
      (right.targets_nodup kind type)).mpr
    intro target
    rw [mem_targets_iff, mem_targets_iff, same]

theorem performAll_followsHistory (commands : List CatalogCommand) : FollowsHistory commands where
  definitions := by
    rw [(performAll_additions commands).1]
    exact OrderedSet.toList_foldl_insert _
  registered name definition := find?_performAll_iff
  free name := find?_performAll_eq_none_iff
  related relation := mem_relations_performAll
  answered before command after split := answered_answerAfter before command
  refused before command after conflict split refused := performAll_of_refused refused
  distinctSources := sources_nodup _
  distinctTargets := targets_nodup _
  sources kind left right := mem_sources_iff
  targets kind left right := mem_targets_iff
  converse kind left right := mem_sources_iff.trans mem_targets_iff.symm
  reordered others permuted kind type := by
    apply queries_perm
    intro relation
    rw [mem_relations_performAll, mem_relations_performAll, ← mem_relations_iff,
      ← mem_relations_iff, permuted.mem_iff]

end Catalog
end SwiftLens
