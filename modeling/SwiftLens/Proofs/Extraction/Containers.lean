import SwiftLens.Proofs.Extraction.Journal

namespace SwiftLens
namespace Catalog

def relateAll (catalog : Catalog) (relations : List Relation) : Catalog :=
  relations.foldl relate catalog

theorem relations_relateAll (catalog : Catalog) (relations : List Relation) :
    (catalog.relateAll relations).relations = catalog.relations.insertAll relations := by
  induction relations generalizing catalog with
  | nil => rfl
  | cons relation rest ih => exact ih (catalog.relate relation)

theorem mem_relations_relateAll {catalog : Catalog} {relations : List Relation}
    {relation : Relation} :
    relation ∈ (catalog.relateAll relations).relations ↔
      relation ∈ catalog.relations ∨ relation ∈ relations := by
  rw [relations_relateAll, OrderedSet.mem_insertAll]

def ContainerAfter (catalog : Catalog) (relations : List Relation) (word : String)
    (container : SemanticType) : Prop :=
  ⟨.encapsulates, container, .named word⟩ ∈ catalog.relations ∨
    ⟨.encapsulates, container, .named word⟩ ∈ relations

theorem resolveName_of_disputed {catalog : Catalog} {word : String} {first second : SemanticType}
    (holdsFirst : ⟨.encapsulates, first, .named word⟩ ∈ catalog.relations)
    (holdsSecond : ⟨.encapsulates, second, .named word⟩ ∈ catalog.relations)
    (differ : second ≠ first) : catalog.resolveName word = none := by
  rw [Option.eq_none_iff_forall_not_mem]
  intro type resolved
  cases resolveName_iff.mp resolved with
  | outermost none => exact none first holdsFirst
  | inside only =>
    have same := (only first).mp holdsFirst
    rw [← (only second).mp holdsSecond] at same
    exact differ same.symm

/-- The name in an annotation decides, but for the optional around it. -/
theorem resolve_of_word (catalog : Catalog) {written : TypeExpr} {word : String}
    (simple : written.word? = some word) :
    catalog.resolve written = catalog.resolveName word ∨
      catalog.resolve written = (catalog.resolveName word).map SemanticType.optional := by
  unfold TypeExpr.word? at simple
  split at simple
  · exact .inl (by rw [resolve, simple, Option.bind_some])
  · exact .inr (by rw [resolve, simple, Option.bind_some])
  · cases simple

/-- An annotation means what the containers of its name make of it. -/
structure FollowsContainers (catalog : Catalog) (relations : List Relation) (written : TypeExpr) :
    Prop where
  resolved : ∀ type, (catalog.relateAll relations).resolve written = some type ↔
    written.Means (catalog.ContainerAfter relations) type
  reordered : ∀ others : List Relation, (∀ relation, relation ∈ others ↔ relation ∈ relations) →
    (catalog.relateAll others).resolve written = (catalog.relateAll relations).resolve written
  unaffected : ∀ front relation back, relations = front ++ back →
    (∀ word, written.word? = some word →
      ¬ (relation.kind = .encapsulates ∧ relation.right = .named word)) →
    (catalog.relateAll (front ++ relation :: back)).resolve written =
      (catalog.relateAll relations).resolve written
  disputed : ∀ word first second later, written.word? = some word →
    catalog.ContainerAfter relations word first → second ≠ first →
    (catalog.relateAll
      (relations ++ ⟨.encapsulates, second, .named word⟩ :: later)).resolve written = none

theorem resolve_follows_containers (catalog : Catalog) (relations : List Relation)
    (written : TypeExpr) : FollowsContainers catalog relations written where
  resolved type := by
    rw [resolve_iff]
    simp only [mem_relations_relateAll]
    rfl
  reordered others same := by
    apply resolve_congr
    intro word _ container
    rw [mem_relations_relateAll, mem_relations_relateAll, same]
  unaffected front relation back split other := by
    subst split
    apply resolve_congr
    intro word simple container
    have differs : (⟨.encapsulates, container, .named word⟩ : Relation) ≠ relation := by
      rintro rfl
      exact other word simple ⟨rfl, rfl⟩
    simp [mem_relations_relateAll, differs]
  disputed word first second later simple holds differ := by
    have holdsFirst : ⟨.encapsulates, first, .named word⟩ ∈ (catalog.relateAll
        (relations ++ ⟨.encapsulates, second, .named word⟩ :: later)).relations := by
      rw [mem_relations_relateAll, List.mem_append]
      exact holds.imp_right .inl
    have holdsSecond : ⟨.encapsulates, second, .named word⟩ ∈ (catalog.relateAll
        (relations ++ ⟨.encapsulates, second, .named word⟩ :: later)).relations := by
      rw [mem_relations_relateAll]
      exact .inr (by simp)
    have unresolved := resolveName_of_disputed holdsFirst holdsSecond differ
    rcases resolve_of_word _ simple with same | same
    · rw [same, unresolved]
    · rw [same, unresolved, Option.map_none]

end Catalog
end SwiftLens
