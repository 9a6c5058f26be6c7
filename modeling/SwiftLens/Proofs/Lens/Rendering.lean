import SwiftLens.Proofs.Extraction.Containers
import SwiftLens.Proofs.Lens.Built

namespace SwiftLens

/-- The parts of a qualified name are those of the container and then those of the member. -/
theorem dotComponents_qualifiedName (container member : String) :
    dotComponents (qualifiedName container member) =
      dotComponents container ++ dotComponents member := by
  have text : (qualifiedName container member).toList =
      container.toList ++ '.' :: member.toList := by
    simp [qualifiedName]
  rw [dotComponents, dotComponents, dotComponents, splitText, splitText, splitText, text,
    splitChars_append_cons, List.map_append]

theorem isTypeName_qualifiedName (container member : String) :
    isTypeName (qualifiedName container member) = true ↔
      isTypeName container = true ∧ isTypeName member = true := by
  rw [isTypeName, dotComponents_qualifiedName, List.all_append, Bool.and_eq_true]
  rfl

theorem isTypeName_iff {name : String} :
    isTypeName name = true ↔
      ∀ part ∈ dotComponents name, isIdentifier part = true ∧ isReserved part = false := by
  simp [isTypeName, isPlainName]

namespace Catalog

/-- A name with one container is qualified by it, under the optional of its annotation too. -/
theorem resolve_of_container {catalog : Catalog} {written : TypeExpr} {word container : String}
    (simple : written.word? = some word)
    (inside : catalog.sources .encapsulates (.named word) = [.named container]) :
    ∃ type, catalog.resolve written = some type ∧
      type.baseName = qualifiedName container word := by
  have resolved : catalog.resolveName word = some (.named (qualifiedName container word)) := by
    rw [resolveName, inside]
  rcases catalog.resolve_of_word simple with same | same
  · rw [same, resolved]
    exact ⟨_, rfl, rfl⟩
  · rw [same, resolved]
    exact ⟨_, rfl, rfl⟩

end Catalog

namespace SemanticType

theorem render_ok_iff {type : SemanticType} :
    (∃ text, type.render = .ok text) ↔ isTypeName type.baseName = true := by
  rw [render_eq]
  split <;> simp_all

/-- What generated code writes for a type is what the type reads, or else the name that cannot be
written. A field that is qualified by its container can be written exactly if the container and its
name each can. -/
theorem render_follows_names (type : SemanticType) :
    ((∀ part ∈ dotComponents type.baseName, isIdentifier part = true ∧ isReserved part = false) →
        type.render = .ok type.text) ∧
      ((∃ part ∈ dotComponents type.baseName, isIdentifier part = false ∨ isReserved part = true) →
        type.render = .error ⟨type.baseName, .propertyType⟩) ∧
      (∀ container member, isTypeName (qualifiedName container member) = true ↔
        isTypeName container = true ∧ isTypeName member = true) ∧
      ∀ (catalog : Catalog) written word container, written.word? = some word →
        catalog.sources .encapsulates (.named word) = [.named container] →
          ∃ field, catalog.resolve written = some field ∧
            ((∃ text, field.render = .ok text) ↔
              (∃ text, (named container).render = .ok text) ∧
                ∃ text, (named word).render = .ok text) := by
  refine ⟨?_, ?_, isTypeName_qualifiedName, ?_⟩
  · intro usable
    rw [render_eq, if_pos (isTypeName_iff.mpr usable)]
  · rintro ⟨part, member, unusable⟩
    have refused : ¬ isTypeName type.baseName = true := by
      intro usable
      obtain ⟨identifier, free⟩ := isTypeName_iff.mp usable part member
      rcases unusable with noIdentifier | reserved
      · simp [identifier] at noIdentifier
      · simp [free] at reserved
    rw [render_eq, if_neg refused]
  · intro catalog written word container simple inside
    obtain ⟨field, resolved, base⟩ := Catalog.resolve_of_container simple inside
    refine ⟨field, resolved, ?_⟩
    rw [render_ok_iff, render_ok_iff, render_ok_iff, base]
    exact isTypeName_qualifiedName container word

/-- A mode inside a lamp, under two optionals and as the annotation of a field, and a name with an
empty and a reserved part. -/
theorem render_follows_names_mode :
    (optional (optional (named "Lamp.Mode"))).render = .ok "Lamp.Mode??" ∧
      (optional (named "Lamp..let")).render = .error ⟨"Lamp..let", .propertyType⟩ ∧
      ∃ field, (Catalog.empty.relate ⟨.encapsulates, named "Lamp", named "Mode"⟩).resolve
          (.optional (.named [⟨.plain "Mode", []⟩])) = some field ∧
        ((∃ text, field.render = .ok text) ↔
          (∃ text, (named "Lamp").render = .ok text) ∧ ∃ text, (named "Mode").render = .ok text) := by
  refine ⟨?_, ?_, ?_⟩
  · exact (render_follows_names (optional (optional (named "Lamp.Mode")))).1 (by decide +kernel)
  · exact (render_follows_names (optional (named "Lamp..let"))).2.1 (by decide +kernel)
  · exact (render_follows_names (named "Mode")).2.2.2 _ _ "Mode" "Lamp" rfl (by decide +kernel)

end SemanticType
end SwiftLens
