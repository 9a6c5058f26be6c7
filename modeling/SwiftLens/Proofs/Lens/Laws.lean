import Mathlib.Data.List.Nodup
import SwiftLens.Proofs.Lens.Built

namespace SwiftLens

def Structure.propertyNames {τ : Type} (described : Structure τ) : List String :=
  described.properties.map (·.name)

namespace Record

variable {α : Type}

def labels (record : Record α) : List String :=
  record.fields.map Prod.fst

structure Fits (record : Record α) (described : StructureType) : Prop where
  typeName : record.typeName = described.name
  labels : record.labels = described.propertyNames

def passedOn (record : Record α) (focus : String) (value : α) (name : String) : Option α :=
  if name = focus then some value else record.field? name

theorem passedOn_focus (record : Record α) (focus : String) (value : α) :
    record.passedOn focus value focus = some value := by
  simp [passedOn]

theorem passedOn_other (record : Record α) {focus name : String} (value : α)
    (differs : name ≠ focus) : record.passedOn focus value name = record.field? name := by
  simp [passedOn, differs]

theorem exists_field_of_mem_labels {record : Record α} {name : String}
    (listed : name ∈ record.labels) : ∃ value, record.field? name = some value := by
  obtain ⟨field, member, sameName⟩ := List.mem_map.mp listed
  have found : (record.fields.find? (·.1 == name)).isSome := by
    rw [List.find?_isSome]
    exact ⟨field, member, by simp [sameName]⟩
  obtain ⟨first, isFirst⟩ := Option.isSome_iff_exists.mp found
  exact ⟨first.2, by simp [field?, isFirst]⟩

theorem mem_fields_of_field? {record : Record α} {name : String} {value : α}
    (found : record.field? name = some value) : (name, value) ∈ record.fields := by
  obtain ⟨field, isFirst, rfl⟩ := Option.map_eq_some_iff.mp found
  have sameName : field.1 = name := by simpa using List.find?_some isFirst
  have member := List.mem_of_find?_eq_some isFirst
  rw [← sameName]
  exact member

/-- If the values of a record are given by its names, so are those that are read from it. -/
theorem field?_of_values {record : Record α} {values : String → Option α}
    (given : ∀ field ∈ record.fields, values field.1 = some field.2) {name : String}
    (listed : name ∈ record.labels) : record.field? name = values name := by
  obtain ⟨value, found⟩ := exists_field_of_mem_labels listed
  rw [found, given (name, value) (mem_fields_of_field? found)]

theorem field?_of_nodup {record : Record α} (apart : record.labels.Nodup) {field : String × α}
    (member : field ∈ record.fields) : record.field? field.1 = some field.2 := by
  have listed : field.1 ∈ record.labels := List.mem_map_of_mem member
  obtain ⟨value, found⟩ := exists_field_of_mem_labels listed
  have other := mem_fields_of_field? found
  have same : field = (field.1, value) := List.inj_on_of_nodup_map apart member other rfl
  rw [found, congrArg Prod.snd same]

end Record

structure PropertyLens.Rebuilds (lens : PropertyLens) (described : StructureType) : Prop where
  structureName : lens.structureName = described.name
  arguments : lens.arguments = LensFile.setterArguments described.properties lens.property
  property : lens.property ∈ described.propertyNames

namespace LensFile

section Built

variable {settings : LensSettings} {package : String} {described : StructureType} {file : LensFile}
  (built : build settings package described = .ok file)

include built

theorem foci_of_build : file.lenses.map (·.property) = described.propertyNames := by
  obtain ⟨-, -, rfl⟩ := build_ok_iff.mp built
  simp [fileFor, lensFor, Structure.propertyNames]

theorem rebuilds_of_build {lens : PropertyLens} (member : lens ∈ file.lenses) :
    lens.Rebuilds described := by
  have focus : lens.property ∈ described.propertyNames := by
    rw [← foci_of_build built]
    exact List.mem_map_of_mem member
  obtain ⟨-, -, rfl⟩ := build_ok_iff.mp built
  obtain ⟨property, -, rfl⟩ := List.mem_map.mp member
  exact ⟨rfl, rfl, focus⟩

end Built
end LensFile

namespace PropertyLens

variable {α : Type} {described : StructureType} {lens first second : PropertyLens}

theorem fieldFrom_argument (record : Record α) (focus : String) (value : α) (name : String) :
    LensArgument.fieldFrom record value ⟨name, if name = focus then .newValue else .existing⟩ =
      (record.passedOn focus value name).map fun held => (name, held) := by
  by_cases focused : name = focus
  · simp [LensArgument.fieldFrom, Record.passedOn, focused]
  · simp [LensArgument.fieldFrom, Record.passedOn, focused]

theorem mapM_setterArguments (record : Record α) (focus : String) (value : α)
    (properties : List (Property SemanticType)) :
    (LensFile.setterArguments properties focus).mapM (LensArgument.fieldFrom record value) =
      (properties.map (·.name)).mapM fun name =>
        (record.passedOn focus value name).map fun held => (name, held) := by
  unfold LensFile.setterArguments
  rw [List.mapM_map, List.mapM_map]
  congr 1
  funext property
  exact fieldFrom_argument record focus value property.name

theorem mapM_labelled_eq_some_iff {values : String → Option α} {names : List String}
    {fields : List (String × α)} :
    (names.mapM fun name => (values name).map fun held => (name, held)) = some fields ↔
      fields.map Prod.fst = names ∧ ∀ field ∈ fields, values field.1 = some field.2 := by
  induction names generalizing fields with
  | nil => cases fields <;> simp
  | cons name rest ih =>
    have peeled : ((name :: rest).mapM fun name => (values name).map fun held => (name, held)) =
          some fields ↔
        ∃ held more, values name = some held ∧
          (rest.mapM fun name => (values name).map fun held => (name, held)) = some more ∧
            (name, held) :: more = fields := by
      simp [List.mapM_cons, Option.bind_eq_some_iff]
    rw [peeled]
    constructor
    · rintro ⟨held, more, given, made, rfl⟩
      obtain ⟨labelled, all⟩ := ih.mp made
      constructor
      · rw [List.map_cons, labelled]
      · intro field member
        rcases List.mem_cons.mp member with rfl | member
        · exact given
        · exact all field member
    · rintro ⟨labelled, all⟩
      cases fields with
      | nil => cases labelled
      | cons field later =>
        obtain ⟨rfl, labelledLater⟩ := List.cons.inj labelled
        have made := ih.mpr ⟨labelledLater, fun other member =>
          all other (List.mem_cons_of_mem _ member)⟩
        exact ⟨field.2, later, all field List.mem_cons_self, made, rfl⟩

theorem exists_mapM_labelled {values : String → Option α} {names : List String}
    (given : ∀ name ∈ names, ∃ held, values name = some held) :
    ∃ fields, (names.mapM fun name => (values name).map fun held => (name, held)) = some fields := by
  induction names with
  | nil => exact ⟨[], rfl⟩
  | cons name rest ih =>
    obtain ⟨held, here⟩ := given name List.mem_cons_self
    obtain ⟨more, made⟩ := ih fun other member => given other (List.mem_cons_of_mem _ member)
    exact ⟨(name, held) :: more, by simp [List.mapM_cons, here, made]⟩

theorem mapM_labelled_congr {values others : String → Option α} {names : List String}
    (agree : ∀ name ∈ names, values name = others name) :
    (names.mapM fun name => (values name).map fun held => (name, held)) =
      names.mapM fun name => (others name).map fun held => (name, held) := by
  induction names with
  | nil => rfl
  | cons name rest ih =>
    have later := ih fun other member => agree other (List.mem_cons_of_mem _ member)
    rw [List.mapM_cons, List.mapM_cons, agree name List.mem_cons_self, later]

section Rebuilds

variable (rebuilds : lens.Rebuilds described)

include rebuilds

theorem set_eq (record : Record α) (value : α) :
    lens.set record value =
      if record.typeName = described.name then
        (described.propertyNames.mapM fun name =>
          (record.passedOn lens.property value name).map fun held => (name, held)).map
            fun fields => ⟨described.name, fields⟩
      else none := by
  unfold set
  rw [rebuilds.structureName, rebuilds.arguments, mapM_setterArguments]
  rfl

theorem set_eq_some_iff {record updated : Record α} {value : α} :
    lens.set record value = some updated ↔
      record.typeName = described.name ∧ updated.Fits described ∧
        ∀ field ∈ updated.fields,
          record.passedOn lens.property value field.1 = some field.2 := by
  rw [set_eq rebuilds]
  by_cases sameType : record.typeName = described.name
  · rw [if_pos sameType, Option.map_eq_some_iff]
    constructor
    · rintro ⟨fields, made, rfl⟩
      obtain ⟨labelled, passed⟩ := mapM_labelled_eq_some_iff.mp made
      exact ⟨sameType, ⟨rfl, labelled⟩, passed⟩
    · rintro ⟨-, fits, passed⟩
      have made := mapM_labelled_eq_some_iff.mpr ⟨fits.labels, passed⟩
      exact ⟨updated.fields, made, by rw [← fits.typeName]⟩
  · rw [if_neg sameType]
    constructor
    · intro impossible
      cases impossible
    · rintro ⟨found, -⟩
      exact absurd found sameType

/-- What is read from a record that a setter made. -/
theorem field?_of_set {record updated : Record α} {value : α}
    (made : lens.set record value = some updated) {name : String}
    (declared : name ∈ described.propertyNames) :
    updated.field? name = record.passedOn lens.property value name := by
  obtain ⟨-, fits, passed⟩ := (set_eq_some_iff rebuilds).mp made
  have listed : name ∈ updated.labels := by
    rw [fits.labels]
    exact declared
  exact Record.field?_of_values passed listed

theorem get_set {record updated : Record α} {value : α}
    (made : lens.set record value = some updated) : lens.get updated = some value := by
  obtain ⟨-, fits, -⟩ := (set_eq_some_iff rebuilds).mp made
  unfold get
  rw [rebuilds.structureName, if_pos fits.typeName, field?_of_set rebuilds made rebuilds.property,
    Record.passedOn_focus]

theorem field?_set_other {record updated : Record α} {value : α}
    (made : lens.set record value = some updated) {name : String}
    (declared : name ∈ described.propertyNames) (differs : name ≠ lens.property) :
    ∃ held, record.field? name = some held ∧ updated.field? name = some held := by
  obtain ⟨-, fits, -⟩ := (set_eq_some_iff rebuilds).mp made
  have same := field?_of_set rebuilds made declared
  rw [Record.passedOn_other record value differs] at same
  obtain ⟨held, found⟩ : ∃ held, updated.field? name = some held := by
    apply Record.exists_field_of_mem_labels
    rw [fits.labels]
    exact declared
  exact ⟨held, same.symm.trans found, found⟩

theorem set_set {record updated : Record α} {value : α}
    (made : lens.set record value = some updated) (other : α) :
    lens.set updated other = lens.set record other := by
  obtain ⟨sameType, fits, -⟩ := (set_eq_some_iff rebuilds).mp made
  have agree : ∀ name ∈ described.propertyNames,
      updated.passedOn lens.property other name = record.passedOn lens.property other name := by
    intro name declared
    by_cases focused : name = lens.property
    · rw [focused, Record.passedOn_focus, Record.passedOn_focus]
    · rw [Record.passedOn_other updated other focused, Record.passedOn_other record other focused,
        field?_of_set rebuilds made declared, Record.passedOn_other record value focused]
  rw [set_eq rebuilds, set_eq rebuilds, if_pos fits.typeName, if_pos sameType,
    mapM_labelled_congr agree]

theorem exists_set {record : Record α} (fits : record.Fits described) (value : α) :
    ∃ updated, lens.set record value = some updated := by
  have given : ∀ name ∈ described.propertyNames,
      ∃ held, record.passedOn lens.property value name = some held := by
    intro name declared
    by_cases focused : name = lens.property
    · exact ⟨value, focused ▸ Record.passedOn_focus record lens.property value⟩
    · rw [Record.passedOn_other record value focused]
      apply Record.exists_field_of_mem_labels
      rw [fits.labels]
      exact declared
  obtain ⟨fields, made⟩ := exists_mapM_labelled given
  exact ⟨⟨described.name, fields⟩, by rw [set_eq rebuilds, if_pos fits.typeName, made]; rfl⟩

theorem exists_get {record : Record α} (fits : record.Fits described) :
    ∃ value, lens.get record = some value ∧ record.field? lens.property = some value := by
  have listed : lens.property ∈ record.labels := by
    rw [fits.labels]
    exact rebuilds.property
  obtain ⟨value, found⟩ := Record.exists_field_of_mem_labels listed
  unfold get
  rw [rebuilds.structureName, if_pos fits.typeName]
  exact ⟨value, found, found⟩

/-- With distinct names every field is the first of its name. -/
theorem set_get_of_nodup (apart : described.propertyNames.Nodup) {record : Record α}
    (fits : record.Fits described) : (lens.get record).bind (lens.set record) = some record := by
  obtain ⟨value, got, found⟩ := exists_get rebuilds fits
  rw [got]
  apply (set_eq_some_iff rebuilds).mpr
  have labelsApart : record.labels.Nodup := by
    rw [fits.labels]
    exact apart
  have held : ∀ field ∈ record.fields,
      record.passedOn lens.property value field.1 = some field.2 := by
    intro field member
    have first := Record.field?_of_nodup labelsApart member
    by_cases focused : field.1 = lens.property
    · rw [focused, Record.passedOn_focus, ← found, ← focused, first]
    · rw [Record.passedOn_other record value focused, first]
  exact ⟨fits.typeName, fits, held⟩

/-- Where a record can be put back, the fields in focus hold one value. -/
theorem eq_of_set_get {record : Record α}
    (kept : (lens.get record).bind (lens.set record) = some record) {left right : α}
    (leftHeld : (lens.property, left) ∈ record.fields)
    (rightHeld : (lens.property, right) ∈ record.fields) : left = right := by
  obtain ⟨value, -, made⟩ := Option.bind_eq_some_iff.mp kept
  obtain ⟨-, -, passed⟩ := (set_eq_some_iff rebuilds).mp made
  have leftValue := passed _ leftHeld
  have rightValue := passed _ rightHeld
  rw [Record.passedOn_focus] at leftValue rightValue
  exact Option.some.inj (leftValue.symm.trans rightValue)

end Rebuilds

theorem set_comm (firstRebuilds : first.Rebuilds described)
    (secondRebuilds : second.Rebuilds described) (differ : first.property ≠ second.property)
    {record : Record α} (fits : record.Fits described) (value other : α) :
    ∃ updated, (first.set record value).bind (second.set · other) = some updated ∧
      (second.set record other).bind (first.set · value) = some updated := by
  obtain ⟨left, leftMade⟩ := exists_set firstRebuilds fits value
  obtain ⟨right, rightMade⟩ := exists_set secondRebuilds fits other
  obtain ⟨-, leftFits, -⟩ := (set_eq_some_iff firstRebuilds).mp leftMade
  obtain ⟨-, rightFits, -⟩ := (set_eq_some_iff secondRebuilds).mp rightMade
  have agree : ∀ name ∈ described.propertyNames,
      left.passedOn second.property other name = right.passedOn first.property value name := by
    intro name declared
    by_cases isFirst : name = first.property
    · have notSecond : name ≠ second.property := isFirst ▸ differ
      rw [Record.passedOn_other left other notSecond, field?_of_set firstRebuilds leftMade declared,
        isFirst, Record.passedOn_focus, Record.passedOn_focus]
    · rw [Record.passedOn_other right value isFirst, field?_of_set secondRebuilds rightMade declared]
      by_cases isSecond : name = second.property
      · rw [isSecond, Record.passedOn_focus, Record.passedOn_focus]
      · rw [Record.passedOn_other left other isSecond, Record.passedOn_other record other isSecond,
          field?_of_set firstRebuilds leftMade declared, Record.passedOn_other record value isFirst]
  have same : second.set left other = first.set right value := by
    rw [set_eq secondRebuilds, set_eq firstRebuilds, if_pos leftFits.typeName,
      if_pos rightFits.typeName, mapM_labelled_congr agree]
  obtain ⟨updated, made⟩ := exists_set secondRebuilds leftFits other
  rw [leftMade, rightMade, Option.bind_some, Option.bind_some, ← same]
  exact ⟨updated, made, made⟩

end PropertyLens

namespace Record

variable {α : Type}

def markedAt (described : StructureType) (place : Nat) (mark plain : α) : Record α :=
  ⟨described.name, described.propertyNames.mapIdx fun index name =>
    (name, if index = place then mark else plain)⟩

theorem markedAt_fits (described : StructureType) (place : Nat) (mark plain : α) :
    (markedAt described place mark plain).Fits described := by
  constructor
  · rfl
  · apply List.ext_getElem
    · simp [labels, markedAt]
    · intro index left right
      simp [labels, markedAt]

theorem mem_fields_markedAt {described : StructureType} {index : Nat} {name : String}
    (declared : described.propertyNames[index]? = some name) (place : Nat) (mark plain : α) :
    (name, if index = place then mark else plain) ∈
      (markedAt described place mark plain).fields := by
  apply List.mem_of_getElem? (i := index)
  simp [markedAt, declared]

end Record

namespace LensFile

variable {settings : LensSettings} {package : String} {described : StructureType} {file : LensFile}

/-- A repeated name would leave two fields with one value, whatever they held. -/
theorem propertyNames_nodup_of_set_get (built : build settings package described = .ok file)
    {α : Type} {left right : α} (differ : left ≠ right)
    (kept : ∀ lens ∈ file.lenses, ∀ record : Record α, record.Fits described →
      (lens.get record).bind (lens.set record) = some record) :
    described.propertyNames.Nodup := by
  rw [List.nodup_iff_getElem?_ne_getElem?]
  intro index place before within same
  have declared : described.propertyNames[place]? = some described.propertyNames[place] :=
    List.getElem?_eq_getElem within
  have focus : described.propertyNames[place] ∈ file.lenses.map (·.property) := by
    rw [foci_of_build built]
    exact List.getElem_mem within
  obtain ⟨lens, member, sameName⟩ := List.mem_map.mp focus
  have marked := Record.mem_fields_markedAt declared place right left
  have plain := Record.mem_fields_markedAt (same.trans declared) place right left
  rw [if_pos rfl, ← sameName] at marked
  rw [if_neg (Nat.ne_of_lt before), ← sameName] at plain
  have restored := kept lens member _ (Record.markedAt_fits described place right left)
  exact differ (PropertyLens.eq_of_set_get (rebuilds_of_build built member) restored plain marked)

/-- What the record that a setter made has to do with the one that it was made from. -/
structure Updates (described : StructureType) (lens : PropertyLens) {α : Type}
    (record : Record α) (value : α) (updated : Record α) : Prop where
  fits : updated.Fits described
  get : lens.get updated = some value
  set : ∀ other, lens.set updated other = lens.set record other
  field : ∀ name ∈ described.propertyNames, name ≠ lens.property →
    ∃ held, record.field? name = some held ∧ updated.field? name = some held

/-- The lenses of a built file obey the laws of lenses. Only to put back what was read needs
distinct property names, and it needs them wherever there are two values to tell apart. -/
theorem lens_laws_of_build (built : build settings package described = .ok file) (α : Type) :
    (∀ lens ∈ file.lenses, ∀ (record updated : Record α) (value : α),
      lens.set record value = some updated → Updates described lens record value updated) ∧
    (∀ record : Record α, record.Fits described →
      (∀ lens ∈ file.lenses, ∀ value, ∃ updated, lens.set record value = some updated) ∧
      ∀ first ∈ file.lenses, ∀ second ∈ file.lenses, first.property ≠ second.property →
        ∀ value other, ∃ updated,
          (first.set record value).bind (second.set · other) = some updated ∧
            (second.set record other).bind (first.set · value) = some updated) ∧
    ((∃ left right : α, left ≠ right) →
      ((∀ lens ∈ file.lenses, ∀ record : Record α, record.Fits described →
          (lens.get record).bind (lens.set record) = some record) ↔
        described.propertyNames.Nodup)) := by
  constructor
  · intro lens member record updated value made
    have rebuilds := rebuilds_of_build built member
    obtain ⟨-, fits, -⟩ := (PropertyLens.set_eq_some_iff rebuilds).mp made
    exact ⟨fits, PropertyLens.get_set rebuilds made, PropertyLens.set_set rebuilds made,
      fun name declared differs => PropertyLens.field?_set_other rebuilds made declared differs⟩
  constructor
  · intro record fits
    constructor
    · intro lens member value
      exact PropertyLens.exists_set (rebuilds_of_build built member) fits value
    · intro first firstMember second secondMember differ value other
      exact PropertyLens.set_comm (rebuilds_of_build built firstMember)
        (rebuilds_of_build built secondMember) differ fits value other
  · rintro ⟨left, right, differ⟩
    constructor
    · intro kept
      exact propertyNames_nodup_of_set_get built differ kept
    · intro apart lens member record fits
      exact PropertyLens.set_get_of_nodup (rebuilds_of_build built member) apart fits

/-- A structure that declares a name twice, as the branches of a condition can. -/
def twiceNamed : StructureType :=
  ⟨"Pair", [⟨"left", .named "Int"⟩, ⟨"right", .optional (.named "Int")⟩, ⟨"left", .named "Text"⟩]⟩

def twiceNamedFile : LensFile where
  imports := ["Foundation", "Focus", "Shapes"]
  accessLevel := "public"
  className := "PairMicroscope"
  lenses :=
    [⟨"SimpleLens", "Pair", "left", "Int", setterArguments twiceNamed.properties "left"⟩,
     ⟨"SimpleLens", "Pair", "right", "Int?", setterArguments twiceNamed.properties "right"⟩,
     ⟨"SimpleLens", "Pair", "left", "Text", setterArguments twiceNamed.properties "left"⟩]

/-- It has lenses, and some record cannot be put back. -/
theorem lens_laws_of_build_pair : build {} "Shapes" twiceNamed = .ok twiceNamedFile ∧
    ¬∀ lens ∈ twiceNamedFile.lenses, ∀ record : Record Nat, record.Fits twiceNamed →
      (lens.get record).bind (lens.set record) = some record := by
  have built : build {} "Shapes" twiceNamed = .ok twiceNamedFile := rfl
  have repeated : ¬twiceNamed.propertyNames.Nodup := by decide
  have boundary := (lens_laws_of_build built Nat).2.2 ⟨0, 1, by decide⟩
  exact ⟨built, fun kept => repeated (boundary.mp kept)⟩

end LensFile
end SwiftLens
