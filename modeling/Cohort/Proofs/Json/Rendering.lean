import Mathlib
import Cohort.Json.Document

/-!
Values as documents. The members of an object may be written in any order; values whose members are
ordered by name are read back as they were, whichever order that is.
-/

namespace Cohort.Json

variable {α : Type}

/-- What holds of the simple values, and of lists and objects if it holds of what is in them, holds
of every value. -/
theorem Value.induction {motive : Value → Prop} (null : motive .null) (bool : ∀ b, motive (.bool b))
    (number : ∀ n, motive (.number n)) (string : ∀ s, motive (.string s))
    (array : ∀ items, (∀ item ∈ items, motive item) → motive (.array items))
    (object : ∀ members, (∀ member ∈ members, motive member.2) → motive (.object members))
    (value : Value) : motive value := by
  refine @Value.rec motive (fun items => ∀ item ∈ items, motive item)
    (fun members => ∀ member ∈ members, motive member.2) (fun member => motive member.2)
    null bool number string array object (by simp) ?_ (by simp) ?_ (fun _ _ held => held) value
  · intro item rest first others
    exact List.forall_mem_cons.mpr ⟨first, others⟩
  · intro member rest first others
    exact List.forall_mem_cons.mpr ⟨first, others⟩

mutual

def Value.Ordered : Value → Prop
  | .array items => Value.AllOrdered items
  | .object members =>
      (members.map Prod.fst).Pairwise (· < ·) ∧ Value.MembersOrdered members
  | _ => True

def Value.AllOrdered : List Value → Prop
  | [] => True
  | item :: rest => item.Ordered ∧ Value.AllOrdered rest

def Value.MembersOrdered : List (String × Value) → Prop
  | [] => True
  | (_, value) :: rest => value.Ordered ∧ Value.MembersOrdered rest

end

theorem all_ordered (items : List Value) :
    Value.AllOrdered items ↔ ∀ item ∈ items, item.Ordered := by
  induction items with
  | nil => simp [Value.AllOrdered]
  | cons item rest ih => simp [Value.AllOrdered, ih]

theorem members_ordered (members : List (String × Value)) :
    Value.MembersOrdered members ↔ ∀ member ∈ members, member.2.Ordered := by
  induction members with
  | nil => simp [Value.MembersOrdered]
  | cons member rest ih => simp [Value.MembersOrdered, ih]

def Value.byName (value : Value) : Value :=
  value.toDocument.toValue

def sound (members : List (String × Document)) : List (Except Fault String × Document) :=
  members.map fun member => (.ok member.1, member.2)

theorem documents_map (items : List Value) :
    Value.toDocuments items = items.map Value.toDocument := by
  induction items with
  | nil => rfl
  | cons item rest ih => rw [Value.toDocuments, ih, List.map_cons]

theorem document_members_map (members : List (String × Value)) :
    Value.toDocumentMembers members =
      sound (members.map fun member => (member.1, member.2.toDocument)) := by
  induction members with
  | nil => rfl
  | cons member rest ih => rw [Value.toDocumentMembers, ih]; rfl

theorem values_map (documents : List Document) :
    Document.toValues documents = documents.map Document.toValue := by
  induction documents with
  | nil => rfl
  | cons document rest ih => rw [Document.toValues, ih, List.map_cons]

theorem members_map (members : List (String × Document)) :
    Document.toMembers (sound members) =
      members.map fun member => (member.1, member.2.toValue) := by
  induction members with
  | nil => rfl
  | cons member rest ih => exact congrArg ((member.1, member.2.toValue) :: ·) ih

theorem by_name_array (items : List Value) :
    (Value.array items).byName = .array (items.map Value.byName) := by
  simp [Value.byName, Value.toDocument, Document.toValue, documents_map, values_map,
    Function.comp_def]

theorem by_name_object (members : List (String × Value)) :
    (Value.object members).byName =
      .ofMembers (members.map fun member => (member.1, member.2.byName)) := by
  simp [Value.byName, Value.toDocument, Document.toValue, document_members_map, members_map,
    Function.comp_def]

def insertAll (kept members : List (String × α)) : List (String × α) :=
  members.foldl (fun kept member => insertMember member.1 member.2 kept) kept

theorem insert_perm (name : String) (value : α) {members : List (String × α)}
    (fresh : name ∉ members.map Prod.fst) :
    (insertMember name value members).Perm ((name, value) :: members) := by
  induction members with
  | nil => exact .refl _
  | cons member rest ih =>
      obtain ⟨other, kept⟩ := member
      rw [List.map_cons, List.mem_cons, not_or] at fresh
      rw [insertMember, if_neg fresh.1]
      split_ifs
      · exact .refl _
      · exact ((ih fresh.2).cons _).trans (.swap _ _ _)

theorem insert_all_perm {kept members : List (String × α)}
    (distinct : ((kept ++ members).map Prod.fst).Nodup) :
    (insertAll kept members).Perm (kept ++ members) := by
  induction members generalizing kept with
  | nil => rw [List.append_nil]; exact .refl _
  | cons member rest ih =>
      -- Where the member goes is left open: the names are distinct, so it replaces nothing.
      have moved := @List.perm_middle _ member kept rest
      have names := (moved.map Prod.fst).nodup_iff.mp distinct
      have put : (insertMember member.1 member.2 kept).Perm (member :: kept) := by
        refine insert_perm member.1 member.2 fun found => ?_
        rw [List.map_cons, List.nodup_cons] at names
        exact names.1 (by simp_all)
      have joined : (insertMember member.1 member.2 kept ++ rest).Perm (member :: (kept ++ rest)) :=
        put.append_right rest
      refine (ih ((joined.map Prod.fst).nodup_iff.mpr names)).trans (joined.trans moved.symm)

theorem insert_last (name : String) (value : α) {members : List (String × α)}
    (behind : ∀ other ∈ members.map Prod.fst, other < name) :
    insertMember name value members = members ++ [(name, value)] := by
  induction members with
  | nil => rfl
  | cons member rest ih =>
      obtain ⟨other, kept⟩ := member
      rw [List.map_cons, List.forall_mem_cons] at behind
      rw [insertMember, if_neg (ne_of_gt behind.1), if_neg (lt_asymm behind.1), ih behind.2]
      rfl

theorem insert_all_ordered {kept members : List (String × α)}
    (ordered : ((kept ++ members).map Prod.fst).Pairwise (· < ·)) :
    insertAll kept members = kept ++ members := by
  induction members generalizing kept with
  | nil => rw [List.append_nil]; rfl
  | cons member rest ih =>
      have last : insertMember member.1 member.2 kept = kept ++ [member] := by
        refine insert_last member.1 member.2 fun other place => ?_
        rw [List.map_append, List.pairwise_append] at ordered
        exact ordered.2.2 other place member.1 List.mem_cons_self
      rw [List.append_cons] at ordered ⊢
      rw [← ih ordered, ← last]
      rfl

theorem by_name_ordered {value : Value} (ordered : value.Ordered) : value.byName = value := by
  induction value using Value.induction with
  | null | bool | number | string => rfl
  | array items ih =>
      rw [Value.Ordered, all_ordered] at ordered
      rw [by_name_array, List.map_congr_left fun item place => ih item place (ordered item place)]
      simp
  | object members ih =>
      rw [Value.Ordered, members_ordered] at ordered
      have same : ∀ member ∈ members, (member.1, member.2.byName) = member := fun member place =>
        Prod.ext rfl (ih member place (ordered.2 member place))
      rw [by_name_object, List.map_congr_left same, List.map_id']
      exact congrArg Value.object (insert_all_ordered ordered.1)

def Written (render : Value → Document) (members : List (String × Value))
    (written : List (String × Document)) : Prop :=
  written.Perm (members.map fun member => (member.1, render member.2))

/-- Documents for values. Of an object only the members count, not their order. -/
structure Rendering (render : Value → Document) : Prop where
  null : render .null = .null
  number : ∀ n, render (.number n) = .number n
  string : ∀ s, render (.string s) = .string s
  array : ∀ items, render (.array items) = .array (items.map render) .closed
  object : ∀ members : List (String × Value), (members.map Prod.fst).Nodup →
    ∃ written, Written render members written ∧
      render (.object members) = .object (sound written) .closed
  value : ∀ value, value.Ordered → (render value).toValue = value

theorem rendering_as_is : Rendering Value.toDocument where
  null := rfl
  number _ := rfl
  string _ := rfl
  array items := by rw [Value.toDocument, documents_map]
  object members _ :=
    ⟨_, .refl _, by rw [Value.toDocument, document_members_map]⟩
  value _ ordered := by_name_ordered ordered

theorem rendering_by_name : Rendering fun value => value.byName.toDocument where
  null := rfl
  number _ := rfl
  string _ := rfl
  array items := by
    rw [by_name_array, Value.toDocument, documents_map, List.map_map]
    rfl
  object members distinct := by
    refine ⟨_, ?_, by rw [by_name_object, Value.ofMembers, Value.toDocument, document_members_map]⟩
    have names : ((members.map fun member => (member.1, member.2.byName)).map Prod.fst).Nodup := by
      rwa [List.map_map]
    have put := (@insert_all_perm Value [] _ names).map fun member =>
      (member.1, member.2.toDocument)
    rwa [List.nil_append, List.map_map] at put
  value value ordered := by
    rw [by_name_ordered ordered]
    exact by_name_ordered ordered

namespace Written

variable {render : Value → Document} {members : List (String × Value)}
  {written : List (String × Document)}

theorem mem (all : Written render members written) {name : String} {value : Value}
    (place : (name, value) ∈ members) : (name, render value) ∈ written :=
  all.mem_iff.mpr (List.mem_map.mpr ⟨(name, value), place, rfl⟩)

theorem names (all : Written render members written) :
    (written.map Prod.fst).Perm (members.map Prod.fst) := by
  have same := all.map Prod.fst
  rwa [List.map_map] at same

theorem distinct (all : Written render members written) (apart : (members.map Prod.fst).Nodup) :
    (written.map Prod.fst).Nodup :=
  all.names.nodup_iff.mpr apart

theorem missing (all : Written render members written) {name : String}
    (none_ : name ∉ members.map Prod.fst) : name ∉ written.map Prod.fst :=
  fun found => none_ (all.names.mem_iff.mp found)

end Written

theorem height_of_item {item : Document} {items : List Document} (place : item ∈ items) :
    item.height ≤ Document.heightOfItems items := by
  induction items with
  | nil => cases place
  | cons first rest ih =>
      rw [Document.heightOfItems]
      rcases List.mem_cons.mp place with rfl | behind
      · exact le_max_left _ _
      · exact (ih behind).trans (le_max_right _ _)

theorem height_of_member {member : String × Document} {members : List (String × Document)}
    (place : member ∈ members) : member.2.height ≤ Document.heightOfMembers (sound members) := by
  induction members with
  | nil => cases place
  | cons first rest ih =>
      change _ ≤ max first.2.height (Document.heightOfMembers (sound rest))
      rcases List.mem_cons.mp place with rfl | behind
      · exact le_max_left _ _
      · exact (ih behind).trans (le_max_right _ _)

/-- What stands in a list that is a member of an object has two levels less than the object. -/
theorem height_below {render : Value → Document} (rendering : Rendering render)
    {members : List (String × Value)} (apart : (members.map Prod.fst).Nodup) {name : String}
    {items : List Value} (place : (name, .array items) ∈ members) {item : Value}
    (inside : item ∈ items) : (render item).height + 2 ≤ (render (.object members)).height := by
  obtain ⟨written, all, same⟩ := rendering.object members apart
  have list : (render (.array items)).height ≤ Document.heightOfMembers (sound written) :=
    height_of_member (all.mem place)
  rw [rendering.array, Document.height] at list
  have below : (render item).height ≤ Document.heightOfItems (items.map render) :=
    height_of_item (List.mem_map_of_mem inside)
  rw [same, Document.height]
  omega

end Cohort.Json
