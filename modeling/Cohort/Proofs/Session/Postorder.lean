import Cohort.Proofs.Session.Effects

/-!
The order in which a tree is numbered. The ids that are handed out are the next ones without a gap,
every node has a larger one than the nodes in it, and the source is left behind the last of them;
they are handed out just if that is an id too.
-/

namespace Cohort

def Related.Ordered (related : Related) : Prop :=
  ∀ inner ∈ related.filters.map Filter.id, inner < related.id

mutual

/-- In a condition, the id of every node is larger than those of the nodes in it. Nothing is said of
the id of the condition. -/
def Condition.OrderedWithin : Condition → Prop
  | .filter _ => True
  | .event e => e.OrderedWithin

def Event.OrderedWithin : Event → Prop
  | ⟨_, _, _, _, _, _, _, _, _, filters, _, related⟩ =>
      Condition.AllOrdered filters ∧ ∀ join ∈ related, join.Ordered

def Condition.AllOrdered : List Condition → Prop
  | [] => True
  | condition :: rest =>
      (∀ inner ∈ condition.idsWithin, inner < condition.id) ∧ condition.OrderedWithin ∧
        Condition.AllOrdered rest

end

def Condition.Ordered (condition : Condition) : Prop :=
  (∀ inner ∈ condition.idsWithin, inner < condition.id) ∧ condition.OrderedWithin

mutual

def Member.Ordered : Member → Prop
  | .condition c => c.Ordered
  | .group g => g.Ordered

def Group.Ordered : Group → Prop
  | ⟨id, _, members⟩ => (∀ inner ∈ Member.idsOf members, inner < id) ∧ Member.AllOrdered members

def Member.AllOrdered : List Member → Prop
  | [] => True
  | member :: rest => member.Ordered ∧ Member.AllOrdered rest

end

@[simp] theorem ordered_within_with_id (condition : Condition) (id : Nat) :
    (condition.withId id).OrderedWithin = condition.OrderedWithin := by
  cases condition with
  | filter f => rfl
  | event e =>
      obtain ⟨⟩ := e
      rfl

theorem related_ordered (related : Related) (next : Nat) : (related.number next).1.Ordered :=
  fun inner found => (((numbered_filters related.filters next).mem_iff inner).mp found).2

theorem joins_ordered (related : List Related) (next : Nat) :
    ∀ join ∈ (Related.numberAll related next).1, join.Ordered := by
  induction related generalizing next with
  | nil => simp [Related.numberAll]
  | cons first rest ih => exact List.forall_mem_cons.mpr ⟨related_ordered first next, ih _⟩

/-- A condition that gets the id behind those of the nodes in it. -/
theorem number_within_below (condition : Condition) (next : Nat) :
    ∀ inner ∈ (condition.numberWithin next).1.idsWithin, inner < (condition.numberWithin next).2 :=
  fun inner found => (((numbered_within condition next).mem_iff inner).mp found).2

theorem conditions_ordered {conditions : List Condition}
    (each : ∀ c ∈ conditions, ∀ next, (c.numberWithin next).1.OrderedWithin) (next : Nat) :
    Condition.AllOrdered (Condition.numberAll conditions next).1 := by
  induction conditions generalizing next with
  | nil => trivial
  | cons condition rest ih =>
      have within := each condition List.mem_cons_self next
      have behind := ih (fun c found => each c (List.mem_cons_of_mem _ found))
        ((condition.numberWithin next).2 + 1)
      have below := number_within_below condition next
      simp only [Condition.numberAll, Condition.AllOrdered, ids_within_with_id, id_with_id,
        ordered_within_with_id]
      exact ⟨below, within, behind⟩

theorem ordered_within (condition : Condition) (next : Nat) :
    (condition.numberWithin next).1.OrderedWithin := by
  induction condition using Condition.induction generalizing next with
  | filter f => trivial
  | event e ih =>
      have filters := conditions_ordered ih next
      obtain ⟨⟩ := e
      exact ⟨filters, joins_ordered _ _⟩

theorem condition_ordered (condition : Condition) (next : Nat) :
    (condition.number next).1.Ordered := by
  simp only [Condition.number, Condition.Ordered, ids_within_with_id, id_with_id,
    ordered_within_with_id]
  exact ⟨number_within_below condition next, ordered_within condition next⟩

theorem members_ordered {members : List Member}
    (each : ∀ m ∈ members, ∀ next, (m.number next).1.Ordered) (next : Nat) :
    Member.AllOrdered (Member.numberAll members next).1 := by
  induction members generalizing next with
  | nil => trivial
  | cons first rest ih =>
      have behind := ih fun m found => each m (List.mem_cons_of_mem _ found)
      exact ⟨each first List.mem_cons_self next, behind _⟩

theorem member_ordered (member : Member) (next : Nat) : (member.number next).1.Ordered := by
  induction member using Member.induction generalizing next with
  | condition c => exact condition_ordered c next
  | group id combinator members ih =>
      have numbered := @numbered_members members (fun m _ => numbered_member m) next
      exact ⟨fun inner found => ((numbered.mem_iff inner).mp found).2, members_ordered ih next⟩

/-! ### As many ids as nodes -/

theorem related_size (related : Related) : related.withoutIds.ids.length = related.ids.length := by
  simp [Related.withoutIds, Related.ids]

theorem joins_size (related : List Related) :
    ((related.map Related.withoutIds).flatMap Related.ids).length =
      (related.flatMap Related.ids).length := by
  simp [List.length_flatMap, Function.comp_def, related_size]

theorem conditions_size {conditions : List Condition}
    (each : ∀ c ∈ conditions, c.withoutIds.idsWithin.length = c.idsWithin.length) :
    (Condition.idsOf (Condition.withoutIdsOf conditions)).length =
      (Condition.idsOf conditions).length := by
  induction conditions with
  | nil => rfl
  | cons condition rest ih =>
      have first := each condition List.mem_cons_self
      have behind := ih fun c found => each c (List.mem_cons_of_mem _ found)
      simp [Condition.withoutIdsOf, Condition.idsOf, first, behind]

theorem within_size (condition : Condition) :
    condition.withoutIds.idsWithin.length = condition.idsWithin.length := by
  induction condition using Condition.induction with
  | filter f => rfl
  | event e ih =>
      have filters := conditions_size ih
      obtain ⟨⟩ := e
      simp only [Condition.withoutIds, Event.withoutIds, Condition.idsWithin, Event.idsWithin,
        List.length_append, filters, joins_size]

theorem condition_size (condition : Condition) :
    condition.withoutIds.ids.length = condition.ids.length :=
  congrArg (· + 1) (within_size condition)

theorem members_size {members : List Member}
    (each : ∀ m ∈ members, m.withoutIds.ids.length = m.ids.length) :
    (Member.idsOf (Member.withoutIdsOf members)).length = (Member.idsOf members).length := by
  induction members with
  | nil => rfl
  | cons first rest ih =>
      have behind := ih fun m found => each m (List.mem_cons_of_mem _ found)
      simp [Member.withoutIdsOf, Member.idsOf, each first List.mem_cons_self, behind]

theorem member_size (member : Member) : member.withoutIds.ids.length = member.ids.length := by
  induction member using Member.induction with
  | condition c => exact condition_size c
  | group id combinator members ih => exact congrArg (· + 1) (members_size ih)

structure NodeKind (α : Type) where
  number : α → Nat → α × Nat
  id : α → Nat
  ids : α → List Nat
  Ordered : α → Prop
  withoutIds : α → α

def NodeKind.member : NodeKind Member :=
  ⟨Member.number, Member.id, Member.ids, Member.Ordered, Member.withoutIds⟩

def NodeKind.condition : NodeKind Condition :=
  ⟨Condition.number, Condition.id, Condition.ids, Condition.Ordered, Condition.withoutIds⟩

def NodeKind.related : NodeKind Related :=
  ⟨Related.number, Related.id, Related.ids, Related.Ordered, Related.withoutIds⟩

/-- A node of `n` nodes, itself among them, is given ids just if there is an id behind the next `n`.
The ids are then those, each of them once, the larger ones around the smaller ones, and the last is
that of the node; all else is as it was. -/
def NodeKind.AssignsDensely {α : Type} (kind : NodeKind α) (ids : IdSource) (node : α) : Prop :=
  let n := (kind.ids node).length
  ∃ new, ids.assign? (kind.number node) =
      (if ids.next + n ≤ 2 ^ 64 - 1 then some (new, ⟨ids.next + n⟩) else none) ∧
    (kind.ids new).Perm (List.range' ids.next n) ∧ kind.id new = ids.next + n - 1 ∧
    kind.Ordered new ∧ kind.withoutIds new = kind.withoutIds node

/-- Numbering is dense if it hands out consecutive ids, the last one to the node, and leaves as many
nodes as there were. -/
theorem assigns_densely {α : Type} {kind : NodeKind α} {ids : IdSource} {node new : α} {last : Nat}
    (made : kind.number node ids.next = (new, last + 1))
    (numbered : Numbered ids.next (kind.ids new) (last + 1)) (root : kind.id new = last)
    (ordered : kind.Ordered new) (alike : kind.withoutIds new = kind.withoutIds node)
    (size : ∀ node, (kind.ids (kind.withoutIds node)).length = (kind.ids node).length) :
    kind.AssignsDensely ids node := by
  have count : (kind.ids new).length = (kind.ids node).length := by rw [← size, alike, size]
  have after : ids.next + (kind.ids node).length = last + 1 := count ▸ numbered.length
  refine ⟨new, ?_, ?_, ?_, ordered, alike⟩
  · have limit : Decimal.maxU64 = 2 ^ 64 - 1 := rfl
    simp only [IdSource.assign?, made, IdSource.startingAt?, ← after, limit]
    split <;> rfl
  · have perm := numbered.2
    rwa [← after, Nat.add_sub_cancel_left] at perm
  · omega

/-- Fresh ids for what stands in a group, for a condition and for a joined table. -/
theorem fresh_ids_dense (ids : IdSource) :
    (∀ member, NodeKind.member.AssignsDensely ids member) ∧
      (∀ condition, NodeKind.condition.AssignsDensely ids condition) ∧
      ∀ related, NodeKind.related.AssignsDensely ids related := by
  refine ⟨fun member => ?_, fun condition => ?_, fun related => ?_⟩
  · have numbered := numbered_member member ids.next
    have ordered := member_ordered member ids.next
    have alike := member_numbered_alike member ids.next
    cases member with
    | condition c => exact assigns_densely rfl numbered (id_with_id _ _) ordered alike member_size
    | group g =>
        obtain ⟨⟩ := g
        exact assigns_densely rfl numbered rfl ordered alike member_size
  · exact assigns_densely rfl (numbered_condition condition ids.next) (id_with_id _ _)
      (condition_ordered condition ids.next) (condition_numbered_alike condition ids.next)
      condition_size
  · exact assigns_densely rfl (numbered_joined related ids.next) rfl
      (related_ordered related ids.next) (related_numbered_alike related ids.next) related_size

end Cohort
