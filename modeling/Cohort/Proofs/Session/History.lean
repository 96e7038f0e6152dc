import Cohort.Proofs.Session.Effects

/-!
The history of a session. The ids that are left only ever grow past those that were in use, so an id
that was handed out, or that a tree once had, is never handed out again, and what was taken out of
the tree cannot be addressed any more.
-/

namespace Cohort

def Edit.address? : Edit → Option (Nat × EditError)
  | addMember group _ => some (group, .groupNotFound group)
  | addFilter event _ => some (event, .eventNotFound event)
  | addRelated event _ => some (event, .eventNotFound event)
  | update id _ => some (id, .notFound id)
  | remove id => some (id, .notFound id)
  | setGroupCombinator group _ => some (group, .groupNotFound group)
  | addCondition _ | addGroup _ | setCombinator _ | apply _ => none

theorem condition_mem {id : Nat} {criteria : Criteria} {condition : Condition}
    (found : criteria.condition? id = some condition) : id ∈ criteria.ids := by
  have place := criteria_exchanged id condition criteria
  rw [found] at place
  generalize criteria.replace? id condition = after at place
  cases place with
  | found changed => exact changed.id_mem Condition.Becomes.id_mem

namespace Session

variable {session : Session}

/-- Nothing can be done at a node that is not in the tree. -/
theorem absent_refused {edit : Edit} {id : Nat} {error : EditError}
    (absent : id ∉ session.criteria.ids) (address : edit.address? = some (id, error)) :
    session.respond edit = .error error := by
  have noGroup (change : Group → Group) : session.criteria.changeGroup? id change = none := by
    cases found : session.criteria.changeGroup? id change with
    | none => rfl
    | some later =>
        obtain ⟨group, changed⟩ := change_group_changed found
        exact absurd (changed.id_mem Group.Becomes.id_mem) absent
  have noCondition : session.criteria.condition? id = none := by
    cases found : session.criteria.condition? id with
    | none => rfl
    | some condition => exact absurd (condition_mem found) absent
  have noEvent : session.event? id = none := by rw [event?, noCondition]
  cases edit with
  | addMember group member =>
      cases address
      rw [respond, addMember, noGroup]
      rfl
  | addFilter event filter =>
      cases address
      rw [respond, addFilter, noEvent]
      rfl
  | addRelated event related =>
      cases address
      rw [respond, addRelated, noEvent]
      rfl
  | update id condition =>
      cases address
      rw [respond, update, noCondition]
      rfl
  | remove id =>
      cases address
      cases found : session.criteria.remove? id with
      | none => rw [respond, remove, found]; rfl
      | some later => exact absurd (criteria_removed found).id_mem absent
  | setGroupCombinator group combinator =>
      cases address
      rw [respond, setGroupCombinator, noGroup]
      rfl
  | addCondition _ => cases address
  | addGroup _ => cases address
  | setCombinator _ => cases address
  | apply _ => cases address

/-- The ids in use behind an edit were in use before or were handed out by the edit. -/
theorem after_renews {edit : Edit} (onTree : edit.OnTree) :
    session.Renews (session.after edit) := by
  rw [after]
  cases done : session.edit edit with
  | ok later => exact edit_renews onTree done
  | error error =>
      refine ⟨session.criteria.ids, [], List.Subperm.refl _, numbered_none _, ?_⟩
      rw [List.append_nil]

theorem Renews.next_le {later : Session} (renews : session.Renews later) :
    session.ids.next ≤ later.ids.next := by
  obtain ⟨kept, fresh, part, numbered, same⟩ := renews
  exact numbered.1

/-- An id that is not in use and will not be handed out stays out of use. -/
theorem Renews.gone {later : Session} {id : Nat} (renews : session.Renews later)
    (old : id < session.ids.next) (absent : id ∉ session.criteria.ids) :
    id ∉ later.criteria.ids := by
  obtain ⟨kept, fresh, part, numbered, same⟩ := renews
  intro found
  rcases List.mem_append.mp (same.mem_iff.mp found) with keeps | new
  · exact absent (part.subset keeps)
  · have := ((numbered.mem_iff id).mp new).1
    omega

theorem run_append (session : Session) (first second : List Edit) :
    session.run (first ++ second) = (session.run first).run second :=
  List.foldl_append

theorem run_next_le {edits : List Edit} (onTree : ∀ edit ∈ edits, edit.OnTree) :
    session.ids.next ≤ (session.run edits).ids.next := by
  induction edits generalizing session with
  | nil => exact le_rfl
  | cons edit rest ih =>
      have first := (@after_renews session _ (onTree edit List.mem_cons_self)).next_le
      exact first.trans (ih fun other place => onTree other (List.mem_cons_of_mem _ place))

theorem run_gone {edits : List Edit} (onTree : ∀ edit ∈ edits, edit.OnTree) {id : Nat}
    (old : id < session.ids.next) (absent : id ∉ session.criteria.ids) :
    id ∉ (session.run edits).criteria.ids := by
  induction edits generalizing session with
  | nil => exact absent
  | cons edit rest ih =>
      have renews := @after_renews session _ (onTree edit List.mem_cons_self)
      exact ih (fun other place => onTree other (List.mem_cons_of_mem _ place))
        (old.trans_le renews.next_le) (renews.gone old absent)

def added? (session : Session) (edit : Edit) : Option Nat :=
  match session.respond edit with
  | .ok (answer, _) => answer
  | .error _ => none

def addedIn (session : Session) : List Edit → List Nat
  | [] => []
  | edit :: rest => (session.added? edit).toList ++ (session.after edit).addedIn rest

/-- The session behind an edit is that of the answer. -/
theorem edit_respond (edit : Edit) :
    session.edit edit = (session.respond edit).map fun (_, later) => later := by
  have twice {α β γ : Type} (action : Except EditError α) (wrap : α → β) (pick : β → γ) :
      (action.map wrap).map pick = action.map (pick ∘ wrap) := by cases action <;> rfl
  have same (action : Except EditError Session) : action.map (fun later => later) = action := by
    cases action <;> rfl
  -- Of the edits, one cannot fail.
  cases edit <;> simp only [edit, respond, twice, Function.comp_def, same]
  rfl

theorem respond_after {edit : Edit} {answer : Option Nat} {later : Session}
    (done : session.respond edit = .ok (answer, later)) : session.after edit = later := by
  rw [after, edit_respond, done]
  rfl

/-- What is handed out was not handed out before, and is used up behind the edit. -/
theorem Effect.between {later : Session} {edit : Edit} {id : Nat}
    (effect : session.Effect later (some id) edit) :
    session.ids.next ≤ id ∧ id < later.ids.next := by
  cases edit with
  | addCondition condition =>
      obtain ⟨new, same, _, numbered, _⟩ := effect
      cases same
      exact (numbered.mem_iff _).mp List.mem_cons_self
  | addGroup combinator =>
      obtain ⟨new, same, numbered, _⟩ := effect
      cases same
      exact (numbered.mem_iff _).mp List.mem_cons_self
  | addMember group member =>
      obtain ⟨_, new, same, _, numbered, _⟩ := effect
      cases same
      exact (numbered.mem_iff _).mp (member_ids new ▸ List.mem_cons_self)
  | addFilter event filter =>
      obtain ⟨_, new, same, _, numbered, _⟩ := effect
      cases same
      exact (numbered.mem_iff _).mp List.mem_cons_self
  | addRelated event related =>
      obtain ⟨_, new, same, _, numbered, _⟩ := effect
      cases same
      exact (numbered.mem_iff _).mp List.mem_cons_self
  | update id condition =>
      obtain ⟨_, _, same, _⟩ := effect
      cases same
  | remove id => cases effect.1
  | setCombinator combinator => cases effect.1
  | setGroupCombinator group combinator =>
      obtain ⟨_, same, _⟩ := effect
      cases same
  | apply typed => cases effect

theorem added_between {edit : Edit} (onTree : edit.OnTree) {id : Nat}
    (added : session.added? edit = some id) :
    session.ids.next ≤ id ∧ id < (session.after edit).ids.next := by
  rw [added?] at added
  split at added
  · next answer later done =>
      cases added
      rw [respond_after done]
      exact (respond_effect onTree done).2.between
  · cases added

theorem added_in_from {edits : List Edit} (onTree : ∀ edit ∈ edits, edit.OnTree) :
    ∀ id ∈ session.addedIn edits, session.ids.next ≤ id := by
  induction edits generalizing session with
  | nil => simp [addedIn]
  | cons edit rest ih =>
      intro id found
      have here := onTree edit List.mem_cons_self
      rcases List.mem_append.mp found with first | behind
      · exact (added_between here (Option.mem_toList.mp first)).1
      · have behind := ih (fun other place => onTree other (List.mem_cons_of_mem _ place)) id behind
        exact (after_renews here).next_le.trans behind

theorem added_in_increasing {edits : List Edit} (onTree : ∀ edit ∈ edits, edit.OnTree) :
    (session.addedIn edits).Pairwise (· < ·) := by
  induction edits generalizing session with
  | nil => exact .nil
  | cons edit rest ih =>
      have others : ∀ other ∈ rest, other.OnTree := fun other place =>
        onTree other (List.mem_cons_of_mem _ place)
      rw [addedIn, List.pairwise_append]
      refine ⟨?_, ih others, fun id first other behind => ?_⟩
      · cases session.added? edit <;> simp
      · have here := added_between (onTree edit List.mem_cons_self) (Option.mem_toList.mp first)
        exact here.2.trans_le (added_in_from others other behind)

/-- In a run of edits of the tree, the ids that are handed out grow, none of them was in the tree
before, and nothing can be done any more at a node that has left the tree. -/
theorem ids_never_reused {dataset : String} {criteria : Criteria} {source : EventSource}
    {session : Session} (distinct : criteria.ids.Nodup)
    (opened : open? dataset criteria source = some session) {edits : List Edit}
    (onTree : ∀ edit ∈ edits, edit.OnTree) :
    (session.addedIn edits).Pairwise (· < ·) ∧
      (∀ past edit, past ++ [edit] <+: edits → ∀ id, (session.run past).added? edit = some id →
        ∀ earlier, earlier <+: past → id ∉ (session.run earlier).criteria.ids) ∧
      ∀ first second third, first <+: second → second <+: third → third <+: edits →
        ∀ id ∈ (session.run first).criteria.ids, id ∉ (session.run second).criteria.ids →
          ∀ edit error, edit.address? = some (id, error) →
            (session.run third).respond edit = .error error := by
  obtain ⟨ids, behind, rfl⟩ := Option.map_eq_some_iff.mp opened
  have start : Unique ⟨dataset, criteria, ids, source, []⟩ := ⟨distinct, ids_lt_behind behind⟩
  generalize (⟨dataset, criteria, ids, source, []⟩ : Session) = session at start
  -- Along the run, an id that was once in the tree is below the next one from then on.
  have below : ∀ first second, first <+: second → second <+: edits →
      ∀ id ∈ (session.run first).criteria.ids, id < (session.run second).ids.next := by
    rintro first _ ⟨more, rfl⟩ whole id found
    rw [run_append]
    refine ((run_unique start first).behind id found).trans_le (run_next_le fun edit place => ?_)
    exact onTree edit (whole.subset (List.mem_append_right _ place))
  refine ⟨added_in_increasing onTree, ?_, ?_⟩
  · intro past edit whole id added earlier before found
    have here := onTree edit (whole.subset (List.mem_append_right _ List.mem_cons_self))
    have old := below earlier past before ((List.prefix_append _ _).trans whole) id found
    have := (added_between here added).1
    omega
  · rintro first second _ before ⟨more, rfl⟩ whole id found gone edit error address
    have old := below first second before ((List.prefix_append _ _).trans whole) id found
    refine absent_refused ?_ address
    rw [run_append]
    refine run_gone (fun edit place => ?_) old gone
    exact onTree edit (whole.subset (List.mem_append_right _ place))

/-- The condition of a group and the group go, others come, and the ids of both stay unknown. -/
theorem removed_group_not_reused :
    let city : Filter := ⟨7, "city", .equals, .string "Bern", none⟩
    let criteria : Criteria := { groups := [⟨3, .and, [.condition (.filter city)]⟩] }
    let past : List Edit := [.addMember 3 (.condition (.filter city)), .remove 3]
    let edits : List Edit := past ++ [.addGroup .or, .addMember 9 (.condition (.filter city))]
    criteria.ids.Nodup ∧ (∀ edit ∈ edits, edit.OnTree) ∧
      ∃ session, open? "customers" criteria {} = some session ∧
        session.addedIn edits = [8, 9, 10] ∧ (session.addedIn edits).Pairwise (· < ·) ∧
          7 ∈ session.criteria.ids ∧ 7 ∉ (session.run past).criteria.ids ∧
            (session.run edits).respond (.update 7 (.filter city)) = .error (.notFound 7) := by
  intro city criteria past edits
  have distinct : criteria.ids.Nodup := by decide
  have onTree : ∀ edit ∈ edits, edit.OnTree := by simp [edits, past, Edit.OnTree]
  have opened : open? "customers" criteria {} = some ⟨"customers", criteria, ⟨8⟩, {}, []⟩ := rfl
  have history := ids_never_reused distinct opened onTree
  refine ⟨distinct, onTree, _, opened, rfl, history.1, by decide, by decide, ?_⟩
  exact history.2.2 [] past edits (List.nil_prefix) (List.prefix_append _ _) List.prefix_rfl 7
    (by decide) (by decide) (.update 7 (.filter city)) (.notFound 7) rfl

end Session

end Cohort
