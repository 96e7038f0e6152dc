import Cohort.Proofs.Condition

/-!
Trees without what their literals hold. `mask` keeps everything of a tree but the text of its
strings and of its time periods, of which it keeps whether they are blank.
-/

namespace Cohort

open Text (isBlankText)

namespace Json

mutual

/-- The value with every string empty, the names of members too. -/
def Value.mask : Value → Value
  | .string _ => .string ""
  | .array items => .array (maskItems items)
  | .object members => .object (maskMembers members)
  | other => other

def maskItems : List Value → List Value
  | [] => []
  | item :: rest => item.mask :: maskItems rest

def maskMembers : List (String × Value) → List (String × Value)
  | [] => []
  | (_, value) :: rest => ("", value.mask) :: maskMembers rest

end

end Json

def maskPeriod (period : String) : String :=
  if isBlankText period then "" else "day"

def Filter.mask (filter : Filter) : Filter :=
  { filter with value := filter.value.mask, value2 := filter.value2.map Json.Value.mask }

def Related.mask (related : Related) : Related :=
  { related with filters := related.filters.map Filter.mask }

mutual

def Condition.mask : Condition → Condition
  | .filter f => .filter f.mask
  | .event e => .event e.mask

def Event.mask : Event → Event
  | ⟨id, columnKey, relatedColKey, eventType, frequency, count, timeValue, timePeriod,
      filterCombinator, filters, combinator, related⟩ =>
    ⟨id, columnKey, relatedColKey, eventType, frequency, count, timeValue,
      timePeriod.map maskPeriod, filterCombinator, Condition.maskOf filters, combinator,
      related.map Related.mask⟩

def Condition.maskOf : List Condition → List Condition
  | [] => []
  | condition :: rest => condition.mask :: Condition.maskOf rest

end

mutual

def Member.mask : Member → Member
  | .condition c => .condition c.mask
  | .group g => .group g.mask

def Group.mask : Group → Group
  | ⟨id, combinator, members⟩ => ⟨id, combinator, Member.maskOf members⟩

def Member.maskOf : List Member → List Member
  | [] => []
  | member :: rest => member.mask :: Member.maskOf rest

end

def Criteria.mask (criteria : Criteria) : Criteria where
  conditions := criteria.conditions.map Condition.mask
  groups := criteria.groups.map Group.mask
  combinator := criteria.combinator

theorem items_masked (items : List Json.Value) :
    Json.maskItems items = items.map Json.Value.mask := by
  induction items with
  | nil => rfl
  | cons item rest ih => simp [Json.maskItems, ih]

theorem conditions_masked (conditions : List Condition) :
    Condition.maskOf conditions = conditions.map Condition.mask := by
  induction conditions with
  | nil => rfl
  | cons condition rest ih => simp [Condition.maskOf, ih]

theorem members_masked (members : List Member) :
    Member.maskOf members = members.map Member.mask := by
  induction members with
  | nil => rfl
  | cons member rest ih => simp [Member.maskOf, ih]

theorem event_masked (event : Event) :
    event.mask = { event with
      timePeriod := event.timePeriod.map maskPeriod
      filters := event.filters.map Condition.mask
      related := event.related.map Related.mask } := by
  obtain ⟨⟩ := event
  simp [Event.mask, conditions_masked]

theorem filters_masked (conditions : List Condition) :
    (conditions.map Condition.mask).filterMap Condition.filter? =
      (conditions.filterMap Condition.filter?).map Filter.mask := by
  induction conditions with
  | nil => rfl
  | cons condition rest ih =>
      cases condition <;> simp [Condition.mask, Condition.filter?, List.filterMap_cons, ih]

theorem joinable_masked (event : Event) :
    event.mask.joinable = event.joinable.map Related.mask := by
  have same : Related.isJoinable ∘ Related.mask = Related.isJoinable := rfl
  simp [Event.joinable, event_masked, List.filter_map, same]

/-- A time window keeps its amount. -/
theorem window_masked (event : Event) :
    event.mask.window? = event.window?.map fun window => (window.1, "day") := by
  have empty : isBlankText "" = true := rfl
  have word : isBlankText "day" = false := by decide
  have trimmed : Text.trim "day" = "day" := by decide
  simp only [event_masked, Event.window?]
  cases event.timeValue with
  | none => rfl
  | some value =>
      cases event.timePeriod with
      | none => rfl
      | some period =>
          cases blank : isBlankText period <;> simp [maskPeriod, blank, empty, word, trimmed]

/-- Where the masks of two lists are the same, their items go together. -/
theorem pairs_of_masks {item mask : Type} {hide : item → mask} {related : item → item → Prop}
    {first second : List item} (same : first.map hide = second.map hide)
    (each : ∀ a ∈ first, ∀ b, hide a = hide b → related a b) : List.Forall₂ related first second := by
  induction first generalizing second with
  | nil =>
      obtain rfl : second = [] := by simpa using same.symm
      exact .nil
  | cons a first ih =>
      cases second with
      | nil => simp at same
      | cons b second =>
          simp only [List.map_cons, List.cons.injEq] at same
          refine .cons (each a List.mem_cons_self b same.1) (ih same.2 fun c member => ?_)
          exact each c (List.mem_cons_of_mem a member)

end Cohort
