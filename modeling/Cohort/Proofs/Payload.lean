import Cohort.Payload.Decode
import Cohort.Payload.Encode
import Cohort.Proofs.Condition
import Cohort.Proofs.Json.Record

/-!
The persisted form of a tree is read back as the tree, in whatever order the members of its objects
stand. Conditions carry their kind, so a member of a group is never taken for another kind of node.
-/

namespace Cohort

open Json

/-- The id has 64 bits, values are JSON values, and there is no second value that is null: a null is
read as an absent value. -/
structure Filter.Storable (filter : Filter) : Prop where
  id : filter.id ≤ Decimal.maxU64
  value : filter.value.Ordered
  value2 : ∀ value ∈ filter.value2, value.Ordered ∧ value ≠ .null

structure Related.Storable (related : Related) : Prop where
  id : related.id ≤ Decimal.maxU64
  filters : ∀ filter ∈ related.filters, filter.Storable

mutual

def Condition.Storable : Condition → Prop
  | .filter f => f.Storable
  | .event e => e.Storable

def Event.Storable : Event → Prop
  | ⟨id, _, _, _, _, count, timeValue, _, _, filters, _, related⟩ =>
      id ≤ Decimal.maxU64 ∧ count ≤ Decimal.maxU32 ∧
        (∀ value ∈ timeValue, -2 ^ 63 ≤ value ∧ value < 2 ^ 63) ∧
        Condition.AllStorable filters ∧ ∀ joined ∈ related, joined.Storable

def Condition.AllStorable : List Condition → Prop
  | [] => True
  | condition :: rest => condition.Storable ∧ Condition.AllStorable rest

end

mutual

def Member.Storable : Member → Prop
  | .condition c => c.Storable
  | .group g => g.Storable

def Group.Storable : Group → Prop
  | ⟨id, _, members⟩ => id ≤ Decimal.maxU64 ∧ Member.AllStorable members

def Member.AllStorable : List Member → Prop
  | [] => True
  | member :: rest => member.Storable ∧ Member.AllStorable rest

end

structure Criteria.Storable (criteria : Criteria) : Prop where
  conditions : ∀ condition ∈ criteria.conditions, condition.Storable
  groups : ∀ group ∈ criteria.groups, group.Storable

theorem conditions_storable (conditions : List Condition) :
    Condition.AllStorable conditions ↔ ∀ condition ∈ conditions, condition.Storable := by
  induction conditions with
  | nil => simp [Condition.AllStorable]
  | cons condition rest ih => simp [Condition.AllStorable, ih]

theorem event_filters_storable {event : Event} (storable : event.Storable) :
    ∀ condition ∈ event.filters, condition.Storable := by
  cases event
  exact (conditions_storable _).mp storable.2.2.2.1

theorem members_storable (members : List Member) :
    Member.AllStorable members ↔ ∀ member ∈ members, member.Storable := by
  induction members with
  | nil => simp [Member.AllStorable]
  | cons member rest ih => simp [Member.AllStorable, ih]

theorem encode_all_map (conditions : List Condition) :
    Condition.encodeAll conditions = conditions.map Condition.encode := by
  induction conditions with
  | nil => rfl
  | cons condition rest ih => rw [Condition.encodeAll, ih, List.map_cons]

theorem encode_members_map (members : List Member) :
    Member.encodeAll members = members.map Member.encode := by
  induction members with
  | nil => rfl
  | cons member rest ih => rw [Member.encodeAll, ih, List.map_cons]

def Group.entries (group : Group) : List (String × Value) :=
  [("type", .string "group"), ("id", .nat group.id), ("operator", group.combinator.encode),
    ("conditions", .array (group.members.map Member.encode))]

theorem group_entries (group : Group) : group.encode = .object group.entries := by
  cases group
  rw [Group.encode, encode_members_map]
  rfl

theorem filter_names (filter : Filter) : (filter.members.map Prod.fst).Nodup := by
  cases upper : filter.value2 <;> simp [Filter.members, upper]

theorem filter_untagged (filter : Filter) : "type" ∉ filter.members.map Prod.fst := by
  cases upper : filter.value2 <;> simp [Filter.members, upper]

theorem event_untagged (event : Event) : "type" ∉ event.members.map Prod.fst := by
  cases event
  simp [Event.members]

theorem event_filters_member (event : Event) :
    ("attributeConditions", .array (event.filters.map Condition.encode)) ∈ event.members := by
  cases event
  simp [Event.members, encode_all_map]

theorem entry_names (group : Group) : (group.entries.map Prod.fst).Nodup := by
  simp [Group.entries]

theorem group_members_entry (group : Group) :
    ("conditions", .array (group.members.map Member.encode)) ∈ group.entries := by
  simp [Group.entries]

theorem event_names (event : Event) : (event.members.map Prod.fst).Nodup := by
  cases event
  simp [Event.members]

theorem operator_of_name (operator : Operator) : Operator.ofName operator.name = operator := by
  cases operator <;> decide

theorem event_type_of_name (type : EventType) : EventType.ofName type.name = type := by
  cases type <;> decide

theorem frequency_of_name (frequency : Frequency) :
    Frequency.ofName frequency.name = frequency := by
  cases frequency <;> decide

theorem combinator_of_name (combinator : Combinator) :
    Combinator.ofName combinator.keyword = .ok combinator := by
  cases combinator <;> rfl

/-- What is written for something is read back, and so is null for nothing. -/
theorem absence_reads {render : Value → Document} (rendering : Rendering render) {α : Type}
    {decode : Decoder α} {origin : Origin} {encode : α → Value} {value : Option α}
    (some_ : ∀ a, render (encode a) ≠ .null)
    (inner : ∀ a ∈ value, decode origin (render (encode a)) = .ok a) :
    decodeOption decode origin (render (encodeOption encode value)) = .ok value := by
  cases value with
  | none => rw [encodeOption, rendering.null, decodeOption]
  | some a => exact option_reads (some_ a) (inner a rfl)

section Kinds

variable {origin : Origin} (loaded : origin.Loaded)

include loaded

theorem split_untagged {others : List (String × Document)} (untagged : "type" ∉ others.map Prod.fst)
    (kind : Option Kind) :
    splitKind origin kind (sound others) = .ok (kind, sound others) := by
  induction others with
  | nil => rfl
  | cons member rest ih =>
      obtain ⟨name, document⟩ := member
      rw [List.map_cons, List.mem_cons, not_or] at untagged
      change splitKind origin kind ((.ok name, document) :: sound rest) = _
      rw [splitKind, if_neg (Ne.symm untagged.1), no_fault_loaded loaded, ih untagged.2]
      rfl

/-- The kind may stand anywhere among the members. -/
theorem split_tagged {front back : List (String × Document)} (ahead : "type" ∉ front.map Prod.fst)
    (behind : "type" ∉ back.map Prod.fst) (tag : String) :
    splitKind origin none (sound (front ++ ("type", .string tag) :: back)) =
      (Kind.ofName tag).map fun kind => (some kind, sound (front ++ back)) := by
  induction front with
  | nil =>
      change splitKind origin none ((.ok "type", .string tag) :: sound back) = _
      have chosen : Kind.decode origin (.string tag) = Kind.ofName tag := by cases origin <;> rfl
      rw [splitKind, if_pos rfl, if_neg (by simp), chosen]
      cases Kind.ofName tag with
      | error error => rfl
      | ok kind => exact split_untagged loaded behind (some kind)
  | cons member rest ih =>
      obtain ⟨name, document⟩ := member
      rw [List.map_cons, List.mem_cons, not_or] at ahead
      change splitKind origin none
        ((.ok name, document) :: sound (rest ++ ("type", .string tag) :: back)) = _
      rw [splitKind, if_neg (Ne.symm ahead.1), no_fault_loaded loaded, ih ahead.2]
      cases Kind.ofName tag <;> rfl

theorem kind_read {render : Value → Document} (rendering : Rendering render) {tag : String}
    {members : List (String × Value)} {written : List (String × Document)}
    (apart : (("type", Value.string tag) :: members).map Prod.fst |>.Nodup)
    (all : Written render (("type", .string tag) :: members) written) :
    ∃ others, Written render members others ∧
      decodeKind origin (.object (sound written) .closed) =
        (Kind.ofName tag).map fun kind => (kind, .object (sound others) .closed) := by
  -- By name the kind comes after most other members, so it is looked for in the middle.
  have place : ("type", render (.string tag)) ∈ written := all.mem List.mem_cons_self
  obtain ⟨front, back, rfl⟩ := List.append_of_mem place
  have others : Written render members (front ++ back) :=
    (List.perm_middle.symm.trans all).cons_inv
  have untagged := others.missing (List.nodup_cons.mp apart).1
  rw [List.map_append, List.mem_append, not_or] at untagged
  refine ⟨front ++ back, others, ?_⟩
  rw [decodeKind, enter_loaded loaded, rendering.string]
  dsimp only [bind, Except.bind]
  rw [split_tagged loaded untagged.1 untagged.2]
  cases Kind.ofName tag <;> rfl

end Kinds

section Conditions

variable {render : Value → Document} (rendering : Rendering render) {origin : Origin}
  (loaded : origin.Loaded)

include rendering loaded

theorem name_reads {α : Type} {ofName : String → α} {name : String} {named : α}
    (same : ofName name = named) :
    decodeName ofName origin (render (.string name)) = .ok named :=
  variant_reads rendering loaded (congrArg Except.ok same)

theorem combinator_reads (combinator : Combinator) :
    Combinator.decode origin (render combinator.encode) = .ok combinator :=
  variant_reads rendering loaded (combinator_of_name combinator)

theorem filter_content {filter : Filter} (storable : filter.Storable)
    {written : List (String × Document)} (all : Written render filter.members written) :
    Filter.decode origin (.object (sound written) .closed) = .ok filter := by
  have apart := all.distinct (filter_names filter)
  obtain ⟨id, field, operator, value, value2⟩ := filter
  -- The member is left out for an absent value, so this field is read in two ways.
  have upper : Fields.Reads origin written
      (.cons (Json.optional "value2" (decodeOption decodeValue) none) .nil) (.cons value2 ()) := by
    cases value2 with
    | none => exact .absent (all.missing (by simp [Filter.members])) rfl .nil
    | some value2 =>
        obtain ⟨ordered, some_⟩ := storable.value2 value2 rfl
        exact .optional all (by simp [Filter.members])
          (option_reads (not_null rendering ordered some_) (value_reads rendering loaded ordered))
          .nil
  exact record_reads loaded _ (by simp [Fields.names]) _ apart
    (.required all (by simp [Filter.members]) (u64_reads rendering storable.id)
    (.required all (by simp [Filter.members]) (text_reads rendering field)
    (.required all (by simp [Filter.members])
      (name_reads rendering loaded (operator_of_name operator))
    (.optional all (by simp [Filter.members]) (value_reads rendering loaded storable.value)
    upper))))

theorem filter_reads {filter : Filter} (storable : filter.Storable) :
    Filter.decode origin (render filter.encode) = .ok filter :=
  object_reads rendering (filter_names filter) fun _ all =>
    filter_content rendering loaded storable all

theorem related_reads {related : Related} (storable : related.Storable) :
    Related.decode origin (render related.encode) = .ok related := by
  obtain ⟨id, dataset, joinKey, fields, combinator, filters⟩ := related
  refine object_reads rendering (by simp) fun written all => ?_
  exact record_reads loaded _ (by simp [Fields.names]) _ (all.distinct (by simp))
    (.required all (by simp) (u64_reads rendering storable.id)
    (.required all (by simp) (text_reads rendering dataset)
    (.required all (by simp) (text_reads rendering joinKey)
    (.optional all (by simp)
      (array_reads rendering loaded fun field _ => text_reads rendering field)
    (.optional all (by simp) (combinator_reads rendering loaded combinator)
    (.optional all (by simp) (array_reads rendering loaded fun filter place =>
        filter_reads rendering loaded (storable.filters filter place))
    .nil))))))

theorem event_content {condition : Decoder Condition} {event : Event} (storable : event.Storable)
    (inner : ∀ c ∈ event.filters, condition origin (render c.encode) = .ok c)
    {written : List (String × Document)} (all : Written render event.members written) :
    Event.decodeWith condition origin (.object (sound written) .closed) = .ok event := by
  have apart := all.distinct (event_names event)
  obtain ⟨id, columnKey, relatedColKey, eventType, frequency, count, timeValue, timePeriod,
    filterCombinator, filters, combinator, related⟩ := event
  obtain ⟨idFits, countFits, timeFits, -, relatedStorable⟩ := storable
  rw [Event.members, encode_all_map] at all
  have frequencyRead : decodeOption Frequency.decode origin
      (render (encodeOption (fun f => .string f.name) frequency)) = .ok frequency :=
    absence_reads rendering (fun f => by simp [rendering.string])
      fun f _ => name_reads rendering loaded (frequency_of_name f)
  have timeRead : decodeOption decodeI64 origin
      (render (encodeOption (fun n => .number (.int n)) timeValue)) = .ok timeValue :=
    absence_reads rendering (fun n => by simp [rendering.number])
      fun n found => i64_reads rendering (timeFits n found)
  have periodRead : decodeOption decodeString origin
      (render (encodeOption .string timePeriod)) = .ok timePeriod :=
    absence_reads rendering (fun period => by simp [rendering.string])
      fun period _ => text_reads rendering period
  exact record_reads loaded _ (by simp [Fields.names]) _ apart
    (.required all (by simp) (u64_reads rendering idFits)
    (.required all (by simp) (text_reads rendering columnKey)
    (.required all (by simp) (text_reads rendering relatedColKey)
    (.required all (by simp) (name_reads rendering loaded (event_type_of_name eventType))
    (.optional all (by simp) frequencyRead
    (.optional all (by simp) (u32_reads rendering countFits)
    (.optional all (by simp) timeRead
    (.optional all (by simp) periodRead
    (.optional all (by simp) (combinator_reads rendering loaded filterCombinator)
    (.optional all (by simp) (array_reads rendering loaded inner)
    (.optional all (by simp) (combinator_reads rendering loaded combinator)
    (.optional all (by simp) (array_reads rendering loaded fun joined place =>
        related_reads rendering loaded (relatedStorable joined place))
    .nil))))))))))))

theorem condition_within {condition : Condition} (storable : condition.Storable) {levels : Nat}
    (room : (render condition.encode).height < levels) :
    Condition.decodeWithin levels origin (render condition.encode) = .ok condition := by
  -- What is set aside is a document that was read, so the filters of an event are like any others.
  have aside : (Origin.buffered false).Loaded := trivial
  induction condition using Condition.induction generalizing origin levels with
  | filter f =>
      obtain ⟨levels, rfl⟩ := Nat.exists_eq_add_one_of_ne_zero (Nat.ne_zero_of_lt room)
      have apart : (("type", Value.string "attribute") :: f.members).map Prod.fst |>.Nodup :=
        List.nodup_cons.mpr ⟨filter_untagged f, filter_names f⟩
      refine object_reads rendering apart fun written all => ?_
      obtain ⟨others, content, split⟩ := kind_read loaded rendering apart all
      rw [Condition.decodeWithin, split]
      change (Filter.decode (.buffered false) (.object (sound others) .closed)).map
        Condition.filter = _
      rw [filter_content rendering aside storable content]
      rfl
  | event e ih =>
      obtain ⟨levels, rfl⟩ := Nat.exists_eq_add_one_of_ne_zero (Nat.ne_zero_of_lt room)
      have apart : (("type", Value.string "event") :: e.members).map Prod.fst |>.Nodup :=
        List.nodup_cons.mpr ⟨event_untagged e, event_names e⟩
      refine object_reads rendering apart fun written all => ?_
      obtain ⟨others, content, split⟩ := kind_read loaded rendering apart all
      -- The filters of the event are two levels further down, so there is room for them.
      have inner : ∀ c ∈ e.filters,
          Condition.decodeWithin levels (.buffered false) (render c.encode) = .ok c := by
        intro c place
        have below := height_below rendering apart (List.mem_cons_of_mem _ (event_filters_member e))
          (List.mem_map_of_mem place)
        refine ih c place aside ?_ ?_
        · exact event_filters_storable storable c place
        · rw [Condition.encode] at room
          omega
      rw [Condition.decodeWithin, split]
      change (Event.decodeWith (Condition.decodeWithin levels) (.buffered false)
        (.object (sound others) .closed)).map Condition.event = _
      rw [event_content rendering aside storable inner content]
      rfl

theorem condition_reads {condition : Condition} (storable : condition.Storable) :
    Condition.decode origin (render condition.encode) = .ok condition :=
  condition_within rendering loaded storable (Nat.lt_succ_self _)

/-- What is written for a group names a kind, but none of the kinds of condition. -/
theorem group_no_condition (levels : Nat) (group : Group) :
    ∃ error, Condition.decodeWithin levels origin (render group.encode) = .error error := by
  cases levels with
  | zero => exact ⟨_, rfl⟩
  | succ levels =>
      obtain ⟨written, all, same⟩ := rendering.object _ (entry_names group)
      obtain ⟨others, -, split⟩ := kind_read loaded rendering (entry_names group) all
      refine ⟨.unknownVariant "group" (Kind.all.map Kind.name), ?_⟩
      rw [group_entries, same, Condition.decodeWithin, split]
      rfl

theorem group_content {member : Decoder Member} {group : Group} (storable : group.Storable)
    (inner : ∀ m ∈ group.members, member origin (render m.encode) = .ok m) :
    Group.decodeWith member origin (render group.encode) = .ok group := by
  rw [group_entries]
  refine object_reads rendering (entry_names group) fun written all => ?_
  have apart := all.distinct (entry_names group)
  obtain ⟨id, combinator, members⟩ := group
  rw [Group.entries] at all
  exact record_reads loaded _ (by simp [Fields.names]) _ apart
    (.required all (by simp) (u64_reads rendering storable.1)
    (.optional all (by simp) (combinator_reads rendering loaded combinator)
    (.optional all (by simp) (array_reads rendering loaded inner)
    .nil)))

end Conditions

section Members

variable {render : Value → Document} (rendering : Rendering render)

include rendering

theorem member_within {member : Member} (storable : member.Storable) {origin : Origin}
    (loaded : origin.Loaded) {levels : Nat} (room : (render member.encode).height < levels) :
    Member.decodeWithin levels origin (render member.encode) = .ok member := by
  have aside : (Origin.buffered true).Loaded := trivial
  induction member using Member.induction generalizing origin levels with
  | condition c =>
      obtain ⟨levels, rfl⟩ := Nat.exists_eq_add_one_of_ne_zero (Nat.ne_zero_of_lt room)
      rw [Member.decodeWithin, no_fault_loaded loaded, Member.encode,
        condition_reads rendering aside storable]
      rfl
  | group id combinator members ih =>
      obtain ⟨levels, rfl⟩ := Nat.exists_eq_add_one_of_ne_zero (Nat.ne_zero_of_lt room)
      -- The trial as a condition comes first and fails for the kind.
      obtain ⟨error, refused⟩ := group_no_condition rendering aside
        ((render (Group.encode ⟨id, combinator, members⟩)).height + 1) ⟨id, combinator, members⟩
      have inner : ∀ m ∈ members,
          Member.decodeWithin levels (.buffered true) (render m.encode) = .ok m := by
        intro m place
        have below := height_below rendering (entry_names ⟨id, combinator, members⟩)
          (group_members_entry ⟨id, combinator, members⟩) (List.mem_map_of_mem place)
        refine ih m place ((members_storable members).mp storable.2 m place) aside ?_
        rw [Member.encode, group_entries] at room
        omega
      have read : Group.decodeWith (Member.decodeWithin levels) (.buffered true)
          (render (Group.encode ⟨id, combinator, members⟩)) = .ok ⟨id, combinator, members⟩ :=
        group_content rendering aside storable inner
      rw [Member.decodeWithin, no_fault_loaded loaded, Member.encode, Condition.decode, refused]
      dsimp only
      rw [read]
      rfl

variable {origin : Origin} (loaded : origin.Loaded)

include loaded

theorem group_reads {group : Group} (storable : group.Storable) :
    Group.decode origin (render group.encode) = .ok group := by
  refine group_content rendering loaded storable fun member place => ?_
  have stored : member.Storable := by
    cases group
    exact (members_storable _).mp storable.2 member place
  exact member_within rendering stored loaded (Nat.lt_succ_self _)

theorem criteria_reads {criteria : Criteria} (storable : criteria.Storable) :
    Criteria.decode origin (render criteria.encode) = .ok criteria := by
  obtain ⟨conditions, groups, combinator⟩ := criteria
  rw [Criteria.encode, encode_all_map]
  refine object_reads rendering (by simp) fun written all => ?_
  exact record_reads loaded _ (by simp [Fields.names]) _ (all.distinct (by simp))
    (.optional all (by simp) (array_reads rendering loaded fun condition place =>
        condition_reads rendering loaded (storable.conditions condition place))
    (.optional all (by simp) (array_reads rendering loaded fun group place =>
        group_reads rendering loaded (storable.groups group place))
    (.optional all (by simp) (combinator_reads rendering loaded combinator)
    .nil)))

theorem segment_reads {segment : Segment} (storable : segment.criteria.Storable) :
    Segment.decode origin (render segment.encode) = .ok segment := by
  obtain ⟨id, name, dataset, criteria⟩ := segment
  rw [Segment.encode]
  refine object_reads rendering (by simp) fun written all => ?_
  exact record_reads loaded _ (by simp [Fields.names]) _ (all.distinct (by simp))
    (.required all (by simp) (text_reads rendering id)
    (.required all (by simp) (text_reads rendering name)
    (.required all (by simp) (text_reads rendering dataset)
    (.optional all (by simp) (criteria_reads rendering loaded storable)
    .nil))))

end Members

/-- What is written for a tree, and for a segment with the tree, is read back as it was, whether the
members of objects stand as they are written or by name. -/
theorem payload_decodes_back {criteria : Criteria} (storable : criteria.Storable) :
    (decodeFrom Criteria.decode criteria.encode = .ok criteria ∧
      decodeFrom Criteria.decode criteria.encode.byName = .ok criteria) ∧
    ∀ segment : Segment, segment.criteria = criteria →
      decodeFrom Segment.decode segment.encode = .ok segment ∧
        decodeFrom Segment.decode segment.encode.byName = .ok segment := by
  have loaded : Origin.value.Loaded := trivial
  refine ⟨⟨criteria_reads rendering_as_is loaded storable,
    criteria_reads rendering_by_name loaded storable⟩, ?_⟩
  rintro segment rfl
  exact ⟨segment_reads rendering_as_is loaded storable,
    segment_reads rendering_by_name loaded storable⟩

/-- A group in a group, an event with names that are not known, fields that are absent, an object as
a value, and numbers at their limits. -/
theorem nested_payload_decodes_back :
    let filter : Filter := ⟨2 ^ 64 - 1, "tags", .unknown,
      .object [("a", .array [.null, .number (.float 0x3ff8000000000000)]), ("b", .object [])],
      some (.bool false)⟩
    let plain : Filter := ⟨7, "type", .equals, .null, none⟩
    let event : Event := ⟨0, "customer_id", "id", .unknown, some .unknown, 2 ^ 32 - 1,
      some (-2 ^ 63), none, .or, [.filter filter, .filter plain], .and,
      [⟨5, "products", "product_id", ["brand"], .or, [plain]⟩]⟩
    let criteria : Criteria := ⟨[.event event],
      [⟨3, .or, [.condition (.filter plain), .group ⟨4, .and, [.condition (.event event)]⟩]⟩], .or⟩
    criteria.Storable ∧
      decodeFrom Criteria.decode criteria.encode.byName = .ok criteria ∧
      let segment : Segment := ⟨"segment:vip", "VIP", "customers", criteria⟩
      decodeFrom Segment.decode segment.encode.byName = .ok segment := by
  intro filter plain event criteria
  have filterFits : filter.Storable := by
    refine ⟨by decide, ?_, ?_⟩
    · have apart : "a" < "b" := by decide +kernel
      simpa [filter, Value.Ordered, Value.AllOrdered, Value.MembersOrdered] using apart
    · simp [filter, Value.Ordered]
  have plainFits : plain.Storable :=
    ⟨by decide, trivial, by simp [plain]⟩
  have eventFits : event.Storable := by
    refine ⟨by decide, by decide, by simp, ⟨filterFits, plainFits, trivial⟩, ?_⟩
    simpa using ⟨by decide, by simpa using plainFits⟩
  have storable : criteria.Storable := by
    refine ⟨?_, ?_⟩
    · simpa [criteria, Condition.Storable] using eventFits
    · simpa [criteria] using ⟨by decide, plainFits, ⟨by decide, eventFits, trivial⟩, trivial⟩
  have back := payload_decodes_back storable
  exact ⟨storable, back.1.2, (back.2 ⟨"segment:vip", "VIP", "customers", criteria⟩ rfl).2⟩

end Cohort
