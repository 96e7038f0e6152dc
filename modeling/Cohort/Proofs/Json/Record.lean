import Cohort.Json.Record
import Cohort.Proofs.Json.Rendering

/-!
Records read off objects. The order of the members plays no part: a record is read if every field
finds what it reads under its name, or may be absent and has no member.
-/

namespace Cohort.Json

variable {α β : Type} {αs : List Type}

/-- What was read before, so that nothing in it can be broken off. -/
def Origin.Loaded : Origin → Prop
  | .text _ => False
  | .value | .buffered _ => True

theorem enter_loaded {origin : Origin} (loaded : origin.Loaded) : origin.enter = .ok origin := by
  cases origin with
  | text room => cases loaded
  | value => rfl
  | buffered shared => rfl

theorem ignored_loaded {origin : Origin} (loaded : origin.Loaded) (document : Document) :
    decodeIgnored origin document = .ok () := by
  cases origin with
  | text room => cases loaded
  | value => rfl
  | buffered shared => rfl

theorem no_fault_loaded {origin : Origin} (loaded : origin.Loaded) (document : Document) :
    origin.fault? document = none := by
  cases origin with
  | text room => cases loaded
  | value => rfl
  | buffered shared => rfl

theorem variant_loaded {origin : Origin} (loaded : origin.Loaded) (choose : String → Decoded α)
    (name : String) : decodeVariant choose origin (.string name) = choose name := by
  cases origin with
  | text room => cases loaded
  | value => rfl
  | buffered shared => rfl

def Row.cons (value : α) (row : Row αs) : Row (α :: αs) :=
  (value, row)

def Slots.cons (slot : Option α) (slots : Slots αs) : Slots (α :: αs) :=
  (slot, slots)

def Fields.names : {αs : List Type} → Fields αs → List String
  | _, .nil => []
  | _, .cons field rest => field.name :: rest.names

inductive Fields.Reads (origin : Origin) (members : List (String × Document)) :
    {αs : List Type} → Fields αs → Row αs → Prop where
  | nil : Reads origin members .nil ()
  | present {γ : Type} {αs : List Type} {field : Field γ} {rest : Fields αs}
      {document : Document} {value : γ} {row : Row αs} (found : (field.name, document) ∈ members)
      (read : field.decode origin document = .ok value) (others : Reads origin members rest row) :
      Reads origin members (.cons field rest) (.cons value row)
  | absent {γ : Type} {αs : List Type} {field : Field γ} {rest : Fields αs} {value : γ}
      {row : Row αs} (missing : field.name ∉ members.map Prod.fst)
      (default : field.absent = some value) (others : Reads origin members rest row) :
      Reads origin members (.cons field rest) (.cons value row)

@[simp]
theorem required_name (name : String) (decode : Decoder α) : (required name decode).name = name :=
  rfl

@[simp]
theorem optional_name (name : String) (decode : Decoder α) (absent : α) :
    (Json.optional name decode absent).name = name := rfl

namespace Fields.Reads

variable {render : Value → Document} {members : List (String × Value)} {origin : Origin}
  {written : List (String × Document)} {name : String} {decode : Decoder α} {value : Value}
  {read : α} {rest : Fields αs} {row : Row αs}

theorem required (all : Written render members written) (place : (name, value) ∈ members)
    (inner : decode origin (render value) = .ok read) (others : Reads origin written rest row) :
    Reads origin written (.cons (Json.required name decode) rest) (.cons read row) :=
  .present (all.mem place) inner others

theorem optional {absent : α} (all : Written render members written)
    (place : (name, value) ∈ members) (inner : decode origin (render value) = .ok read)
    (others : Reads origin written rest row) :
    Reads origin written (.cons (Json.optional name decode absent) rest) (.cons read row) :=
  .present (all.mem place) inner others

end Fields.Reads

theorem put_field (origin : Origin) (name : String) (document : Document) (field : Field α)
    (rest : Fields αs) (slot : Option α) (slots : Slots αs) :
    (Fields.cons field rest).put? origin name document (.cons slot slots) =
      if name = field.name then
        if slot.isSome then some (.error (.duplicateField name))
        else some ((field.decode origin document).map fun value => .cons (some value) slots)
      else (rest.put? origin name document slots).map fun put =>
        put.map fun slots => .cons slot slots := rfl

theorem fill_field (field : Field α) (rest : Fields αs) (slot : Option α) (slots : Slots αs) :
    (Fields.cons field rest).fill (.cons slot slots) = match slot.or field.absent with
      | none => .error (.missingField field.name)
      | some value => (rest.fill slots).map fun row => .cons value row := rfl

theorem put_all_cons (fields : Fields αs) (origin : Origin) (slots : Slots αs) (name : String)
    (document : Document) (rest : List (String × Document)) :
    fields.putAll origin slots (sound ((name, document) :: rest)) = (do
      let slots ← match fields.put? origin name document slots with
        | some put => put
        | none => (decodeIgnored origin document).map fun _ => slots
      fields.putAll origin slots (sound rest)) := rfl

theorem put_other {origin : Origin} {name : String} (document : Document) {fields : Fields αs}
    (other : name ∉ fields.names) (slots : Slots αs) :
    fields.put? origin name document slots = none := by
  induction fields with
  | nil => rfl
  | cons field rest ih =>
      obtain ⟨slot, slots⟩ := slots
      rw [Fields.names, List.mem_cons, not_or] at other
      change (Fields.cons field rest).put? origin name document (.cons slot slots) = none
      rw [put_field, if_neg other.1, ih other.2]
      rfl

/-- A member that no field reads makes no difference. -/
theorem put_all_other {origin : Origin} (loaded : origin.Loaded) {name : String}
    {document : Document} {fields : Fields αs} (other : name ∉ fields.names) (slots : Slots αs)
    (rest : List (String × Document)) :
    fields.putAll origin slots (sound ((name, document) :: rest)) =
      fields.putAll origin slots (sound rest) := by
  rw [put_all_cons, put_other document other, ignored_loaded loaded]
  rfl

/-- Members without the name of the first field are for the other fields. -/
theorem put_all_behind {origin : Origin} (loaded : origin.Loaded) {field : Field α}
    {rest : Fields αs} {members : List (String × Document)}
    (missing : field.name ∉ members.map Prod.fst) (slot : Option α) {slots filled : Slots αs}
    (others : rest.putAll origin slots (sound members) = .ok filled) :
    (Fields.cons field rest).putAll origin (.cons slot slots) (sound members) =
      .ok (.cons slot filled) := by
  induction members generalizing slots with
  | nil => cases others; rfl
  | cons member behind ih =>
      obtain ⟨name, document⟩ := member
      rw [List.map_cons, List.mem_cons, not_or] at missing
      rw [put_all_cons] at others ⊢
      rw [put_field, if_neg (Ne.symm missing.1)]
      cases put : rest.put? origin name document slots with
      | none =>
          rw [put, ignored_loaded loaded] at others
          rw [ignored_loaded loaded]
          exact ih missing.2 others
      | some result =>
          rw [put] at others
          cases result with
          | error error => cases others
          | ok slots => exact ih missing.2 others

theorem put_all_first {origin : Origin} (loaded : origin.Loaded) {field : Field α}
    {rest : Fields αs} (apart : field.name ∉ rest.names) {members : List (String × Document)}
    (distinct : (members.map Prod.fst).Nodup) {document : Document} {value : α}
    (found : (field.name, document) ∈ members) (read : field.decode origin document = .ok value)
    {slots filled : Slots αs} (others : rest.putAll origin slots (sound members) = .ok filled) :
    (Fields.cons field rest).putAll origin (.cons none slots) (sound members) =
      .ok (.cons (some value) filled) := by
  -- Induction on the members, with the slots that are filled in front of the field's own member.
  induction members generalizing slots with
  | nil => cases found
  | cons member behind ih =>
      obtain ⟨name, document'⟩ := member
      rw [List.map_cons, List.nodup_cons] at distinct
      by_cases own : name = field.name
      · -- This is the member of the first field, and there is no other one.
        subst own
        have same : document = document' := by
          rcases List.mem_cons.mp found with here | behind
          · exact congrArg Prod.snd here
          · exact absurd (List.mem_map_of_mem behind) distinct.1
        subst same
        rw [put_all_other loaded apart] at others
        rw [put_all_cons, put_field, if_pos rfl, if_neg (by simp), read]
        exact put_all_behind loaded distinct.1 (some value) others
      · have place : (field.name, document) ∈ behind := by
          rcases List.mem_cons.mp found with here | behind
          · exact absurd (congrArg Prod.fst here).symm own
          · exact behind
        rw [put_all_cons] at others ⊢
        rw [put_field, if_neg own]
        cases put : rest.put? origin name document' slots with
        | none =>
            rw [put, ignored_loaded loaded] at others
            rw [ignored_loaded loaded]
            exact ih distinct.2 place others
        | some result =>
            rw [put] at others
            cases result with
            | error error => cases others
            | ok slots => exact ih distinct.2 place others

/-- Slots that the members leave and that the row fills. -/
theorem reads_filled {origin : Origin} (loaded : origin.Loaded)
    {members : List (String × Document)} (distinct : (members.map Prod.fst).Nodup)
    {fields : Fields αs} {row : Row αs} (reads : fields.Reads origin members row)
    (names : fields.names.Nodup) :
    ∃ slots, fields.putAll origin fields.noSlots (sound members) = .ok slots ∧
      fields.fill slots = .ok row := by
  induction reads with
  | nil =>
      refine ⟨(), ?_, rfl⟩
      induction members with
      | nil => rfl
      | cons member behind ih =>
          rw [put_all_other loaded List.not_mem_nil]
          exact ih (List.nodup_cons.mp distinct).2
  | @present α αs field rest document value row found read others ih =>
      rw [Fields.names, List.nodup_cons] at names
      obtain ⟨slots, put, filled⟩ := ih names.2
      refine ⟨.cons (some value) slots, put_all_first loaded names.1 distinct found read put, ?_⟩
      rw [fill_field, filled]
      rfl
  | @absent α αs field rest value row missing default others ih =>
      rw [Fields.names, List.nodup_cons] at names
      obtain ⟨slots, put, filled⟩ := ih names.2
      refine ⟨.cons none slots, put_all_behind loaded missing none put, ?_⟩
      rw [fill_field, Option.none_or, default, filled]
      rfl

/-- A record is read off an object with what its fields read. -/
theorem record_reads {origin : Origin} (loaded : origin.Loaded) (name : String)
    {fields : Fields αs} (names : fields.names.Nodup) (make : Row αs → β)
    {members : List (String × Document)} (distinct : (members.map Prod.fst).Nodup) {row : Row αs}
    (reads : fields.Reads origin members row) :
    decodeRecord name fields make origin (.object (sound members) .closed) = .ok (make row) := by
  obtain ⟨slots, put, filled⟩ := reads_filled loaded distinct reads names
  rw [decodeRecord, enter_loaded loaded]
  change (do
    let slots ← fields.putAll origin fields.noSlots (sound members)
    unlessFault Ending.closed.objectError? ((fields.fill slots).map make)) = _
  rw [put]
  change unlessFault none ((fields.fill slots).map make) = _
  rw [filled]
  rfl

theorem items_read {origin : Origin} {decode : Decoder α} {write : α → Document} {values : List α}
    (each : ∀ value ∈ values, decode origin (write value) = .ok value) :
    decodeItems decode origin (values.map write) = .ok values := by
  induction values with
  | nil => rfl
  | cons value rest ih =>
      have others := ih fun other place => each other (List.mem_cons_of_mem value place)
      rw [List.map_cons, decodeItems, each value List.mem_cons_self, others]
      rfl

theorem list_reads {origin : Origin} (loaded : origin.Loaded) {decode : Decoder α}
    {write : α → Document} {values : List α}
    (each : ∀ value ∈ values, decode origin (write value) = .ok value) :
    decodeList decode origin (.array (values.map write) .closed) = .ok values := by
  rw [decodeList, enter_loaded loaded]
  change (do
    let values ← decodeItems decode origin (values.map write)
    unlessFault Ending.closed.listError? (.ok values)) = _
  rw [items_read each]
  rfl

theorem option_reads {decode : Decoder α} {origin : Origin} {document : Document} {read : α}
    (some_ : document ≠ .null) (inner : decode origin document = .ok read) :
    decodeOption decode origin document = .ok (some read) := by
  rw [decodeOption, inner]
  · rfl
  · exact some_

section Parts

variable {render : Value → Document} (rendering : Rendering render) {origin : Origin}

include rendering

theorem int_reads {n least most : Int} (type : String) (fits : least ≤ n ∧ n ≤ most) :
    decodeInt type least most origin (render (.number (.int n))) = .ok n := by
  rw [rendering.number, decodeInt, if_pos fits]

theorem u64_reads {n : Nat} (fits : n ≤ Decimal.maxU64) :
    decodeU64 origin (render (.nat n)) = .ok n := by
  rw [decodeU64, Value.nat, int_reads rendering "u64" ⟨by omega, by omega⟩]
  rfl

theorem u32_reads {n : Nat} (fits : n ≤ Decimal.maxU32) :
    decodeU32 origin (render (.nat n)) = .ok n := by
  rw [decodeU32, Value.nat, int_reads rendering "u32" ⟨by omega, by omega⟩]
  rfl

theorem i64_reads {n : Int} (fits : -2 ^ 63 ≤ n ∧ n < 2 ^ 63) :
    decodeI64 origin (render (.number (.int n))) = .ok n := by
  have limit : (Decimal.signBit : Int) = 2 ^ 63 := rfl
  exact int_reads rendering "i64" (by omega)

theorem text_reads (s : String) : decodeString origin (render (.string s)) = .ok s := by
  rw [rendering.string]
  rfl

theorem value_reads (loaded : origin.Loaded) {value : Value} (ordered : value.Ordered) :
    decodeValue origin (render value) = .ok value := by
  rw [decodeValue, no_fault_loaded loaded, rendering.value value ordered]
  rfl

theorem variant_reads (loaded : origin.Loaded) {choose : String → Decoded α} {name : String}
    {variant : α} (chosen : choose name = .ok variant) :
    decodeVariant choose origin (render (.string name)) = .ok variant := by
  rw [rendering.string, variant_loaded loaded, chosen]

/-- What is written for a value other than null is no null. -/
theorem not_null {value : Value} (ordered : value.Ordered) (some_ : value ≠ .null) :
    render value ≠ .null := by
  intro same
  refine some_ ?_
  rw [← rendering.value value ordered, same]
  rfl

theorem array_reads (loaded : origin.Loaded) {decode : Decoder α} {encode : α → Value}
    {values : List α}
    (each : ∀ value ∈ values, decode origin (render (encode value)) = .ok value) :
    decodeList decode origin (render (.array (values.map encode))) = .ok values := by
  rw [rendering.array, List.map_map]
  exact list_reads loaded each

/-- An object is read if it is read in whatever order its members are written. -/
theorem object_reads {decode : Decoder α} {members : List (String × Value)} {read : α}
    (apart : (members.map Prod.fst).Nodup)
    (content : ∀ written, Written render members written →
      decode origin (.object (sound written) .closed) = .ok read) :
    decode origin (render (.object members)) = .ok read := by
  obtain ⟨written, all, same⟩ := rendering.object members apart
  rw [same]
  exact content written all

end Parts

end Cohort.Json
