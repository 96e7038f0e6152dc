import Cohort.Proofs.Except
import Cohort.Proofs.Json.Record

/-!
What stands in a document that was read as a record. Every field has read what the record has for
it, under its name in an object or at its index in a list; or there is nothing, and the field may be
absent. A document may come from anywhere, and an object may have members of one name.
-/

namespace Cohort.Json

variable {α β : Type} {αs : List Type}

def memberOf (name : String) : List (Except Fault String × Document) → Option Document
  | [] => none
  | (.ok key, document) :: rest => if name = key then some document else memberOf name rest
  | (.error _, _) :: rest => memberOf name rest

namespace Document

def member? (name : String) : Document → Option Document
  | object members _ => memberOf name members
  | _ => none

/-- What a record has for the field of the name, which is the field at the index. -/
def slot? (index : Nat) (name : String) : Document → Option Document
  | object members _ => memberOf name members
  | array items _ => items[index]?
  | _ => none

def items : Document → List Document
  | array items _ => items
  | _ => []

end Document

theorem member_append (name : String) (front back : List (Except Fault String × Document)) :
    memberOf name (front ++ back) = (memberOf name front).or (memberOf name back) := by
  induction front with
  | nil => rfl
  | cons member rest ih =>
      obtain ⟨key, document⟩ := member
      cases key with
      | error fault => exact ih
      | ok key =>
          simp only [List.cons_append, memberOf]
          split
          · rfl
          · exact ih

theorem member_last (name : String) (document : Document)
    (front : List (Except Fault String × Document)) :
    (memberOf name front = none →
        memberOf name (front ++ [(.ok name, document)]) = some document) ∧
      ∀ key, key ≠ name → memberOf key (front ++ [(.ok name, document)]) = memberOf key front := by
  constructor
  · intro missing
    simp [member_append, missing, memberOf]
  · intro key other
    simp [member_append, memberOf, other]

namespace Fields

inductive Holds (origin : Origin) (members : List (Except Fault String × Document)) :
    {αs : List Type} → Fields αs → Slots αs → Prop where
  | nil : Holds origin members .nil ()
  | filled {γ : Type} {αs : List Type} {field : Field γ} {rest : Fields αs}
      {document : Document} {value : γ} {slots : Slots αs}
      (found : memberOf field.name members = some document)
      (read : field.decode origin document = .ok value) (others : Holds origin members rest slots) :
      Holds origin members (.cons field rest) (.cons (some value) slots)
  | empty {γ : Type} {αs : List Type} {field : Field γ} {rest : Fields αs} {slots : Slots αs}
      (missing : memberOf field.name members = none) (others : Holds origin members rest slots) :
      Holds origin members (.cons field rest) (.cons none slots)

inductive Found (origin : Origin) (find : Nat → String → Option Document) :
    Nat → {αs : List Type} → Fields αs → Row αs → Prop where
  | nil {index : Nat} : Found origin find index .nil ()
  | present {index : Nat} {γ : Type} {αs : List Type} {field : Field γ} {rest : Fields αs}
      {document : Document} {value : γ} {row : Row αs}
      (found : find index field.name = some document)
      (read : field.decode origin document = .ok value)
      (others : Found origin find (index + 1) rest row) :
      Found origin find index (.cons field rest) (.cons value row)
  | absent {index : Nat} {γ : Type} {αs : List Type} {field : Field γ} {rest : Fields αs} {value : γ}
      {row : Row αs} (missing : find index field.name = none) (default : field.absent = some value)
      (others : Found origin find (index + 1) rest row) :
      Found origin find index (.cons field rest) (.cons value row)

end Fields

section Objects

variable {origin : Origin} {members front : List (Except Fault String × Document)}
  {fields : Fields αs}

theorem holds_nothing (origin : Origin) (fields : Fields αs) :
    fields.Holds origin [] fields.noSlots := by
  induction fields with
  | nil => exact .nil
  | cons field rest ih => exact .empty rfl ih

theorem Fields.Holds.congr {slots : Slots αs} (holds : fields.Holds origin front slots)
    (same : ∀ name ∈ fields.names, memberOf name members = memberOf name front) :
    fields.Holds origin members slots := by
  induction holds with
  | nil => exact .nil
  | @filled _ _ field _ _ _ _ found read _ ih =>
      have here := same field.name List.mem_cons_self
      exact .filled (here.trans found) read (ih fun name other => same name (.tail _ other))
  | @empty _ _ field _ _ missing _ ih =>
      have here := same field.name List.mem_cons_self
      exact .empty (here.trans missing) (ih fun name other => same name (.tail _ other))

theorem put_holds {name : String} {document : Document} (distinct : fields.names.Nodup)
    {slots put : Slots αs} (holds : fields.Holds origin front slots)
    (done : fields.put? origin name document slots = some (.ok put)) :
    fields.Holds origin (front ++ [(.ok name, document)]) put := by
  obtain ⟨first, other⟩ := member_last name document front
  induction holds with
  | nil => cases done
  | @filled _ _ field rest _ value slots found read others ih =>
      rw [Fields.names, List.nodup_cons] at distinct
      rw [put_field] at done
      by_cases own : name = field.name
      · rw [if_pos own] at done
        cases done
      · rw [if_neg own] at done
        obtain ⟨result, behind, made⟩ := Option.map_eq_some_iff.mp done
        obtain ⟨slots', rfl, rfl⟩ := map_ok made
        exact .filled ((other _ (Ne.symm own)).trans found) read (ih distinct.2 behind)
  | @empty _ _ field rest slots missing others ih =>
      rw [Fields.names, List.nodup_cons] at distinct
      rw [put_field] at done
      by_cases own : name = field.name
      · subst own
        rw [if_pos rfl, if_neg (by simp)] at done
        obtain ⟨value, read, rfl⟩ := map_ok (Option.some.inj done)
        refine .filled (first missing) read (others.congr fun key among => other key ?_)
        rintro rfl
        exact distinct.1 among
      · rw [if_neg own] at done
        obtain ⟨result, behind, made⟩ := Option.map_eq_some_iff.mp done
        obtain ⟨slots', rfl, rfl⟩ := map_ok made
        exact .empty ((other _ (Ne.symm own)).trans missing) (ih distinct.2 behind)

theorem put_nowhere {name : String} {document : Document} {slots : Slots αs}
    (nowhere : fields.put? origin name document slots = none) : name ∉ fields.names := by
  induction fields with
  | nil => exact List.not_mem_nil
  | cons field rest ih =>
      obtain ⟨slot, slots⟩ := slots
      change (Fields.cons field rest).put? origin name document (.cons slot slots) = none at nowhere
      rw [put_field] at nowhere
      by_cases own : name = field.name
      · rw [if_pos own] at nowhere
        split at nowhere <;> cases nowhere
      · rw [if_neg own] at nowhere
        have behind := ih (Option.map_eq_none_iff.mp nowhere)
        simp [Fields.names, own, behind]

theorem put_all_holds (distinct : fields.names.Nodup) {slots filled : Slots αs}
    (holds : fields.Holds origin front slots)
    (done : fields.putAll origin slots members = .ok filled) :
    fields.Holds origin (front ++ members) filled := by
  -- Induction on the members that are left, with those that were put before them in front.
  induction members generalizing front slots with
  | nil =>
      rw [Fields.putAll] at done
      cases done
      simpa using holds
  | cons member rest ih =>
      obtain ⟨key, document⟩ := member
      cases key with
      | error fault => cases done
      | ok name =>
          cases found : fields.put? origin name document slots with
          | some result =>
              rw [Fields.putAll, found] at done
              obtain ⟨next, put, behind⟩ := bind_ok done
              have step := put_holds distinct holds (found.trans (congrArg some put))
              simpa using ih step behind
          | none =>
              rw [Fields.putAll, found] at done
              obtain ⟨next, skipped, behind⟩ := bind_ok done
              obtain ⟨_, _, rfl⟩ := map_ok skipped
              have nowhere := put_nowhere found
              have step : fields.Holds origin (front ++ [(.ok name, document)]) slots := by
                refine holds.congr fun key among => (member_last name document front).2 key ?_
                rintro rfl
                exact nowhere among
              simpa using ih step behind

theorem fill_found {slots : Slots αs} (holds : fields.Holds origin members slots) {row : Row αs}
    (filled : fields.fill slots = .ok row) (index : Nat) :
    fields.Found origin (fun _ name => memberOf name members) index row := by
  induction holds generalizing index with
  | nil =>
      cases filled
      exact .nil
  | @filled _ _ field rest _ value slots found read others ih =>
      rw [fill_field] at filled
      obtain ⟨row, behind, rfl⟩ := map_ok filled
      exact .present found read (ih behind _)
  | @empty _ _ field rest slots missing others ih =>
      rw [fill_field, Option.none_or] at filled
      cases default : field.absent with
      | none =>
          rw [default] at filled
          cases filled
      | some value =>
          rw [default] at filled
          obtain ⟨row, behind, rfl⟩ := map_ok filled
          exact .absent missing default (ih behind _)

end Objects

theorem fill_from_found {origin : Origin} {fault : Option SyntaxError} {short : Nat → DecodeError}
    {fields : Fields αs} {items rest : List Document} {index : Nat} (place : items.drop index = rest)
    {row : Row αs} (done : fields.fillFrom origin fault short index rest = .ok row) :
    fields.Found origin (fun index _ => items[index]?) index row := by
  induction fields generalizing rest index with
  | nil =>
      cases done
      exact .nil
  | cons field others ih =>
      cases rest with
      | nil =>
          have none_ : items[index]? = none := by
            simpa using List.drop_eq_nil_iff.mp place
          cases fault with
          | some error => cases done
          | none =>
              cases default : field.absent with
              | none =>
                  rw [Fields.fillFrom, default] at done
                  cases done
              | some value =>
                  rw [Fields.fillFrom, default] at done
                  obtain ⟨row, behind, rfl⟩ := map_ok done
                  have further : items.drop (index + 1) = [] := by
                    rw [← List.drop_drop, place, List.drop_nil]
                  exact .absent none_ default (ih further behind)
      | cons item behind =>
          have here : items[index]? = some item := by
            rw [← List.head?_drop, place, List.head?_cons]
          have further : items.drop (index + 1) = behind := by
            rw [← List.drop_drop, place, List.drop_one, List.tail_cons]
          rw [Fields.fillFrom] at done
          obtain ⟨value, read, done⟩ := bind_ok done
          obtain ⟨row, filled, made⟩ := bind_ok done
          cases made
          exact .present here read (ih further filled)

theorem Fields.Found.head {origin : Origin} {find : Nat → String → Option Document} {index : Nat}
    {γ : Type} {field : Field γ} {rest : Fields αs} {row : Row (γ :: αs)}
    (found : (Fields.cons field rest).Found origin find index row) :
    ∃ value others, row = .cons value others ∧
      ((∃ document, find index field.name = some document ∧
          field.decode origin document = .ok value) ∨
        (find index field.name = none ∧ field.absent = some value)) ∧
      rest.Found origin find (index + 1) others := by
  cases found with
  | present found read others => exact ⟨_, _, rfl, .inl ⟨_, found, read⟩, others⟩
  | absent missing default others => exact ⟨_, _, rfl, .inr ⟨missing, default⟩, others⟩

/-- A field has nothing where there has to be something, or does not read what there is. -/
def Fields.Refuses (origin : Origin) (find : Nat → String → Option Document) :
    Nat → {αs : List Type} → Fields αs → Prop
  | _, _, .nil => False
  | index, _, .cons field rest =>
      (find index field.name = none ∧ field.absent = none) ∨
        (∃ document, find index field.name = some document ∧
          ∀ value, field.decode origin document ≠ .ok value) ∨
        rest.Refuses origin find (index + 1)

theorem Fields.Found.not_refused {origin : Origin} {find find' : Nat → String → Option Document}
    {index : Nat} {fields : Fields αs} {row : Row αs}
    (found : fields.Found origin find index row)
    (same : ∀ index, ∀ name ∈ fields.names, find' index name = find index name) :
    ¬fields.Refuses origin find' index := by
  induction found with
  | nil => exact id
  | @present index _ _ field _ _ _ _ found read others ih =>
      have here := same index field.name List.mem_cons_self
      rw [found] at here
      rintro (⟨missing, -⟩ | ⟨document, there, refused⟩ | behind)
      · rw [here] at missing
        cases missing
      · rw [here] at there
        cases there
        exact refused _ read
      · exact ih (fun index name among => same index name (.tail _ among)) behind
  | @absent index _ _ field _ _ _ missing default others ih =>
      have here := same index field.name List.mem_cons_self
      rw [missing] at here
      rintro (⟨-, none_⟩ | ⟨document, there, -⟩ | behind)
      · rw [default] at none_
        cases none_
      · rw [here] at there
        cases there
      · exact ih (fun index name among => same index name (.tail _ among)) behind

theorem no_fault {fault : Option SyntaxError} {answer : Decoded α} {value : α}
    (done : unlessFault fault answer = .ok value) : answer = .ok value := by
  cases fault with
  | none => exact done
  | some error => cases done

/-- A record that was read has found all its fields. -/
theorem record_found {origin : Origin} {name : String} {fields : Fields αs}
    (distinct : fields.names.Nodup) {make : Row αs → β} {document : Document} {read : β}
    (done : decodeRecord name fields make origin document = .ok read) :
    ∃ inner row, origin.enter = .ok inner ∧ fields.Found inner document.slot? 0 row ∧
      make row = read := by
  cases document with
  | object members ending =>
      rw [decodeRecord] at done
      obtain ⟨inner, entered, done⟩ := bind_ok done
      obtain ⟨slots, put, done⟩ := bind_ok done
      obtain ⟨row, filled, made⟩ := map_ok (no_fault done)
      exact ⟨inner, row, entered, fill_found (put_all_holds distinct (holds_nothing inner fields) put)
        filled 0, made⟩
  | array items ending =>
      rw [decodeRecord] at done
      obtain ⟨inner, entered, done⟩ := bind_ok done
      obtain ⟨row, filled, made⟩ := bind_ok done
      refine ⟨inner, row, entered, fill_from_found (List.drop_zero) filled, ?_⟩
      split at made
      · cases made
      · exact Except.ok.inj made
  | _ => cases done

theorem items_found {origin : Origin} {decode : Decoder α} {items : List Document} {values : List α}
    (done : decodeItems decode origin items = .ok values) :
    List.Forall₂ (fun item value => decode origin item = .ok value) items values := by
  induction items generalizing values with
  | nil =>
      cases done
      exact .nil
  | cons item rest ih =>
      rw [decodeItems] at done
      obtain ⟨value, read, done⟩ := bind_ok done
      obtain ⟨others, behind, made⟩ := bind_ok done
      cases made
      exact .cons read (ih behind)

theorem list_found {origin : Origin} {decode : Decoder α} {document : Document} {values : List α}
    (done : decodeList decode origin document = .ok values) :
    ∃ inner items ending, origin.enter = .ok inner ∧ document = .array items ending ∧
      List.Forall₂ (fun item value => decode inner item = .ok value) items values := by
  cases document with
  | array items ending =>
      rw [decodeList] at done
      obtain ⟨inner, entered, done⟩ := bind_ok done
      obtain ⟨values', read, done⟩ := bind_ok done
      cases no_fault done
      exact ⟨inner, items, ending, entered, rfl, items_found read⟩
  | _ => cases done

end Cohort.Json
