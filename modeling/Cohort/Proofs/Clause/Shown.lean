import Cohort.Proofs.Clause.Selection

/-!
Which clauses are blank. A blank clause is left out of the fold it stands in; any other clause stands
in the text of the fold as it is.
-/

namespace Cohort

open Text (isBlankText)

@[simp]
theorem blank_append (front back : String) :
    isBlankText (front ++ back) = (isBlankText front && isBlankText back) := by
  simp [isBlankText]

@[simp]
theorem blank_empty : isBlankText "" = true :=
  rfl

def StandsIn (part text : String) : Prop :=
  ∃ front back, text = front ++ part ++ back

namespace StandsIn

theorem refl (text : String) : StandsIn text text :=
  ⟨"", "", by simp⟩

theorem empty (text : String) : StandsIn "" text :=
  ⟨"", text, by simp⟩

theorem around (front part back : String) : StandsIn part (front ++ part ++ back) :=
  ⟨front, back, rfl⟩

theorem trans {first second third : String} (inner : StandsIn first second)
    (outer : StandsIn second third) : StandsIn first third := by
  obtain ⟨front, back, rfl⟩ := inner
  obtain ⟨before, behind, rfl⟩ := outer
  exact ⟨before ++ front, back ++ behind, by simp [String.append_assoc]⟩

theorem filled {part text : String} (inside : StandsIn part text)
    (filled : isBlankText part = false) : isBlankText text = false := by
  obtain ⟨front, back, rfl⟩ := inside
  simp [filled]

theorem intercalate (separator : String) {part : String} {parts : List String}
    (member : part ∈ parts) : StandsIn part (separator.intercalate parts) := by
  induction parts with
  | nil => cases member
  | cons first rest ih =>
      by_cases last : rest = []
      · subst last
        obtain rfl : part = first := by simpa using member
        simpa using refl part
      · rw [String.intercalate_cons_of_ne_nil last]
        rcases List.mem_cons.mp member with rfl | member
        · exact ⟨"", separator ++ separator.intercalate rest, by simp [String.append_assoc]⟩
        · exact (ih member).trans ⟨first ++ separator, "", by simp⟩

end StandsIn

theorem intercalate_blank (separator : String) {parts : List String}
    (filled : ∀ part ∈ parts, isBlankText part = false) :
    isBlankText (separator.intercalate parts) = parts.isEmpty := by
  cases parts with
  | nil => rfl
  | cons part rest =>
      exact (StandsIn.intercalate separator List.mem_cons_self).filled
        (filled part List.mem_cons_self)

theorem around_filled (text : String) : isBlankText ("(" ++ text ++ ")") = false := by
  have opening : isBlankText "(" = false := by decide
  simp [opening]

/-- A fold is blank just if all its clauses are. -/
theorem fold_blank (combinator : Combinator) (clauses : List String) :
    isBlankText (foldClauses combinator clauses) = clauses.all isBlankText := by
  have filled : ∀ part ∈ (clauses.filter fun clause => !isBlankText clause).map
      (fun clause => "(" ++ clause ++ ")"), isBlankText part = false := by
    intro part member
    obtain ⟨clause, _, rfl⟩ := List.mem_map.mp member
    exact around_filled clause
  rw [foldClauses, intercalate_blank _ filled, Bool.eq_iff_iff]
  simp [List.filter_eq_nil_iff]

/-- A clause that is not left out stands in the fold as it is. -/
theorem stands_in_fold {combinator : Combinator} {clauses : List String} {clause : String}
    (member : clause ∈ clauses) (filled : isBlankText clause = false) :
    StandsIn clause (foldClauses combinator clauses) := by
  have kept : "(" ++ clause ++ ")" ∈ (clauses.filter fun clause => !isBlankText clause).map
      (fun clause => "(" ++ clause ++ ")") :=
    List.mem_map_of_mem (List.mem_filter.mpr ⟨member, by simpa using filled⟩)
  exact (StandsIn.around "(" clause ")").trans (StandsIn.intercalate _ kept)

structure Filter.IsComplete (filter : Filter) : Prop where
  known : filter.operator ≠ .unknown
  upper : filter.operator = .between → filter.value2.isSome
  elements : filter.operator = .containsAll → elementsOf filter.value ≠ []

theorem filter_filled (table : String) {filter : Filter} (complete : filter.IsComplete) :
    isBlankText (filter.clause table) = false := by
  obtain ⟨id, field, operator, value, value2⟩ := filter
  have dot : isBlankText "." = false := by decide
  have call : isBlankText "JSON_LENGTH(" = false := by decide
  cases operator with
  | between =>
      obtain ⟨upper, rfl⟩ := Option.isSome_iff_exists.mp (complete.upper rfl)
      simp [Filter.clause, dot]
  | containsAll =>
      obtain ⟨element, rest, elements⟩ := List.exists_cons_of_ne_nil (complete.elements rfl)
      simp [Filter.clause, fold_blank, elements, dot]
  | unknown => exact absurd rfl complete.known
  | _ => simp [Filter.clause, dot, call]

theorem filter_empty (table : String) {filter : Filter} (incomplete : ¬filter.IsComplete) :
    filter.clause table = "" := by
  obtain ⟨id, field, operator, value, value2⟩ := filter
  cases operator with
  | between =>
      cases value2 with
      | none => rfl
      | some upper => exact absurd ⟨by simp, by simp, by simp⟩ incomplete
  | containsAll =>
      by_cases none_ : elementsOf value = []
      · simp [Filter.clause, none_, foldClauses]
      · exact absurd ⟨by simp, by simp, fun _ => none_⟩ incomplete
  | unknown => rfl
  | _ => exact absurd ⟨by simp, by simp, by simp⟩ incomplete

theorem filter_shown_iff (table : String) (filter : Filter) :
    isBlankText (filter.clause table) = false ↔ filter.IsComplete := by
  constructor
  · intro filled
    by_contra incomplete
    simp [filter_empty table incomplete] at filled
  · exact filter_filled table

theorem event_shown_iff (source : EventSource) (outer : String) (event : Event) :
    isBlankText (event.clause source outer) = false ↔ event.eventType ≠ .unknown := by
  have query : isBlankText "EXISTS (" = false := by decide
  have noQuery : isBlankText "NOT EXISTS (" = false := by decide
  cases type : event.eventType <;> simp [Event.clause, type, query, noQuery]

end Cohort
