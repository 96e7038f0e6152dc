import Cohort.Proofs.Sql.Tail
import Cohort.Proofs.Sql.Yielding

/-!
The names in a statement. Where none of them is quoted, all of them are plain, and so are those in
what is read of the statement.
-/

namespace Cohort

open Sql
open Text (isBlank)

def Sql.Token.isQuotedName (token : Token) : Bool :=
  match token.kind with
  | .identifier name => token.lexeme != name.toList
  | _ => false

theorem scan_read {bound offset : Nat} {text : List Char} {token : Token}
    (member : token ∈ scan bound offset text) :
    ∃ c cs, token.kind = (readToken c cs).1 ∧ token.lexeme = c :: (readToken c cs).2.1 := by
  induction bound generalizing offset text with
  | zero => simp [scan] at member
  | succ bound ih =>
      simp only [scan] at member
      split at member
      · simp at member
      · next c cs _ =>
          rcases List.mem_cons.mp member with rfl | member
          · exact ⟨c, cs, rfl, rfl⟩
          · exact ih member

theorem unquoted_plain {c : Char} {cs : List Char} {name : String}
    (found : (readToken c cs).1 = .identifier name)
    (unquoted : c :: (readToken c cs).2.1 = name.toList) : IsPlain name := by
  revert found unquoted
  fun_cases readToken c cs
  case case19 raw rest read =>
    intro found unquoted
    have same : String.ofList raw = name := by simpa using found
    have count := congrArg List.length unquoted
    simp only [← same, String.toList_ofList, List.length_cons, List.length_append,
      List.length_nil] at count
    omega
  case case22 noDigit start word =>
    intro found unquoted
    have letters : ∀ d ∈ word, isWordChar d = true := fun d member => List.mem_takeWhile_imp member
    have whole := @kinds_word c word [] (by simpa using start) letters (by simp)
    have shape : name.toList = c :: word := unquoted.symm
    have kept : wordKind (c :: word) = .identifier name := found
    rw [List.append_nil, kept] at whole
    rw [IsPlain, kinds_of_tokenize, shape, whole]
    rfl
  all_goals simp

theorem trim_start_parts (cs : List Char) :
    ∃ lead, cs = lead ++ Text.trimStart cs ∧ ∀ c ∈ lead, isBlank c = true :=
  ⟨cs.takeWhile isBlank, (List.takeWhile_append_dropWhile).symm,
    fun _ member => List.mem_takeWhile_imp member⟩

theorem trim_end_parts (cs : List Char) :
    ∃ trail, cs = Text.trimEnd cs ++ trail ∧ ∀ c ∈ trail, isBlank c = true := by
  obtain ⟨lead, shape, blank⟩ := trim_start_parts cs.reverse
  refine ⟨lead.reverse, ?_, by simpa using blank⟩
  have turned := congrArg List.reverse shape
  simpa [Text.trimStart, Text.trimEnd] using turned

/-- Normalizing a statement neither adds nor takes away names. -/
theorem normalized_names (sql name : String) :
    .identifier name ∈ kinds (normalizeStatement sql).toList ↔
      .identifier name ∈ kinds sql.toList := by
  obtain ⟨lead, front, blank⟩ := trim_start_parts sql.toList
  obtain ⟨trail, back, blank'⟩ := trim_end_parts (Text.trimStart sql.toList)
  have idle : Idle trail := fun c member => .inl (blank' c member)
  have semicolon : Idle [';'] := by simp [Idle]
  have core : (Text.trim sql).toList = Text.trimEnd (Text.trimStart sql.toList) := by
    simp [Text.trim]
  have trimmed : .identifier name ∈ kinds (Text.trim sql).toList ↔
      .identifier name ∈ kinds sql.toList := by
    rw [front, kinds_blanks blank, core]
    nth_rewrite 2 [back]
    exact (names_of_append idle name).symm
  rw [← trimmed]
  simp only [normalizeStatement, String.toList_ofList]
  split
  · exact Iff.rfl
  · exact names_of_append semicolon name

/-- The names of a statement without quoted names are plain. -/
theorem statement_names {sql : String}
    (unquoted : ∀ token ∈ tokenize sql, token.isQuotedName = false) :
    Names IsPlain (tokenize (normalizeStatement sql)) := by
  intro token member name kind
  have listed : .identifier name ∈ kinds (normalizeStatement sql).toList := by
    rw [← kinds_of_tokenize, ← kind]
    exact List.mem_map_of_mem member
  rw [normalized_names, ← kinds_of_tokenize] at listed
  obtain ⟨original, found, same⟩ := List.mem_map.mp listed
  obtain ⟨c, cs, read, lexeme⟩ := scan_read found
  have bare := unquoted original found
  rw [read] at same
  simp only [Token.isQuotedName, read, same, bne_eq_false_iff_eq, lexeme] at bare
  exact unquoted_plain same bare

variable {good : String → Prop}

theorem names_until_semicolon {tokens : List Token} (names : Names good tokens) (depth : Nat) :
    Names good (untilSemicolon depth tokens) := by
  induction tokens generalizing depth with
  | nil => exact names
  | cons token rest ih =>
      have behind := ih names.tail (depthAfter depth token)
      rw [untilSemicolon]
      split
      · simp [Made]
      · intro other member
        rcases List.mem_cons.mp member with rfl | member
        · exact names other List.mem_cons_self
        · exact behind other member

theorem names_where_body {tokens body : List Token} (names : Names good tokens) {depth : Nat}
    (found : whereBody depth tokens = some body) : Names good body := by
  induction tokens generalizing depth with
  | nil => simp [whereBody] at found
  | cons token rest ih =>
      rw [whereBody] at found
      split at found
      · obtain rfl := Option.some.inj found
        exact names_until_semicolon names.tail 0
      · exact ih names.tail found

theorem outer_dataset_good {tokens : List Token} (names : Names good tokens) {depth : Nat}
    {dataset : String} (found : outerDataset depth tokens = some dataset) : good dataset := by
  induction tokens generalizing depth with
  | nil => simp [outerDataset] at found
  | cons token rest ih =>
      have read := yields_name names.tail
      simp only [outerDataset] at found
      split at found
      · next name behind _ same =>
          obtain rfl := Option.some.inj found
          exact (read _ _ same).1 _ rfl
      · exact ih names.tail found

theorem recovered_dataset_good {sql name : String}
    (names : Names good (tokenize (normalizeStatement sql)))
    (found : (Recovered.ofStatement sql).dataset = some name) : good name := by
  simp only [Recovered.ofStatement] at found
  generalize tokenize (normalizeStatement sql) = tokens at names found
  refine @outer_dataset_good good tokens names 0 name (Eq.trans ?_ found)
  split
  · rfl
  · split
    · rfl
    · next expr _ _ =>
        generalize (recoverCriteria expr).run {} = result
        obtain ⟨criteria, ledger⟩ := result
        rfl

end Cohort
