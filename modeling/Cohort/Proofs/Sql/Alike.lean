import Cohort.Proofs.Json.Number

/-!
Texts that are the same apart from what their literals hold. They are scanned as tokens of the same
kinds: a literal neither reaches into the text around it nor is reached by it, whatever it holds.
-/

namespace Cohort.Sql

open Text (isBlank isBlankText quoteMark)

structure Written where
  text : String
  literals : List String

def Written.append (front back : Written) : Written :=
  ⟨front.text ++ back.text, front.literals ++ back.literals⟩

structure Stretch (text : String) : Prop where
  some_ : text ≠ ""
  quiet : tame text.toList = true

theorem Stretch.append {front back : String} (stretch : Stretch front)
    (quiet : tame back.toList = true) : Stretch (front ++ back) := by
  refine ⟨by simp [stretch.some_], ?_⟩
  rw [String.toList_append]
  exact tame_append stretch.quiet quiet

/-- The texts differ in their literals only. Something stands in front of every literal, so that no
quote of another one does. -/
inductive Alike : Written → Written → Prop
  | empty : Alike ⟨"", []⟩ ⟨"", []⟩
  | plain {front : String} (stretch : Stretch front) {first second : Written} :
      Alike first second →
      Alike ⟨front ++ first.text, first.literals⟩ ⟨front ++ second.text, second.literals⟩
  | literal {front : String} (stretch : Stretch front) (text text' : String)
      {first second : Written} :
      Alike first second →
      Alike ⟨front ++ (Text.literal text ++ first.text), text :: first.literals⟩
        ⟨front ++ (Text.literal text' ++ second.text), text' :: second.literals⟩

theorem Alike.append {first second third fourth : Written} (front : Alike first second)
    (back : Alike third fourth) : Alike (first.append third) (second.append fourth) := by
  induction front with
  | empty => simpa [Written.append] using back
  | plain stretch _ ih => simpa [Written.append, String.append_assoc] using Alike.plain stretch ih
  | literal stretch text text' _ ih =>
      simpa [Written.append, String.append_assoc] using Alike.literal stretch text text' ih

theorem alike_plain {text : String} (quiet : tame text.toList = true) :
    Alike ⟨text, []⟩ ⟨text, []⟩ := by
  by_cases empty : text = ""
  · subst empty
    exact .empty
  · simpa using Alike.plain ⟨empty, quiet⟩ .empty

theorem alike_literal {front : String} (stretch : Stretch front) (text text' : String) :
    Alike ⟨front ++ Text.literal text, [text]⟩ ⟨front ++ Text.literal text', [text']⟩ := by
  simpa using Alike.literal stretch text text' .empty

theorem Alike.blank {first second : Written} (alike : Alike first second) :
    isBlankText first.text = isBlankText second.text := by
  induction alike with
  | empty => rfl
  | plain _ _ ih => simp_all [isBlankText]
  | literal _ text text' _ _ => simp [isBlankText, Text.literal, quoteMark, isBlank]

theorem Alike.empty_text {first second : Written} (alike : Alike first second) :
    first.text.isEmpty = second.text.isEmpty := by
  have empty : first.text = "" ↔ second.text = "" := by
    cases alike with
    | empty => rfl
    | plain stretch _ => simp [stretch.some_]
    | literal stretch _ _ _ => simp [stretch.some_]
  rw [Bool.eq_iff_iff, String.isEmpty_iff, String.isEmpty_iff, empty]

theorem Alike.blank_literals {first second : Written} (alike : Alike first second)
    (blank : isBlankText first.text = true) : first.literals = [] ∧ second.literals = [] := by
  induction alike with
  | empty => exact ⟨rfl, rfl⟩
  | plain _ _ ih => exact ih (by simp_all [isBlankText])
  | literal _ text text' _ _ => simp [isBlankText, Text.literal, quoteMark, isBlank] at blank

theorem Alike.filled {first second : Written} (alike : Alike first second) {other : String}
    (quiet : tame other.toList = true) :
    Alike ⟨if first.text.isEmpty then other else first.text, first.literals⟩
      ⟨if second.text.isEmpty then other else second.text, second.literals⟩ := by
  rw [← alike.empty_text]
  cases empty : first.text.isEmpty with
  | true =>
      have blank : isBlankText first.text = true := by
        simp [String.isEmpty_iff.mp empty, isBlankText]
      obtain ⟨one, two⟩ := alike.blank_literals blank
      simpa [one, two] using alike_plain quiet
  | false => simpa using alike

def TokenKind.content? : TokenKind → Option String
  | .string raw => some (String.ofList (Text.undoubleQuotes raw.toList))
  | _ => none

def TokenKind.Alike (first second : TokenKind) : Prop :=
  first = second ∨ (first.content?.isSome ∧ second.content?.isSome)

theorem read_token_no_string {c : Char} (noQuote : opensQuote c = false) (cs : List Char) :
    (readToken c cs).1.content? = none := by
  simp only [opensQuote, Bool.or_eq_false_iff, beq_eq_false_iff_ne] at noQuote
  fun_cases readToken c cs
  case case17 quote _ _ _ => exact absurd quote noQuote.1.1
  case case22 =>
    simp only [wordKind]
    split <;> rfl
  all_goals rfl

/-- Without quotes there are no string tokens. -/
theorem tame_no_string {cs : List Char} (quiet : tame cs = true) :
    (kinds cs).filterMap TokenKind.content? = [] := by
  induction cs, quiet using tame_induction with
  | nil => rfl
  | blank c rest _ _ white ih =>
      rw [kinds_blank white]
      exact ih
  | token c rest _ _ starts noQuote ih =>
      have alone := starts []
      rw [List.append_nil] at alone
      rw [kinds_token alone, List.filterMap_cons_none (read_token_no_string noQuote rest)]
      exact ih

theorem quote_breaks (rest : List Char) : Breaks (quoteMark :: rest) := by
  have word : isWordChar quoteMark = false := by
    simpa [isWordChar, quoteMark] using token_marks_no_word quoteMark.toNat (by decide)
  intro c first
  obtain rfl : quoteMark = c := by simpa using first
  simp only [continuesToken, word]
  rfl

theorem kinds_before_literal {front : List Char} (quiet : tame front = true) (text : String)
    {after : List Char} (stops : after.head? ≠ some quoteMark) :
    kinds (front ++ ((Text.literal text).toList ++ after)) =
      kinds front ++ .string (String.ofList (Text.doubleQuotes text.toList)) :: kinds after := by
  have breaks : Breaks ((Text.literal text).toList ++ after) := by
    simpa [Text.literal] using quote_breaks _
  rw [kinds_append quiet breaks, kinds_literal text stops]

theorem Stretch.no_quote_first {front : String} (stretch : Stretch front) (back : String) :
    (front ++ back).toList.head? ≠ some quoteMark := by
  obtain ⟨some_, quiet⟩ := stretch
  rw [String.toList_append]
  cases shape : front.toList with
  | nil => exact absurd (String.toList_eq_nil_iff.mp shape) some_
  | cons c rest =>
      rw [shape] at quiet
      have other := (tame_of_cons quiet).1
      intro quote
      obtain rfl : c = quoteMark := by simpa using quote
      revert other
      decide

theorem Alike.no_quote_first {first second : Written} (alike : Alike first second) :
    first.text.toList.head? ≠ some quoteMark ∧ second.text.toList.head? ≠ some quoteMark := by
  cases alike with
  | empty => simp
  | plain stretch _ => exact ⟨stretch.no_quote_first _, stretch.no_quote_first _⟩
  | literal stretch _ _ _ => exact ⟨stretch.no_quote_first _, stretch.no_quote_first _⟩

theorem kinds_alike_refl (ks : List TokenKind) : List.Forall₂ TokenKind.Alike ks ks :=
  List.forall₂_same.mpr fun _ _ => .inl rfl

theorem content_doubled (text : String) :
    TokenKind.content? (.string (String.ofList (Text.doubleQuotes text.toList))) = some text := by
  simp [TokenKind.content?, Text.undouble_double]

/-- Alike texts have tokens of the same kinds, and their string tokens hold what was put into their
literals. The text in front carries the stretch without literals that is not scanned yet. -/
theorem Alike.scanned {first second : Written} (alike : Alike first second) {front : List Char}
    (quiet : tame front = true) :
    List.Forall₂ TokenKind.Alike (kinds (front ++ first.text.toList))
        (kinds (front ++ second.text.toList)) ∧
      (kinds (front ++ first.text.toList)).filterMap TokenKind.content? = first.literals ∧
      (kinds (front ++ second.text.toList)).filterMap TokenKind.content? = second.literals := by
  induction alike generalizing front with
  | empty => simpa [tame_no_string quiet] using kinds_alike_refl (kinds front)
  | plain stretch _ ih =>
      have whole := tame_append quiet stretch.quiet
      simpa only [String.toList_append, ← List.append_assoc] using ih whole
  | literal stretch text text' rest ih =>
      have whole := tame_append quiet stretch.quiet
      have stops := rest.no_quote_first
      obtain ⟨kept, one, other⟩ := @ih [] rfl
      simp only [List.nil_append] at kept one other
      simp only [String.toList_append, ← List.append_assoc front]
      rw [kinds_before_literal whole text stops.1, kinds_before_literal whole text' stops.2]
      simp only [List.filterMap_append, tame_no_string whole, List.nil_append,
        List.filterMap_cons_some (content_doubled _), one, other, and_self, and_true]
      refine List.rel_append (kinds_alike_refl _) (.cons (.inr ?_) kept)
      simp [content_doubled]

end Cohort.Sql
