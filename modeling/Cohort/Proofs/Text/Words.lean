import Mathlib
import Cohort.Text.Blank

/-!
The words of a text. Words with single blanks between them are the words of the text that they
make up, and nothing is trimmed off such a text.
-/

namespace Cohort.Text

theorem runs_skip {keep : Char → Bool} {c : Char} (other : keep c = false) (rest : List Char) :
    runs keep (c :: rest) = runs keep rest := by
  simp [runs, other]

theorem runs_front {keep : Char → Bool} {run rest : List Char} (some_ : run ≠ [])
    (kept : ∀ c ∈ run, keep c = true) (stops : ∀ c ∈ rest.head?, keep c = false) :
    runs keep (run ++ rest) = run :: runs keep rest := by
  induction run with
  | nil => exact absurd rfl some_
  | cons c run ih =>
      have first := kept c List.mem_cons_self
      cases run with
      | nil =>
          have ends : startsRun keep rest = false := by
            cases rest with
            | nil => rfl
            | cons d rest => exact stops d (by simp)
          simp [runs, first, ends]
      | cons d run =>
          have behind := ih (List.cons_ne_nil d run)
            fun other member => kept other (List.mem_cons_of_mem c member)
          have starts : startsRun keep (d :: run ++ rest) = true :=
            kept d (List.mem_cons_of_mem c List.mem_cons_self)
          rw [List.cons_append, runs]
          simp only [first, ↓reduceIte, starts, behind]

theorem runs_kept {keep : Char → Bool} (cs : List Char) :
    ∀ run ∈ runs keep cs, run ≠ [] ∧ ∀ c ∈ run, keep c = true := by
  induction cs with
  | nil => simp [runs]
  | cons c cs ih =>
      intro run member
      by_cases first : keep c = true
      · cases starts : startsRun keep cs with
        | false =>
            simp only [runs, first, ↓reduceIte, starts, List.mem_cons] at member
            rcases member with rfl | member
            · simp [first]
            · exact ih run member
        | true =>
            cases shape : runs keep cs with
            | nil =>
                simp only [runs, first, ↓reduceIte, starts, shape, List.mem_singleton] at member
                simp [member, first]
            | cons head others =>
                simp only [runs, first, ↓reduceIte, starts, shape, List.mem_cons] at member
                rw [shape] at ih
                rcases member with rfl | member
                · have kept := ih head List.mem_cons_self
                  simpa [first] using kept.2
                · exact ih run (List.mem_cons_of_mem head member)
      · rw [runs_skip (by simpa using first)] at member
        exact ih run member

theorem runs_some {keep : Char → Bool} {cs : List Char} (some_ : ∃ c ∈ cs, keep c = true) :
    runs keep cs ≠ [] := by
  induction cs with
  | nil => simp at some_
  | cons c cs ih =>
      by_cases first : keep c = true
      · rw [runs]
        simp only [first, ↓reduceIte]
        split <;> simp
      · rw [runs_skip (by simpa using first)]
        refine ih ?_
        simpa [first] using some_

/-- Runs with a single character between any two are the runs of what they make up. -/
theorem runs_intercalate {keep : Char → Bool} {separator : Char} (other : keep separator = false)
    {parts : List (List Char)} (whole : ∀ run ∈ parts, run ≠ [] ∧ ∀ c ∈ run, keep c = true) :
    runs keep ([separator].intercalate parts) = parts := by
  induction parts with
  | nil => rfl
  | cons run rest ih =>
      obtain ⟨some_, kept⟩ := whole run List.mem_cons_self
      have others := ih fun part member => whole part (List.mem_cons_of_mem run member)
      by_cases last : rest = []
      · subst last
        have alone := @runs_front keep run [] some_ kept (by simp)
        simpa [runs] using alone
      · rw [List.intercalate_cons_of_ne_nil last, List.append_assoc, List.singleton_append,
          runs_front some_ kept (by simpa using other), runs_skip other, others]

def IsWord (word : String) : Prop :=
  word.toList ≠ [] ∧ ∀ c ∈ word.toList, isBlank c = false

theorem words_are_words (s : String) : ∀ word ∈ words s, IsWord word := by
  intro word member
  obtain ⟨run, found, rfl⟩ := List.mem_map.mp member
  have kept := runs_kept _ run found
  exact ⟨by simpa using kept.1, by simpa using kept.2⟩

theorem words_some {s : String} (some_ : isBlankText s = false) : words s ≠ [] := by
  have found : ∃ c ∈ s.toList, (!isBlank c) = true := by
    simpa [isBlankText] using some_
  simpa [words] using runs_some found

theorem words_front {word : String} (whole : IsWord word) (rest : String) :
    words (word ++ " " ++ rest) = word :: words rest := by
  have shape : (word ++ " " ++ rest).toList = word.toList ++ ' ' :: rest.toList := by simp
  have blank : isBlank ' ' = true := by decide
  rw [words, shape, runs_front whole.1 (by simpa using whole.2) (by simp [blank]),
    runs_skip (by simp [blank])]
  simp [words]

theorem words_intercalate {ws : List String} (whole : ∀ word ∈ ws, IsWord word) :
    words (" ".intercalate ws) = ws := by
  have blank : isBlank ' ' = true := by decide
  have kept : ∀ run ∈ ws.map String.toList, run ≠ [] ∧ ∀ c ∈ run, (!isBlank c) = true := by
    rintro run member
    obtain ⟨word, found, rfl⟩ := List.mem_map.mp member
    exact ⟨(whole word found).1, by simpa using (whole word found).2⟩
  rw [words, String.toList_intercalate, show " ".toList = [' '] from rfl,
    runs_intercalate (by simp [blank]) kept]
  simp

def IsTrimmed (s : String) : Prop :=
  s.toList ≠ [] ∧ (∀ c ∈ s.toList.head?, isBlank c = false) ∧
    ∀ c ∈ s.toList.getLast?, isBlank c = false

theorem trim_trimmed {s : String} (trimmed : IsTrimmed s) : trim s = s := by
  have start : trimStart s.toList = s.toList := by
    cases shape : s.toList with
    | nil => rfl
    | cons c cs =>
        have first := trimmed.2.1 c (by simp [shape])
        simp [trimStart, first]
  have stop : trimEnd s.toList = s.toList := by
    cases shape : s.toList.reverse with
    | nil => simp [trimEnd, List.reverse_eq_nil_iff.mp shape]
    | cons c cs =>
        have last := trimmed.2.2 c (by rw [← List.head?_reverse, shape]; rfl)
        rw [trimEnd, shape, List.dropWhile_cons_of_neg (by simp [last]), ← shape,
          List.reverse_reverse]
  rw [trim, start, stop, String.ofList_toList]

theorem mem_drop_while {keep : Char → Bool} {c : Char} {cs : List Char} (member : c ∈ cs)
    (other : keep c = false) : c ∈ cs.dropWhile keep := by
  rw [← List.takeWhile_append_dropWhile (p := keep) (l := cs), List.mem_append] at member
  rcases member with front | back
  · have kept := List.mem_takeWhile_imp front
    simp [other] at kept
  · exact back

/-- What is left of a text after trimming still holds what was not blank. -/
theorem trim_not_blank {s : String} (some_ : isBlankText s = false) :
    isBlankText (trim s) = false := by
  obtain ⟨c, member, other⟩ : ∃ c ∈ s.toList, isBlank c = false := by
    simpa [isBlankText] using some_
  have start : c ∈ (trimStart s.toList).reverse :=
    List.mem_reverse.mpr (mem_drop_while member other)
  have stop : c ∈ (trim s).toList := by
    simpa [trim, trimEnd] using mem_drop_while start other
  by_contra blank
  have all : ∀ d ∈ (trim s).toList, isBlank d = true := by simpa [isBlankText] using blank
  simp [all c stop] at other

theorem trimmed_not_blank {s : String} (trimmed : IsTrimmed s) : isBlankText s = false := by
  cases shape : s.toList with
  | nil => exact absurd shape trimmed.1
  | cons c cs =>
      have first := trimmed.2.1 c (by simp [shape])
      simp [isBlankText, shape, first]

theorem word_trimmed {word : String} (whole : IsWord word) : IsTrimmed word :=
  ⟨whole.1, fun c first => whole.2 c (List.mem_of_mem_head? first),
    fun c last => whole.2 c (List.mem_of_mem_getLast? last)⟩

theorem words_trimmed {ws : List String} (whole : ∀ word ∈ ws, IsWord word) (some_ : ws ≠ []) :
    IsTrimmed (" ".intercalate ws) := by
  induction ws with
  | nil => exact absurd rfl some_
  | cons word ws ih =>
      have first := word_trimmed (whole word List.mem_cons_self)
      by_cases last : ws = []
      · subst last
        rwa [String.intercalate_singleton]
      · have others := ih (fun other member => whole other (List.mem_cons_of_mem word member)) last
        rw [String.intercalate_cons_of_ne_nil last]
        have shape : (word ++ " " ++ " ".intercalate ws).toList =
            word.toList ++ ' ' :: (" ".intercalate ws).toList := by simp
        refine ⟨by simp [shape], ?_, ?_⟩
        · rw [shape, List.head?_append_of_ne_nil _ first.1]
          exact first.2.1
        · rw [shape, List.getLast?_append_of_ne_nil _ (List.cons_ne_nil _ _),
            List.getLast?_cons_of_ne_nil others.1]
          exact others.2.2

end Cohort.Text
