import Mathlib
import Cohort.Segment
import Cohort.Proofs.Text.Words

/-!
Ids of segments. The slug of a name is read off its runs of letters and digits of ASCII and off
nothing else: they are written in lower case, with an underscore between any two. Names with the
same runs up to case have the same id, and no others; a slug is its own slug.
-/

namespace Cohort

open Text (runs)
open scoped Computability

def slugWords (name : List Char) : List (List Char) :=
  (runs Char.isAlphanum name).map (List.map Char.toLower)

def underscored (words : List (List Char)) : List Char :=
  words.flatMap ('_' :: ·)

theorem intercalate_underscored (first : List Char) (rest : List (List Char)) :
    ['_'].intercalate (first :: rest) = first ++ underscored rest := by
  induction rest generalizing first with
  | nil => simp [underscored]
  | cons second rest ih =>
      rw [List.intercalate_cons_of_ne_nil (List.cons_ne_nil _ _), ih]
      simp [underscored]

theorem lower_kept {c : Char} (kept : c.isAlphanum = true) :
    c.toLower.isLower = true ∨ c.toLower.isDigit = true := by
  by_cases letter : c.isAlpha = true
  · exact .inl (by rw [Char.isLower_toLower_eq_isAlpha, letter])
  · have digit : c.isDigit = true := by simpa [Char.isAlphanum, letter] using kept
    have same : c.toLower = c := Char.toLower_eq_of_not_isUpper (by simp_all [Char.isAlpha])
    rw [same]
    exact .inr digit

theorem lower_no_underscore {c : Char} (kept : c.isAlphanum = true) : c.toLower ≠ '_' := by
  intro same
  have lower := lower_kept kept
  rw [same] at lower
  exact absurd lower (by decide)

/-- What a name adds to a slug that ends in a letter or digit: its first characters go on with the
word at the end. -/
def slugBehind (cs : List Char) : List Char :=
  (cs.takeWhile Char.isAlphanum).map Char.toLower ++
    underscored (slugWords (cs.dropWhile Char.isAlphanum))

section Words

variable {c : Char} (cs : List Char)

theorem slug_words_other (other : c.isAlphanum = false) : slugWords (c :: cs) = slugWords cs := by
  rw [slugWords, slugWords, Text.runs_skip other]

/-- The first word goes as far as there are letters and digits. -/
theorem slug_words_kept (kept : c.isAlphanum = true) :
    slugWords (c :: cs) = (c :: cs.takeWhile Char.isAlphanum).map Char.toLower ::
      slugWords (cs.dropWhile Char.isAlphanum) := by
  have all : ∀ d ∈ c :: cs.takeWhile Char.isAlphanum, d.isAlphanum = true :=
    List.forall_mem_cons.mpr ⟨kept, fun d found => List.mem_takeWhile_imp found⟩
  have stops : ∀ d ∈ (cs.dropWhile Char.isAlphanum).head?, d.isAlphanum = false := by
    intro d found
    have first := List.head?_dropWhile_not Char.isAlphanum cs
    simp_all
  have front := Text.runs_front (List.cons_ne_nil _ _) all stops
  rw [List.cons_append, List.takeWhile_append_dropWhile] at front
  rw [slugWords, front, List.map_cons]
  rfl

theorem slug_behind_kept (kept : c.isAlphanum = true) :
    slugBehind (c :: cs) = c.toLower :: slugBehind cs := by
  simp [slugBehind, kept]

theorem slug_behind_other (other : c.isAlphanum = false) :
    slugBehind (c :: cs) = underscored (slugWords cs) := by
  simp [slugBehind, other, slug_words_other]

theorem underscored_kept (kept : c.isAlphanum = true) :
    underscored (slugWords (c :: cs)) = '_' :: c.toLower :: slugBehind cs := by
  simp [underscored, slug_words_kept cs kept, slugBehind]

end Words

def finished (written : List Char) : List Char :=
  (written.dropWhile (· == '_')).reverse

/-- Behind a letter or digit the word may go on; behind an underscore a new one may start, and the
underscore stays only if one does. -/
theorem slug_continued (cs : List Char) {last : Char} (kept : last ≠ '_') (written : List Char) :
    finished (cs.foldl slugStep (last :: written)) =
      (last :: written).reverse ++ slugBehind cs ∧
    finished (cs.foldl slugStep ('_' :: last :: written)) =
      (last :: written).reverse ++ underscored (slugWords cs) := by
  induction cs generalizing last written with
  | nil => simp [finished, slugBehind, underscored, slugWords, runs, kept]
  | cons c cs ih =>
      by_cases letter : c.isAlphanum = true
      · have behind (written : List Char) := (ih (lower_no_underscore letter) written).1
        simp only [List.foldl_cons, slugStep, letter, ↓reduceIte, behind, slug_behind_kept,
          underscored_kept]
        simp
      · have other : c.isAlphanum = false := by simpa using letter
        have behind := (ih kept written).2
        simp [slugStep, other, kept, behind, slug_behind_other, slug_words_other]

/-- Nothing is written until the first letter or digit. -/
theorem slug_started (cs : List Char) :
    finished (cs.foldl slugStep []) = ['_'].intercalate (slugWords cs) := by
  induction cs with
  | nil => rfl
  | cons c cs ih =>
      by_cases letter : c.isAlphanum = true
      · have behind := (slug_continued cs (lower_no_underscore letter) []).1
        rw [slug_words_kept cs letter, intercalate_underscored]
        simpa [slugStep, letter, slugBehind] using behind
      · have other : c.isAlphanum = false := by simpa using letter
        rw [slug_words_other cs other, ← ih]
        simp [slugStep, other]

theorem slug_characters (name : String) :
    (slug name).toList = ['_'].intercalate (slugWords name.toList) := by
  rw [slug, String.toList_ofList]
  exact slug_started name.toList

def SlugWord : Language Char :=
  {word | word ≠ [] ∧ ∀ c ∈ word, c.isLower = true ∨ c.isDigit = true}

/-- The texts of `[a-z0-9]+(_[a-z0-9]+)*`. -/
def SlugForm : Language Char :=
  SlugWord * ({['_']} * SlugWord)∗

theorem slug_words_whole (cs : List Char) : ∀ word ∈ slugWords cs, word ∈ SlugWord := by
  intro word found
  obtain ⟨run, member, rfl⟩ := List.mem_map.mp found
  obtain ⟨some_, kept⟩ := Text.runs_kept cs run member
  refine ⟨by simpa using some_, fun c inside => ?_⟩
  obtain ⟨d, member, rfl⟩ := List.mem_map.mp inside
  exact lower_kept (kept d member)

theorem slug_word_kept {word : List Char} (whole : word ∈ SlugWord) :
    word ≠ [] ∧ ∀ c ∈ word, c.isAlphanum = true := by
  refine ⟨whole.1, fun c found => ?_⟩
  have lower := whole.2 c found
  simp only [Char.isAlphanum, Char.isAlpha, Bool.or_eq_true]
  tauto

theorem slug_form {words : List (List Char)} (whole : ∀ word ∈ words, word ∈ SlugWord)
    (some_ : words ≠ []) : ['_'].intercalate words ∈ SlugForm := by
  obtain ⟨first, rest, rfl⟩ := List.exists_cons_of_ne_nil some_
  rw [intercalate_underscored]
  refine Language.mem_mul.mpr ⟨first, whole first List.mem_cons_self, underscored rest, ?_, rfl⟩
  refine Language.mem_kstar.mpr ⟨rest.map ('_' :: ·), List.flatMap_def, fun part found => ?_⟩
  obtain ⟨word, member, rfl⟩ := List.mem_map.mp found
  exact Language.mem_mul.mpr
    ⟨['_'], rfl, word, whole word (List.mem_cons_of_mem first member), rfl⟩

/-- The words of a name can be read off its slug. -/
theorem slug_words_slug (name : String) :
    slugWords (slug name).toList = slugWords name.toList := by
  have whole := fun word found => slug_word_kept (slug_words_whole name.toList word found)
  rw [slug_characters, slugWords, Text.runs_intercalate (by decide) whole, slugWords, List.map_map]
  refine List.map_congr_left fun run found => ?_
  simp only [Function.comp_apply, List.map_map]
  exact List.map_congr_left fun c _ => Char.toLower_toLower_eq_toLower c

theorem slug_congr {name other : String} (same : slugWords other.toList = slugWords name.toList) :
    slug other = slug name :=
  String.toList_injective (by rw [slug_characters, slug_characters, same])

/-- The id of a segment is made of the runs of letters and digits in its name. It tells two names
apart just if they differ in more than case and what stands around those runs. -/
theorem segment_id_of_runs (name : String) :
    Segment.idFor name =
        "segment:" ++ "_".intercalate ((slugWords name.toList).map String.ofList) ∧
      (slug name = "" ∨ (slug name).toList ∈ SlugForm) ∧
      Segment.idFor (slug name) = Segment.idFor name ∧
      ∀ other, Segment.idFor other = Segment.idFor name ↔
        slugWords other.toList = slugWords name.toList := by
  refine ⟨?_, ?_, ?_, fun other => ⟨fun same => ?_, fun same => ?_⟩⟩
  · refine congrArg ("segment:" ++ ·) (String.toList_injective ?_)
    rw [slug_characters, String.toList_intercalate, List.map_map]
    simp [Function.comp_def]
  · by_cases none_ : slugWords name.toList = []
    · exact .inl (String.toList_injective (by rw [slug_characters, none_]; rfl))
    · rw [slug_characters]
      exact .inr (slug_form (slug_words_whole name.toList) none_)
  · exact congrArg ("segment:" ++ ·) (slug_congr (slug_words_slug name))
  · have slugs : slug other = slug name := by simpa [Segment.idFor] using same
    rw [← slug_words_slug other, ← slug_words_slug name, slugs]
  · exact congrArg ("segment:" ++ ·) (slug_congr same)

/-- A letter that is not of ASCII stands between runs like any other character. -/
example : Segment.idFor " Über-VIPs  (2024)" = "segment:ber_vips_2024" := by decide

end Cohort
