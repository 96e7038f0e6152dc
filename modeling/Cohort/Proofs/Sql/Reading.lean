import Cohort.Proofs.Sql.Consuming
import Cohort.Proofs.Sql.Writing

/-!
What the readers make of well-formed tokens. `Reads read ks value stops` says that `read` takes
exactly the tokens of the kinds `ks` and makes `value` of them, whatever stands behind them, as long
as it starts with a token at which it stops. Every reader has such a lemma for every form it takes.

The readers of conditions go on behind what they cannot read, so that what they make of some tokens
may be known in part only: `ReadsAs read ks post stops` says no more of it than `post`.
`Refuses read ks` says that `read` makes nothing of tokens that start like this.
-/

namespace Cohort.Sql

def Reads {α : Type} (read : Read α) (ks : List TokenKind) (value : α) (stops : TokenKind → Bool) :
    Prop :=
  ∀ tokens after, kindsOf tokens = ks ++ after → (∀ kind ∈ after.head?, stops kind = true) →
    ∃ rest, read tokens = some (value, rest) ∧ kindsOf rest = after

def ReadsAs {α : Type} (read : Read α) (ks : List TokenKind) (post : α → Prop)
    (stops : TokenKind → Bool) : Prop :=
  ∀ tokens after, kindsOf tokens = ks ++ after → (∀ kind ∈ after.head?, stops kind = true) →
    ∃ value rest, read tokens = some (value, rest) ∧ kindsOf rest = after ∧ post value

def Refuses {α : Type} (read : Read α) (ks : List TokenKind) : Prop :=
  ∀ tokens after, kindsOf tokens = ks ++ after → read tokens = none

def anyKind (_ : TokenKind) : Bool :=
  true

def endsOperand : TokenKind → Bool
  | .mark .plus | .mark .minus | .mark .lparen | .mark .dot | .identifier _ => false
  | _ => true

def endsSum : TokenKind → Bool
  | .mark .plus | .mark .minus => false
  | _ => true

theorem operand_ends_sum {kind : TokenKind} (ends : endsOperand kind = true) :
    endsSum kind = true := by
  fun_cases endsSum kind <;> simp_all [endsOperand]

def endsTerm : TokenKind → Bool
  | .mark .lparen | .mark .dot | .identifier _ => false
  | _ => true

theorem operand_ends_term {kind : TokenKind} (ends : endsOperand kind = true) :
    endsTerm kind = true := by
  fun_cases endsTerm kind <;> simp_all [endsOperand]

/-- Whether a name in front of a token of this kind is neither called nor the name of a table. -/
def endsName : TokenKind → Bool
  | .mark .lparen | .mark .dot => false
  | _ => true

theorem term_ends_name {kind : TokenKind} (ends : endsTerm kind = true) :
    endsName kind = true := by
  fun_cases endsName kind <;> simp_all [endsTerm]

def endsConjunction (kind : TokenKind) : Bool :=
  endsFragment kind && kind != .keyword .AND

def endsDisjunction (kind : TokenKind) : Bool :=
  endsConjunction kind && kind != .keyword .OR

theorem fragment_ends_operand {kind : TokenKind} (ends : endsFragment kind = true) :
    endsOperand kind = true := by
  fun_cases endsFragment kind <;> simp_all [endsFragment, endsOperand]

theorem Reads.weaken {α : Type} {read : Read α} {ks : List TokenKind} {value : α}
    {stops stops' : TokenKind → Bool} (whole : Reads read ks value stops)
    (less : ∀ kind, stops' kind = true → stops kind = true) : Reads read ks value stops' :=
  fun tokens after shape ends =>
    whole tokens after shape fun kind first => less kind (ends kind first)

/-- What is read is no other value. -/
theorem Reads.found {α : Type} {read : Read α} {ks after : List TokenKind} {value other : α}
    {stops : TokenKind → Bool} {tokens rest : List Token} (whole : Reads read ks value stops)
    (shape : kindsOf tokens = ks ++ after) (ends : ∀ kind ∈ after.head?, stops kind = true)
    (found : read tokens = some (other, rest)) : other = value ∧ kindsOf rest = after := by
  obtain ⟨last, same, shape⟩ := whole tokens after shape ends
  rw [found] at same
  cases same
  exact ⟨rfl, shape⟩

theorem Reads.as {α : Type} {read : Read α} {ks : List TokenKind} {value : α}
    {stops : TokenKind → Bool} (whole : Reads read ks value stops) :
    ReadsAs read ks (· = value) stops := by
  intro tokens after shape ends
  obtain ⟨rest, read, shape⟩ := whole tokens after shape ends
  exact ⟨value, rest, read, shape, rfl⟩

theorem ReadsAs.exact {α : Type} {read : Read α} {ks : List TokenKind} {post : α → Prop}
    {stops : TokenKind → Bool} {value : α} (whole : ReadsAs read ks post stops)
    (unique : ∀ found, post found → found = value) : Reads read ks value stops := by
  intro tokens after shape ends
  obtain ⟨found, rest, read, shape, holds⟩ := whole tokens after shape ends
  exact ⟨rest, unique found holds ▸ read, shape⟩

theorem ReadsAs.weaken {α : Type} {read : Read α} {ks : List TokenKind} {post post' : α → Prop}
    {stops : TokenKind → Bool} (whole : ReadsAs read ks post stops)
    (less : ∀ found, post found → post' found) : ReadsAs read ks post' stops := by
  intro tokens after shape ends
  obtain ⟨found, rest, read, shape, holds⟩ := whole tokens after shape ends
  exact ⟨found, rest, read, shape, less found holds⟩

theorem ReadsAs.before {α : Type} {read : Read α} {ks : List TokenKind} {post : α → Prop}
    {stops stops' : TokenKind → Bool} (whole : ReadsAs read ks post stops)
    (less : ∀ kind, stops' kind = true → stops kind = true) : ReadsAs read ks post stops' :=
  fun tokens after shape ends =>
    whole tokens after shape fun kind first => less kind (ends kind first)

theorem kinds_of_cons {tokens : List Token} {kind : TokenKind} {ks : List TokenKind}
    (shape : kindsOf tokens = kind :: ks) :
    ∃ token rest, tokens = token :: rest ∧ token.kind = kind ∧ kindsOf rest = ks := by
  simpa [kindsOf, List.map_eq_cons_iff] using shape

theorem expect_same {tokens : List Token} {kind : TokenKind} {ks : List TokenKind}
    (shape : kindsOf tokens = kind :: ks) :
    ∃ rest, expect kind tokens = some rest ∧ kindsOf rest = ks := by
  obtain ⟨token, rest, rfl, same, shape⟩ := kinds_of_cons shape
  exact ⟨rest, by simp [expect, same], shape⟩

theorem expect_other {tokens : List Token} {kind : TokenKind}
    (other : kind ∉ (kindsOf tokens).head?) : expect kind tokens = none := by
  cases tokens with
  | nil => rfl
  | cons token rest =>
      have apart : token.kind ≠ kind := by simpa [kindsOf] using other
      simp [expect, apart]

theorem reads_name (name : String) : Reads readName [.identifier name] name anyKind := by
  intro tokens after shape _
  obtain ⟨token, rest, rfl, same, shape⟩ := kinds_of_cons shape
  exact ⟨rest, by simp [readName, same], shape⟩

def columnKinds (table name : String) : List TokenKind :=
  [.identifier table, .mark .dot, .identifier name]

theorem reads_column (table name : String) :
    Reads readColumn (columnKinds table name) ⟨some table, name⟩ anyKind := by
  intro tokens after shape _
  obtain ⟨first, rest, rfl, kind, shape⟩ := kinds_of_cons shape
  obtain ⟨rest, dot, shape⟩ := expect_same shape
  obtain ⟨second, rest, rfl, kind', shape⟩ := kinds_of_cons shape
  exact ⟨rest, by simp [readColumn, readName, kind, dot, kind'], shape⟩

def Column.kinds (column : Column) : List TokenKind :=
  match column.table with
  | some table => columnKinds table column.name
  | none => [.identifier column.name]

theorem reads_column_kinds (column : Column) :
    Reads readColumn column.kinds column (· != .mark .dot) := by
  obtain ⟨_ | table, name⟩ := column
  · intro tokens after shape ends
    obtain ⟨rest, read, shape⟩ := reads_name name tokens after shape (by simp [anyKind])
    have noDot : expect (.mark .dot) rest = none := expect_other fun dot =>
      absurd (ends (.mark .dot) (by simpa [shape] using dot)) (by decide)
    exact ⟨rest, by simp [readColumn, read, noDot], shape⟩
  · exact (reads_column table name).weaken fun _ _ => rfl

/-! ### Operands -/

def ReadsEnclosed {α : Type} (read : Read α) (ks : List TokenKind) (value : α) : Prop :=
  ∀ tokens after, kindsOf tokens = ks ++ .mark .rparen :: after →
    ∃ rest, read tokens = some (value, rest) ∧ kindsOf rest = .mark .rparen :: after

theorem Reads.enclosed {α : Type} {read : Read α} {ks : List TokenKind} {value : α}
    {stops : TokenKind → Bool} (whole : Reads read ks value stops)
    (closes : stops (.mark .rparen) = true) : ReadsEnclosed read ks value :=
  fun tokens after shape => whole tokens (.mark .rparen :: after) shape (by simpa using closes)

theorem reads_no_operands (operand : Read Operand) :
    ReadsEnclosed (readOperands operand) [] [] := by
  intro tokens after shape
  obtain ⟨rest, closing, -⟩ := expect_same shape
  exact ⟨tokens, by simp [readOperands, startsWith, closing], shape⟩

section Terms

variable (args : Read (List Operand))

theorem reads_term_column (table name : String) :
    Reads (readTerm args) (columnKinds table name) (.column ⟨some table, name⟩) anyKind := by
  intro tokens after shape _
  obtain ⟨first, rest, rfl, kind, shape⟩ := kinds_of_cons shape
  have noCall : expect (.mark .lparen) rest = none := expect_other (by simp [shape])
  obtain ⟨rest, dot, shape⟩ := expect_same shape
  obtain ⟨second, rest, rfl, kind', shape⟩ := kinds_of_cons shape
  exact ⟨rest, by simp [readTerm, readName, kind, noCall, dot, kind'], shape⟩

theorem reads_term_name (name : String) :
    Reads (readTerm args) [.identifier name] (.column ⟨none, name⟩) endsName := by
  intro tokens after shape ends
  obtain ⟨first, rest, rfl, kind, shape⟩ := kinds_of_cons shape
  change kindsOf rest = after at shape
  have noCall : expect (.mark .lparen) rest = none := expect_other fun calls =>
    absurd (ends (.mark .lparen) (by simpa [shape] using calls)) (by decide)
  have noDot : expect (.mark .dot) rest = none := expect_other fun dot =>
    absurd (ends (.mark .dot) (by simpa [shape] using dot)) (by decide)
  exact ⟨rest, by simp [readTerm, kind, noCall, noDot], shape⟩

theorem reads_term_bare (name : String) :
    Reads (readTerm args) [.identifier name] (.column ⟨none, name⟩) endsOperand :=
  (reads_term_name args name).weaken fun _ ends => term_ends_name (operand_ends_term ends)

theorem reads_term_kinds (column : Column) :
    Reads (readTerm args) column.kinds (.column column) endsTerm := by
  obtain ⟨_ | table, name⟩ := column
  · exact (reads_term_name args name).weaken fun _ => term_ends_name
  · exact (reads_term_column args table name).weaken fun _ _ => rfl

theorem reads_term_string (text : String) :
    Reads (readTerm args) [.string (String.ofList (Text.doubleQuotes text.toList))] (.string text)
      anyKind := by
  intro tokens after shape _
  obtain ⟨token, rest, rfl, same, shape⟩ := kinds_of_cons shape
  exact ⟨rest, by simp [readTerm, same, Text.undouble_double], shape⟩

theorem reads_term_number (digits : String) :
    Reads (readTerm args) [.number digits] (.number digits) anyKind := by
  intro tokens after shape _
  obtain ⟨token, rest, rfl, same, shape⟩ := kinds_of_cons shape
  exact ⟨rest, by simp [readTerm, same], shape⟩

theorem reads_term_negative (digits : String) :
    Reads (readTerm args) [.mark .minus, .number digits] (.number ("-" ++ digits)) anyKind := by
  intro tokens after shape _
  obtain ⟨token, rest, rfl, same, shape⟩ := kinds_of_cons shape
  obtain ⟨⟨kind, layout, lexeme, start⟩, rest, rfl, rfl, behind⟩ := kinds_of_cons shape
  exact ⟨rest, by simp [readTerm, same], behind⟩

theorem reads_term_null : Reads (readTerm args) [.keyword .NULL] .null anyKind := by
  intro tokens after shape _
  obtain ⟨token, rest, rfl, same, shape⟩ := kinds_of_cons shape
  exact ⟨rest, by simp [readTerm, same], shape⟩

theorem reads_term_star : Reads (readTerm args) [.mark .star] .star anyKind := by
  intro tokens after shape _
  obtain ⟨token, rest, rfl, same, shape⟩ := kinds_of_cons shape
  exact ⟨rest, by simp [readTerm, same], shape⟩

theorem reads_term_interval {ks : List TokenKind} {value : Operand} {stops : TokenKind → Bool}
    (inner : Reads readInterval ks value stops) :
    Reads (readTerm args) (.keyword .INTERVAL :: ks) value stops := by
  intro tokens after shape ends
  obtain ⟨token, rest, rfl, same, shape⟩ := kinds_of_cons shape
  obtain ⟨rest', read, shape'⟩ := inner rest after shape ends
  exact ⟨rest', by simp [readTerm, same, read], shape'⟩

theorem reads_term_enclosed {args : Read (List Operand)} (name : String) {ks : List TokenKind}
    {operands : List Operand} (inner : ReadsEnclosed args ks operands) :
    Reads (readTerm args) (.identifier name :: .mark .lparen :: (ks ++ [.mark .rparen]))
      (.call name operands) anyKind := by
  intro tokens after shape _
  obtain ⟨token, rest, rfl, kind, shape⟩ := kinds_of_cons shape
  obtain ⟨rest, opening, shape⟩ := expect_same shape
  obtain ⟨rest, read, shape⟩ := inner rest after (by simpa using shape)
  obtain ⟨rest, closing, shape⟩ := expect_same shape
  exact ⟨rest, by simp [readTerm, kind, opening, read, closing], shape⟩

theorem reads_term_call {args : Read (List Operand)} (name : String) {ks : List TokenKind}
    {operands : List Operand} {stops : TokenKind → Bool} (inner : Reads args ks operands stops)
    (closes : stops (.mark .rparen) = true) :
    Reads (readTerm args) (.identifier name :: .mark .lparen :: (ks ++ [.mark .rparen]))
      (.call name operands) anyKind :=
  reads_term_enclosed name (inner.enclosed closes)

theorem reads_term_call_empty (operand : Read Operand) (name : String) :
    Reads (readTerm (readOperands operand)) [.identifier name, .mark .lparen, .mark .rparen]
      (.call name []) anyKind :=
  reads_term_enclosed name (reads_no_operands operand)

end Terms

/-- The unit of an interval is within its literal if no name follows. -/
theorem reads_interval_text (text : String) :
    Reads readInterval [.string (String.ofList (Text.doubleQuotes text.toList))] (.interval text)
      endsTerm := by
  intro tokens after shape ends
  obtain ⟨token, rest, rfl, same, shape⟩ := kinds_of_cons shape
  change kindsOf rest = after at shape
  have noUnit : readName rest = none := by
    cases rest with
    | nil => rfl
    | cons next rest =>
        have stop := ends next.kind (by simp [← shape, kindsOf])
        cases kind : next.kind <;> simp_all [readName, endsTerm]
  exact ⟨rest, by simp [readInterval, same, noUnit, Text.undouble_double], shape⟩

theorem reads_interval_alone (text : String) :
    Reads readInterval [.string (String.ofList (Text.doubleQuotes text.toList))] (.interval text)
      endsOperand :=
  (reads_interval_text text).weaken fun _ => operand_ends_term

theorem reads_interval_string (text unit : String) :
    Reads readInterval [.string (String.ofList (Text.doubleQuotes text.toList)), .identifier unit]
      (.interval (text ++ " " ++ unit)) anyKind := by
  intro tokens after shape _
  obtain ⟨token, rest, rfl, same, shape⟩ := kinds_of_cons shape
  obtain ⟨rest, name, shape⟩ := reads_name unit rest after shape (by simp [anyKind])
  exact ⟨rest, by simp [readInterval, same, name, Text.undouble_double], shape⟩

theorem reads_interval_number (digits unit : String) :
    Reads readInterval [.number digits, .identifier unit] (.interval (digits ++ " " ++ unit))
      anyKind := by
  intro tokens after shape _
  obtain ⟨token, rest, rfl, same, shape⟩ := kinds_of_cons shape
  obtain ⟨rest, name, shape⟩ := reads_name unit rest after shape (by simp [anyKind])
  exact ⟨rest, by simp [readInterval, same, name], shape⟩

theorem reads_term_within {ks : List TokenKind} {value : Operand} {stops : TokenKind → Bool}
    (term : ∀ args, Reads (readTerm args) ks value stops) (room : Nat) :
    Reads (termWithin room) ks value stops := by
  cases room <;> exact term _

theorem no_sign {tokens : List Token} {ks : List TokenKind} (shape : kindsOf tokens = ks)
    (ends : ∀ kind ∈ ks.head?, endsSum kind = true) : readSign tokens = none := by
  cases tokens with
  | nil => rfl
  | cons token rest =>
      have stop := ends token.kind (by simp [← shape, kindsOf])
      cases kind : token.kind with
      | mark sign => cases sign <;> simp_all [readSign, endsSum]
      | _ => simp [readSign, kind]

theorem sum_ends (term : Read Operand) (left : Operand) {tokens : List Token}
    (bound : List Token) (none : readSign tokens = none) :
    readSum term left bound tokens = some (left, tokens) := by
  cases bound <;> simp [readSum, none]

/-- The tokens are the start of a sum, and `value` is what is read of them. Whether the sum goes on
is left to what follows. -/
def Begins (room : Nat) (ks : List TokenKind) (value : Operand) (stops : TokenKind → Bool) : Prop :=
  ∀ tokens after, kindsOf tokens = ks ++ after → (∀ kind ∈ after.head?, stops kind = true) →
    ∃ rest bound, readOperand room tokens = readSum (termWithin room) value bound rest ∧
      kindsOf rest = after ∧ rest.length ≤ bound.length

theorem begins_term {room : Nat} {ks : List TokenKind} {value : Operand}
    {stops : TokenKind → Bool} (term : Reads (termWithin room) ks value stops) :
    Begins room ks value stops := by
  intro tokens after shape ends
  obtain ⟨rest, read, shape⟩ := term tokens after shape ends
  exact ⟨rest, rest, by rw [operand_of_terms, read]; rfl, shape, le_rfl⟩

def signOf? : Mark → Option Sign
  | .plus => some .plus
  | .minus => some .minus
  | _ => none

/-- A sign and a term make the sum longer by one part. -/
theorem Begins.sum {room : Nat} {ks ls : List TokenKind} {left right : Operand} {mark : Mark}
    {sign : Sign} {stops stops' : TokenKind → Bool} (first : Begins room ks left stops)
    (signs : signOf? mark = some sign) (goesOn : stops (.mark mark) = true)
    (second : Reads (termWithin room) ls right stops') :
    Begins room (ks ++ .mark mark :: ls) (.sum left sign right) stops' := by
  intro tokens after shape ends
  obtain ⟨rest, bound, read, shape, enough⟩ := first tokens (.mark mark :: (ls ++ after))
    (by simpa using shape) (by simpa using goesOn)
  obtain ⟨token, rest, rfl, kind, shape⟩ := kinds_of_cons shape
  obtain ⟨rest', read', shape'⟩ := second rest after shape ends
  have shorter : rest'.length ≤ rest.length := by
    have whole := congrArg List.length shape
    have behind := congrArg List.length shape'
    simp only [kindsOf, List.length_map, List.length_append] at whole behind
    omega
  cases bound with
  | nil => cases enough
  | cons _ bound =>
      refine ⟨rest', bound, ?_, shape', shorter.trans (Nat.le_of_succ_le_succ enough)⟩
      have goesOn : readSign (token :: rest) = some (sign, rest) := by
        cases mark <;> simp_all [signOf?, readSign]
      simp [read, readSum, goesOn, read']

/-- A sum ends in front of everything that is no sign. -/
theorem Begins.reads {room : Nat} {ks : List TokenKind} {value : Operand}
    {stops stops' : TokenKind → Bool} (begins : Begins room ks value stops)
    (ends : ∀ kind, stops' kind = true → stops kind = true ∧ endsSum kind = true) :
    Reads (readOperand room) ks value stops' := by
  intro tokens after shape stop
  obtain ⟨rest, bound, read, shape, -⟩ :=
    begins tokens after shape fun kind first => (ends kind (stop kind first)).1
  refine ⟨rest, ?_, shape⟩
  rw [read]
  exact sum_ends _ _ _ (no_sign shape fun kind first => (ends kind (stop kind first)).2)

theorem reads_operand_before {room : Nat} {ks : List TokenKind} {value : Operand}
    {stops : TokenKind → Bool} (term : Reads (termWithin room) ks value stops)
    (unsigned : ∀ kind, stops kind = true → endsSum kind = true) :
    Reads (readOperand room) ks value stops :=
  (begins_term term).reads fun kind stop => ⟨stop, unsigned kind stop⟩

theorem reads_operand {room : Nat} {ks : List TokenKind} {value : Operand}
    (term : Reads (termWithin room) ks value endsOperand) :
    Reads (readOperand room) ks value endsOperand :=
  reads_operand_before term fun _ => operand_ends_sum

theorem reads_sum {room : Nat} {ks ls : List TokenKind} {left right : Operand} {mark : Mark}
    {sign : Sign} {stops : TokenKind → Bool} (signs : signOf? mark = some sign)
    (first : Reads (termWithin room) ks left anyKind)
    (second : Reads (termWithin room) ls right stops)
    (unsigned : ∀ kind, stops kind = true → endsSum kind = true) :
    Reads (readOperand room) (ks ++ .mark mark :: ls) (.sum left sign right) stops :=
  ((begins_term first).sum signs rfl second).reads fun kind stop => ⟨stop, unsigned kind stop⟩

theorem reads_separated {α : Type} {separator : TokenKind} {item : Read α}
    {stops : TokenKind → Bool} {parts : List (List TokenKind)} {values : List α}
    (each : List.Forall₂ (fun ks value => Reads item ks value stops) parts values)
    (goesOn : stops separator = true) (some_ : parts ≠ []) (bound : List Token) {tokens : List Token}
    {after : List TokenKind} (enough : parts.length ≤ bound.length + 1)
    (shape : kindsOf tokens = separated separator parts ++ after)
    (ends : ∀ kind ∈ after.head?, stops kind = true ∧ kind ≠ separator) :
    ∃ rest, readSeparated separator item bound tokens = some (values, rest) ∧
      kindsOf rest = after := by
  induction each generalizing bound tokens with
  | nil => exact absurd rfl some_
  | @cons ks value parts values first others ih =>
      by_cases last : parts = []
      · subst last
        cases others
        obtain ⟨rest, read, shape⟩ := first tokens after shape fun kind head => (ends kind head).1
        have noMore : expect separator rest = none := expect_other fun more =>
          (ends separator (by simpa [shape] using more)).2 rfl
        refine ⟨rest, ?_, shape⟩
        cases bound <;> simp [readSeparated, read, noMore]
      · cases bound with
        | nil =>
            have length : parts.length ≠ 0 := by simpa using last
            simp only [List.length_cons, List.length_nil] at enough
            omega
        | cons token bound =>
            rw [separated_cons separator ks last, List.append_assoc, List.cons_append] at shape
            obtain ⟨rest, read, shape⟩ := first tokens _ shape (by simpa using goesOn)
            obtain ⟨rest, more, shape⟩ := expect_same shape
            obtain ⟨rest, read', shape⟩ := ih last bound (by simpa using enough) shape
            exact ⟨rest, by simp [readSeparated, read, more, read'], shape⟩

theorem separated_length (separator : TokenKind) (parts : List (List TokenKind)) :
    parts.length ≤ (separated separator parts).length + 1 := by
  induction parts with
  | nil => simp
  | cons ks rest ih =>
      by_cases more : rest = []
      · simp [more]
      · rw [separated_cons separator ks more]
        simp only [List.length_cons, List.length_append]
        omega

theorem separated_fits {tokens : List Token} {separator : TokenKind}
    {parts : List (List TokenKind)} {after : List TokenKind}
    (shape : kindsOf tokens = separated separator parts ++ after) :
    parts.length ≤ tokens.length + 1 := by
  have count := congrArg List.length shape
  have fits := separated_length separator parts
  simp only [kindsOf, List.length_map, List.length_append] at count
  omega

theorem reads_operands {operand : Read Operand} {kind : TokenKind} {ks : List TokenKind}
    {parts : List (List TokenKind)} {values : List Operand} {stops : TokenKind → Bool}
    (each : List.Forall₂ (fun ks value => Reads operand ks value stops)
      ((kind :: ks) :: parts) values)
    (goesOn : stops (.mark .comma) = true) (opens : kind ≠ .mark .rparen) :
    Reads (readOperands operand) (separated (.mark .comma) ((kind :: ks) :: parts)) values
      fun kind => stops kind && kind != .mark .comma := by
  intro tokens after shape ends
  have noEnd : startsWith (.mark .rparen) tokens = false := by
    have start : (kindsOf tokens).head? = some kind := by
      rw [shape]
      cases parts <;> simp [separated]
    rw [startsWith, expect_other]
    · rfl
    · simpa [start] using opens
  obtain ⟨rest, read, shape'⟩ := reads_separated each goesOn (by simp) tokens (separated_fits shape)
    shape fun kind first => by simpa using ends kind first
  exact ⟨rest, by simp [readOperands, noEnd, read], shape'⟩

section Predicates

variable {operand : Read Operand} {target : List TokenKind} {value : Operand}

/-- What follows the target decides the predicate; a `NOT` in front of it is read on its own. -/
theorem reads_predicate {ks : List TokenKind} {predicate : Predicate} {stops : TokenKind → Bool}
    (first : Reads operand target value endsOperand)
    (ends : ∀ kind ∈ ks.head?, endsOperand kind = true ∧ kind ≠ .keyword .NOT) (some_ : ks ≠ [])
    (relation : Reads (readRelation operand value false) ks predicate stops) :
    Reads (readPredicate operand) (target ++ ks) predicate stops := by
  intro tokens after shape stop
  have head : (ks ++ after).head? = ks.head? := by
    cases ks with
    | nil => exact absurd rfl some_
    | cons kind ks => rfl
  obtain ⟨rest, read, shape⟩ := first tokens (ks ++ after) (by simpa using shape) fun kind start =>
    (ends kind (head ▸ start)).1
  have noNot : expect (.keyword .NOT) rest = none := expect_other fun negated =>
    (ends _ (by simpa [shape, head] using negated)).2 rfl
  obtain ⟨rest', read', shape'⟩ := relation rest after shape stop
  exact ⟨rest', by simp [readPredicate, read, accept, noNot, read'], shape'⟩

theorem reads_negated {ks : List TokenKind} {predicate : Predicate} {stops : TokenKind → Bool}
    (first : Reads operand target value endsOperand)
    (relation : Reads (readRelation operand value true) ks predicate stops) :
    Reads (readPredicate operand) (target ++ .keyword .NOT :: ks) predicate stops := by
  intro tokens after shape stop
  obtain ⟨rest, read, shape⟩ := first tokens (.keyword .NOT :: (ks ++ after))
    (by simpa using shape) (by simp [endsOperand])
  obtain ⟨rest, negated, shape⟩ := expect_same shape
  obtain ⟨rest', read', shape'⟩ := relation rest after shape stop
  exact ⟨rest', by simp [readPredicate, read, accept, negated, read'], shape'⟩

theorem reads_compare (op : Comparison) {ks : List TokenKind} {right : Operand}
    {stops : TokenKind → Bool} (second : Reads operand ks right stops) :
    Reads (readRelation operand value false) (.comparison op :: ks) (.compare value op right)
      stops := by
  intro tokens after shape stop
  obtain ⟨token, rest, rfl, kind, shape⟩ := kinds_of_cons shape
  obtain ⟨rest', read, shape'⟩ := second rest after shape stop
  exact ⟨rest', by simp [readRelation, kind, read], shape'⟩

theorem reads_between (negated : Bool) {ks ls : List TokenKind} {low high : Operand}
    {stops : TokenKind → Bool} (first : Reads operand ks low endsOperand)
    (second : Reads operand ls high stops) :
    Reads (readRelation operand value negated)
      (.keyword .BETWEEN :: (ks ++ .keyword .AND :: ls)) (.between value low high negated)
      stops := by
  intro tokens after shape stop
  obtain ⟨token, rest, rfl, kind, shape⟩ := kinds_of_cons shape
  obtain ⟨rest, read, shape⟩ := first rest (.keyword .AND :: (ls ++ after)) (by simpa using shape)
    (by simp [endsOperand])
  obtain ⟨rest, separator, shape⟩ := expect_same shape
  obtain ⟨rest', read', shape'⟩ := second rest after shape stop
  exact ⟨rest', by simp [readRelation, kind, read, separator, read'], shape'⟩

theorem reads_like (negated : Bool) {ks : List TokenKind} {pattern : Operand}
    (second : Reads operand ks pattern endsOperand) :
    Reads (readRelation operand value negated) (.keyword .LIKE :: ks)
      (.like value pattern negated) endsOperand := by
  intro tokens after shape stop
  obtain ⟨token, rest, rfl, kind, shape⟩ := kinds_of_cons shape
  obtain ⟨rest', read, shape'⟩ := second rest after shape stop
  exact ⟨rest', by simp [readRelation, kind, read], shape'⟩

theorem reads_one_of (negated : Bool) {ks : List TokenKind} {values : List Operand}
    (inner : ReadsEnclosed (readOperands operand) ks values) :
    Reads (readRelation operand value negated)
      (.keyword .IN :: .mark .lparen :: (ks ++ [.mark .rparen])) (.oneOf value values negated)
      anyKind := by
  intro tokens after shape _
  obtain ⟨token, rest, rfl, kind, shape⟩ := kinds_of_cons shape
  obtain ⟨rest, opening, shape⟩ := expect_same shape
  obtain ⟨rest, read, shape⟩ := inner rest after (by simpa using shape)
  obtain ⟨rest, closing, shape⟩ := expect_same shape
  exact ⟨rest, by simp [readRelation, kind, opening, read, closing], shape⟩

theorem reads_is_null :
    Reads (readRelation operand value false) [.keyword .IS, .keyword .NULL]
      (.isNull value false) anyKind := by
  intro tokens after shape _
  obtain ⟨token, rest, rfl, kind, shape⟩ := kinds_of_cons shape
  have noNot : expect (.keyword .NOT) rest = none := expect_other (by simp [shape])
  obtain ⟨rest, null, shape⟩ := expect_same shape
  exact ⟨rest, by simp [readRelation, kind, accept, noNot, null], shape⟩

theorem reads_is_not_null :
    Reads (readRelation operand value false) [.keyword .IS, .keyword .NOT, .keyword .NULL]
      (.isNull value true) anyKind := by
  intro tokens after shape _
  obtain ⟨token, rest, rfl, kind, shape⟩ := kinds_of_cons shape
  obtain ⟨rest, negated, shape⟩ := expect_same shape
  obtain ⟨rest, null, shape⟩ := expect_same shape
  exact ⟨rest, by simp [readRelation, kind, accept, negated, null], shape⟩

end Predicates

/-! ### Folds -/

theorem recovering_as {condition : Read Expr} {ks : List TokenKind} {post : Expr → Prop}
    {stops : TokenKind → Bool} (whole : ReadsAs condition ks post stops) :
    ReadsAs (always (recovering condition)) ks post stops := by
  intro tokens after shape ends
  obtain ⟨value, rest, read, shape, holds⟩ := whole tokens after shape ends
  exact ⟨value, rest, by simp [recovering, read], shape, holds⟩

theorem items_as {separator : Keyword} {item : List Token → Expr × List Token}
    {stops : TokenKind → Bool} {parts : List (List TokenKind)} {posts : List (Expr → Prop)}
    (each : List.Forall₂ (fun ks post => ReadsAs (always item) ks post stops) parts posts)
    (goesOn : stops (.keyword separator) = true) (some_ : parts ≠ []) (bound : List Token)
    {tokens : List Token} {after : List TokenKind} (enough : parts.length ≤ bound.length + 1)
    (shape : kindsOf tokens = separated (.keyword separator) parts ++ after)
    (ends : ∀ kind ∈ after.head?, stops kind = true ∧ kind ≠ .keyword separator) :
    ∃ values rest, readItems separator item bound tokens = (values, rest) ∧
      kindsOf rest = after ∧ List.Forall₂ (fun post value => post value) posts values := by
  induction each generalizing bound tokens with
  | nil => exact absurd rfl some_
  | @cons ks post parts posts first others ih =>
      by_cases last : parts = []
      · subst last
        cases others
        obtain ⟨value, rest, read, shape, holds⟩ :=
          first tokens after shape fun kind head => (ends kind head).1
        simp only [Option.some.injEq] at read
        have noMore : expect (.keyword separator) rest = none := expect_other fun more =>
          (ends _ (by simpa [shape] using more)).2 rfl
        refine ⟨[value], rest, ?_, shape, .cons holds .nil⟩
        cases bound <;> simp [readItems, read, noMore]
      · cases bound with
        | nil =>
            have length : parts.length ≠ 0 := by simpa using last
            simp only [List.length_cons, List.length_nil] at enough
            omega
        | cons token bound =>
            rw [separated_cons _ ks last, List.append_assoc, List.cons_append] at shape
            obtain ⟨value, rest, read, shape, holds⟩ := first tokens _ shape (by simpa using goesOn)
            simp only [Option.some.injEq] at read
            obtain ⟨rest, more, shape⟩ := expect_same shape
            obtain ⟨values, rest, read', shape, all⟩ := ih last bound (by simpa using enough) shape
            exact ⟨value :: values, rest, by simp [readItems, read, more, read'], shape,
              .cons holds all⟩

def IsFold (combine : List Expr → Expr) (posts : List (Expr → Prop)) (expr : Expr) : Prop :=
  ∃ items, List.Forall₂ (fun post item => post item) posts items ∧ expr = foldItems combine items

theorem conjunction_as {condition : Read Expr} {stops : TokenKind → Bool}
    (goesOn : stops (.keyword .AND) = true) {parts : List (List TokenKind)}
    {posts : List (Expr → Prop)} (some_ : parts ≠ [])
    (each : List.Forall₂ (fun ks post => ReadsAs (always (recovering condition)) ks post stops)
      parts posts) :
    ReadsAs (always (readConjunction condition)) (separated (.keyword .AND) parts)
      (IsFold .and posts) fun kind => stops kind && kind != .keyword .AND := by
  intro tokens after shape ends
  obtain ⟨values, rest, read, shape', holds⟩ := items_as each goesOn some_ tokens
    (separated_fits shape) shape fun kind head => by simpa using ends kind head
  exact ⟨_, rest, by simp [readConjunction, read], shape', values, holds, rfl⟩

theorem disjunction_as {condition : Read Expr} {stops : TokenKind → Bool}
    (goesOn : stops (.keyword .OR) = true) {parts : List (List TokenKind)}
    {posts : List (Expr → Prop)} (some_ : parts ≠ [])
    (each : List.Forall₂
      (fun ks post => ReadsAs (always (readConjunction condition)) ks post stops) parts posts) :
    ReadsAs (always (readDisjunction condition)) (separated (.keyword .OR) parts)
      (IsFold .or posts) fun kind => stops kind && kind != .keyword .OR := by
  intro tokens after shape ends
  obtain ⟨values, rest, read, shape', holds⟩ := items_as each goesOn some_ tokens
    (separated_fits shape) shape fun kind head => by simpa using ends kind head
  exact ⟨_, rest, by simp [readDisjunction, read], shape', values, holds, rfl⟩

theorem single_fold {combine : List Expr → Expr} {post : Expr → Prop} {expr : Expr}
    (fold : IsFold combine [post] expr) : post expr := by
  obtain ⟨items, holds, rfl⟩ := fold
  cases holds with
  | cons first rest =>
      cases rest
      exact first

theorem conjunction_single_as {condition : Read Expr} {ks : List TokenKind} {post : Expr → Prop}
    {stops : TokenKind → Bool} (goesOn : stops (.keyword .AND) = true)
    (whole : ReadsAs (always (recovering condition)) ks post stops) :
    ReadsAs (always (readConjunction condition)) ks post
      fun kind => stops kind && kind != .keyword .AND :=
  (conjunction_as goesOn (List.cons_ne_nil ks []) (.cons whole .nil)).weaken fun _ => single_fold

theorem disjunction_single_as {condition : Read Expr} {ks : List TokenKind} {post : Expr → Prop}
    {stops : TokenKind → Bool} (goesOn : stops (.keyword .OR) = true)
    (whole : ReadsAs (always (readConjunction condition)) ks post stops) :
    ReadsAs (always (readDisjunction condition)) ks post
      fun kind => stops kind && kind != .keyword .OR :=
  (disjunction_as goesOn (List.cons_ne_nil ks []) (.cons whole .nil)).weaken fun _ => single_fold

theorem exact_parts {α : Type} {item : Read α} {stops : TokenKind → Bool}
    {parts : List (List TokenKind)} {values : List α}
    (each : List.Forall₂ (fun ks value => Reads item ks value stops) parts values) :
    List.Forall₂ (fun ks post => ReadsAs item ks post stops) parts
      (values.map fun value found => found = value) := by
  rw [List.forall₂_map_right_iff]
  exact each.imp fun _ _ whole => whole.as

theorem exact_fold {combine : List Expr → Expr} {values : List Expr} {expr : Expr}
    (fold : IsFold combine (values.map fun value found => found = value) expr) :
    expr = foldItems combine values := by
  obtain ⟨items, holds, rfl⟩ := fold
  rw [List.forall₂_map_left_iff] at holds
  have same : values = items := List.forall₂_eq_eq_eq ▸ holds.imp fun _ _ found => found.symm
  rw [same]

theorem reads_recovering {condition : Read Expr} {ks : List TokenKind} {expr : Expr}
    {stops : TokenKind → Bool} (whole : Reads condition ks expr stops) :
    Reads (always (recovering condition)) ks expr stops :=
  (recovering_as whole.as).exact fun _ same => same

theorem reads_conjunction {condition : Read Expr} {parts : List (List TokenKind)}
    {values : List Expr} (some_ : parts ≠ [])
    (each : List.Forall₂ (fun ks value => Reads condition ks value endsFragment) parts values) :
    Reads (always (readConjunction condition)) (separated (.keyword .AND) parts)
      (foldItems .and values) endsConjunction :=
  (conjunction_as rfl some_ (exact_parts (each.imp fun _ _ whole => reads_recovering whole))).exact
    fun _ => exact_fold

theorem reads_disjunction {condition : Read Expr} {parts : List (List TokenKind)}
    {values : List Expr} (some_ : parts ≠ [])
    (each : List.Forall₂
      (fun ks value => Reads (always (readConjunction condition)) ks value endsConjunction)
      parts values) :
    Reads (always (readDisjunction condition)) (separated (.keyword .OR) parts)
      (foldItems .or values) endsDisjunction :=
  (disjunction_as rfl some_ (exact_parts each)).exact fun _ => exact_fold

theorem reads_single_conjunction {condition : Read Expr} {ks : List TokenKind} {value : Expr}
    (whole : Reads condition ks value endsFragment) :
    Reads (always (readConjunction condition)) ks value endsConjunction :=
  (conjunction_single_as rfl (recovering_as whole.as)).exact fun _ same => same

theorem reads_single_disjunction {condition : Read Expr} {ks : List TokenKind} {value : Expr}
    (whole : Reads (always (readConjunction condition)) ks value endsConjunction) :
    Reads (always (readDisjunction condition)) ks value endsDisjunction :=
  (disjunction_single_as rfl whole.as).exact fun _ same => same

/-! ### Sub-queries -/

def Join.kinds (join : Join) : List TokenKind :=
  [TokenKind.keyword .INNER, .keyword .JOIN] ++ [TokenKind.identifier join.table] ++
    [TokenKind.keyword .ON] ++ join.left.kinds ++ [TokenKind.comparison .eq] ++ join.right.kinds

def Join.onKey (table dataset key : String) : Join :=
  ⟨dataset, ⟨some table, key⟩, ⟨some dataset, key⟩⟩

def joinKinds (table dataset key : String) : List TokenKind :=
  .keyword .INNER :: .keyword .JOIN :: .identifier dataset :: .keyword .ON ::
    (columnKinds table key ++ .comparison .eq :: columnKinds dataset key)

def endsJoins (kind : TokenKind) : Bool :=
  kind != .mark .dot && kind != .keyword .INNER && kind != .keyword .JOIN

theorem reads_join (join : Join) {tokens : List Token} {after : List TokenKind}
    (shape : kindsOf tokens = join.kinds ++ after) (ends : .mark .dot ∉ after.head?) :
    ∃ inner rest, expectJoin tokens = some (some inner) ∧ readJoin inner = some (join, rest) ∧
      kindsOf rest = after := by
  obtain ⟨table, left, right⟩ := join
  simp only [Join.kinds, List.append_assoc, List.cons_append, List.nil_append] at shape
  obtain ⟨rest, inner, shape⟩ := expect_same shape
  obtain ⟨rest, joined, shape⟩ := expect_same shape
  refine ⟨rest, ?_⟩
  obtain ⟨rest, name, shape⟩ := reads_name table rest _ shape (by simp [anyKind])
  obtain ⟨rest, on, shape⟩ := expect_same shape
  obtain ⟨rest, first, shape⟩ := reads_column_kinds left rest _ shape (by simp)
  obtain ⟨rest, equal, shape⟩ := expect_same shape
  obtain ⟨rest, second, shape⟩ := reads_column_kinds right rest _ shape fun kind head => by
    simp only [bne_iff_ne]
    rintro rfl
    exact ends head
  exact ⟨rest, by simp [expectJoin, inner, joined],
    by simp [readJoin, name, on, first, equal, second], shape⟩

theorem reads_joins (joins : List Join) (bound : List Token) {tokens : List Token}
    {after : List TokenKind} (enough : joins.length ≤ bound.length)
    (shape : kindsOf tokens = joins.flatMap Join.kinds ++ after)
    (ends : ∀ kind ∈ after.head?, endsJoins kind = true) :
    ∃ rest, readJoins bound tokens = some (joins, rest) ∧ kindsOf rest = after := by
  induction joins generalizing bound tokens with
  | nil =>
      have noJoin (word : Keyword) (other : endsJoins (.keyword word) = false) :
          expect (.keyword word) tokens = none := expect_other fun first =>
        Bool.noConfusion (other.symm.trans (ends _ (by rwa [shape] at first)))
      refine ⟨tokens, ?_, shape⟩
      cases bound <;> simp [readJoins, expectJoin, noJoin .INNER rfl, noJoin .JOIN rfl]
  | cons join joins ih =>
      cases bound with
      | nil => cases enough
      | cons token bound =>
          rw [List.flatMap_cons, List.append_assoc] at shape
          have noDot : .mark .dot ∉ (joins.flatMap Join.kinds ++ after).head? := by
            cases joins with
            | nil => exact fun dot => absurd (ends _ dot) (by decide)
            | cons next joins => simp [Join.kinds]
          obtain ⟨inner, rest, words, read, shape⟩ := reads_join join shape noDot
          obtain ⟨rest, others, shape⟩ := ih bound (Nat.le_of_succ_le_succ enough) shape
          exact ⟨rest, by simp [readJoins, words, read, others], shape⟩

theorem joins_fit {joins : List Join} {tokens : List Token} {after : List TokenKind}
    (shape : kindsOf tokens = joins.flatMap Join.kinds ++ after) :
    joins.length ≤ tokens.length := by
  have count := congrArg List.length shape
  simp only [kindsOf, List.length_map, List.length_append] at count
  suffices fits : joins.length ≤ (joins.flatMap Join.kinds).length by omega
  clear shape count
  induction joins with
  | nil => exact le_rfl
  | cons join joins ih =>
      rw [List.flatMap_cons, List.length_append, Join.kinds]
      simp only [List.length_cons, List.length_append]
      omega

theorem joins_on_key (table : String) (joins : List (String × String)) :
    (joins.flatMap fun join => joinKinds table join.1 join.2) =
      (joins.map fun join => Join.onKey table join.1 join.2).flatMap Join.kinds := by
  rw [List.flatMap_map]
  rfl

theorem reads_absent {α : Type} (keyword : Keyword) (part : Read α) :
    Reads (readOptional keyword part) [] none (· != .keyword keyword) := by
  intro tokens after shape ends
  have missing : expect (.keyword keyword) tokens = none := expect_other fun present =>
    absurd (ends (.keyword keyword) (by simpa [shape] using present)) (by simp)
  exact ⟨tokens, by simp [readOptional, missing], shape⟩

theorem present_as {α : Type} (keyword : Keyword) {part : Read α} {ks : List TokenKind}
    {post : α → Prop} {stops : TokenKind → Bool} (whole : ReadsAs part ks post stops) :
    ReadsAs (readOptional keyword part) (.keyword keyword :: ks)
      (fun found => ∃ value, post value ∧ found = some value) stops := by
  intro tokens after shape ends
  obtain ⟨rest, present, shape⟩ := expect_same shape
  obtain ⟨value, rest', read, shape', holds⟩ := whole rest after shape ends
  exact ⟨some value, rest', by simp [readOptional, present, read], shape', value, holds, rfl⟩

theorem reads_present {α : Type} (keyword : Keyword) {part : Read α} {ks : List TokenKind}
    {value : α} {stops : TokenKind → Bool} (whole : Reads part ks value stops) :
    Reads (readOptional keyword part) (.keyword keyword :: ks) (some value) stops :=
  (present_as keyword whole.as).exact fun _ ⟨_, same, found⟩ => same ▸ found

theorem reads_group_by (table name : String) :
    Reads readGroupBy (.keyword .BY :: columnKinds table name) ⟨some table, name⟩ anyKind := by
  intro tokens after shape _
  obtain ⟨rest, keyword, shape⟩ := expect_same shape
  obtain ⟨rest, read, shape⟩ := reads_column table name rest _ shape (by simp [anyKind])
  exact ⟨rest, by simp [readGroupBy, keyword, read], shape⟩

def queryKinds (table : String) (joins : List Join) (filter grouping comparison : List TokenKind) :
    List TokenKind :=
  .keyword .SELECT :: .number "1" :: .keyword .FROM :: .identifier table ::
    (joins.flatMap Join.kinds ++ (filter ++ (grouping ++ comparison)))

def subqueryKinds (table : String) (joins : List (String × String))
    (filter grouping comparison : List TokenKind) : List TokenKind :=
  .keyword .SELECT :: .number "1" :: .keyword .FROM :: .identifier table ::
    ((joins.flatMap fun join => joinKinds table join.1 join.2) ++
      .keyword .WHERE :: (filter ++ (grouping ++ comparison)))

theorem subquery_kinds (table : String) (joins : List (String × String))
    (filter grouping comparison : List TokenKind) :
    subqueryKinds table joins filter grouping comparison =
      queryKinds table (joins.map fun join => Join.onKey table join.1 join.2)
        (.keyword .WHERE :: filter) grouping comparison := by
  rw [subqueryKinds, joins_on_key]
  rfl

section Exists

variable {condition : Read Expr} {predicate : Read Predicate} {ws gs hs : List TokenKind}
  {groupBy : Option Column} {having : Option Predicate}
  {afterFilter afterGroup afterAll : TokenKind → Bool}

/-- Each part of a sub-query ends in front of those that follow it. -/
theorem query_as (negated : Bool) (table : String) (joins : List Join)
    {post : Option Expr → Prop}
    (filters : ReadsAs (readOptional .WHERE (always (readDisjunction condition))) ws post
      afterFilter)
    (groups : Reads (readOptional .GROUP readGroupBy) gs groupBy afterGroup)
    (compares : Reads (readOptional .HAVING predicate) hs having afterAll)
    (atFilter : ∀ kind ∈ (ws ++ gs ++ hs ++ [TokenKind.mark .rparen]).head?, endsJoins kind = true)
    (atGroup : ∀ kind ∈ (gs ++ hs ++ [TokenKind.mark .rparen]).head?, afterFilter kind = true)
    (atHaving : ∀ kind ∈ (hs ++ [TokenKind.mark .rparen]).head?, afterGroup kind = true)
    (atEnd : afterAll (.mark .rparen) = true) :
    ReadsAs (readExists negated condition predicate)
      (.mark .lparen :: (queryKinds table joins ws gs hs ++ [.mark .rparen]))
      (fun expr => ∃ filter, post filter ∧
        expr = .exist negated ⟨table, joins, filter, groupBy, having⟩) anyKind := by
  intro tokens after shape _
  simp only [queryKinds, List.cons_append, List.append_assoc, List.nil_append] at shape
  obtain ⟨rest, opening, shape⟩ := expect_same shape
  obtain ⟨rest, select, shape⟩ := expect_same shape
  obtain ⟨one, rest, rfl, number, shape⟩ := kinds_of_cons shape
  have skips : skipSelection 0 (one :: rest) = some rest := by
    obtain ⟨from_, behind, rfl, keyword, _⟩ := kinds_of_cons shape
    simp [skipSelection, number, keyword]
  obtain ⟨rest, froms, shape⟩ := expect_same shape
  obtain ⟨rest, name, shape⟩ := reads_name table rest _ shape (by simp [anyKind])
  obtain ⟨rest, joined, shape⟩ := reads_joins joins rest (joins_fit shape) shape fun kind first =>
    atFilter kind (by cases ws <;> cases gs <;> cases hs <;> simpa using first)
  obtain ⟨filter, rest, filtered, shape, holds⟩ := filters rest _ shape fun kind first =>
    atGroup kind (by cases gs <;> cases hs <;> simpa using first)
  obtain ⟨rest, grouped, shape⟩ := groups rest _ shape fun kind first =>
    atHaving kind (by cases hs <;> simpa using first)
  obtain ⟨rest, compared, shape⟩ := compares rest _ shape (by simpa using atEnd)
  obtain ⟨rest, closing, shape⟩ := expect_same shape
  refine ⟨_, rest, ?_, shape, filter, holds, rfl⟩
  unfold readGroupBy at grouped
  simp only [Option.bind_eq_bind] at grouped
  simp [readExists, readSubquery, opening, select, skips, froms, name, joined, filtered, grouped,
    compared, closing]

theorem exists_as (negated : Bool) (table : String) (joins : List (String × String))
    {ks : List TokenKind} {post : Expr → Prop}
    (conditions : ReadsAs (always (readDisjunction condition)) ks post endsDisjunction)
    (groups : Reads (readOptional .GROUP readGroupBy) gs groupBy afterGroup)
    (compares : Reads (readOptional .HAVING predicate) hs having afterAll)
    (atGroup : ∀ kind ∈ (gs ++ hs ++ [TokenKind.mark .rparen]).head?, endsDisjunction kind = true)
    (atHaving : ∀ kind ∈ (hs ++ [TokenKind.mark .rparen]).head?, afterGroup kind = true)
    (atEnd : afterAll (.mark .rparen) = true) :
    ReadsAs (readExists negated condition predicate)
      (.mark .lparen :: (subqueryKinds table joins ks gs hs ++ [.mark .rparen]))
      (fun expr => ∃ filter, post filter ∧ expr = .exist negated ⟨table,
        joins.map fun join => Join.onKey table join.1 join.2, some filter, groupBy, having⟩)
      anyKind := by
  rw [subquery_kinds]
  refine (query_as negated table _ (present_as .WHERE conditions) groups compares
    (by simp [endsJoins]) atGroup atHaving atEnd).weaken ?_
  rintro _ ⟨_, ⟨filter, holds, rfl⟩, rfl⟩
  exact ⟨filter, holds, rfl⟩

end Exists

theorem reads_condition_predicate {room : Nat} {kind : TokenKind} {ks : List TokenKind}
    {predicate : Predicate} {stops : TokenKind → Bool} (plain : opensLevel kind = false)
    (whole : Reads (readPredicate (readOperand room)) (kind :: ks) predicate stops) :
    Reads (readCondition room) (kind :: ks) (.predicate predicate) stops := by
  intro tokens after shape ends
  obtain ⟨rest, read, shape'⟩ := whole tokens after shape ends
  obtain ⟨token, behind, rfl, same, _⟩ := kinds_of_cons shape
  refine ⟨rest, ?_, shape'⟩
  cases room <;> simp [readCondition, same, plain, read]

theorem condition_grouped_as {room : Nat} {ks : List TokenKind} {post : Expr → Prop}
    {stops : TokenKind → Bool}
    (whole : ReadsAs (always (readDisjunction (readCondition room))) ks post stops)
    (closes : stops (.mark .rparen) = true) :
    ReadsAs (readCondition (room + 1)) (.mark .lparen :: (ks ++ [.mark .rparen]))
      (fun expr => ∃ inner, post inner ∧ expr = .grouped inner) anyKind := by
  intro tokens after shape _
  obtain ⟨token, rest, rfl, same, shape⟩ := kinds_of_cons shape
  obtain ⟨inner, rest', read, shape, holds⟩ :=
    whole rest (.mark .rparen :: after) (by simpa using shape) (by simpa using closes)
  obtain ⟨behind, closing, shape⟩ := expect_same shape
  simp only [Option.some.injEq] at read
  refine ⟨_, behind, ?_, shape, inner, holds, rfl⟩
  simp [readCondition, opensLevel, readLevel, same, read, closing]

theorem reads_condition_grouped {room : Nat} {ks : List TokenKind} {inner : Expr}
    (whole : Reads (always (readDisjunction (readCondition room))) ks inner endsDisjunction) :
    Reads (readCondition (room + 1)) (.mark .lparen :: (ks ++ [.mark .rparen])) (.grouped inner)
      anyKind :=
  (condition_grouped_as whole.as rfl).exact fun _ ⟨_, same, found⟩ => same ▸ found

theorem condition_exists_as {room : Nat} {ks : List TokenKind} {post : Expr → Prop}
    (whole : ReadsAs (readExists false (readCondition room) (readPredicate (readOperand room))) ks
      post anyKind) :
    ReadsAs (readCondition (room + 1)) (.keyword .EXISTS :: ks) post anyKind := by
  intro tokens after shape ends
  obtain ⟨token, rest, rfl, same, shape⟩ := kinds_of_cons shape
  obtain ⟨value, behind, read, shape, holds⟩ := whole rest after shape ends
  exact ⟨value, behind, by simp [readCondition, opensLevel, readLevel, same, read], shape, holds⟩

theorem reads_condition_exists {room : Nat} {ks : List TokenKind} {query : Expr}
    (whole : Reads (readExists false (readCondition room) (readPredicate (readOperand room))) ks
      query anyKind) :
    Reads (readCondition (room + 1)) (.keyword .EXISTS :: ks) query anyKind :=
  (condition_exists_as whole.as).exact fun _ same => same

theorem condition_not_exists_as {room : Nat} {ks : List TokenKind} {post : Expr → Prop}
    (whole : ReadsAs (readExists true (readCondition room) (readPredicate (readOperand room))) ks
      post anyKind) :
    ReadsAs (readCondition (room + 1)) (.keyword .NOT :: .keyword .EXISTS :: ks) post anyKind := by
  intro tokens after shape ends
  obtain ⟨token, rest, rfl, same, shape⟩ := kinds_of_cons shape
  obtain ⟨rest, exists_, shape⟩ := expect_same shape
  obtain ⟨value, behind, read, shape, holds⟩ := whole rest after shape ends
  exact ⟨value, behind, by simp [readCondition, opensLevel, readLevel, same, exists_, read], shape,
    holds⟩

theorem reads_condition_not_exists {room : Nat} {ks : List TokenKind} {query : Expr}
    (whole : Reads (readExists true (readCondition room) (readPredicate (readOperand room))) ks
      query anyKind) :
    Reads (readCondition (room + 1)) (.keyword .NOT :: .keyword .EXISTS :: ks) query anyKind :=
  (condition_not_exists_as whole.as).exact fun _ same => same

theorem reads_condition_not {room : Nat} {kind : TokenKind} {ks : List TokenKind} {inner : Expr}
    {stops : TokenKind → Bool} (other : kind ≠ .keyword .EXISTS)
    (whole : Reads (readCondition room) (kind :: ks) inner stops) :
    Reads (readCondition (room + 1)) (.keyword .NOT :: kind :: ks) (.not inner) stops := by
  intro tokens after shape ends
  obtain ⟨token, rest, rfl, same, shape⟩ := kinds_of_cons shape
  obtain ⟨behind, read, shape'⟩ := whole rest after shape ends
  have noExists : expect (.keyword .EXISTS) rest = none := expect_other (by simp [shape, other])
  exact ⟨behind, by simp [readCondition, opensLevel, readLevel, same, noExists, read], shape'⟩

end Cohort.Sql
