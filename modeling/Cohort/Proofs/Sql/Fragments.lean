import Cohort.Proofs.Sql.Nesting
import Cohort.Proofs.Sql.Reading

/-!
What is refused, and what becomes of it. A condition that is refused is taken as a fragment: the
tokens up to the next one, outside the parentheses of the fragment, that may follow a condition.
-/

namespace Cohort.Sql

/-- How many parentheses are open behind tokens of a fragment, of `depth` that are open in front of
them; there is no number if the fragment ends among them. -/
def fragmentLevel (depth : Nat) : List TokenKind → Option Nat
  | [] => some depth
  | .mark .lparen :: rest => fragmentLevel (depth + 1) rest
  | .mark .rparen :: rest =>
      match depth with
      | 0 => none
      | depth + 1 => fragmentLevel depth rest
  | kind :: rest => if depth = 0 ∧ endsFragment kind = true then none else fragmentLevel depth rest

theorem fragment_ends {token : Token} (ends : endsFragment token.kind = true) (rest : List Token) :
    splitFragment 0 (token :: rest) = ([], token :: rest) := by
  cases kind : token.kind with
  | mark sign => cases sign <;> simp_all [splitFragment, endsFragment]
  | keyword word => cases word <;> simp_all [splitFragment, endsFragment]
  | _ => simp_all [endsFragment]

/-- Tokens behind which no parenthesis is open are the fragment if one follows that ends it. -/
theorem fragment_taken {depth : Nat} {ks : List TokenKind} (level : fragmentLevel depth ks = some 0)
    {tokens : List Token} {after : List TokenKind} (shape : kindsOf tokens = ks ++ after)
    (ends : ∀ kind ∈ after.head?, endsFragment kind = true) :
    kindsOf (splitFragment depth tokens).2 = after := by
  fun_induction fragmentLevel depth ks generalizing tokens with
  | case1 depth =>
      obtain rfl := Option.some.inj level
      change kindsOf tokens = after at shape
      cases tokens with
      | nil => exact shape
      | cons token rest =>
          rw [fragment_ends (ends token.kind (by simp [← shape, kindsOf])) rest]
          exact shape
  | case2 depth rest ih =>
      obtain ⟨token, tokens, rfl, same, shape⟩ := kinds_of_cons shape
      simpa [splitFragment, same] using ih level shape
  | case3 rest => cases level
  | case4 rest depth ih =>
      obtain ⟨token, tokens, rfl, same, shape⟩ := kinds_of_cons shape
      simpa [splitFragment, same] using ih level shape
  | case5 depth kind rest _ _ stops => cases level
  | case6 depth kind rest opening closing goesOn ih =>
      obtain ⟨token, tokens, rfl, same, shape⟩ := kinds_of_cons shape
      have behind := ih level shape
      subst same
      cases depth with
      | zero => simp_all [splitFragment]
      | succ depth => simp_all [splitFragment]

theorem fragment_flat {kind : TokenKind} (plain : isFlat kind = true) (depth : Nat)
    (rest : List TokenKind) :
    fragmentLevel (depth + 1) (kind :: rest) = fragmentLevel (depth + 1) rest := by
  cases kind with
  | mark sign => cases sign <;> simp_all [isFlat, fragmentLevel]
  | _ => simp [fragmentLevel]

/-- Within parentheses, tokens that close what they open do not end a fragment. -/
theorem Nested.fragment {height : Nat} {ks : List TokenKind} (nested : Nested height ks)
    (depth : Nat) (after : List TokenKind) :
    fragmentLevel (depth + 1) (ks ++ after) = fragmentLevel (depth + 1) after := by
  induction nested generalizing depth after with
  | nil => rfl
  | flat plain _ ih => rw [List.cons_append, fragment_flat plain, ih]
  | paren _ _ within behind =>
      rw [List.cons_append, List.append_assoc, List.cons_append, fragmentLevel, within,
        fragmentLevel, behind]

theorem fragment_around {height : Nat} {ks : List TokenKind} (nested : Nested height ks) :
    fragmentLevel 0 (.mark .lparen :: (ks ++ [.mark .rparen])) = some 0 := by
  rw [fragmentLevel, nested.fragment]
  rfl

/-- A refused condition is unparsed, whatever its text is. -/
theorem unparsed_as {condition : Read Expr} {ks : List TokenKind}
    (refuses : Refuses condition ks) (level : fragmentLevel 0 ks = some 0) :
    ReadsAs (always (recovering condition)) ks
      (fun expr => ∃ text, expr = .predicate (.unparsed text)) endsFragment := by
  intro tokens after shape ends
  have behind := fragment_taken level shape ends
  have nothing := refuses tokens after shape
  have read : recovering condition tokens =
      (.predicate (.unparsed (sourceText (splitFragment 0 tokens).1)),
        (splitFragment 0 tokens).2) := by
    simp only [recovering, nothing]
  exact ⟨_, _, congrArg some read, behind, _, rfl⟩

theorem refuses_operand {room : Nat} {ks : List TokenKind}
    (refuses : Refuses (termWithin room) ks) : Refuses (readOperand room) ks := by
  intro tokens after shape
  rw [operand_of_terms, refuses tokens after shape]
  rfl

def isAmount : TokenKind → Bool
  | .string _ | .number _ => true
  | _ => false

theorem refuses_interval {kind : TokenKind} (other : isAmount kind = false) (ks : List TokenKind)
    (args : Read (List Operand)) : Refuses (readTerm args) (.keyword .INTERVAL :: kind :: ks) := by
  intro tokens after shape
  obtain ⟨token, rest, rfl, same, shape⟩ := kinds_of_cons shape
  obtain ⟨amount, rest, rfl, rfl, shape⟩ := kinds_of_cons shape
  have nothing : readInterval (amount :: rest) = none := by
    cases kind : amount.kind <;> simp_all [isAmount, readInterval]
  simp [readTerm, same, nothing]

section Calls

variable {args : Read (List Operand)} (name : String) {ks : List TokenKind}

theorem refuses_call (refuses : Refuses args ks) :
    Refuses (readTerm args) (.identifier name :: .mark .lparen :: ks) := by
  intro tokens after shape
  obtain ⟨token, rest, rfl, kind, shape⟩ := kinds_of_cons shape
  obtain ⟨rest, opening, shape⟩ := expect_same shape
  simp [readTerm, kind, opening, refuses rest after shape]

/-- A call without its closing parenthesis. -/
theorem refuses_open_call {values : List Operand} {stops : TokenKind → Bool}
    (inner : Reads args ks values stops) (next : TokenKind) (goesOn : stops next = true)
    (open_ : next ≠ .mark .rparen) (more : List TokenKind) :
    Refuses (readTerm args) (.identifier name :: .mark .lparen :: (ks ++ next :: more)) := by
  intro tokens after shape
  obtain ⟨token, rest, rfl, kind, shape⟩ := kinds_of_cons shape
  obtain ⟨rest, opening, shape⟩ := expect_same shape
  obtain ⟨rest, read, shape⟩ := inner rest (next :: (more ++ after)) (by simpa using shape)
    (by simpa using goesOn)
  have noEnd : expect (.mark .rparen) rest = none := expect_other (by simpa [shape] using open_)
  simp [readTerm, kind, opening, read, noEnd]

end Calls

theorem refuses_term {ks : List TokenKind} (term : ∀ args, Refuses (readTerm args) ks)
    (room : Nat) : Refuses (termWithin room) ks := by
  cases room <;> exact term _

/-- A call of which the arguments are refused, however many levels are left for them. -/
theorem refuses_call_within (name : String) {ks : List TokenKind}
    (refuses : ∀ room, Refuses (termWithin (room + 1)) (.identifier name :: .mark .lparen :: ks))
    (room : Nat) : Refuses (readOperand room) (.identifier name :: .mark .lparen :: ks) := by
  refine refuses_operand ?_
  cases room with
  | zero => exact refuses_call name fun _ _ _ => rfl
  | succ room => exact refuses room

/-- The second of two operands is refused. -/
theorem refuses_operands {operand : Read Operand} {kind : TokenKind} {ks ls : List TokenKind}
    {value : Operand} {stops : TokenKind → Bool} (opens : kind ≠ .mark .rparen)
    (first : Reads operand (kind :: ks) value stops) (goesOn : stops (.mark .comma) = true)
    (second : Refuses operand ls) :
    Refuses (readOperands operand) (kind :: ks ++ .mark .comma :: ls) := by
  intro tokens after shape
  have noEnd : startsWith (.mark .rparen) tokens = false := by
    rw [startsWith, expect_other]
    · rfl
    · simpa [shape] using opens
  obtain ⟨rest, read, shape'⟩ := first tokens (.mark .comma :: (ls ++ after)) (by simpa using shape)
    (by simpa using goesOn)
  obtain ⟨rest, comma, shape'⟩ := expect_same shape'
  have nothing := second rest after shape'
  have again (bound : List Token) : readSeparated (.mark .comma) operand bound rest = none := by
    cases bound <;> simp [readSeparated, nothing]
  cases tokens with
  | nil => cases shape
  | cons token tokens => simp [readOperands, noEnd, readSeparated, read, comma, again]

section Predicates

variable {operand : Read Operand} {target : List TokenKind} {value : Operand}

theorem refuses_compare (first : Reads operand target value endsOperand) (op : Comparison)
    {ks : List TokenKind} (second : Refuses operand ks) :
    Refuses (readPredicate operand) (target ++ .comparison op :: ks) := by
  intro tokens after shape
  obtain ⟨rest, read, shape⟩ := first tokens (.comparison op :: (ks ++ after))
    (by simpa using shape) (by simp [endsOperand])
  have noNot : expect (.keyword .NOT) rest = none := expect_other (by simp [shape])
  obtain ⟨token, rest, rfl, kind, shape⟩ := kinds_of_cons shape
  have nothing := second rest after shape
  simp [readPredicate, read, accept, noNot, readRelation, kind, nothing]

/-- A lower bound that does not end in front of `AND`. -/
theorem refuses_between (first : Reads operand target value endsOperand)
    {ks : List TokenKind} {low : Operand} {stops : TokenKind → Bool}
    (second : Reads operand ks low stops) (next : TokenKind) (goesOn : stops next = true)
    (other : next ≠ .keyword .AND) (more : List TokenKind) :
    Refuses (readPredicate operand) (target ++ .keyword .BETWEEN :: (ks ++ next :: more)) := by
  intro tokens after shape
  obtain ⟨rest, read, shape⟩ := first tokens
    (.keyword .BETWEEN :: (ks ++ next :: (more ++ after))) (by simpa using shape)
    (by simp [endsOperand])
  have noNot : expect (.keyword .NOT) rest = none := expect_other (by simp [shape])
  obtain ⟨token, rest, rfl, kind, shape⟩ := kinds_of_cons shape
  obtain ⟨rest, read', shape⟩ := second rest (next :: (more ++ after)) shape
    (by simpa using goesOn)
  have noAnd : expect (.keyword .AND) rest = none := expect_other (by simpa [shape] using other)
  simp [readPredicate, read, accept, noNot, readRelation, kind, read', noAnd]

/-- An operand with a name behind it is no predicate. -/
theorem refuses_bare {stops : TokenKind → Bool} (first : Reads operand target value stops)
    (name : String) (goesOn : stops (.identifier name) = true) (more : List TokenKind) :
    Refuses (readPredicate operand) (target ++ .identifier name :: more) := by
  intro tokens after shape
  obtain ⟨rest, read, shape⟩ := first tokens (.identifier name :: (more ++ after))
    (by simpa using shape) (by simpa using goesOn)
  have noNot : expect (.keyword .NOT) rest = none := expect_other (by simp [shape])
  obtain ⟨token, rest, rfl, kind, shape⟩ := kinds_of_cons shape
  simp [readPredicate, read, accept, noNot, readRelation, kind, endsFragment]

/-- An operand alone is a predicate. -/
theorem reads_bare (first : Reads operand target value endsOperand) :
    Reads (readPredicate operand) target (.bare value) endsFragment := by
  intro tokens after shape ends
  obtain ⟨rest, read, shape⟩ := first tokens after shape fun kind start =>
    fragment_ends_operand (ends kind start)
  refine ⟨rest, ?_, shape⟩
  cases rest with
  | nil => simp [readPredicate, read, accept, expect, readRelation]
  | cons token rest =>
      have stop := ends token.kind (by simp [← shape, kindsOf])
      have noNot : token.kind ≠ .keyword .NOT := by
        intro same
        simp [same, endsFragment] at stop
      have alone : readRelation operand value false (token :: rest) =
          some (.bare value, token :: rest) := by
        rw [readRelation]
        split <;> simp_all [endsFragment]
      simp [readPredicate, read, accept, expect, noNot, alone]

end Predicates

theorem refuses_condition {room : Nat} {kind : TokenKind} {ks : List TokenKind}
    (plain : opensLevel kind = false)
    (refuses : Refuses (readPredicate (readOperand room)) (kind :: ks)) :
    Refuses (readCondition room) (kind :: ks) := by
  intro tokens after shape
  have nothing := refuses tokens after shape
  obtain ⟨token, behind, rfl, same, _⟩ := kinds_of_cons shape
  cases room <;> simp [readCondition, same, plain, nothing]

/-- Parentheses that are still open behind what is read within them. -/
theorem refuses_grouped {room : Nat} {ks : List TokenKind} {post : Expr → Prop}
    {stops : TokenKind → Bool}
    (inner : ReadsAs (always (readDisjunction (readCondition room))) ks post stops)
    (next : TokenKind) (goesOn : stops next = true) (open_ : next ≠ .mark .rparen)
    (more : List TokenKind) :
    Refuses (readCondition (room + 1)) (.mark .lparen :: (ks ++ next :: more)) := by
  intro tokens after shape
  obtain ⟨token, rest, rfl, same, shape⟩ := kinds_of_cons shape
  obtain ⟨value, rest, read, shape, _⟩ := inner rest (next :: (more ++ after))
    (by simpa using shape) (by simpa using goesOn)
  have noEnd : expect (.mark .rparen) rest = none := expect_other (by simpa [shape] using open_)
  simp only [Option.some.injEq] at read
  simp [readCondition, opensLevel, readLevel, same, read, noEnd]

end Cohort.Sql
