import Cohort.Proofs.Sql.Consuming
import Cohort.Proofs.Sql.Counter
import Cohort.Proofs.Sql.Yielding
import Cohort.Sql.Lexer

/-!
The counter of the levels is exact. A machine is in its levels when the counter stands at their
number, which is within the limit, and all that has been taken down so far is exact too. Every
production that starts in its levels ends in them, whether it has read something or failed, and
reads what the reader does that is told how many levels are left.
-/

namespace Cohort.Sql

variable {α β : Type} {within : List Level} {machine : Machine}

structure Call.Exact (call : Call) : Prop where
  entered : call.entered = call.within.length
  left : call.left = call.entered
  low : call.entered ≤ maxNesting

structure Machine.In (within : List Level) (machine : Machine) : Prop where
  depth : machine.depth = within.length
  low : within.length ≤ maxNesting
  exact : ∀ call ∈ machine.calls, call.Exact

theorem Machine.In.goTo (inside : machine.In within) (tokens : List Token) :
    (machine.goTo tokens).In within :=
  ⟨inside.depth, inside.low, inside.exact⟩

/-- The machine that is left is in the levels, and with its tokens the outcome is what the reader
gives. -/
structure Tracks (within : List Level) (read : Option (α × List Token))
    (outcome : Option α × Machine) : Prop where
  inside : outcome.2.In within
  reads : outcome.1.map (·, outcome.2.tokens) = read

/-- Wherever `step` starts in the levels, it tracks `read`. -/
def Follows (within : List Level) (step : Counted α) (read : Read α) : Prop :=
  ∀ machine : Machine, machine.In within → Tracks within (read machine.tokens) (step machine)

/-- Beyond the limit there is no machine to start with. -/
theorem follows_beyond (beyond : maxNesting < within.length) (step : Counted α) (read : Read α) :
    Follows within step read :=
  fun _ inside => absurd inside.low (Nat.not_le.mpr beyond)

/-! ### Steps -/

theorem tracks_some (inside : machine.In within) (value : α) :
    Tracks within (some (value, machine.tokens)) (some value, machine) :=
  ⟨inside, rfl⟩

theorem tracks_none (inside : machine.In within) :
    Tracks within none ((none : Option α), machine) :=
  ⟨inside, rfl⟩

theorem bind_some {step : Counted α} {next : α → Counted β} {value : α} {after : Machine}
    (ran : step machine = (some value, after)) : (step >>= next) machine = next value after := by
  simp only [bind, ran]

theorem bind_none {step : Counted α} {next : α → Counted β} {after : Machine}
    (ran : step machine = (none, after)) : (step >>= next) machine = (none, after) := by
  simp only [bind, ran]

theorem Tracks.bind {read : Option (α × List Token)} {step : Counted α} {next : α → Counted β}
    {behind : α × List Token → Option (β × List Token)}
    (first : Tracks within read (step machine))
    (second : ∀ value after, after.In within →
      Tracks within (behind (value, after.tokens)) (next value after)) :
    Tracks within (read >>= behind) ((step >>= next) machine) := by
  rcases ran : step machine with ⟨_ | value, after⟩ <;> rw [ran] at first <;>
    obtain ⟨inside, rfl⟩ := first
  · rw [bind_none ran]
    exact tracks_none inside
  · rw [bind_some ran]
    exact second value after inside

theorem tracks_off (inside : machine.In within) (read : Read α) :
    Tracks within (read machine.tokens) (Counted.off read machine) := by
  simp only [Counted.off]
  split
  · next value rest found => exact found ▸ tracks_some (inside.goTo rest) value
  · next found => exact found ▸ tracks_none inside

theorem tracks_advance {move : List Token → Option (List Token)} {next : Counted β}
    {behind : List Token → Option (β × List Token)} (inside : machine.In within)
    (second : ∀ after : Machine, after.In within →
      Tracks within (behind after.tokens) (next after)) :
    Tracks within (move machine.tokens >>= behind)
      ((Counted.advance move >>= fun _ => next) machine) := by
  have moved : Tracks within ((move machine.tokens).map fun rest => ((), rest))
      (Counted.advance move machine) :=
    tracks_off inside fun tokens => (move tokens).map fun rest => ((), rest)
  have both := @Tracks.bind _ _ _ _ _ _ _ (fun read => behind read.2) moved fun _ => second
  cases found : move machine.tokens <;> rwa [found] at both

theorem tracks_expect {kind : TokenKind} {next : Counted β}
    {behind : List Token → Option (β × List Token)} (inside : machine.In within)
    (second : ∀ after : Machine, after.In within →
      Tracks within (behind after.tokens) (next after)) :
    Tracks within (expect kind machine.tokens >>= behind)
      ((Counted.expect kind >>= fun _ => next) machine) :=
  tracks_advance inside second

theorem tracks_branch {kind : TokenKind} {behind otherwise : Counted α}
    {read : Option (α × List Token)} (inside : machine.In within)
    (there : ∀ after : Machine, after.In within → expect kind machine.tokens = some after.tokens →
      Tracks within read (behind after))
    (missing : expect kind machine.tokens = none → Tracks within read (otherwise machine)) :
    Tracks within read (Counted.branch kind behind otherwise machine) := by
  simp only [Counted.branch]
  split
  · next rest found => exact there _ (inside.goTo rest) found
  · next found => exact missing found

theorem tracks_resume {body : Counted α} {rest : List Token} {read : Option (α × List Token)}
    (inside : machine.In within)
    (behind : ∀ after : Machine, after.In within → after.tokens = rest →
      Tracks within read (body after)) :
    Tracks within read (Counted.resume rest body machine) :=
  behind _ (inside.goTo rest) rfl

theorem tracks_noted {production : Production} {body : Counted α} {read : Option (α × List Token)}
    (inside : machine.In within) (tracks : Tracks within read (body machine)) :
    Tracks within read (Counted.noted production within body machine) := by
  obtain ⟨after, reads⟩ := tracks
  refine ⟨⟨after.depth, after.low, ?_⟩, reads⟩
  intro call found
  rcases List.mem_append.mp found with before | now
  · exact after.exact call before
  · obtain rfl := List.mem_singleton.mp now
    exact ⟨inside.depth, after.depth.trans inside.depth.symm, inside.depth.trans_le inside.low⟩

def roomIn (within : List Level) : Nat :=
  maxNesting - within.length

def deeper (read : Nat → Read α) : Nat → Read α
  | 0 => fun _ => none
  | room + 1 => read room

/-- At the limit no level opens. Below it, what stands in the level starts one level further in, and
ends there. -/
theorem follows_nested {level : Level} {body : Counted α} {read : Nat → Read α}
    (inner : Follows (level :: within) body (read (roomIn (level :: within)))) :
    Follows within (Counted.nested body) (deeper read (roomIn within)) := by
  intro machine inside
  have depth := inside.depth
  simp only [Counted.nested]
  split
  · next full =>
      rw [show roomIn within = 0 by simp only [roomIn]; omega]
      exact tracks_none inside
  · next below =>
      rw [show roomIn within = roomIn (level :: within) + 1 by
        simp only [roomIn, List.length_cons]; omega]
      obtain ⟨after, reads⟩ := inner { machine with depth := machine.depth + 1 }
        ⟨congrArg (· + 1) depth, by simp only [List.length_cons]; omega, inside.exact⟩
      refine ⟨⟨?_, inside.low, after.exact⟩, reads⟩
      simp [after.depth]

theorem follows_separated {separator : TokenKind} {item : Counted α} {read : Read α}
    (each : Follows within item read) (bound : List Token) :
    Follows within (Counted.separated separator item bound)
      (readSeparated separator read bound) := by
  induction bound with
  | nil =>
      intro machine inside
      rw [readSeparated, Option.map_eq_bind]
      exact (each machine inside).bind fun value after inside => tracks_some inside [value]
  | cons _ bound ih =>
      intro machine inside
      refine (each machine inside).bind fun value after inside => tracks_branch inside ?_ ?_
      · intro behind inside found
        simp only [found]
        exact (ih behind inside).bind fun others after inside => tracks_some inside _
      · intro missing
        simp only [missing]
        exact tracks_some inside _

theorem follows_operands {operand : Counted Operand} {read : Read Operand}
    (each : Follows within operand read) :
    Follows within (Counted.operands operand) (readOperands read) := by
  intro machine inside
  simp only [Counted.operands, readOperands]
  split
  · exact tracks_some inside []
  · exact follows_separated each _ machine inside

/-- Of the terms, only calls hold operands. -/
theorem term_without_call {token : Token} (args : Read (List Operand)) (rest : List Token)
    (other : ∀ name, token.kind ≠ .identifier name) :
    readTerm args (token :: rest) = readTerm (fun _ => none) (token :: rest) := by
  simp only [readTerm]
  split
  · next name kind => exact absurd kind (other name)
  all_goals rfl

theorem follows_term {args : Counted (List Operand)} {read : Read (List Operand)}
    (each : Follows within args read) :
    Follows within (Counted.term within args) (readTerm read) := by
  intro machine inside
  refine tracks_noted inside ?_
  match kept : machine.tokens with
  | [] => exact tracks_none inside
  | token :: rest =>
      dsimp only
      -- A name, with a call or a column behind it, an interval, and all that hold no operands.
      split
      · next name kind =>
          simp only [readTerm, kind]
          refine tracks_resume inside ?_
          rintro after inside rfl
          refine tracks_branch inside ?_ ?_
          · intro after inside found
            simp only [found]
            refine (each after inside).bind fun args after inside => ?_
            exact tracks_expect inside fun after inside => tracks_some inside _
          · intro missing
            simp only [missing]
            refine tracks_branch inside ?_ ?_
            · intro after inside found
              simp only [found]
              exact (tracks_off inside readName).bind fun column after inside =>
                tracks_some inside _
            · intro missing
              simp only [missing]
              exact tracks_some inside _
      · next kind =>
          simp only [readTerm, kind]
          refine tracks_resume inside ?_
          rintro after inside rfl
          exact tracks_noted inside (tracks_off inside readInterval)
      · next other _ =>
          rw [term_without_call read rest other, ← kept]
          exact tracks_off inside _

theorem follows_sum {term : Counted Operand} {read : Read Operand}
    (each : Follows within term read) (left : Operand) (bound : List Token) :
    Follows within (Counted.sum term left bound) (readSum read left bound) := by
  induction bound generalizing left with
  | nil => exact fun machine inside => tracks_some inside left
  | cons _ bound ih =>
      intro machine inside
      rcases signed : readSign machine.tokens with _ | ⟨sign, rest⟩ <;>
        simp only [Counted.sum, readSum, signed]
      · exact tracks_some inside left
      · refine tracks_resume inside ?_
        rintro after inside rfl
        exact (each after inside).bind fun right after inside => ih _ after inside

theorem term_within_deeper (room : Nat) :
    termWithin room = readTerm (deeper (fun room => readOperands (readOperand room)) room) := by
  cases room <;> rfl

theorem allowance_left {allowance : Nat} (enough : maxNesting < allowance + 1 + within.length)
    (level : Level) : maxNesting < allowance + (level :: within).length := by
  simp only [List.length_cons]
  omega

/-- By induction on the allowance, which goes down with every level and is still there at the
limit. -/
theorem follows_operand {allowance : Nat} (enough : maxNesting < allowance + within.length) :
    Follows within (Counted.operand allowance within) (readOperand (roomIn within)) := by
  induction allowance generalizing within with
  | zero => exact follows_beyond (by omega) _ _
  | succ allowance ih =>
      have inner := ih (allowance_left enough .call)
      have args : Follows (.call :: within)
          (Counted.noted .arguments _ (Counted.operands (Counted.operand allowance _)))
          (readOperands (readOperand (roomIn (.call :: within)))) :=
        fun machine inside => tracks_noted inside (follows_operands inner machine inside)
      have term := follows_term
        (@follows_nested _ _ _ _ (fun room => readOperands (readOperand room)) args)
      rw [← term_within_deeper] at term
      intro machine inside
      rw [operand_of_terms, Counted.operand]
      refine tracks_noted inside ?_
      exact (term machine inside).bind fun first after inside =>
        follows_sum term first _ after inside

theorem branch_bind {kind : TokenKind} {behind otherwise : Counted α} {next : α → Counted β}
    (machine : Machine) :
    (Counted.branch kind behind otherwise >>= next) machine =
      Counted.branch kind (behind >>= next) (otherwise >>= next) machine := by
  cases found : expect kind machine.tokens <;> simp only [Counted.branch, bind, found]

theorem tracks_accept {kind : TokenKind} {next : Bool → Counted β}
    {read : Option (β × List Token)} (inside : machine.In within)
    (second : ∀ there after, after.In within → accept kind machine.tokens = (there, after.tokens) →
      Tracks within read (next there after)) :
    Tracks within read ((Counted.accept kind >>= next) machine) := by
  rw [Counted.accept, branch_bind]
  refine tracks_branch inside ?_ ?_
  · intro after inside found
    exact second true after inside (by simp only [accept, found])
  · intro missing
    exact second false machine inside (by simp only [accept, missing])

theorem follows_relation {operand : Counted Operand} {read : Read Operand}
    (each : Follows within operand read) (target : Operand) (negated : Bool) :
    Follows within (Counted.relation operand target negated)
      (readRelation read target negated) := by
  intro machine inside
  simp only [Counted.relation]
  match kept : machine.tokens with
  | [] =>
      simp only [readRelation]
      split
      · exact tracks_none inside
      · exact kept ▸ tracks_some inside _
  | token :: rest =>
      dsimp only
      -- A case for each word of a relation; the counter moves in its operands only.
      split
      · next op kind =>
          simp only [readRelation, kind]
          split
          · exact tracks_none inside
          · refine tracks_resume inside ?_
            rintro after inside rfl
            exact (each after inside).bind fun right after inside => tracks_some inside _
      · next kind =>
          simp only [readRelation, kind]
          refine tracks_resume inside ?_
          rintro after inside rfl
          refine (each after inside).bind fun low after inside => tracks_expect inside ?_
          intro after inside
          exact (each after inside).bind fun high after inside => tracks_some inside _
      · next kind =>
          simp only [readRelation, kind]
          refine tracks_resume inside ?_
          rintro after inside rfl
          exact (each after inside).bind fun pattern after inside => tracks_some inside _
      · next kind =>
          simp only [readRelation, kind]
          refine tracks_resume inside ?_
          rintro after inside rfl
          refine tracks_expect inside fun after inside => ?_
          refine (follows_operands each after inside).bind fun values after inside => ?_
          exact tracks_expect inside fun after inside => tracks_some inside _
      · next kind =>
          simp only [readRelation, kind]
          split
          · exact tracks_none inside
          · refine tracks_resume inside ?_
            rintro after inside rfl
            refine tracks_accept inside fun isNot after inside accepted => ?_
            simp only [accepted]
            exact tracks_expect inside fun after inside => tracks_some inside _
      · have bare : readRelation read target negated (token :: rest) =
            if endsFragment token.kind && !negated then some (.bare target, token :: rest)
            else none := by
          simp only [readRelation]
        rw [bare]
        split
        · exact kept ▸ tracks_some inside _
        · exact tracks_none inside

theorem follows_predicate {operand : Counted Operand} {read : Read Operand}
    (each : Follows within operand read) :
    Follows within (Counted.predicate within operand) (readPredicate read) := by
  intro machine inside
  refine tracks_noted inside ((each machine inside).bind fun target after inside => ?_)
  refine tracks_accept inside fun negated after inside accepted => ?_
  simp only [accepted]
  exact follows_relation each target negated after inside

theorem follows_fragment :
    Follows within (Counted.fragment within) fun tokens =>
      some (.predicate (.unparsed (sourceText (splitFragment 0 tokens).1)),
        (splitFragment 0 tokens).2) := by
  intro machine inside
  exact tracks_noted inside (tracks_some (inside.goTo _) _)

/-- Whatever has been read of the condition by the time it fails, the fragment starts in the same
levels. -/
theorem follows_recovering {condition : Counted Expr} {read : Read Expr}
    (each : Follows within condition read) :
    Follows within (Counted.recovering within condition) fun tokens =>
      some (recovering read tokens) := by
  intro machine inside
  refine tracks_noted inside ?_
  obtain ⟨kept, reads⟩ := each machine inside
  rcases ran : condition machine with ⟨_ | expr, after⟩ <;> rw [ran] at kept reads <;>
    simp only [recovering, ← reads]
  · exact follows_fragment _ (kept.goTo machine.tokens)
  · exact tracks_some kept expr

section Levels

variable {condition : Counted Expr} {read : Read Expr}

theorem follows_fold {separator : Keyword} {item : Counted Expr}
    {read : List Token → Expr × List Token} (combine : List Expr → Expr)
    (each : Follows within item fun tokens => some (read tokens)) :
    Follows within
      (do
        let items ← Counted.bounded (Counted.separated (.keyword separator) item)
        pure (foldItems combine items))
      fun tokens =>
        some (foldItems combine (readItems separator read tokens tokens).1,
          (readItems separator read tokens tokens).2) := by
  intro machine inside
  have items := @follows_separated _ _ (.keyword separator) _ _ each machine.tokens machine inside
  rw [← items_separated] at items
  change Tracks within
    (some (readItems separator read machine.tokens machine.tokens) >>= fun items =>
      some (foldItems combine items.1, items.2)) _
  exact items.bind fun items after inside => tracks_some inside _

variable (each : Follows within condition read)

include each

theorem follows_conjunction :
    Follows within (Counted.conjunction within condition) fun tokens =>
      some (readConjunction read tokens) :=
  fun machine inside =>
    tracks_noted inside (follows_fold .and (follows_recovering each) machine inside)

theorem follows_disjunction :
    Follows within (Counted.disjunction within condition) fun tokens =>
      some (readDisjunction read tokens) :=
  fun machine inside =>
    tracks_noted inside (follows_fold .or (follows_conjunction each) machine inside)

end Levels

theorem follows_column : Follows within (Counted.column within) readColumn :=
  fun _ inside => tracks_noted inside (tracks_off inside readColumn)

theorem follows_join : Follows within (Counted.join within) readJoin := by
  intro machine inside
  refine (tracks_off inside readName).bind fun table after inside => ?_
  refine tracks_expect inside fun after inside => ?_
  refine (follows_column after inside).bind fun left after inside => ?_
  refine tracks_expect inside fun after inside => ?_
  exact (follows_column after inside).bind fun right after inside => tracks_some inside _

theorem follows_joins (bound : List Token) :
    Follows within (Counted.joins within bound) (readJoins bound) := by
  induction bound with
  | nil => exact fun machine inside => tracks_some inside []
  | cons _ bound ih =>
      intro machine inside
      rcases found : expectJoin machine.tokens with _ | _ | rest <;>
        simp only [Counted.joins, readJoins, found]
      · exact tracks_some inside []
      · exact tracks_none inside
      · refine tracks_resume inside ?_
        rintro after inside rfl
        refine (follows_join after inside).bind fun first after inside => ?_
        exact (ih after inside).bind fun others after inside => tracks_some inside _

theorem follows_optional {keyword : Keyword} {part : Counted α} {read : Read α}
    (each : Follows within part read) :
    Follows within (Counted.optional keyword part) (readOptional keyword read) := by
  intro machine inside
  refine tracks_branch inside ?_ ?_
  · intro after inside found
    simp only [readOptional, found, Option.map_eq_bind]
    exact (each after inside).bind fun value after inside => tracks_some inside _
  · intro missing
    simp only [readOptional, missing]
    exact tracks_some inside none

section Queries

variable {condition : Counted Expr} {predicate : Counted Predicate} {readInner : Read Expr}
  {readPart : Read Predicate} (conditions : Follows within condition readInner)
  (predicates : Follows within predicate readPart)

include conditions predicates

theorem follows_subquery :
    Follows within (Counted.subquery within condition predicate)
      (readSubquery readInner readPart) := by
  have groups : Follows within
      (do
        Counted.expect (.keyword .BY)
        Counted.column within)
      (fun tokens => do readColumn (← expect (.keyword .BY) tokens)) :=
    fun machine inside => tracks_expect inside fun after inside => follows_column after inside
  intro machine inside
  refine tracks_noted inside (tracks_expect inside fun after inside => ?_)
  refine tracks_advance inside fun after inside => tracks_expect inside fun after inside => ?_
  refine (tracks_off inside readName).bind fun table after inside => ?_
  refine Tracks.bind (follows_joins after.tokens after inside) fun joins after inside => ?_
  refine (follows_optional (follows_disjunction conditions) after inside).bind ?_
  intro filter after inside
  refine (follows_optional groups after inside).bind fun groupBy after inside => ?_
  exact (follows_optional predicates after inside).bind fun having after inside =>
    tracks_some inside _

theorem follows_existence (negated : Bool) :
    Follows within (Counted.existence negated within condition predicate)
      (readExists negated readInner readPart) := by
  intro machine inside
  refine tracks_noted inside (tracks_expect inside fun after inside => ?_)
  refine (follows_subquery conditions predicates after inside).bind fun query after inside => ?_
  exact tracks_expect inside fun after inside => tracks_some inside _

end Queries

/-- How a condition is read that opens a level. -/
theorem condition_deeper {token : Token} (opens : opensLevel token.kind = true) (room : Nat)
    (rest : List Token) :
    readCondition room (token :: rest) =
      deeper (fun room => readLevel token.kind (readCondition room)
        (readPredicate (readOperand room))) room rest := by
  cases room <;> rw [readCondition, if_pos opens] <;> rfl

section Forms

variable {tokens rest : List Token} (room : Nat)

theorem condition_exists (found : expect (.keyword .EXISTS) tokens = some rest) :
    readCondition room tokens =
      deeper (fun room => readExists false (readCondition room) (readPredicate (readOperand room)))
        room rest := by
  obtain ⟨token, rfl, kind⟩ := expect_some found
  rw [condition_deeper (by rw [kind]; rfl)]
  cases room <;> simp [deeper, readLevel, kind]

theorem condition_not_exists {behind : List Token}
    (found : expect (.keyword .NOT) tokens = some rest)
    (next : expect (.keyword .EXISTS) rest = some behind) :
    readCondition room tokens =
      deeper (fun room => readExists true (readCondition room) (readPredicate (readOperand room)))
        room behind := by
  obtain ⟨token, rfl, kind⟩ := expect_some found
  rw [condition_deeper (by rw [kind]; rfl)]
  cases room <;> simp [deeper, readLevel, kind, next]

theorem condition_not (found : expect (.keyword .NOT) tokens = some rest)
    (next : expect (.keyword .EXISTS) rest = none) :
    readCondition room tokens = (do
      let (inner, behind) ← deeper readCondition room rest
      some (.not inner, behind)) := by
  obtain ⟨token, rfl, kind⟩ := expect_some found
  rw [condition_deeper (by rw [kind]; rfl)]
  cases room <;> simp [deeper, readLevel, kind, next, Option.map_eq_bind]

theorem condition_grouped (found : expect (.mark .lparen) tokens = some rest) :
    readCondition room tokens = (do
      let (inner, behind) ←
        deeper (fun room tokens => some (readDisjunction (readCondition room) tokens)) room rest
      let behind ← expect (.mark .rparen) behind
      some (.grouped inner, behind)) := by
  obtain ⟨token, rfl, kind⟩ := expect_some found
  rw [condition_deeper (by rw [kind]; rfl)]
  cases room <;> simp [deeper, readLevel, kind]

theorem condition_plain (not_ : expect (.keyword .NOT) tokens = none)
    (exists_ : expect (.keyword .EXISTS) tokens = none)
    (paren : expect (.mark .lparen) tokens = none) :
    readCondition room tokens = (do
      let (predicate, behind) ← readPredicate (readOperand room) tokens
      some (.predicate predicate, behind)) := by
  cases tokens with
  | nil => cases room <;> rfl
  | cons token rest =>
      simp only [expect, ite_eq_right_iff, reduceCtorEq, imp_false] at not_ exists_ paren
      have plain : ¬opensLevel token.kind = true := fun opens =>
        paren (level_paren opens exists_ not_)
      cases room <;> rw [readCondition, if_neg plain, Option.map_eq_bind] <;> rfl

end Forms

/-- The forms of a condition, in the order in which they are tried. -/
theorem follows_forms {room : Nat} {exists_ : Bool → Counted Expr} {negation group : Counted Expr}
    {predicate : Counted Predicate}
    (existence : ∀ negated, Follows within (exists_ negated) (deeper (fun room =>
      readExists negated (readCondition room) (readPredicate (readOperand room))) room))
    (negated : Follows within negation (deeper readCondition room))
    (grouped : Follows within group
      (deeper (fun room tokens => some (readDisjunction (readCondition room) tokens)) room))
    (alone : Follows within predicate (readPredicate (readOperand room))) :
    Follows within (Counted.forms exists_ negation (Counted.primary within group predicate))
      (readCondition room) := by
  intro machine inside
  refine tracks_branch inside ?_ fun not_ => tracks_branch inside ?_ fun exists_ => ?_
  · intro after inside found
    refine tracks_branch inside ?_ fun missing => ?_
    · intro behind inside next
      rw [condition_not_exists room found next]
      exact existence true behind inside
    · rw [condition_not room found missing]
      exact (negated after inside).bind fun inner after inside => tracks_some inside _
  · intro after inside found
    rw [condition_exists room found]
    exact existence false after inside
  · refine tracks_noted inside (tracks_branch inside ?_ fun paren => ?_)
    · intro after inside found
      rw [condition_grouped room found]
      refine (grouped after inside).bind fun inner after inside => ?_
      exact tracks_expect inside fun after inside => tracks_some inside _
    · rw [condition_plain room not_ exists_ paren]
      exact (alone machine inside).bind fun predicate after inside => tracks_some inside _

/-- By induction on the allowance, as for operands. -/
theorem follows_condition {allowance : Nat} (enough : maxNesting < allowance + within.length) :
    Follows within (Counted.condition allowance within) (readCondition (roomIn within)) := by
  induction allowance generalizing within with
  | zero => exact follows_beyond (by omega) _ _
  | succ allowance ih =>
      have inner (level : Level) := ih (allowance_left enough level)
      intro machine inside
      rw [Counted.condition]
      refine tracks_noted inside (follows_forms ?_ ?_ ?_ ?_ machine inside)
      · intro negated
        exact follows_nested (follows_existence (inner .subquery)
          (follows_predicate (follows_operand (allowance_left enough .subquery))) negated)
      · exact follows_nested (inner .negation)
      · exact follows_nested (follows_disjunction (inner .parentheses))
      · exact follows_predicate (follows_operand enough)

theorem follows_expression {allowance : Nat} (enough : maxNesting < allowance) :
    Follows [] (Counted.expression allowance) readExpr := by
  intro machine inside
  simp only [Counted.expression]
  match kept : machine.tokens with
  | [] => exact tracks_none inside
  | token :: rest =>
      simp only [readExpr, ← kept]
      exact follows_disjunction (follows_condition enough) machine inside

/-- The counter of the levels is exact, whatever the tokens are: every production, whether it reads
something or fails, is entered with the counter at the number of levels around it, within the limit,
and leaves it there, so that after any failure the reader goes on with the right counter. What is
read is what `readExpr` reads, and its levels are within the limit. -/
theorem depth_counter_exact {allowance : Nat} (enough : maxNesting < allowance)
    (tokens : List Token) :
    let run := Counted.expression allowance (.start tokens)
    (∀ call ∈ run.2.calls, call.Exact) ∧ run.2.depth = 0 ∧
      run.1.map (·, run.2.tokens) = readExpr tokens ∧ ∀ expr ∈ run.1, expr.levels ≤ maxNesting := by
  have start : (Machine.start tokens).In [] := ⟨rfl, Nat.zero_le _, nofun⟩
  obtain ⟨inside, reads⟩ := follows_expression enough _ start
  refine ⟨inside.exact, inside.depth, reads, fun expr found => ?_⟩
  have made : Made (fun _ => True) tokens := fun _ _ => trivial
  have read := reads.symm.trans (congrArg (Option.map _) found)
  exact (yields_expr made expr _ read).1.low

def failingRun : Option Expr × Machine :=
  Counted.expression 129 (.start (tokenize "NOT (a = f(1 2)) AND g(b) > 0"))

theorem counter_exact_behind_failure :
    maxNesting < 129 ∧
      ((failingRun.2.calls.filter fun call => call.production ∈ [.fragment, .arguments]).map
        fun call => (call.production, call.entered)) =
          [(.arguments, 3), (.fragment, 2), (.arguments, 1)] ∧
      failingRun.1.isSome = true ∧
      (∀ call ∈ failingRun.2.calls, call.Exact) ∧ failingRun.2.depth = 0 ∧
      failingRun.1.map (·, failingRun.2.tokens) =
        readExpr (tokenize "NOT (a = f(1 2)) AND g(b) > 0") ∧
      ∀ expr ∈ failingRun.1, expr.levels ≤ maxNesting := by
  have enough : maxNesting < 129 := by decide
  refine ⟨enough, by decide +kernel, by decide +kernel, ?_⟩
  unfold failingRun
  exact depth_counter_exact enough (tokenize "NOT (a = f(1 2)) AND g(b) > 0")

end Cohort.Sql
