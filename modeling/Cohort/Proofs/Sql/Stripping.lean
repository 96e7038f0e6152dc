import Cohort.Proofs.Sql.Views

/-!
Tokens stripped of their characters. Readers see only the kinds of tokens, so from stripped tokens
they read the same, apart from what is kept as source text because it could not be read.
-/

namespace Cohort.Sql

def Token.strip (token : Token) : Token :=
  ⟨token.kind, [], [], 0⟩

def strip (tokens : List Token) : List Token :=
  tokens.map Token.strip

theorem strip_eq_iff (tokens tokens' : List Token) :
    strip tokens = strip tokens' ↔ tokens.map Token.kind = tokens'.map Token.kind := by
  have kept (tokens : List Token) :
      strip tokens = (tokens.map Token.kind).map fun kind => ⟨kind, [], [], 0⟩ := by
    rw [strip, List.map_map]
    rfl
  have back (tokens : List Token) : (strip tokens).map Token.kind = tokens.map Token.kind := by
    rw [strip, List.map_map]
    rfl
  constructor
  · intro same
    rw [← back tokens, same, back]
  · intro same
    rw [kept, kept, same]

theorem source_strip (tokens : List Token) : sourceText (strip tokens) = "" := by
  have none_ : lexemes (strip tokens) = [] := by
    cases tokens with
    | nil => rfl
    | cons token rest => simp [lexemes, Token.strip, strip]
  rw [sourceText, none_]

def Predicate.strip : Predicate → Predicate
  | .unparsed _ => .unparsed ""
  | other => other

mutual

def Expr.strip : Expr → Expr
  | .and items => .and (Expr.stripAll items)
  | .or items => .or (Expr.stripAll items)
  | .grouped inner => .grouped inner.strip
  | .not inner => .not inner.strip
  | .exist negated query => .exist negated query.strip
  | .predicate p => .predicate p.strip

def Expr.stripAll : List Expr → List Expr
  | [] => []
  | item :: rest => item.strip :: Expr.stripAll rest

def Subquery.strip : Subquery → Subquery
  | ⟨table, joins, filter, groupBy, having⟩ =>
      ⟨table, joins, match filter with
        | some filter => some filter.strip
        | none => none, groupBy, having.map Predicate.strip⟩

end

theorem strip_all (items : List Expr) : Expr.stripAll items = items.map Expr.strip := by
  induction items with
  | nil => rfl
  | cons item rest ih => rw [Expr.stripAll, ih, List.map_cons]

theorem subquery_strip (table : String) (joins : List Join) (filter : Option Expr)
    (groupBy : Option Column) (having : Option Predicate) :
    Subquery.strip ⟨table, joins, filter, groupBy, having⟩ =
      ⟨table, joins, filter.map Expr.strip, groupBy, having.map Predicate.strip⟩ := by
  cases filter <;> rfl

def kindView : View where
  token := Token.strip
  text _ := ""
  kind _ := rfl
  source := source_strip

theorem reword_nothing (expr : Expr) : expr.reword (fun _ => "") = expr.strip := by
  have all {items : List Expr} (each : ∀ item ∈ items, item.reword (fun _ => "") = item.strip) :
      Expr.rewordAll (fun _ => "") items = Expr.stripAll items := by
    rw [reword_all, strip_all, List.map_congr_left each]
  induction expr using Expr.induction_within with
  | and items ih => rw [Expr.reword, Expr.strip, all ih]
  | or items ih => rw [Expr.reword, Expr.strip, all ih]
  | grouped inner ih => rw [Expr.reword, Expr.strip, ih]
  | not inner ih => rw [Expr.reword, Expr.strip, ih]
  | exist negated query ih =>
      obtain ⟨table, joins, filter, groupBy, having⟩ := query
      rw [Expr.reword, Expr.strip, subquery_reword, subquery_strip]
      cases filter with
      | none => rfl
      | some filter => rw [Option.map_some, Option.map_some, ih filter rfl]; rfl
  | predicate p => rfl

theorem accept_strip (kind : TokenKind) (tokens : List Token) :
    accept kind (strip tokens) = ((accept kind tokens).1, strip (accept kind tokens).2) :=
  @accept_see kindView kind tokens

/-- An expression is read off the kinds of the tokens alone, apart from the text of what could not
be read. -/
theorem expr_strip (tokens : List Token) :
    readExpr (strip tokens) = kindView.seen Expr.strip (readExpr tokens) := by
  have whole : Expr.reword kindView.text = Expr.strip := funext reword_nothing
  rw [← whole]
  exact @blind_expr kindView tokens

end Cohort.Sql
