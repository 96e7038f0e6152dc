import Cohort.Proofs.Sql.Scanning

/-!
How deep parentheses nest. Tokens that are `Nested` close every parenthesis they open, so that the
depth in front of them and behind them is the same.
-/

namespace Cohort.Sql

/-- The deepest level of parentheses within and behind tokens of these kinds, of which `depth` are
open in front of them. A closing one without a partner does not count. -/
def deepest (depth : Nat) : List TokenKind → Nat
  | [] => depth
  | .mark .lparen :: rest => deepest (depth + 1) rest
  | .mark .rparen :: rest => max depth (deepest (depth - 1) rest)
  | _ :: rest => deepest depth rest

def nesting (text : String) : Nat :=
  deepest 0 (kindsOf (tokenize text))

def isFlat : TokenKind → Bool
  | .mark .lparen | .mark .rparen | .mark .semicolon => false
  | _ => true

inductive Nested : Nat → List TokenKind → Prop
  | nil : Nested 0 []
  | flat {height : Nat} {kind : TokenKind} {rest : List TokenKind} (plain : isFlat kind = true)
      (behind : Nested height rest) : Nested height (kind :: rest)
  | paren {height height' : Nat} {inner rest : List TokenKind} (within : Nested height inner)
      (behind : Nested height' rest) :
      Nested (max (height + 1) height') (.mark .lparen :: (inner ++ .mark .rparen :: rest))

theorem Nested.append {height height' : Nat} {front back : List TokenKind}
    (first : Nested height front) (second : Nested height' back) :
    Nested (max height height') (front ++ back) := by
  induction first with
  | nil => simpa using second
  | flat plain _ ih => exact .flat plain ih
  | paren within _ _ ih =>
      rw [List.cons_append, List.append_assoc, List.cons_append, max_assoc]
      exact .paren within ih

theorem nested_flat {ks : List TokenKind} (plain : ∀ kind ∈ ks, isFlat kind = true) :
    Nested 0 ks := by
  induction ks with
  | nil => exact .nil
  | cons kind ks ih =>
      exact .flat (plain kind List.mem_cons_self)
        (ih fun other member => plain other (List.mem_cons_of_mem kind member))

theorem nested_around {height : Nat} {ks : List TokenKind} (within : Nested height ks) :
    Nested (height + 1) (.mark .lparen :: (ks ++ [.mark .rparen])) := by
  simpa using Nested.paren within .nil

def NestedWithin (limit : Nat) (ks : List TokenKind) : Prop :=
  ∃ height ≤ limit, Nested height ks

theorem Nested.within {height limit : Nat} {ks : List TokenKind} (nested : Nested height ks)
    (low : height ≤ limit) : NestedWithin limit ks :=
  ⟨height, low, nested⟩

theorem NestedWithin.append {limit : Nat} {front back : List TokenKind}
    (first : NestedWithin limit front) (second : NestedWithin limit back) :
    NestedWithin limit (front ++ back) := by
  obtain ⟨height, low, nested⟩ := first
  obtain ⟨height', low', nested'⟩ := second
  exact (nested.append nested').within (max_le low low')

theorem NestedWithin.flat {limit : Nat} {kind : TokenKind} {ks : List TokenKind}
    (plain : isFlat kind = true) (behind : NestedWithin limit ks) :
    NestedWithin limit (kind :: ks) := by
  obtain ⟨height, low, nested⟩ := behind
  exact (Nested.flat plain nested).within low

theorem NestedWithin.around {limit : Nat} {ks : List TokenKind} (inner : NestedWithin limit ks) :
    NestedWithin (limit + 1) (.mark .lparen :: (ks ++ [.mark .rparen])) := by
  obtain ⟨height, low, nested⟩ := inner
  exact (nested_around nested).within (Nat.succ_le_succ low)

theorem depth_le_deepest (depth : Nat) (ks : List TokenKind) : depth ≤ deepest depth ks := by
  fun_induction deepest depth ks <;> omega

theorem deepest_flat {kind : TokenKind} (plain : isFlat kind = true) (depth : Nat)
    (rest : List TokenKind) : deepest depth (kind :: rest) = deepest depth rest := by
  cases kind with
  | mark sign => cases sign <;> simp_all [isFlat, deepest]
  | _ => rfl

theorem Nested.deepest {height : Nat} {ks : List TokenKind} (nested : Nested height ks)
    (depth : Nat) (after : List TokenKind) :
    deepest depth (ks ++ after) = max (depth + height) (deepest depth after) := by
  induction nested generalizing depth after with
  | nil =>
      have least := depth_le_deepest depth after
      simp [least]
  | flat plain _ ih => rw [List.cons_append, deepest_flat plain, ih]
  | @paren height height' inner rest _ _ inside behind =>
      have least := depth_le_deepest depth after
      have shape : (TokenKind.mark .lparen :: (inner ++ .mark .rparen :: rest)) ++ after =
          .mark .lparen :: (inner ++ .mark .rparen :: (rest ++ after)) := by simp
      rw [shape]
      simp only [Sql.deepest, inside, Nat.add_sub_cancel, behind]
      omega

/-- What stands in parentheses of a text nests less deep than the text. -/
theorem Nested.deepest_alone {height : Nat} {ks : List TokenKind} (nested : Nested height ks) :
    Sql.deepest 0 ks = height := by
  have whole := nested.deepest 0 []
  simpa [Sql.deepest] using whole

end Cohort.Sql
