import LoopLang.Proofs.Machine.Store
import LoopLang.Proofs.Typing.Blame
import Mathlib.Algebra.MvPolynomial.Eval
import Mathlib.Data.Int.ModEq

/-!
# Integer arithmetic

Integers are words of 64 bits, and every sum, difference and product wraps around by
itself.  The value of a whole tree is nevertheless what exact arithmetic gives for it,
wrapped around once: wrapping is compatible with these three operations.  So trees that
are the same polynomial in their names cannot be told apart.  A quotient has no such
law; it is determined by the two words that it is taken of.

Main definitions:

- `Expr.Integral`: a tree of integers with some operators.
- `Expr.exact`: the value of a tree in a commutative ring.

Main results:

- Theorem `Expr.Integral.eval_modEq`: the value of a tree, up to multiples of 2^64.
- Theorem `Expr.exact_hom`: exact values go along with homomorphisms of rings.
- Theorem `Expr.Integral.exists_eval`: a tree without a division by zero has a value.
- Theorem `Expr.eval_is_modular_arithmetic`: integer evaluation is exact arithmetic
  modulo 2^64.
-/

namespace LoopLang

/-! ## Words -/

/-- Wrapping around keeps an integer up to multiples of 2^64. -/
theorem bmod_modEq (n : ℤ) : n.bmod (2 ^ 64) ≡ n [ZMOD 2 ^ 64] :=
  Int.bmod_emod

/-- A word is determined by its value up to multiples of 2^64. -/
theorem eq_toInt_of_modEq {word : Int64} {n : ℤ} (hleast : -2 ^ 63 ≤ n) (hgreatest : n < 2 ^ 63)
    (hcongr : n ≡ word.toInt [ZMOD 2 ^ 64]) : n = word.toInt := by
  have hword := word.toInt_lt
  have hword' := word.le_toInt
  unfold Int.ModEq at hcongr
  omega

/-- A text that denotes a word denotes its value. -/
theorem Numeral.toInt?_of_toInt64? {text : List Char} {word : Int64}
    (hword : toInt64? text = some word) : toInt? text = some word.toInt := by
  rcases Option.bind_eq_some_iff.1 hword with ⟨n, hn, hfits⟩
  rw [hn]
  split at hfits
  · next hbounds =>
    cases hfits
    rw [fitsInt64, Bool.and_eq_true, decide_eq_true_iff, decide_eq_true_iff] at hbounds
    have hleast : Int64.minValue.toInt = -2 ^ 63 := by decide
    have hgreatest : Int64.maxValue.toInt = 2 ^ 63 - 1 := by decide
    rw [Int64.toInt_ofInt_of_le (by omega) (by omega)]
  · cases hfits

namespace Expr

/-! ## Trees of integers -/

/-- A tree of integer literals and names that are declared as integers, with the given
operators. -/
inductive Integral (store : Store) (operators : List Operator) : Expr → Prop where
  | literal {token : Token} (hkind : token.kind = .integerLiteral)
      (hdenotes : (Numeral.toInt64? token.text.toList).isSome = true) :
      Integral store operators (leaf token)
  | name {token : Token} (hkind : token.kind = .identifier)
      (hty : store.ty? token.text = some .int) : Integral store operators (leaf token)
  | binary {op : Operator} {token : Token} {left right : Expr} (hop : op ∈ operators)
      (hleft : Integral store operators left) (hright : Integral store operators right) :
      Integral store operators (binary op token left right)

/-- The value of a tree of sums, differences and products in a commutative ring, given
the values of the names.  Nothing wraps around and nothing fails; other operators have no
meaning here. -/
def exact {R : Type} [CommRing R] (names : String → R) : Expr → R
  | leaf token =>
    if token.kind = .identifier then names token.text
    else (((Numeral.toInt? token.text.toList).getD 0 : ℤ) : R)
  | binary .addition _ left right => left.exact names + right.exact names
  | binary .subtraction _ left right => left.exact names - right.exact names
  | binary .multiplication _ left right => left.exact names * right.exact names
  | binary _ _ _ _ => 0
  | unary _ _ _ => 0

end Expr

/-- The exact values of the names in a store; names without an integer do not count. -/
def Store.ints (store : Store) (name : String) : ℤ :=
  match store.get? name with
  | some (.int word) => word.toInt
  | _ => 0

/-- A name that is declared as an integer has one. -/
theorem Store.Typed.exists_int {store : Store} (htyped : store.Typed) {name : String}
    (hty : store.ty? name = some .int) : ∃ word, store.get? name = some (.int word) := by
  rcases Option.map_eq_some_iff.1 hty with ⟨entry, hentry, hint⟩
  have hcontent := htyped name entry hentry
  rw [hint] at hcontent
  cases hvalue : entry.content with
  | int word => exact ⟨word, by simp [Scope.get?, hentry, hvalue]⟩
  | string | bool =>
    rw [hvalue] at hcontent
    cases hcontent

namespace Expr

variable {store : Store} {operators : List Operator}

/-- The value of a leaf is exact. -/
theorem Integral.eval_leaf (htyped : store.Typed) {token : Token}
    (hleaf : Integral store operators (leaf token)) :
    ∃ word, (leaf token).eval store = .ok (.int word) ∧
      (leaf token).exact store.ints = word.toInt := by
  cases hleaf with
  | literal hkind hdenotes =>
    rcases Option.isSome_iff_exists.1 hdenotes with ⟨word, hword⟩
    refine ⟨word, ?_, ?_⟩
    · simp [eval, evalLeaf, hkind, TokenKind.literalType?, Value.ofText?, hword]
    · simp [exact, hkind, Numeral.toInt?_of_toInt64? hword]
  | name hkind hty =>
    rcases htyped.exists_int hty with ⟨word, hword⟩
    refine ⟨word, ?_, ?_⟩
    · simp [eval, evalLeaf, hkind, hword]
    · simp [exact, hkind, Store.ints, hword]

/-- An operator is applied to the values of its operands. -/
theorem eval_binary {op : Operator} {token : Token} {left right : Expr} {a b : Value}
    (hleft : left.eval store = .ok a) (hright : right.eval store = .ok b) :
    (binary op token left right).eval store = applyBinary op token a b := by
  rw [eval, hleft, hright]
  rfl

/-! ## Sums, differences and products -/

/-- The operators that wrap around and never fail. -/
def ringOperators : List Operator := [.addition, .subtraction, .multiplication]

/-- The value of a tree is its exact value, up to multiples of 2^64. -/
theorem Integral.eval_modEq (htyped : store.Typed) {expr : Expr}
    (hexpr : Integral store ringOperators expr) :
    ∃ word, expr.eval store = .ok (.int word) ∧
      word.toInt ≡ expr.exact store.ints [ZMOD 2 ^ 64] := by
  induction expr with
  | leaf token =>
    rcases hexpr.eval_leaf htyped with ⟨word, heval, hexact⟩
    exact ⟨word, heval, hexact ▸ Int.ModEq.rfl⟩
  | unary op token operand => cases hexpr
  | binary op token left right ihleft ihright =>
    cases hexpr with
    | binary hop hleftTree hrightTree =>
      rcases ihleft hleftTree with ⟨a, hleft, ha⟩
      rcases ihright hrightTree with ⟨b, hright, hb⟩
      have hoperator : op = .addition ∨ op = .subtraction ∨ op = .multiplication := by
        simpa [ringOperators] using hop
      -- the operands may have wrapped around already, and congruences do not see this
      rcases hoperator with rfl | rfl | rfl
      · refine ⟨a + b, eval_binary hleft hright, ?_⟩
        rw [Int64.toInt_add]
        exact (bmod_modEq _).trans (ha.add hb)
      · refine ⟨a - b, eval_binary hleft hright, ?_⟩
        rw [Int64.toInt_sub]
        exact (bmod_modEq _).trans (ha.sub hb)
      · refine ⟨a * b, eval_binary hleft hright, ?_⟩
        rw [Int64.toInt_mul]
        exact (bmod_modEq _).trans (ha.mul hb)

/-- Exact values go along with homomorphisms of rings. -/
theorem exact_hom {R S : Type} [CommRing R] [CommRing S] (f : R →+* S) (names : String → R)
    (expr : Expr) : f (expr.exact names) = expr.exact fun name => f (names name) := by
  induction expr with
  | leaf token =>
    simp only [exact]
    split
    · rfl
    · exact map_intCast f _
  | unary op token operand => exact map_zero f
  | binary op token left right ihleft ihright =>
    cases op with
    | addition => simp only [exact, map_add, ihleft, ihright]
    | subtraction => simp only [exact, map_sub, ihleft, ihright]
    | multiplication => simp only [exact, map_mul, ihleft, ihright]
    | division | and | equality | less | not => exact map_zero f

/-- A tree as a polynomial in its names, with integer coefficients. -/
noncomputable def polynomial (expr : Expr) : MvPolynomial String ℤ :=
  expr.exact MvPolynomial.X

/-- The exact value of a tree is the value of its polynomial. -/
theorem exact_eq_eval_polynomial (names : String → ℤ) (expr : Expr) :
    expr.exact names = MvPolynomial.eval names expr.polynomial := by
  rw [polynomial, exact_hom]
  simp only [MvPolynomial.eval_X]

/-! ## Quotients -/

/-- A quotient of words is truncated, and it wraps around in one case. -/
theorem toInt_quotient (a b : Int64) :
    (a / b).toInt =
      if a = Int64.minValue ∧ b = -1 then Int64.minValue.toInt else a.toInt.tdiv b.toInt := by
  split
  · next hwraps =>
    rcases hwraps with ⟨rfl, rfl⟩
    decide
  · next hfits =>
    by_cases hleast : a = Int64.minValue
    · have hdivisor : b ≠ -1 := fun hb => hfits ⟨hleast, hb⟩
      exact Int64.toInt_div_of_ne_right a b hdivisor
    · exact Int64.toInt_div_of_ne_left a b hleast

/-- A division by anything but zero has the quotient of words as its value. -/
theorem applyBinary_division {a b : Int64} (hdivisor : b ≠ 0) (token : Token) :
    applyBinary .division token (.int a) (.int b) = .ok (.int (a / b)) := by
  have hquotient : Value.onInts Value.quotient (.int a) (.int b) = some (.int (a / b)) := by
    rw [Value.onInts, Value.quotient, if_neg hdivisor]
  simp only [applyBinary, Value.ty, Value.binary?, hquotient]
  rfl

/-- No divisor in the tree is zero. -/
def Divides (store : Store) (expr : Expr) : Prop :=
  ∀ token left right, binary .division token left right ∈ expr.nodes →
    right.eval store ≠ .ok (.int 0)

/-- The operands of a tree without a division by zero have none either. -/
theorem Divides.operands {op : Operator} {token : Token} {left right : Expr}
    (hdivides : Divides store (binary op token left right)) :
    Divides store left ∧ Divides store right := by
  constructor
  · intro other dividend divisor hnode
    exact hdivides other dividend divisor (by simp [nodes, hnode])
  · intro other dividend divisor hnode
    exact hdivides other dividend divisor (by simp [nodes, hnode])

/-- Without a division by zero, words are divided. -/
theorem Divides.eval_quotient {token : Token} {left right : Expr} {a b : Int64}
    (hdivides : Divides store (binary .division token left right))
    (hleft : left.eval store = .ok (.int a)) (hright : right.eval store = .ok (.int b)) :
    (binary .division token left right).eval store = .ok (.int (a / b)) := by
  have hdivisor : b ≠ 0 := by
    rintro rfl
    exact hdivides token left right (self_mem_nodes _) hright
  rw [eval_binary hleft hright, applyBinary_division hdivisor]

/-- The operators of integer arithmetic. -/
def arithmeticOperators : List Operator := [.addition, .subtraction, .multiplication, .division]

/-- A tree without a division by zero has a value. -/
theorem Integral.exists_eval (htyped : store.Typed) {expr : Expr}
    (hexpr : Integral store arithmeticOperators expr) (hdivides : Divides store expr) :
    ∃ word, expr.eval store = .ok (.int word) := by
  induction expr with
  | leaf token =>
    rcases hexpr.eval_leaf htyped with ⟨word, heval, -⟩
    exact ⟨word, heval⟩
  | unary op token operand => cases hexpr
  | binary op token left right ihleft ihright =>
    cases hexpr with
    | binary hop hleftTree hrightTree =>
      rcases ihleft hleftTree hdivides.operands.1 with ⟨a, hleft⟩
      rcases ihright hrightTree hdivides.operands.2 with ⟨b, hright⟩
      have hoperator : op = .addition ∨ op = .subtraction ∨ op = .multiplication ∨
          op = .division := by
        simpa [arithmeticOperators] using hop
      rcases hoperator with rfl | rfl | rfl | rfl
      · exact ⟨a + b, eval_binary hleft hright⟩
      · exact ⟨a - b, eval_binary hleft hright⟩
      · exact ⟨a * b, eval_binary hleft hright⟩
      · exact ⟨a / b, hdivides.eval_quotient hleft hright⟩

/-- The nodes of a tree without a division by zero are such trees. -/
theorem Integral.of_mem_nodes {expr : Expr} (hexpr : Integral store operators expr)
    (hdivides : Divides store expr) :
    ∀ node ∈ expr.nodes, Integral store operators node ∧ Divides store node := by
  refine forall_mem_nodes ?_ ?_ ⟨hexpr, hdivides⟩
  · rintro op token operand ⟨hnode, -⟩
    cases hnode
  · rintro op token left right ⟨hnode, hdivides⟩
    cases hnode with
    | binary _ hleft hright => exact ⟨⟨hleft, hdivides.operands.1⟩, hright, hdivides.operands.2⟩

/-- The quotients in a tree without a division by zero are truncated. -/
theorem Integral.eval_division (htyped : store.Typed) {token : Token} {left right : Expr}
    (hexpr : Integral store arithmeticOperators (Expr.binary .division token left right))
    (hdivides : Divides store (Expr.binary .division token left right)) :
    ∃ a b q, left.eval store = .ok (.int a) ∧ right.eval store = .ok (.int b) ∧
      (Expr.binary .division token left right).eval store = .ok (.int q) ∧
      q.toInt =
        if a = Int64.minValue ∧ b = -1 then Int64.minValue.toInt else a.toInt.tdiv b.toInt := by
  cases hexpr with
  | binary _ hleftTree hrightTree =>
    rcases hleftTree.exists_eval htyped hdivides.operands.1 with ⟨a, hleft⟩
    rcases hrightTree.exists_eval htyped hdivides.operands.2 with ⟨b, hright⟩
    exact ⟨a, b, a / b, hleft, hright, hdivides.eval_quotient hleft hright, toInt_quotient a b⟩

/-! ## Integer evaluation -/

/-- Integer evaluation is exact arithmetic modulo 2^64.  A tree of sums, differences and
products has a value, which is the only word congruent to the exact value of the tree;
trees that are the same polynomial have the same value.  With quotients, a tree whose
divisors are not zero has a value, and each quotient in it is that of its two operands,
truncated, unless it is the one that wraps around. -/
theorem eval_is_modular_arithmetic (htyped : store.Typed) :
    (∀ expr, Integral store [.addition, .subtraction, .multiplication] expr →
      ∃ word, expr.eval store = .ok (.int word) ∧
        -2 ^ 63 ≤ word.toInt ∧ word.toInt < 2 ^ 63 ∧
        word.toInt ≡ expr.exact store.ints [ZMOD 2 ^ 64] ∧
        ∀ n : ℤ, -2 ^ 63 ≤ n → n < 2 ^ 63 → n ≡ expr.exact store.ints [ZMOD 2 ^ 64] →
          n = word.toInt) ∧
    (∀ expr other, Integral store [.addition, .subtraction, .multiplication] expr →
      Integral store [.addition, .subtraction, .multiplication] other →
      expr.polynomial = other.polynomial → expr.eval store = other.eval store) ∧
    ∀ expr, Integral store [.addition, .subtraction, .multiplication, .division] expr →
      (∀ token left right, binary .division token left right ∈ expr.nodes →
        right.eval store ≠ .ok (.int 0)) →
      (∃ word, expr.eval store = .ok (.int word)) ∧
      ∀ token left right, binary .division token left right ∈ expr.nodes →
        ∃ a b q, left.eval store = .ok (.int a) ∧ right.eval store = .ok (.int b) ∧
          (binary .division token left right).eval store = .ok (.int q) ∧
          q.toInt =
            if a = Int64.minValue ∧ b = -1 then Int64.minValue.toInt
            else a.toInt.tdiv b.toInt := by
  refine ⟨?_, ?_, ?_⟩
  · intro expr hexpr
    rcases hexpr.eval_modEq htyped with ⟨word, heval, hcongr⟩
    refine ⟨word, heval, word.le_toInt, word.toInt_lt, hcongr, ?_⟩
    intro n hleast hgreatest hn
    exact eq_toInt_of_modEq hleast hgreatest (hn.trans hcongr.symm)
  · intro expr other hexpr hother hsame
    rcases hexpr.eval_modEq htyped with ⟨word, heval, hcongr⟩
    rcases hother.eval_modEq htyped with ⟨word', heval', hcongr'⟩
    rw [exact_eq_eval_polynomial, hsame, ← exact_eq_eval_polynomial] at hcongr
    have hword : word.toInt = word'.toInt :=
      eq_toInt_of_modEq word.le_toInt word.toInt_lt (hcongr.trans hcongr'.symm)
    rw [heval, heval', Int64.toInt_inj.1 hword]
  · intro expr hexpr hdivides
    refine ⟨hexpr.exists_eval htyped hdivides, ?_⟩
    intro token left right hnode
    rcases hexpr.of_mem_nodes hdivides _ hnode with ⟨hnodeTree, hnodeDivides⟩
    exact hnodeTree.eval_division htyped hnodeDivides

/-- A store with the two words whose quotient wraps around. -/
def extremes : Store :=
  ⟨[("x", ⟨.int, .int Int64.minValue⟩), ("y", ⟨.int, .int (-1)⟩)], []⟩

/-- A name of the store. -/
def variableNamed (name : String) : Expr := leaf ⟨.identifier, name, 1, 1, 0, 1⟩

/-- An operator between two operands. -/
def node (op : Operator) (left right : Expr) : Expr :=
  binary op ⟨.binaryOperator, op.lexeme, 1, 1, 0, 1⟩ left right

/-- The square of a sum, which wraps around in its only sum and in its product. -/
def squareOfSum : Expr :=
  node .multiplication (node .addition (variableNamed "x") (variableNamed "y"))
    (node .addition (variableNamed "x") (variableNamed "y"))

/-- The same polynomial, written as a sum of products. -/
def sumOfProducts : Expr :=
  node .addition
    (node .addition (node .multiplication (variableNamed "x") (variableNamed "x"))
      (node .multiplication (leaf ⟨.integerLiteral, "2", 1, 1, 0, 1⟩)
        (node .multiplication (variableNamed "x") (variableNamed "y"))))
    (node .multiplication (variableNamed "y") (variableNamed "y"))

/-- Words wrap around in both forms alike, and the least one divided by minus one is
itself. -/
theorem eval_extremes :
    squareOfSum.eval extremes = sumOfProducts.eval extremes ∧
      (node .division (variableNamed "x") (variableNamed "y")).eval extremes =
        .ok (.int Int64.minValue) := by
  have htyped : extremes.Typed := by
    intro name entry hentry
    simp only [extremes, Scope.find?, List.lookup_cons] at hentry
    split at hentry
    · cases hentry
      rfl
    · split at hentry
      · cases hentry
        rfl
      · cases hentry
  have hx : ∀ operators, Integral extremes operators (variableNamed "x") := by
    intro operators
    exact .name rfl rfl
  have hy : ∀ operators, Integral extremes operators (variableNamed "y") := by
    intro operators
    exact .name rfl rfl
  have hsame : squareOfSum.polynomial = sumOfProducts.polynomial := by
    have htwo : Numeral.toInt? "2".toList = some 2 := by decide +kernel
    simp only [polynomial, squareOfSum, sumOfProducts, node, variableNamed, exact, htwo,
      if_true, reduceCtorEq, if_false, Option.getD_some, Int.cast_ofNat]
    ring
  rcases eval_is_modular_arithmetic htyped with ⟨-, hpolynomial, hquotient⟩
  constructor
  · refine hpolynomial _ _ ?_ ?_ hsame
    · exact .binary (by decide) (.binary (by decide) (hx _) (hy _))
        (.binary (by decide) (hx _) (hy _))
    · refine .binary (by decide) (.binary (by decide) (.binary (by decide) (hx _) (hx _)) ?_)
        (.binary (by decide) (hy _) (hy _))
      exact .binary (by decide) (.literal rfl (by decide +kernel))
        (.binary (by decide) (hx _) (hy _))
  · have hdivides : Divides extremes (node .division (variableNamed "x") (variableNamed "y")) := by
      intro token left right hnode
      simp only [node, variableNamed, nodes, List.mem_append, List.mem_cons, List.not_mem_nil,
        or_false, reduceCtorEq, false_or, Expr.binary.injEq] at hnode
      rcases hnode with ⟨-, -, -, rfl⟩
      intro hzero
      cases hzero
    obtain ⟨-, hnodes⟩ := hquotient _ (.binary (by decide) (hx _) (hy _)) hdivides
    obtain ⟨a, b, q, ha, hb, hq, hvalue⟩ := hnodes _ _ _ (self_mem_nodes _)
    cases ha
    cases hb
    rw [if_pos ⟨rfl, rfl⟩] at hvalue
    rw [node, hq, Int64.toInt_inj.1 hvalue]

end Expr

end LoopLang
