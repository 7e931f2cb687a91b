import LoopLang.Proofs.Diagnostic.Order
import LoopLang.Proofs.Typing.Agreement

/-!
# Where mistakes in expressions start

An expression without a type has nodes at which this starts: a name that is not
declared, or an operator whose operands have types that it does not go with.
Everything above such a node is without a type as well, but nothing is said about
it again.  So there is one mistake for each of these nodes, and since none of them
is part of another one, the mistakes come from left to right.

Main definitions:

- `Expr.nodes`, `Expr.inner`: the nodes of an expression in the order of their
  tokens, and those below its root.
- `Expr.Inconsistent`: the typing rules give no type.
- `Expr.Culprit`: the nodes at which an inconsistency starts, with the cause.
- `Expr.blame?`: the mistake that starts at a node.

Main results:

- Theorem `Expr.infer_snd_eq`: the mistakes are those that start at the nodes.
- Theorem `Expr.exists_culprit_iff`: the culprits are the minimal nodes without a
  type.
- Theorem `Expr.infer_blames_each_culprit_once`: what inference and the requirement
  of a type report.
-/

namespace LoopLang

namespace Expr

/-! ## Nodes -/

/-- The nodes of an expression, in the order of their tokens. -/
def nodes : Expr → List Expr
  | leaf token => [leaf token]
  | unary op token operand => unary op token operand :: operand.nodes
  | binary op token left right => left.nodes ++ binary op token left right :: right.nodes

/-- The nodes of an expression except for its root. -/
def inner : Expr → List Expr
  | leaf _ => []
  | unary _ _ operand => operand.nodes
  | binary _ _ left right => left.nodes ++ right.nodes

/-- The nodes come from left to right. -/
theorem map_head_nodes (expr : Expr) : expr.nodes.map head = expr.tokens := by
  induction expr with
  | leaf token => rfl
  | unary op token operand ih => simp [nodes, tokens, head, ih]
  | binary op token left right ihleft ihright => simp [nodes, tokens, head, ihleft, ihright]

/-- A tree is one of its own nodes. -/
theorem self_mem_nodes (expr : Expr) : expr ∈ expr.nodes := by
  cases expr <;> simp [nodes]

/-- A property that operands have from their operator is one of all nodes. -/
theorem forall_mem_nodes {p : Expr → Prop} {expr : Expr}
    (hunary : ∀ {op token operand}, p (unary op token operand) → p operand)
    (hbinary : ∀ {op token left right}, p (binary op token left right) → p left ∧ p right)
    (hroot : p expr) : ∀ node ∈ expr.nodes, p node := by
  induction expr with
  | leaf token =>
    intro node hnode
    rw [List.mem_singleton.1 hnode]
    exact hroot
  | unary op token operand ih =>
    intro node hnode
    rcases List.mem_cons.1 hnode with rfl | hnode
    · exact hroot
    · exact ih (hunary hroot) node hnode
  | binary op token left right ihleft ihright =>
    intro node hnode
    rcases List.mem_append.1 hnode with hnode | hnode
    · exact ihleft (hbinary hroot).1 node hnode
    · rcases List.mem_cons.1 hnode with rfl | hnode
      · exact hroot
      · exact ihright (hbinary hroot).2 node hnode

/-- Every node of a shaped tree is shaped. -/
theorem Shaped.of_mem_nodes {expr : Expr} (hshaped : expr.Shaped) :
    ∀ node ∈ expr.nodes, node.Shaped := by
  refine forall_mem_nodes ?_ ?_ hshaped
  · intro op token operand hnode
    cases hnode with
    | unary hoperand => exact hoperand
  · intro op token left right hnode
    cases hnode with
    | binary _ hleft hright => exact ⟨hleft, hright⟩

/-- The nodes of an expression with a type have types. -/
theorem HasType.of_mem_nodes {scope : TypeScope} {expr : Expr} {ty : Ty}
    (htype : HasType scope expr ty) : ∀ node ∈ expr.nodes, ∃ ty, HasType scope node ty := by
  refine forall_mem_nodes ?_ ?_ ⟨ty, htype⟩
  · rintro op token operand ⟨ty, htype⟩
    cases htype with
    | unary hoperand => exact ⟨_, hoperand⟩
  · rintro op token left right ⟨ty, htype⟩
    cases htype with
    | binary _ _ hleft hright => exact ⟨⟨_, hleft⟩, _, hright⟩

/-! ## Culprits -/

/-- The typing rules give the expression no type. -/
def Inconsistent (scope : TypeScope) (expr : Expr) : Prop :=
  ∀ ty, ¬ HasType scope expr ty

/-- The nodes at which an inconsistency starts, and what is wrong there. -/
inductive Culprit (scope : TypeScope) : Expr → Cause → Prop where
  | undeclared {token : Token} (hkind : token.kind = .identifier)
      (hty : scope.ty? token.text = none) : Culprit scope (.leaf token) (.undeclared token.text)
  | unary {op : Operator} {token : Token} {operand : Expr} {ty : Ty}
      (hoperand : HasType scope operand ty) (hresult : ty.result? op = none) :
      Culprit scope (.unary op token operand) (.notApplicable op ty)
  | mismatch {op : Operator} {token : Token} {left right : Expr} {leftTy rightTy : Ty}
      (hleft : HasType scope left leftTy) (hright : HasType scope right rightTy)
      (hdiffer : leftTy ≠ rightTy) :
      Culprit scope (.binary op token left right) (.operandMismatch leftTy rightTy)
  | binary {op : Operator} {token : Token} {left right : Expr} {ty : Ty}
      (hleft : HasType scope left ty) (hright : HasType scope right ty)
      (hresult : ty.result? op = none) :
      Culprit scope (.binary op token left right) (.notApplicable op ty)

/-- What is wrong with an operator for operands of the given types. -/
def misfit? (op : Operator) (leftTy rightTy : Ty) : Option Cause :=
  if leftTy ≠ rightTy then some (.operandMismatch leftTy rightTy)
  else if leftTy.result? op = none then some (.notApplicable op leftTy)
  else none

/-- What is wrong at a node whose operands have types. -/
def cause? (scope : TypeScope) : Expr → Option Cause
  | leaf token =>
    if token.kind = .identifier ∧ scope.ty? token.text = none then some (.undeclared token.text)
    else none
  | unary op _ operand => (operand.infer scope).1.bind fun ty => misfit? op ty ty
  | binary op _ left right =>
    (left.infer scope).1.bind fun leftTy => (right.infer scope).1.bind fun rightTy =>
      misfit? op leftTy rightTy

/-- The mistake that starts at a node. -/
def blame? (scope : TypeScope) (node : Expr) : Option Diagnostic :=
  (node.cause? scope).map (.about node.head)

/-! ### What a culprit is -/

/-- Two operands are at odds exactly if their types differ or lack the operator. -/
theorem misfit?_eq_some_iff {op : Operator} {leftTy rightTy : Ty} {cause : Cause} :
    misfit? op leftTy rightTy = some cause ↔
      (leftTy ≠ rightTy ∧ cause = .operandMismatch leftTy rightTy) ∨
        (leftTy = rightTy ∧ leftTy.result? op = none ∧ cause = .notApplicable op leftTy) := by
  unfold misfit?
  by_cases hsame : leftTy = rightTy
  · subst hsame
    by_cases hresult : leftTy.result? op = none <;> simp [hresult, eq_comm]
  · simp [hsame, eq_comm]

/-- The cause at a node is found exactly if the node is a culprit. -/
theorem cause?_eq_some_iff {scope : TypeScope} {node : Expr} (hshaped : node.Shaped)
    {cause : Cause} : node.cause? scope = some cause ↔ Culprit scope node cause := by
  constructor
  · intro hcause
    cases hshaped with
    | @identifier token hkind =>
      rw [cause?] at hcause
      split at hcause
      · next hundeclared =>
        cases hcause
        exact .undeclared hkind hundeclared.2
      · cases hcause
    | @literal token ty value hty =>
      rw [cause?] at hcause
      split at hcause
      · next hundeclared =>
        rw [hundeclared.1] at hty
        cases hty
      · cases hcause
    | unary hoperand =>
      rcases Option.bind_eq_some_iff.1 hcause with ⟨ty, hinfer, hmisfit⟩
      have htype := (hasType_iff_infer hoperand).2 hinfer
      rcases misfit?_eq_some_iff.1 hmisfit with ⟨hdiffer, -⟩ | ⟨-, hresult, rfl⟩
      · exact absurd rfl hdiffer
      · exact .unary htype hresult
    | binary _ hleft hright =>
      rcases Option.bind_eq_some_iff.1 hcause with ⟨leftTy, hinfer, hrest⟩
      rcases Option.bind_eq_some_iff.1 hrest with ⟨rightTy, hinferRight, hmisfit⟩
      have hleftType := (hasType_iff_infer hleft).2 hinfer
      have hrightType := (hasType_iff_infer hright).2 hinferRight
      rcases misfit?_eq_some_iff.1 hmisfit with ⟨hdiffer, rfl⟩ | ⟨rfl, hresult, rfl⟩
      · exact .mismatch hleftType hrightType hdiffer
      · exact .binary hleftType hrightType hresult
  · intro hculprit
    cases hculprit with
    | undeclared hkind hty => simp [cause?, hkind, hty]
    | unary hoperand hresult => simp [cause?, misfit?, hoperand.infer_fst, hresult]
    | mismatch hleft hright hdiffer =>
      simp [cause?, misfit?, hleft.infer_fst, hright.infer_fst, hdiffer]
    | binary hleft hright hresult =>
      simp [cause?, misfit?, hleft.infer_fst, hright.infer_fst, hresult]

/-- The type of an expression is unique. -/
theorem HasType.unique {scope : TypeScope} {expr : Expr} {ty other : Ty}
    (htype : HasType scope expr ty) (hother : HasType scope expr other) : ty = other :=
  Option.some.inj (htype.infer_fst.symm.trans hother.infer_fst)

/-- A culprit has no type. -/
theorem Culprit.inconsistent {scope : TypeScope} {node : Expr} {cause : Cause}
    (hculprit : Culprit scope node cause) : node.Inconsistent scope := by
  intro ty htype
  cases hculprit with
  | undeclared hkind hundeclared =>
    cases htype with
    | identifier _ hty =>
      rw [hundeclared] at hty
      cases hty
    | literal hty =>
      rw [hkind] at hty
      cases hty
  | unary hoperand hresult =>
    cases htype with
    | unary hbool =>
      cases hoperand.unique hbool
      cases hresult
  | mismatch hleft hright hdiffer =>
    cases htype with
    | binary _ _ hleftSame hrightSame =>
      exact hdiffer ((hleft.unique hleftSame).trans (hrightSame.unique hright))
  | binary hleft hright hnone =>
    cases htype with
    | binary _ hresult hleftSame _ =>
      cases hleft.unique hleftSame
      rw [hnone] at hresult
      cases hresult

/-- Below a culprit, all nodes have types. -/
theorem Culprit.inner_consistent {scope : TypeScope} {node : Expr} {cause : Cause}
    (hculprit : Culprit scope node cause) :
    ∀ below ∈ node.inner, ¬ below.Inconsistent scope := by
  intro below hbelow hnone
  have htype : ∃ ty, HasType scope below ty := by
    cases hculprit with
    | undeclared => cases hbelow
    | unary hoperand => exact hoperand.of_mem_nodes below hbelow
    | mismatch hleft hright | binary hleft hright =>
      rcases List.mem_append.1 hbelow with hbelow | hbelow
      · exact hleft.of_mem_nodes below hbelow
      · exact hright.of_mem_nodes below hbelow
  rcases htype with ⟨ty, htype⟩
  exact hnone ty htype

/-- The culprits are the minimal nodes without a type. -/
theorem exists_culprit_iff {scope : TypeScope} {node : Expr} (hshaped : node.Shaped) :
    (∃ cause, Culprit scope node cause) ↔
      node.Inconsistent scope ∧ ∀ below ∈ node.inner, ¬ below.Inconsistent scope := by
  constructor
  · rintro ⟨cause, hculprit⟩
    exact ⟨hculprit.inconsistent, hculprit.inner_consistent⟩
  · rintro ⟨hnone, hinner⟩
    have htyped : ∀ below ∈ node.inner, ∃ ty, HasType scope below ty := by
      intro below hbelow
      exact Classical.not_forall_not.1 (hinner below hbelow)
    cases hshaped with
    | @identifier token hkind =>
      cases hty : scope.ty? token.text with
      | none => exact ⟨_, .undeclared hkind hty⟩
      | some ty => exact absurd (.identifier hkind hty) (hnone ty)
    | literal hty hvalue => exact absurd (.literal hty hvalue) (hnone _)
    | @unary token operand _ =>
      obtain ⟨ty, hoperand⟩ := htyped operand operand.self_mem_nodes
      cases hresult : ty.result? .not with
      | none => exact ⟨_, .unary hoperand hresult⟩
      | some result =>
        rcases result?_not hresult with ⟨rfl, -⟩
        exact absurd (.unary hoperand) (hnone _)
    | @binary op token left right hop _ _ =>
      obtain ⟨leftTy, hleft⟩ := htyped left (List.mem_append_left _ left.self_mem_nodes)
      obtain ⟨rightTy, hright⟩ := htyped right (List.mem_append_right _ right.self_mem_nodes)
      by_cases hsame : leftTy = rightTy
      · subst hsame
        cases hresult : leftTy.result? op with
        | none => exact ⟨_, .binary hleft hright hresult⟩
        | some result => exact absurd (.binary hop hresult hleft hright) (hnone result)
      · exact ⟨_, .mismatch hleft hright hsame⟩

/-! ## Mistakes -/

/-- The mistake in a leaf starts there. -/
theorem infer_leaf_snd (scope : TypeScope) (token : Token) :
    ((leaf token).infer scope).2 = ((leaf token).blame? scope).toList := by
  unfold infer blame? cause?
  split
  · next hkind => cases hty : scope.ty? token.text <;> simp [hkind, hty, head]
  · next hkind =>
    have hname : ¬ (token.kind = .identifier ∧ scope.ty? token.text = none) := fun h => hkind h.1
    simp only [if_neg hname]
    rfl

/-- What an operator adds to the mistakes in its operands, which have types. -/
theorem applied_snd (op : Operator) (token : Token) (ty : Ty) :
    (ty.applied op token).2 = ((misfit? op ty ty).map (.about token)).toList := by
  unfold Ty.applied misfit?
  cases ty.result? op <;> simp

/-- The mistakes at a node with one operand are those of the operand and its own. -/
theorem infer_unary_snd (scope : TypeScope) (op : Operator) (token : Token) (operand : Expr) :
    ((unary op token operand).infer scope).2 =
      (operand.infer scope).2 ++ ((unary op token operand).blame? scope).toList := by
  rw [infer, blame?, cause?]
  rcases operand.infer scope with ⟨found, mistakes⟩
  cases found with
  | none => simp
  | some ty => simp [applied_snd, head]

/-- The mistakes in a binary node are those of its operands, and its own one behind them. -/
theorem infer_binary_snd (scope : TypeScope) (op : Operator) (token : Token)
    (left right : Expr) :
    ((binary op token left right).infer scope).2 =
      (left.infer scope).2 ++ (right.infer scope).2 ++
        ((binary op token left right).blame? scope).toList := by
  rw [infer, blame?, cause?]
  rcases left.infer scope with ⟨leftFound, before⟩
  rcases right.infer scope with ⟨rightFound, after⟩
  cases leftFound with
  | none => simp
  | some leftTy =>
    cases rightFound with
    | none => simp
    | some rightTy =>
      by_cases hsame : leftTy = rightTy
      · simp [hsame, applied_snd, head]
      · simp [hsame, misfit?, head]

/-- An operator is blamed only if there is nothing to say about its operand. -/
theorem infer_operand_of_blame? {scope : TypeScope} {op : Operator} {token : Token}
    {operand : Expr} {mistake : Diagnostic}
    (hblame : (unary op token operand).blame? scope = some mistake) :
    (operand.infer scope).2 = [] := by
  rcases Option.map_eq_some_iff.1 hblame with ⟨cause, hcause, -⟩
  rcases Option.bind_eq_some_iff.1 hcause with ⟨ty, hty, -⟩
  exact infer_snd_of_fst hty

/-- A binary node is blamed only if its operands have no mistakes. -/
theorem infer_operands_of_blame? {scope : TypeScope} {op : Operator} {token : Token}
    {left right : Expr} {mistake : Diagnostic}
    (hblame : (binary op token left right).blame? scope = some mistake) :
    (left.infer scope).2 = [] ∧ (right.infer scope).2 = [] := by
  rcases Option.map_eq_some_iff.1 hblame with ⟨cause, hcause, -⟩
  rcases Option.bind_eq_some_iff.1 hcause with ⟨leftTy, hleft, hrest⟩
  rcases Option.bind_eq_some_iff.1 hrest with ⟨rightTy, hright, -⟩
  exact ⟨infer_snd_of_fst hleft, infer_snd_of_fst hright⟩

/-- The mistakes in an expression are those that start at its nodes, from left to
right. -/
theorem infer_snd_eq (scope : TypeScope) (expr : Expr) :
    (expr.infer scope).2 = expr.nodes.filterMap (blame? scope) := by
  induction expr with
  | leaf token =>
    rw [infer_leaf_snd, nodes, List.filterMap_cons]
    cases (leaf token).blame? scope <;> rfl
  | unary op token operand ih =>
    rw [infer_unary_snd, nodes, List.filterMap_cons, ← ih]
    cases hblame : (unary op token operand).blame? scope with
    | none => simp
    | some mistake => simp [infer_operand_of_blame? hblame]
  | binary op token left right ihleft ihright =>
    rw [infer_binary_snd, nodes, List.filterMap_append, List.filterMap_cons, ← ihleft, ← ihright]
    cases hblame : (binary op token left right).blame? scope with
    | none => simp
    | some mistake => simp [infer_operands_of_blame? hblame]

/-- There is a type exactly if there is no mistake. -/
theorem isSome_infer_iff {scope : TypeScope} {expr : Expr} (hshaped : expr.Shaped) :
    (expr.infer scope).1.isSome = true ↔ (expr.infer scope).2 = [] := by
  constructor
  · intro hsome
    rcases Option.isSome_iff_exists.1 hsome with ⟨ty, hty⟩
    exact infer_snd_of_fst hty
  · intro hquiet
    rcases exists_hasType_of_infer hshaped hquiet with ⟨ty, hinfer, -⟩
    rw [hinfer]
    rfl

/-- The requirement of a type adds a mistake only to an expression without one, which
has another type. -/
theorem require_cases {scope : TypeScope} {expr : Expr} (hshaped : expr.Shaped) (expected : Ty) :
    ((∀ received, HasType scope expr received → received = expected) ∧
        expr.require scope expected = (expr.infer scope).2) ∨
      ∃ received, HasType scope expr received ∧ received ≠ expected ∧
        (expr.infer scope).2 = [] ∧
        expr.require scope expected = [.about expr.head (.typeMismatch expected received)] := by
  rw [require]
  rcases hinfer : expr.infer scope with ⟨found, mistakes⟩
  cases found with
  | none =>
    refine .inl ⟨?_, rfl⟩
    intro received htype
    have hfound := htype.infer_fst
    rw [hinfer] at hfound
    cases hfound
  | some received =>
    have hfst : (expr.infer scope).1 = some received := by rw [hinfer]
    have htype : HasType scope expr received := (hasType_iff_infer hshaped).2 hfst
    have hquiet : mistakes = [] := by
      have hsnd := infer_snd_of_fst hfst
      rw [hinfer] at hsnd
      exact hsnd
    by_cases hsame : received = expected
    · refine .inl ⟨fun other hother => (hother.unique htype).trans hsame, ?_⟩
      simp [hsame]
    · refine .inr ⟨received, htype, hsame, hquiet, ?_⟩
      simp [hsame, hquiet]

/-- Each inconsistency of an expression is reported exactly once, where it starts: the
mistakes are one for each culprit among the nodes, from left to right and about the
token of that node.  The culprits are the minimal nodes without a type.  There is a type
exactly if there is no mistake, and only then can the requirement of a type add one. -/
theorem infer_blames_each_culprit_once {expr : Expr} (hshaped : expr.Shaped)
    (scope : TypeScope) :
    ((expr.infer scope).2 = expr.nodes.filterMap (blame? scope) ∧
      expr.nodes.map head = expr.tokens) ∧
    (∀ node ∈ expr.nodes,
      (∀ mistake, node.blame? scope = some mistake ↔
        ∃ cause, Culprit scope node cause ∧ mistake = .about node.head cause) ∧
      ((∃ cause, Culprit scope node cause) ↔
        node.Inconsistent scope ∧ ∀ below ∈ node.inner, ¬ below.Inconsistent scope)) ∧
    ((expr.infer scope).1.isSome = true ↔ (expr.infer scope).2 = []) ∧
    ∀ expected,
      ((∀ received, HasType scope expr received → received = expected) ∧
        expr.require scope expected = (expr.infer scope).2) ∨
      ∃ received, HasType scope expr received ∧ received ≠ expected ∧
        (expr.infer scope).2 = [] ∧
        expr.require scope expected = [.about expr.head (.typeMismatch expected received)] := by
  refine ⟨⟨infer_snd_eq scope expr, expr.map_head_nodes⟩, ?_, isSome_infer_iff hshaped,
    require_cases hshaped⟩
  intro node hnode
  have hnodeShaped := hshaped.of_mem_nodes node hnode
  refine ⟨fun mistake => ?_, exists_culprit_iff hnodeShaped⟩
  rw [blame?, Option.map_eq_some_iff]
  constructor
  · rintro ⟨cause, hcause, rfl⟩
    exact ⟨cause, (cause?_eq_some_iff hnodeShaped).1 hcause, rfl⟩
  · rintro ⟨cause, hculprit, rfl⟩
    exact ⟨cause, (cause?_eq_some_iff hnodeShaped).2 hculprit, rfl⟩

/-- A sum of an undeclared name, times a difference of strings. -/
def twoCulprits : Expr :=
  .binary .multiplication ⟨.binaryOperator, "*", 1, 9, 8, 9⟩
    (.binary .addition ⟨.binaryOperator, "+", 1, 4, 3, 4⟩
      (.leaf ⟨.identifier, "n", 1, 2, 1, 2⟩) (.leaf ⟨.integerLiteral, "1", 1, 6, 5, 6⟩))
    (.binary .subtraction ⟨.binaryOperator, "-", 1, 16, 15, 16⟩
      (.leaf ⟨.stringLiteral, "a", 1, 12, 11, 14⟩) (.leaf ⟨.stringLiteral, "b", 1, 18, 17, 20⟩))

/-- The name and the difference are blamed, and nothing is said about the sum and the
product. -/
theorem infer_blames_two_culprits :
    twoCulprits.Shaped ∧
      twoCulprits.nodes.filterMap (blame? .empty) =
        [.about ⟨.identifier, "n", 1, 2, 1, 2⟩ (.undeclared "n"),
          .about ⟨.binaryOperator, "-", 1, 16, 15, 16⟩ (.notApplicable .subtraction .string)] ∧
      (twoCulprits.infer .empty).2 = twoCulprits.nodes.filterMap (blame? .empty) ∧
      ((twoCulprits.infer .empty).1.isSome = true ↔ (twoCulprits.infer .empty).2 = []) := by
  have hone : Value.ofText? "1" .int = some (.int 1) := by decide
  have hsum : (Expr.binary .addition ⟨.binaryOperator, "+", 1, 4, 3, 4⟩
      (.leaf ⟨.identifier, "n", 1, 2, 1, 2⟩)
      (.leaf ⟨.integerLiteral, "1", 1, 6, 5, 6⟩)).Shaped :=
    .binary (by decide) (.identifier rfl) (.literal rfl hone)
  have hword : ∀ text, Value.ofText? text .string = some (.string text) := fun _ => rfl
  have hshaped : twoCulprits.Shaped :=
    .binary (by decide) hsum (.binary (by decide) (.literal rfl (hword _)) (.literal rfl (hword _)))
  have hblamed := infer_blames_each_culprit_once hshaped .empty
  exact ⟨hshaped, by decide, hblamed.1.1, hblamed.2.2.1⟩

end Expr

end LoopLang
