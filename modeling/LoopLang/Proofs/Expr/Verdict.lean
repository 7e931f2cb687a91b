import LoopLang.Proofs.Expr.Brackets
import LoopLang.Proofs.Expr.Precedence

/-!
# The verdict on arbitrary tokens

What becomes of a list of operands, operators and brackets in any order, also of
one that is no expression.  The brackets alone decide whether the tokens can be
put into Polish order: the closing brackets that wait in the yard are those that
no token so far has opened.  Where they pair up, the order has every other token
once, and reading it gives a tree of all of them or ends at the fault that is
placed at the first token.

Main definitions:

- `Yard.Holds`: what a yard has made of the tokens it has taken up.
- `Yard.Judges`, `Expr.Reads`: the answers of a yard and of reading a tree.

Main results:

- Theorem `Yard.judges_ofTokens`: a yard holds the tokens it has taken up, or one
  of their opening brackets is not closed.
- Theorem `Expr.reads_ofPolish`: a tree that is read has the tokens it was read
  from, and reading ends only where the tokens do.
- Theorem `Expr.ofTokens_eq_ok_iff`: a token list has a tree if and only if its
  Polish order is the one of that tree.
- Theorem `Expr.ofTokens_verdict`: the three answers for a list of usable tokens.
-/

namespace LoopLang

namespace Yard

/-! ## The yard -/

/-- The closing brackets among the tokens that wait. -/
def closings (waiting : List Token) : Nat :=
  waiting.countP fun top => top.kind == .rightBracket

theorem closings_append (front rest : List Token) :
    closings (front ++ rest) = closings front + closings rest :=
  List.countP_append

theorem closings_of_closing {top : Token} (hclosing : top.kind = .rightBracket)
    (rest : List Token) : closings (top :: rest) = closings rest + 1 := by
  simp [closings, hclosing]

theorem closings_of_ne {top : Token} (hnot : top.kind ≠ .rightBracket) (rest : List Token) :
    closings (top :: rest) = closings rest := by
  simp [closings, hnot]

/-- None is counted exactly if no closing bracket waits. -/
theorem closings_eq_zero_iff {waiting : List Token} :
    closings waiting = 0 ↔ ∀ top ∈ waiting, top.kind ≠ .rightBracket := by
  simp [closings]

/-- What a yard has made of the tokens it has taken up. -/
structure Holds (yard : Yard) (tokens : List Token) : Prop where
  /-- Only closing brackets and operators wait. -/
  waits : ∀ top ∈ yard.waiting, top.kind = .rightBracket ∨ top.operator?.isSome = true
  /-- Every token but the brackets is settled or waits. -/
  gathers : (yard.settled ++ Expr.unbracketed yard.waiting).Perm (Expr.unbracketed tokens)
  /-- The closing brackets that wait are those that are not opened. -/
  counts : Expr.unopened tokens = some (closings yard.waiting)

/-- An opening bracket settles what waits in front of the first closing bracket. -/
theorem closeGroup_cases (settled waiting : List Token) :
    (∃ moved closing rest, waiting = moved ++ closing :: rest ∧
      (∀ top ∈ moved, top.kind ≠ .rightBracket) ∧ closing.kind = .rightBracket ∧
      closeGroup settled waiting = .ok ⟨moved.reverse ++ settled, rest⟩) ∨
    ((∀ top ∈ waiting, top.kind ≠ .rightBracket) ∧
      closeGroup settled waiting = .error .unbalancedBrackets) := by
  induction waiting generalizing settled with
  | nil => exact .inr ⟨by simp, rfl⟩
  | cons top rest ih =>
    by_cases hclosing : top.kind = .rightBracket
    · exact .inl ⟨[], top, rest, rfl, by simp, hclosing, by simp [closeGroup, hclosing]⟩
    rcases ih (top :: settled) with ⟨moved, closing, after, rfl, hmoved, hkind, hclosed⟩ |
      ⟨hnone, hfault⟩
    · refine .inl ⟨top :: moved, closing, after, rfl, ?_, hkind, ?_⟩
      · simpa [hclosing] using hmoved
      · simpa [closeGroup, hclosing] using hclosed
    · refine .inr ⟨?_, ?_⟩
      · simpa [hclosing] using hnone
      · simpa [closeGroup, hclosing] using hfault

/-- A binary operator settles some of what waits in its group. -/
theorem exists_settleTighter {waiting : List Token}
    (hwaits : ∀ top ∈ waiting, top.kind = .rightBracket ∨ top.operator?.isSome = true)
    (precedence : Nat) (settled : List Token) :
    ∃ moved rest, waiting = moved ++ rest ∧ (∀ top ∈ moved, top.kind ≠ .rightBracket) ∧
      settleTighter precedence settled waiting = .ok ⟨moved.reverse ++ settled, rest⟩ := by
  induction waiting generalizing settled with
  | nil => exact ⟨[], [], rfl, by simp, rfl⟩
  | cons top rest ih =>
    by_cases hclosing : top.kind = .rightBracket
    · exact ⟨[], top :: rest, rfl, by simp, by simp [settleTighter, hclosing]⟩
    rcases Option.isSome_iff_exists.1 ((hwaits top List.mem_cons_self).resolve_left hclosing)
      with ⟨op, hop⟩
    have hoperator := Expr.operatorOrFault_eq_ok hop
    by_cases hlooser : op.precedence ≤ precedence
    · refine ⟨[], top :: rest, rfl, by simp, ?_⟩
      simp [settleTighter, hclosing, hoperator, hlooser, bind, Except.bind]
    · rcases ih (fun other hother => hwaits other (List.mem_cons_of_mem top hother))
        (top :: settled) with ⟨moved, after, rfl, hmoved, hsettled⟩
      refine ⟨top :: moved, after, rfl, ?_, ?_⟩
      · simpa [hclosing] using hmoved
      · simpa [settleTighter, hclosing, hoperator, hlooser, bind, Except.bind] using hsettled

/-- At the end everything is settled unless a closing bracket waits. -/
theorem settleAll_eq (settled waiting : List Token) :
    settleAll settled waiting =
      if closings waiting = 0 then .ok (waiting.reverse ++ settled)
      else .error .unbalancedBrackets := by
  induction waiting generalizing settled with
  | nil => rfl
  | cons top rest ih =>
    by_cases hclosing : top.kind = .rightBracket
    · simp [settleAll, closings_of_closing hclosing, hclosing]
    · simpa [settleAll, closings_of_ne hclosing, hclosing] using ih (top :: settled)

namespace Holds

variable {settled waiting tokens : List Token} {token : Token}

/-- A yard that has taken up nothing. -/
theorem empty : Holds ⟨[], []⟩ [] :=
  ⟨by simp, .refl _, rfl⟩

/-- Operators that go from those that wait to those that are settled are not lost. -/
theorem settle {moved : List Token} (hyard : Holds ⟨settled, moved ++ waiting⟩ tokens)
    (hmoved : ∀ top ∈ moved, top.kind ≠ .rightBracket) :
    Holds ⟨moved.reverse ++ settled, waiting⟩ tokens := by
  have hoperators : ∀ top ∈ moved, top.operator?.isSome = true := by
    intro top htop
    exact (hyard.waits top (List.mem_append_left _ htop)).resolve_left (hmoved top htop)
  have hplain : Expr.unbracketed moved = moved := by
    refine List.filter_eq_self.2 ?_
    intro top htop
    simp [Token.isBracket_of_operator? (hoperators top htop)]
  have hnone : closings moved = 0 := closings_eq_zero_iff.2 hmoved
  constructor
  · intro top htop
    exact hyard.waits top (List.mem_append_right _ htop)
  · have hmoves : (moved.reverse ++ settled).Perm (settled ++ moved) :=
      (moved.reverse_perm.append_right settled).trans List.perm_append_comm
    have hgathers := hyard.gathers
    rw [Expr.unbracketed_append, hplain, ← List.append_assoc] at hgathers
    exact (hmoves.append_right _).trans hgathers
  · rw [hyard.counts, closings_append, hnone, Nat.zero_add]

/-- An operand, or an operator in front of its operand, is settled. -/
theorem settled_cons (hyard : Holds ⟨settled, waiting⟩ tokens)
    (hplain : token.isBracket = false) : Holds ⟨token :: settled, waiting⟩ (token :: tokens) := by
  refine ⟨hyard.waits, ?_, ?_⟩
  · rw [Expr.unbracketed_plain hplain]
    exact hyard.gathers.cons token
  · rw [Expr.unopened_plain hplain]
    exact hyard.counts

/-- An operator between its operands waits. -/
theorem operator_cons (hyard : Holds ⟨settled, waiting⟩ tokens)
    (hoperator : token.operator?.isSome = true) :
    Holds ⟨settled, token :: waiting⟩ (token :: tokens) := by
  have hplain := Token.isBracket_of_operator? hoperator
  have hnot : token.kind ≠ .rightBracket := by
    rcases Token.kind_of_operator? hoperator with hkind | hkind <;> simp [hkind]
  refine ⟨?_, ?_, ?_⟩
  · simpa [hoperator] using hyard.waits
  · rw [Expr.unbracketed_plain hplain, Expr.unbracketed_plain hplain]
    exact List.perm_middle.trans (hyard.gathers.cons token)
  · rw [Expr.unopened_plain hplain, hyard.counts, closings_of_ne hnot]

/-- A closing bracket waits. -/
theorem closing_cons (hyard : Holds ⟨settled, waiting⟩ tokens)
    (hclosing : token.kind = .rightBracket) :
    Holds ⟨settled, token :: waiting⟩ (token :: tokens) := by
  have hbracket : token.isBracket = true := by simp [Token.isBracket, hclosing]
  refine ⟨?_, ?_, ?_⟩
  · simpa [hclosing] using hyard.waits
  · rw [Expr.unbracketed_bracket hbracket, Expr.unbracketed_bracket hbracket]
    exact hyard.gathers
  · rw [Expr.unopened_closing hclosing, hyard.counts, closings_of_closing hclosing,
      Option.map_some]

/-- An opening bracket takes the closing bracket that waits in front. -/
theorem opening_cons {closing : Token} (hyard : Holds ⟨settled, closing :: waiting⟩ tokens)
    (hclosing : closing.kind = .rightBracket) (hopening : token.kind = .leftBracket) :
    Holds ⟨settled, waiting⟩ (token :: tokens) := by
  have hopens : token.isBracket = true := by simp [Token.isBracket, hopening]
  have hcloses : closing.isBracket = true := by simp [Token.isBracket, hclosing]
  refine ⟨?_, ?_, ?_⟩
  · intro top htop
    exact hyard.waits top (List.mem_cons_of_mem closing htop)
  · have hgathers := hyard.gathers
    rw [Expr.unbracketed_bracket hcloses] at hgathers
    rw [Expr.unbracketed_bracket hopens]
    exact hgathers
  · rw [Expr.unopened_opening_eq_some_iff hopening, hyard.counts, closings_of_closing hclosing]

end Holds

/-- The answer for some tokens: a yard that holds them, or the fault of an opening
bracket that is not closed. -/
def Judges (tokens : List Token) : Except Fault Yard → Prop
  | .ok yard => yard.Holds tokens
  | .error fault => fault = .unbalancedBrackets ∧ Expr.unopened tokens = none

/-- An opening bracket finds the closing bracket of its group, or none waits. -/
theorem Holds.judges_opening {yard : Yard} {tokens : List Token} {token : Token}
    (hyard : yard.Holds tokens) (hopening : token.kind = .leftBracket) :
    Judges (token :: tokens) (yard.place token) := by
  rcases yard with ⟨settled, waiting⟩
  have hplace : Yard.place ⟨settled, waiting⟩ token = closeGroup settled waiting := by
    simp [place, hopening]
  rw [hplace]
  rcases closeGroup_cases settled waiting with
    ⟨moved, closing, rest, rfl, hmoved, hclosing, hclosed⟩ | ⟨hnone, hfault⟩
  · rw [hclosed]
    exact (hyard.settle hmoved).opening_cons hclosing hopening
  · rw [hfault]
    have hzero : Expr.unopened tokens = some 0 := by
      rw [hyard.counts, closings_eq_zero_iff.2 hnone]
    exact ⟨rfl, Expr.unopened_opening_of_zero hopening hzero⟩

/-- A binary operator settles those that bind tighter and waits itself. -/
theorem Holds.judges_binary {yard : Yard} {tokens : List Token} {token : Token}
    (hyard : yard.Holds tokens) (hkind : token.kind = .binaryOperator)
    (hoperator : token.operator?.isSome = true) :
    Judges (token :: tokens) (yard.place token) := by
  rcases yard with ⟨settled, waiting⟩
  rcases Option.isSome_iff_exists.1 hoperator with ⟨op, hop⟩
  rcases exists_settleTighter hyard.waits op.precedence settled with
    ⟨moved, rest, rfl, hmoved, hsettled⟩
  have hplace : Yard.place ⟨settled, moved ++ rest⟩ token =
      .ok ⟨moved.reverse ++ settled, token :: rest⟩ := by
    simp [place, hkind, Expr.operatorOrFault_eq_ok hop, hsettled, bind, Except.bind]
  rw [hplace]
  exact (hyard.settle hmoved).operator_cons hoperator

/-- What a yard that holds some tokens answers to a usable token before them. -/
theorem Holds.judges_place {yard : Yard} {tokens : List Token} {token : Token}
    (hyard : yard.Holds tokens) (husable : token.Usable) :
    Judges (token :: tokens) (yard.place token) := by
  rcases husable with hbracket | hoperand | hoperator
  · rcases Bool.or_eq_true_iff.1 hbracket with hopening | hclosing
    · exact hyard.judges_opening (eq_of_beq hopening)
    · have hkind := eq_of_beq hclosing
      have hplace : yard.place token = .ok ⟨yard.settled, token :: yard.waiting⟩ := by
        simp [place, hkind]
      rw [hplace]
      exact hyard.closing_cons hkind
  · rw [Expr.place_operand hoperand]
    exact hyard.settled_cons (Token.isBracket_of_isOperand hoperand)
  · rcases Token.kind_of_operator? hoperator with hkind | hkind
    · exact hyard.judges_binary hkind hoperator
    · have hplace : yard.place token = .ok ⟨token :: yard.settled, yard.waiting⟩ := by
        simp [place, hkind]
      rw [hplace]
      exact hyard.settled_cons (Token.isBracket_of_operator? hoperator)

/-- A yard holds the usable tokens it has taken up, or one of their opening brackets
is not closed. -/
theorem judges_ofTokens {tokens : List Token} (husable : ∀ token ∈ tokens, token.Usable) :
    Judges tokens (ofTokens tokens) := by
  induction tokens with
  | nil => exact Holds.empty
  | cons token rest ih =>
    have hrest := ih fun other hother => husable other (List.mem_cons_of_mem token hother)
    rw [ofTokens]
    cases hyard : ofTokens rest with
    | error fault =>
      rw [hyard] at hrest
      exact ⟨hrest.1, Expr.unopened_cons_of_none hrest.2 token⟩
    | ok yard =>
      rw [hyard] at hrest
      exact Holds.judges_place hrest (husable token List.mem_cons_self)

/-- The brackets of the tokens pair up if no closing bracket waits in the end. -/
theorem Holds.balanced_iff {yard : Yard} {tokens : List Token} (hyard : yard.Holds tokens) :
    Expr.Balanced tokens ↔ closings yard.waiting = 0 := by
  rw [Expr.balanced_iff, hyard.counts, Option.some.injEq]

/-- Tokens whose brackets pair up have a Polish order, and it has every token but
the brackets once. -/
theorem exists_polish {tokens : List Token} (husable : ∀ token ∈ tokens, token.Usable)
    (hbalanced : Expr.Balanced tokens) :
    ∃ order, polish tokens = .ok order ∧ order.Perm (Expr.unbracketed tokens) := by
  have hjudges := judges_ofTokens husable
  cases hofTokens : ofTokens tokens with
  | error fault =>
    rw [hofTokens] at hjudges
    have hnone := hjudges.2
    rw [Expr.balanced_iff.1 hbalanced] at hnone
    cases hnone
  | ok yard =>
    rw [hofTokens] at hjudges
    rcases yard with ⟨settled, waiting⟩
    have hyard : Holds ⟨settled, waiting ++ []⟩ tokens := by rwa [List.append_nil]
    have hzero : closings waiting = 0 := Holds.balanced_iff hjudges |>.1 hbalanced
    refine ⟨waiting.reverse ++ settled, ?_, ?_⟩
    · simp [polish, hofTokens, bind, Except.bind, settleAll_eq, hzero]
    · have hsettled := (hyard.settle (closings_eq_zero_iff.1 hzero)).gathers
      simpa [Expr.unbracketed] using hsettled

/-- Tokens whose brackets do not pair up have no Polish order. -/
theorem polish_of_not_balanced {tokens : List Token} (husable : ∀ token ∈ tokens, token.Usable)
    (hunbalanced : ¬Expr.Balanced tokens) : polish tokens = .error .unbalancedBrackets := by
  have hjudges := judges_ofTokens husable
  cases hofTokens : ofTokens tokens with
  | error fault =>
    rw [hofTokens] at hjudges
    simp [polish, hofTokens, hjudges.1, bind, Except.bind]
  | ok yard =>
    rw [hofTokens] at hjudges
    have hwaits : closings yard.waiting ≠ 0 := mt (Holds.balanced_iff hjudges).2 hunbalanced
    simp [polish, hofTokens, bind, Except.bind, settleAll_eq, hwaits]

end Yard

namespace Expr

/-! ## The tree -/

/-- The answer for some tokens in Polish order: a tree of the first of them and
those after it, or the fault of an order that ends too early. -/
def Reads (malformed : Fault) (order : List Token) : Except Fault (Expr × List Token) → Prop
  | .ok (expr, rest) => expr.Spelled ∧ order = expr.polish ++ rest
  | .error fault => fault = malformed

/-- Reading on after a tree, unless there was none. -/
theorem Reads.bind {malformed : Fault} {order rest : List Token}
    {answer : Except Fault (Expr × List Token)}
    {next : Expr × List Token → Except Fault (Expr × List Token)}
    (hanswer : Reads malformed rest answer)
    (hnext : ∀ expr after, expr.Spelled → rest = expr.polish ++ after →
      Reads malformed order (next (expr, after))) :
    Reads malformed order (answer >>= next) := by
  cases answer with
  | error fault => exact hanswer
  | ok read => exact hnext read.1 read.2 hanswer.1 hanswer.2

/-- Reading a tree off operands and known operators. -/
theorem reads_ofPolish (malformed : Fault) (size : Nat) {order : List Token}
    (hnodes : ∀ token ∈ order, token.IsNode) :
    Reads malformed order (ofPolish malformed size order) := by
  induction size generalizing order with
  | zero => cases order <;> rfl
  | succ size ih =>
    cases order with
    | nil => rfl
    | cons token rest =>
      have hrest : ∀ other ∈ rest, other.IsNode :=
        fun other hother => hnodes other (List.mem_cons_of_mem token hother)
      rcases hnodes token List.mem_cons_self with hoperand | hoperator
      · rw [ofPolish_leaf hoperand]
        exact ⟨hoperand, rfl⟩
      rcases Option.isSome_iff_exists.1 hoperator with ⟨op, hop⟩
      rcases Token.kind_of_operator? hoperator with hkind | hkind
      · simp only [ofPolish, hkind, operatorOrFault_eq_ok hop]
        refine (ih hrest).bind fun left middle hleft hsplit => ?_
        have hmiddle : ∀ other ∈ middle, other.IsNode :=
          fun other hother => hrest other (by simp [hsplit, hother])
        refine (ih hmiddle).bind fun right after hright hend => ?_
        refine ⟨⟨hkind, hop, hleft, hright⟩, ?_⟩
        simp [polish, hsplit, hend]
      · simp only [ofPolish, hkind, operatorOrFault_eq_ok hop]
        refine (ih hrest).bind fun operand after hspelled hsplit => ?_
        refine ⟨⟨hkind, hop, hspelled⟩, ?_⟩
        simp [polish, hsplit]

/-- Malformed tokens are told at the place of the first of them. -/
theorem malformedAt_eq (tokens : List Token) :
    malformedAt tokens = .malformedExpression (tokens.head?.elim (-1) Token.line)
      (tokens.head?.elim (-1) Token.column) := by
  cases tokens <;> rfl

/-- A list with a Polish order has the tree of that order or is malformed. -/
theorem ofTokens_cases {tokens order : List Token} (horder : Yard.polish tokens = .ok order)
    (hnodes : ∀ token ∈ order, token.IsNode) :
    ofTokens tokens = .error (malformedAt tokens) ∨
      ∃ expr, ofTokens tokens = .ok expr ∧ expr.Spelled ∧ order = expr.polish := by
  have hreads := reads_ofPolish (malformedAt tokens) order.length hnodes
  simp only [ofTokens, horder, bind, Except.bind]
  cases hread : ofPolish (malformedAt tokens) order.length order with
  | error fault =>
    rw [hread] at hreads
    cases hreads
    exact .inl rfl
  | ok read =>
    rcases read with ⟨expr, rest⟩
    rw [hread] at hreads
    rcases hreads with ⟨hspelled, hsplit⟩
    cases rest with
    | nil => exact .inr ⟨expr, rfl, hspelled, by simpa using hsplit⟩
    | cons token rest => exact .inl rfl

/-! ## The three answers -/

variable {tokens : List Token}

/-- The order of usable tokens has nodes only. -/
theorem isNode_of_mem_unbracketed (husable : ∀ token ∈ tokens, token.Usable) {token : Token}
    (hmem : token ∈ unbracketed tokens) : token.IsNode := by
  rcases List.mem_filter.1 hmem with ⟨htoken, hplain⟩
  rcases husable token htoken with hbracket | hnode
  · simp [hbracket] at hplain
  · exact hnode

/-- Brackets that do not pair up are told before anything else. -/
theorem ofTokens_of_not_balanced (husable : ∀ token ∈ tokens, token.Usable)
    (hunbalanced : ¬Balanced tokens) : ofTokens tokens = .error .unbalancedBrackets := by
  rw [ofTokens, Yard.polish_of_not_balanced husable hunbalanced]
  rfl

/-- Where the brackets pair up, a tree takes every other token once. -/
theorem ofTokens_of_balanced (husable : ∀ token ∈ tokens, token.Usable)
    (hbalanced : Balanced tokens) :
    ofTokens tokens = .error (malformedAt tokens) ∨
      ∃ expr, ofTokens tokens = .ok expr ∧ expr.Spelled ∧
        Yard.polish tokens = .ok expr.polish ∧ expr.polish.Perm (unbracketed tokens) := by
  rcases Yard.exists_polish husable hbalanced with ⟨order, horder, hperm⟩
  have hnodes : ∀ token ∈ order, token.IsNode :=
    fun token htoken => isNode_of_mem_unbracketed husable (hperm.mem_iff.1 htoken)
  rcases ofTokens_cases horder hnodes with hfault | ⟨expr, htree, hspelled, rfl⟩
  · exact .inl hfault
  · exact .inr ⟨expr, htree, hspelled, horder, hperm⟩

/-- Usable tokens have a tree if and only if their Polish order is the one of that
tree. -/
theorem ofTokens_eq_ok_iff (husable : ∀ token ∈ tokens, token.Usable) {expr : Expr} :
    ofTokens tokens = .ok expr ↔ expr.Spelled ∧ Yard.polish tokens = .ok expr.polish := by
  constructor
  · intro htree
    by_cases hbalanced : Balanced tokens
    · rcases ofTokens_of_balanced husable hbalanced with hfault | ⟨other, hother, hfacts⟩
      · rw [htree] at hfault
        cases hfault
      · rw [htree] at hother
        cases hother
        exact ⟨hfacts.1, hfacts.2.1⟩
    · rw [ofTokens_of_not_balanced husable hbalanced] at htree
      cases htree
  · rintro ⟨hspelled, horder⟩
    exact ofTokens_of_polish hspelled horder

/-- Operands, brackets and known operators in any order give one of three answers.
The brackets do not pair up; or the tokens are malformed, which is told at the place
of the first of them; or they have a tree, and its nodes are all tokens but the
brackets, each of them once.  The tree is the one whose Polish order the tokens
have. -/
theorem ofTokens_verdict (tokens : List Token) (husable : ∀ token ∈ tokens, token.Usable) :
    (ofTokens tokens = .error .unbalancedBrackets ↔ ¬Balanced tokens) ∧
      (Balanced tokens →
        ofTokens tokens = .error (.malformedExpression (tokens.head?.elim (-1) Token.line)
          (tokens.head?.elim (-1) Token.column)) ∨
        ∃ expr, ofTokens tokens = .ok expr ∧ expr.Spelled ∧
          expr.polish.Perm (unbracketed tokens)) ∧
      ∀ expr, ofTokens tokens = .ok expr ↔
        expr.Spelled ∧ Yard.polish tokens = .ok expr.polish := by
  refine ⟨⟨?_, ofTokens_of_not_balanced husable⟩, ?_, fun expr => ofTokens_eq_ok_iff husable⟩
  · intro hfault hbalanced
    rcases ofTokens_of_balanced husable hbalanced with hmalformed | ⟨expr, htree, -⟩
    · rw [hfault, malformedAt_eq] at hmalformed
      cases hmalformed
    · rw [hfault] at htree
      cases htree
  · intro hbalanced
    rw [← malformedAt_eq]
    rcases ofTokens_of_balanced husable hbalanced with
      hmalformed | ⟨expr, htree, hspelled, -, hperm⟩
    · exact .inl hmalformed
    · exact .inr ⟨expr, htree, hspelled, hperm⟩

/-- The tokens of `) a + (`. -/
def crossed : List Token :=
  [⟨.rightBracket, ")", 1, 1, 0, 1⟩, ⟨.identifier, "a", 1, 3, 2, 3⟩,
    ⟨.binaryOperator, "+", 1, 5, 4, 5⟩, ⟨.leftBracket, "(", 1, 7, 6, 7⟩]

/-- The tokens of `(a +) !b`. -/
def displaced : List Token :=
  [⟨.leftBracket, "(", 1, 1, 0, 1⟩, ⟨.identifier, "a", 1, 2, 1, 2⟩,
    ⟨.binaryOperator, "+", 1, 4, 3, 4⟩, ⟨.rightBracket, ")", 1, 5, 4, 5⟩,
    ⟨.unaryOperator, "!", 1, 7, 6, 7⟩, ⟨.identifier, "b", 1, 8, 7, 8⟩]

/-- The tree of `a + !b`. -/
def displacedTree : Expr :=
  .binary .addition ⟨.binaryOperator, "+", 1, 4, 3, 4⟩ (.leaf ⟨.identifier, "a", 1, 2, 1, 2⟩)
    (.unary .not ⟨.unaryOperator, "!", 1, 7, 6, 7⟩ (.leaf ⟨.identifier, "b", 1, 8, 7, 8⟩))

/-- As many opening as closing brackets need not pair up, and a list that is no
expression may have a tree. -/
theorem ofTokens_displaced :
    ofTokens crossed = .error .unbalancedBrackets ∧
      (ofTokens displaced = .error (.malformedExpression 1 1) ∨
        ∃ expr, ofTokens displaced = .ok expr ∧ expr.Spelled ∧
          expr.polish.Perm (unbracketed displaced)) ∧
      ofTokens displaced = .ok displacedTree := by
  have hcrossed := ofTokens_verdict crossed (by decide)
  have hdisplaced := ofTokens_verdict displaced (by decide)
  have hspelled : displacedTree.Spelled := ⟨rfl, by decide, rfl, rfl, by decide, rfl⟩
  have horder : Yard.polish displaced = .ok displacedTree.polish := rfl
  exact ⟨hcrossed.1.2 (by decide), hdisplaced.2.1 (by decide),
    (hdisplaced.2.2 displacedTree).2 ⟨hspelled, horder⟩⟩

end Expr

end LoopLang
