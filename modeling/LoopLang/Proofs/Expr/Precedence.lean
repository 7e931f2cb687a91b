import LoopLang.Proofs.Expr.Reference

/-!
# The precedence tree

Putting tokens into Polish order and reading the tree off that order gives the
reference tree.  The proof follows the yard from the right.  The operators that
wait inside the innermost open group are the links of a chain, and the settled
tokens are the Polish orders of the operands between them; a new operator joins
the operands behind the links that bind tighter.

Main definitions:

- `Expr.polish`: the Polish order of a tree.
- `Expr.absorb`, `Expr.arrange`: the waiting links of a chain.
- `Expr.finish`: the tree that waiting links settle to.

Main results:

- Theorem `Expr.ofPolish_polish`: a tree is read back off its Polish order.
- Theorem `Expr.Resolves.finish_arrange`: the waiting links of a chain settle to
  its reference tree.
- Theorem `Expr.IsChain.ofTokens`: what the yard holds after the tokens of a
  chain.
- Theorem `Expr.ofTokens_of_isExpression`: the tree of a token list is the
  reference tree.
-/

namespace LoopLang

namespace Expr

/-! ## Polish order -/

/-- The tokens of a tree in Polish order. -/
def polish : Expr → List Token
  | leaf token => [token]
  | unary _ token operand => token :: operand.polish
  | binary _ token left right => token :: (left.polish ++ right.polish)

/-- The nodes of a tree agree with the tokens they came from. -/
def Spelled : Expr → Prop
  | leaf token => token.isOperand = true
  | unary op token operand =>
    token.kind = .unaryOperator ∧ token.operator? = some op ∧ operand.Spelled
  | binary op token left right =>
    token.kind = .binaryOperator ∧ token.operator? = some op ∧ left.Spelled ∧ right.Spelled

/-- A token that spells an operator is no fault. -/
theorem operatorOrFault_eq_ok {token : Token} {op : Operator} (hop : token.operator? = some op) :
    token.operatorOrFault = .ok op := by
  simp [Token.operatorOrFault, hop]

/-- A leaf is read off as itself. -/
theorem ofPolish_leaf {token : Token} (hoperand : token.isOperand = true) (malformed : Fault)
    (size : Nat) (rest : List Token) :
    ofPolish malformed (size + 1) (token :: rest) = .ok (.leaf token, rest) := by
  unfold ofPolish
  cases hkind : token.kind <;> simp_all [Token.isOperand, TokenKind.isLiteral]

/-- A tree is read back off its Polish order, and the tokens after it are left. -/
theorem ofPolish_polish {expr : Expr} (hspelled : expr.Spelled) (malformed : Fault) {size : Nat}
    (hsize : expr.polish.length ≤ size) (rest : List Token) :
    ofPolish malformed size (expr.polish ++ rest) = .ok (expr, rest) := by
  induction expr generalizing size rest with
  | leaf token =>
    cases size with
    | zero => simp [polish] at hsize
    | succ size => exact ofPolish_leaf hspelled malformed size rest
  | unary op token operand ih =>
    rcases hspelled with ⟨hkind, hop, hoperand⟩
    cases size with
    | zero => simp [polish] at hsize
    | succ size =>
      have hlength : operand.polish.length ≤ size := by simpa [polish] using hsize
      simp only [polish, List.cons_append, ofPolish, hkind, operatorOrFault_eq_ok hop,
        ih hoperand hlength rest, bind, Except.bind]
  | binary op token left right ihleft ihright =>
    rcases hspelled with ⟨hkind, hop, hleft, hright⟩
    cases size with
    | zero => simp [polish] at hsize
    | succ size =>
      have hlength : left.polish.length + right.polish.length ≤ size := by
        simpa [polish] using hsize
      simp only [polish, List.cons_append, List.append_assoc, ofPolish, hkind,
        operatorOrFault_eq_ok hop, ihleft hleft (by omega : left.polish.length ≤ size),
        ihright hright (by omega : right.polish.length ≤ size) rest, bind, Except.bind]

/-! ## Waiting links -/

/-- Joins an operand with the links behind it that bind tighter than the given
precedence. -/
def absorb (precedence : Nat) (first : Expr) : List Link → Expr × List Link
  | [] => (first, [])
  | link :: rest =>
    if link.precedence ≤ precedence then (first, link :: rest)
    else absorb precedence (.binary link.operator link.token first link.operand) rest

/-- Joins an operand with all links behind it, the left one first. -/
def finish (first : Expr) : List Link → Expr
  | [] => first
  | link :: rest => finish (.binary link.operator link.token first link.operand) rest

/-- The links of a chain that still wait when the chain has been taken up from
the right, each with the tree of what stands up to the next of them. -/
def arrange : List Link → List Link
  | [] => []
  | link :: rest =>
    let (operand, kept) := absorb link.precedence link.operand (arrange rest)
    { link with operand := operand } :: kept

/-- The links that an operand leaves are some of those behind it. -/
theorem mem_of_mem_absorb {precedence : Nat} {first : Expr} {links : List Link} {link : Link}
    (hmem : link ∈ (absorb precedence first links).2) : link ∈ links := by
  induction links generalizing first with
  | nil => exact hmem
  | cons head rest ih =>
    unfold absorb at hmem
    split at hmem
    · exact hmem
    · exact List.mem_cons_of_mem head (ih hmem)

/-- A waiting link is a link of the chain with a larger operand. -/
theorem exists_of_mem_arrange {links : List Link} {link : Link} (hmem : link ∈ arrange links) :
    ∃ original ∈ links, original.operator = link.operator ∧ original.token = link.token := by
  induction links with
  | nil => cases hmem
  | cons head rest ih =>
    rcases List.mem_cons.1 hmem with rfl | hkept
    · exact ⟨head, List.mem_cons_self, rfl, rfl⟩
    · rcases ih (mem_of_mem_absorb hkept) with ⟨original, horiginal, hsame⟩
      exact ⟨original, List.mem_cons_of_mem head horiginal, hsame⟩

/-- An operand takes all links if they all bind tighter. -/
theorem absorb_eq_finish {precedence : Nat} {links : List Link} (first : Expr)
    (htighter : ∀ link ∈ links, precedence < link.precedence) :
    absorb precedence first links = (finish first links, []) := by
  induction links generalizing first with
  | nil => rfl
  | cons link rest ih =>
    have hnot : ¬ link.precedence ≤ precedence :=
      Nat.not_le_of_lt (htighter link List.mem_cons_self)
    simp only [absorb, hnot, if_false, finish]
    exact ih _ fun other hother => htighter other (List.mem_cons_of_mem link hother)

/-- An operand takes nothing beyond a link that does not bind tighter. -/
theorem absorb_append {precedence : Nat} {last : Link} (hlower : last.precedence ≤ precedence)
    (first : Expr) (links : List Link) :
    absorb precedence first (links ++ [last]) =
      ((absorb precedence first links).1, (absorb precedence first links).2 ++ [last]) := by
  induction links generalizing first with
  | nil => simp [absorb, hlower]
  | cons link rest ih =>
    simp only [List.cons_append, absorb]
    split
    · rfl
    · exact ih _

/-- The links before a link that binds no tighter than them wait as they would
without it. -/
theorem arrange_append {before after : List Link} {last : Link}
    (hbefore : ∀ other ∈ before, last.precedence ≤ other.precedence)
    (hafter : arrange after = [last]) : arrange (before ++ after) = arrange before ++ [last] := by
  induction before with
  | nil => exact hafter
  | cons link rest ih =>
    have hrest := ih fun other hother => hbefore other (List.mem_cons_of_mem link hother)
    simp only [List.cons_append, arrange, hrest,
      absorb_append (hbefore link List.mem_cons_self)]

/-- The last link becomes the root. -/
theorem finish_append (first : Expr) (links : List Link) (last : Link) :
    finish first (links ++ [last]) =
      .binary last.operator last.token (finish first links) last.operand := by
  induction links generalizing first with
  | nil => rfl
  | cons link rest ih => exact ih _

/-- The waiting links of a chain settle to its reference tree. -/
theorem Resolves.finish_arrange {first expr : Expr} {links : List Link}
    (hresolves : Resolves first links expr) : finish first (arrange links) = expr := by
  induction hresolves with
  | operand first => rfl
  | @root first left right before after link hbefore hafter hleft hright ihleft ihright =>
    -- Everything behind the root binds tighter, so the root waits alone.
    have htighter : ∀ other ∈ arrange after, link.precedence < other.precedence := by
      intro other hother
      rcases exists_of_mem_arrange hother with ⟨original, horiginal, hsame, -⟩
      have hbinds : other.precedence = original.precedence :=
        congrArg Operator.precedence hsame.symm
      rw [hbinds]
      exact hafter original horiginal
    have hroot : arrange (link :: after) = [{ link with operand := right }] := by
      simp only [arrange, absorb_eq_finish _ htighter, ihright]
    have hlowest : ∀ other ∈ before,
        Link.precedence { link with operand := right } ≤ other.precedence := hbefore
    rw [arrange_append hlowest hroot, finish_append, ihleft]

/-! ## Spelling -/

/-- The token of a link spells its operator. -/
def Link.Spelled (link : Link) : Prop :=
  link.token.kind = .binaryOperator ∧ link.token.operator? = some link.operator

/-- The tree of a chain agrees with its tokens if the parts of the chain do. -/
theorem Resolves.spelled {first expr : Expr} {links : List Link}
    (hresolves : Resolves first links expr) (hfirst : first.Spelled)
    (hlinks : ∀ link ∈ links, link.Spelled ∧ link.operand.Spelled) : expr.Spelled := by
  induction hresolves with
  | operand first => exact hfirst
  | @root first left right before after link hbefore hafter hleft hright ihleft ihright =>
    rcases hlinks link (by simp) with ⟨⟨hkind, hop⟩, hoperand⟩
    refine ⟨hkind, hop, ihleft hfirst ?_, ihright hoperand ?_⟩
    · intro other hother
      exact hlinks other (List.mem_append_left _ hother)
    · intro other hother
      exact hlinks other (List.mem_append_right _ (List.mem_cons_of_mem link hother))

mutual

/-- The nodes of a term's tree agree with their tokens. -/
theorem IsTerm.spelled {tokens : List Token} {expr : Expr} : IsTerm tokens expr → expr.Spelled
  | .operand hoperand => hoperand
  | .prefixed hkind hop hterm => ⟨hkind, hop, hterm.spelled⟩
  | .group _ _ hchain hresolves => hresolves.spelled hchain.spelled.1 hchain.spelled.2

/-- The operands and links of a chain agree with their tokens. -/
theorem IsChain.spelled {tokens : List Token} {first : Expr} {links : List Link} :
    IsChain tokens first links →
      first.Spelled ∧ ∀ link ∈ links, link.Spelled ∧ link.operand.Spelled
  | .single hterm => ⟨hterm.spelled, by simp⟩
  | .link hkind hop hterm hchain => by
    refine ⟨hterm.spelled, ?_⟩
    intro link hlink
    rcases List.mem_cons.1 hlink with rfl | hlink
    · exact ⟨⟨hkind, hop⟩, hchain.spelled.1⟩
    · exact hchain.spelled.2 link hlink

end

/-- The waiting links of a chain are spelled by their tokens. -/
theorem IsChain.spelled_arrange {tokens : List Token} {first : Expr} {links : List Link}
    (hchain : IsChain tokens first links) : ∀ link ∈ arrange links, link.Spelled := by
  intro link hlink
  rcases exists_of_mem_arrange hlink with ⟨original, horiginal, hoperator, htoken⟩
  have hsame := (hchain.spelled.2 original horiginal).1
  rw [Link.Spelled, hoperator, htoken] at hsame
  exact hsame

/-! ## The yard -/

/-- The Polish orders of the operands of links, one after the other. -/
def spread (links : List Link) : List Token :=
  links.flatMap fun link => link.operand.polish

/-- The operators that wait in front belong to an enclosing group. -/
def Fenced (waiting : List Token) : Prop :=
  ∀ top ∈ waiting.head?, top.kind = .rightBracket

/-- Settling the links of a group joins its operands, up to the bracket. -/
theorem closeGroup_links {links : List Link} {closing : Token}
    (hspelled : ∀ link ∈ links, link.Spelled) (hclosing : closing.kind = .rightBracket)
    (first : Expr) (settled waiting : List Token) :
    Yard.closeGroup (first.polish ++ (spread links ++ settled))
        (links.map Link.token ++ closing :: waiting) =
      .ok ⟨(finish first links).polish ++ settled, waiting⟩ := by
  induction links generalizing first with
  | nil => simp [Yard.closeGroup, hclosing, spread, finish]
  | cons link rest ih =>
    have hkind : link.token.kind = .binaryOperator := (hspelled link List.mem_cons_self).1
    have hrest := ih (fun other hother => hspelled other (List.mem_cons_of_mem link hother))
      (.binary link.operator link.token first link.operand)
    simpa [Yard.closeGroup, hkind, spread, finish, polish] using hrest

/-- Settling all links joins all operands. -/
theorem settleAll_links {links : List Link} (hspelled : ∀ link ∈ links, link.Spelled)
    (first : Expr) :
    Yard.settleAll (first.polish ++ spread links) (links.map Link.token) =
      .ok (finish first links).polish := by
  induction links generalizing first with
  | nil => simp [Yard.settleAll, spread, finish]
  | cons link rest ih =>
    have hkind : link.token.kind = .binaryOperator := (hspelled link List.mem_cons_self).1
    have hrest := ih (fun other hother => hspelled other (List.mem_cons_of_mem link hother))
      (.binary link.operator link.token first link.operand)
    simpa [Yard.settleAll, hkind, spread, finish, polish] using hrest

/-- Nothing of an enclosing group is settled by an operator. -/
theorem settleTighter_fenced {waiting : List Token} (hfenced : Fenced waiting) (precedence : Nat)
    (settled : List Token) :
    Yard.settleTighter precedence settled waiting = .ok ⟨settled, waiting⟩ := by
  cases waiting with
  | nil => rfl
  | cons top rest =>
    have hkind : top.kind = .rightBracket := hfenced top rfl
    simp [Yard.settleTighter, hkind]

/-- An operator joins the operands behind the links that bind tighter. -/
theorem settleTighter_links {links : List Link} {waiting : List Token}
    (hspelled : ∀ link ∈ links, link.Spelled) (hfenced : Fenced waiting) (precedence : Nat)
    (first : Expr) (settled : List Token) :
    Yard.settleTighter precedence (first.polish ++ (spread links ++ settled))
        (links.map Link.token ++ waiting) =
      .ok ⟨(absorb precedence first links).1.polish ++
          (spread (absorb precedence first links).2 ++ settled),
        (absorb precedence first links).2.map Link.token ++ waiting⟩ := by
  induction links generalizing first with
  | nil => exact settleTighter_fenced hfenced precedence _
  | cons link rest ih =>
    rcases hspelled link List.mem_cons_self with ⟨hkind, hop⟩
    have hnot : ¬ link.token.kind = .rightBracket := by simp [hkind]
    simp only [List.map_cons, List.cons_append, Yard.settleTighter, hnot, if_false,
      operatorOrFault_eq_ok hop, bind, Except.bind, absorb]
    by_cases hlower : link.operator.precedence ≤ precedence
    · have hstays : link.precedence ≤ precedence := hlower
      simp [hlower, hstays]
    · have hmoves : ¬ link.precedence ≤ precedence := hlower
      have hrest := ih (fun other hother => hspelled other (List.mem_cons_of_mem link hother))
        (.binary link.operator link.token first link.operand)
      simpa [hlower, hmoves, spread, polish] using hrest

/-- A token that can be an operand is settled at once. -/
theorem place_operand {token : Token} (hoperand : token.isOperand = true) (yard : Yard) :
    yard.place token = .ok { yard with settled := token :: yard.settled } := by
  unfold Yard.place
  cases hkind : token.kind <;> simp_all [Token.isOperand, TokenKind.isLiteral]

mutual

/-- Taking up the tokens of a term settles its tree and leaves what waits. -/
theorem IsTerm.ofTokens {tokens : List Token} {expr : Expr} {rest settled waiting : List Token}
    (hrest : Yard.ofTokens rest = .ok ⟨settled, waiting⟩) :
    IsTerm tokens expr →
      Yard.ofTokens (tokens ++ rest) = .ok ⟨expr.polish ++ settled, waiting⟩
  | .operand hoperand => by
    simp [Yard.ofTokens, hrest, bind, Except.bind, place_operand hoperand, polish]
  | .prefixed hkind hop hterm => by
    have hoperand := hterm.ofTokens hrest
    simp [Yard.ofTokens, hoperand, bind, Except.bind, Yard.place, hkind, polish]
  | @IsTerm.group opening closing inner first _ links hopening hclosing hchain hresolves => by
    have hclosed : Yard.ofTokens (closing :: rest) = .ok ⟨settled, closing :: waiting⟩ := by
      simp [Yard.ofTokens, hrest, bind, Except.bind, Yard.place, hclosing]
    have hfenced : Fenced (closing :: waiting) := by
      intro top htop
      rcases Option.mem_some.1 htop with rfl
      exact hclosing
    have hinner := hchain.ofTokens hfenced hclosed
    have hgroup := closeGroup_links hchain.spelled_arrange hclosing first
      settled waiting
    rw [hresolves.finish_arrange] at hgroup
    rw [List.cons_append, List.append_assoc, List.singleton_append, Yard.ofTokens, hinner]
    simpa [bind, Except.bind, Yard.place, hopening] using hgroup

/-- Taking up the tokens of a chain settles its operands; its waiting links wait
in front of the enclosing group. -/
theorem IsChain.ofTokens {tokens : List Token} {first : Expr} {links : List Link}
    {rest settled waiting : List Token} (hfenced : Fenced waiting)
    (hrest : Yard.ofTokens rest = .ok ⟨settled, waiting⟩) :
    IsChain tokens first links →
      Yard.ofTokens (tokens ++ rest) =
        .ok ⟨first.polish ++ (spread (arrange links) ++ settled),
          (arrange links).map Link.token ++ waiting⟩
  | .single hterm => by
    simpa [arrange, spread] using hterm.ofTokens hrest
  | @IsChain.link token op front others _ second links hkind hop hterm hchain => by
    have hothers := hchain.ofTokens hfenced hrest
    have hjoined := settleTighter_links hchain.spelled_arrange hfenced
      op.precedence second settled
    have hoperator : Yard.ofTokens (token :: others ++ rest) =
        .ok ⟨spread (arrange (⟨op, token, second⟩ :: links)) ++ settled,
          (arrange (⟨op, token, second⟩ :: links)).map Link.token ++ waiting⟩ := by
      simp only [List.cons_append, Yard.ofTokens, hothers, bind, Except.bind, Yard.place, hkind,
        operatorOrFault_eq_ok hop, hjoined]
      simp [arrange, spread, Link.precedence]
    have hwhole := hterm.ofTokens hoperator
    simpa using hwhole

end

/-! ## The tree of a token list -/

/-- The Polish order of a token list is that of its reference tree. -/
theorem polish_of_isExpression {tokens : List Token} {expr : Expr}
    (hexpr : IsExpression tokens expr) : Yard.polish tokens = .ok expr.polish := by
  rcases hexpr with ⟨first, links, hchain, hresolves⟩
  have hfenced : Fenced [] := by
    intro top htop
    cases htop
  have hempty : Yard.ofTokens [] = .ok ⟨[], []⟩ := rfl
  have hyard := hchain.ofTokens hfenced hempty
  rw [List.append_nil, List.append_nil, List.append_nil] at hyard
  have hsettled := settleAll_links hchain.spelled_arrange first
  rw [hresolves.finish_arrange] at hsettled
  rw [Yard.polish, hyard]
  exact hsettled

/-- A token list in whose Polish order a tree is read has that tree. -/
theorem ofTokens_of_polish {tokens : List Token} {expr : Expr} (hspelled : expr.Spelled)
    (horder : Yard.polish tokens = .ok expr.polish) : Expr.ofTokens tokens = .ok expr := by
  have hread := ofPolish_polish hspelled (malformedAt tokens) (Nat.le_refl _) []
  rw [List.append_nil] at hread
  rw [Expr.ofTokens, horder]
  simp only [bind, Except.bind, hread]
  rfl

/-- The tree of a token list is its reference tree. -/
theorem ofTokens_of_isExpression {tokens : List Token} {expr : Expr}
    (hexpr : IsExpression tokens expr) : Expr.ofTokens tokens = .ok expr := by
  have horder := polish_of_isExpression hexpr
  rcases hexpr with ⟨first, links, hchain, hresolves⟩
  have hspelled := hresolves.spelled hchain.spelled.1 hchain.spelled.2
  exact ofTokens_of_polish hspelled horder

/-- A token list of the grammar whose operators are known has a tree, and this is
its one and only reference tree. -/
theorem exists_ofTokens_eq_reference (tokens : List Token)
    (hderives : Grammar.Derives .expression (tokens.map Token.kind))
    (hknown : ∀ token ∈ tokens, token.Known) :
    ∃ expr, Expr.ofTokens tokens = .ok expr ∧
      ∀ other, IsExpression tokens other ↔ other = expr := by
  rcases exists_isExpression hderives hknown with ⟨expr, hexpr⟩
  have htree := ofTokens_of_isExpression hexpr
  refine ⟨expr, htree, ?_⟩
  intro other
  constructor
  · intro hother
    rw [ofTokens_of_isExpression hother] at htree
    exact Except.ok.inj htree
  · rintro rfl
    exact hexpr

/-- The tokens of `a - !b * (c - d) - e`. -/
def mixedChain : List Token :=
  [⟨.identifier, "a", 1, 1, 0, 1⟩, ⟨.binaryOperator, "-", 1, 3, 2, 3⟩,
    ⟨.unaryOperator, "!", 1, 5, 4, 5⟩, ⟨.identifier, "b", 1, 6, 5, 6⟩,
    ⟨.binaryOperator, "*", 1, 8, 7, 8⟩, ⟨.leftBracket, "(", 1, 10, 9, 10⟩,
    ⟨.identifier, "c", 1, 11, 10, 11⟩, ⟨.binaryOperator, "-", 1, 13, 12, 13⟩,
    ⟨.identifier, "d", 1, 15, 14, 15⟩, ⟨.rightBracket, ")", 1, 16, 15, 16⟩,
    ⟨.binaryOperator, "-", 1, 18, 17, 18⟩, ⟨.identifier, "e", 1, 20, 19, 20⟩]

/-- The tree of `(a - (!b * (c - d))) - e`. -/
def mixedTree : Expr :=
  .binary .subtraction ⟨.binaryOperator, "-", 1, 18, 17, 18⟩
    (.binary .subtraction ⟨.binaryOperator, "-", 1, 3, 2, 3⟩
      (.leaf ⟨.identifier, "a", 1, 1, 0, 1⟩)
      (.binary .multiplication ⟨.binaryOperator, "*", 1, 8, 7, 8⟩
        (.unary .not ⟨.unaryOperator, "!", 1, 5, 4, 5⟩ (.leaf ⟨.identifier, "b", 1, 6, 5, 6⟩))
        (.binary .subtraction ⟨.binaryOperator, "-", 1, 13, 12, 13⟩
          (.leaf ⟨.identifier, "c", 1, 11, 10, 11⟩) (.leaf ⟨.identifier, "d", 1, 15, 14, 15⟩))))
    (.leaf ⟨.identifier, "e", 1, 20, 19, 20⟩)

/-- In a chain with a prefix operator and a group, the product binds tighter than the
differences around it, and these are taken from the left. -/
theorem exists_ofTokens_mixedChain :
    Expr.ofTokens mixedChain = .ok mixedTree ∧
      ∀ other, IsExpression mixedChain other ↔ other = mixedTree := by
  have hname : Grammar.Derives .term [.identifier] := .bare .identifier
  have hinner : Grammar.Derives .expression [.identifier, .binaryOperator, .identifier] :=
    .chain hname (.single hname)
  have hgroup : Grammar.Derives .term
      [.leftBracket, .identifier, .binaryOperator, .identifier, .rightBracket] :=
    .bare (.group hinner)
  have htail : Grammar.Derives .expression
      [.leftBracket, .identifier, .binaryOperator, .identifier, .rightBracket,
        .binaryOperator, .identifier] := .chain hgroup (.single hname)
  have hderives : Grammar.Derives .expression (mixedChain.map Token.kind) :=
    .chain hname (.chain (.prefixed hname) htail)
  have htree : Expr.ofTokens mixedChain = .ok mixedTree := rfl
  rcases exists_ofTokens_eq_reference mixedChain hderives (by decide) with ⟨expr, hexpr, honly⟩
  rw [htree] at hexpr
  cases hexpr
  exact ⟨htree, honly⟩

/-- Each of the operators in this chain binds tighter than the one in front of it. -/
example :
    let name (text : String) : Token := ⟨.identifier, text, 0, 0, 0, 0⟩
    let sign (text : String) : Token := ⟨.binaryOperator, text, 0, 0, 0, 0⟩
    Expr.ofTokens [name "a", sign "=", name "b", sign "&", name "c", sign "+", name "d",
        sign "*", name "e"] =
      .ok (.binary .equality (sign "=") (.leaf (name "a"))
        (.binary .and (sign "&") (.leaf (name "b"))
          (.binary .addition (sign "+") (.leaf (name "c"))
            (.binary .multiplication (sign "*") (.leaf (name "d")) (.leaf (name "e")))))) :=
  rfl

end Expr

end LoopLang
