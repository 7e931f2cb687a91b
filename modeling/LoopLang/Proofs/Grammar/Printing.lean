import LoopLang.Proofs.Grammar.Formed
import LoopLang.Proofs.Token.Spelling
import LoopLang.Proofs.Token.StringLiteral

/-!
# The tokens of printed programs

A printed tree is read as the tokens of the tree, with the words, signs and
brackets that its form asks for.  No two of them run together: the printed text
has a blank or a sign after every word and every number.

Main definitions:

- `Expr.unplaced`, `Program.unplaced`: a tree without places and quotations.
- `Expr.printed`, `Program.printed`: the tokens of a printed tree, without
  places.
- `Token.Legible`: a token whose printed form is read as the token.

Main results:

- Theorem `Program.text_unplaced`: the printed form does not depend on places and
  quotations.
- Theorem `Token.legible_of_mem`: the tokens of a source are legible, if the
  characters of string literals are faithful.
- Theorem `Program.gives_text`: a printed program gives its printed tokens.
-/

namespace LoopLang

open Lexeme (Separates separates_cons)

open Scan (Gives)

/-! ## Trees without places -/

/-- An expression without places. -/
def Expr.unplaced : Expr → Expr
  | leaf token => leaf token.unplaced
  | unary op token operand => unary op token.unplaced operand.unplaced
  | binary op token left right => binary op token.unplaced left.unplaced right.unplaced

mutual

/-- A statement without places and without the quotations of its assertions. -/
def Stmt.unplaced : Stmt → Stmt
  | .declare name typeToken ty initial =>
    .declare name.unplaced typeToken.unplaced ty (initial.map Expr.unplaced)
  | .assign name value => .assign name.unplaced value.unplaced
  | .loop counter first last body =>
    .loop counter.unplaced first.unplaced last.unplaced (Program.unplaced body)
  | .print value => .print value.unplaced
  | .read name => .read name.unplaced
  | .assert keyword condition _ => .assert keyword.unplaced condition.unplaced ""

/-- A list of statements without places and quotations. -/
def Program.unplaced : List Stmt → List Stmt
  | [] => []
  | stmt :: rest => stmt.unplaced :: Program.unplaced rest

end

/-- Leaving out places makes no expression a leaf. -/
theorem Expr.isLeaf_unplaced (expr : Expr) : expr.unplaced.isLeaf = expr.isLeaf := by
  cases expr <;> rfl

/-- The printed form of an expression does not depend on places. -/
@[simp]
theorem Expr.text_unplaced (expr : Expr) : expr.unplaced.text = expr.text := by
  induction expr with
  | leaf token => rfl
  | unary op token operand ih => simp only [unplaced, text, asOperand, isLeaf_unplaced, ih]
  | binary op token left right ihleft ihright =>
    simp only [unplaced, text, asOperand, isLeaf_unplaced, ihleft, ihright]

mutual

/-- A statement is printed without its places. -/
theorem Stmt.text_unplaced : ∀ stmt : Stmt, stmt.unplaced.text = stmt.text
  | .declare name typeToken ty none => by simp [Stmt.unplaced, Stmt.text]
  | .declare name typeToken ty (some value) => by simp [Stmt.unplaced, Stmt.text]
  | .assign name value => by simp [Stmt.unplaced, Stmt.text]
  | .loop counter first last body => by
    simp [Stmt.unplaced, Stmt.text, Program.text_unplaced body]
  | .print value => by simp [Stmt.unplaced, Stmt.text]
  | .read name => by simp [Stmt.unplaced, Stmt.text]
  | .assert keyword condition quotation => by simp [Stmt.unplaced, Stmt.text]

/-- The printed form of a program does not depend on places and quotations. -/
theorem Program.text_unplaced :
    ∀ program : List Stmt, Program.text (Program.unplaced program) = Program.text program
  | [] => by simp [Program.unplaced]
  | stmt :: rest => by
    simp [Program.unplaced, Program.text, stmt.text_unplaced, Program.text_unplaced rest]

end

/-! ## Printed tokens -/

/-- The tokens of an operand: brackets go around them unless it is a leaf. -/
def Expr.bracketed (operand : Expr) (tokens : List Token) : List Token :=
  if operand.isLeaf then tokens
  else .bare .leftBracket "(" :: (tokens ++ [.bare .rightBracket ")"])

/-- The tokens of a printed expression. -/
def Expr.printed : Expr → List Token
  | leaf token => [token.unplaced]
  | unary _ token operand => token.unplaced :: operand.bracketed operand.printed
  | binary _ token left right =>
    left.bracketed left.printed ++ token.unplaced :: right.bracketed right.printed

mutual

/-- The tokens of a printed statement. -/
def Stmt.printed : Stmt → List Token
  | .declare name typeToken _ none =>
    [.bare .varKeyword "var", name.unplaced, .bare .colon ":", typeToken.unplaced]
  | .declare name typeToken _ (some value) =>
    .bare .varKeyword "var" :: name.unplaced :: .bare .colon ":" :: typeToken.unplaced ::
      .bare .assignment ":=" :: value.printed
  | .assign name value => name.unplaced :: .bare .assignment ":=" :: value.printed
  | .loop counter first last body =>
    .bare .forKeyword "for" :: counter.unplaced :: .bare .inKeyword "in" ::
      (first.printed ++ .bare .range ".." :: (last.printed ++ .bare .doKeyword "do" ::
        (Program.printed body ++ [.bare .endKeyword "end", .bare .forKeyword "for"])))
  | .print value => .bare .printKeyword "print" :: value.printed
  | .read name => [.bare .readKeyword "read", name.unplaced]
  | .assert _ condition _ =>
    .bare .assertKeyword "assert" :: .bare .leftBracket "(" ::
      (condition.printed ++ [.bare .rightBracket ")"])

/-- The tokens of a printed list of statements. -/
def Program.printed : List Stmt → List Token
  | [] => []
  | stmt :: rest => stmt.printed ++ .bare .semicolon ";" :: Program.printed rest

end

/-! ## Legible tokens -/

/-- A token whose printed form is read as the token.  Nothing is asked of a colon,
which before an equals sign is read as an assignment sign. -/
structure Token.Legible (token : Token) : Prop where
  scanned : token.Scanned
  gives : token.kind ≠ .colon → ∀ {rest : List Char}, Separates rest →
    Gives (Expr.leaf token).text.toList rest [token.unplaced]
  /-- The word of an assertion is printed in its only spelling. -/
  assertion : token.kind = .assertKeyword → token.text = "assert"

namespace Token

/-- The tokens of a source are legible, string literals with an unfaithful character
apart. -/
theorem legible_of_mem {source : String} {token : Token}
    (htoken : token ∈ (TokenStream.ofSource source).pending)
    (hfaithful : token.kind = .stringLiteral → ∀ c ∈ token.text.toList, Quoted.Faithful c) :
    token.Legible := by
  refine ⟨TokenStream.scanned_ofSource source token htoken, ?_, ?_⟩
  · intro hcolon rest hrest
    rw [Expr.text]
    split
    · next hstring =>
      rw [Quoted.string, String.toList_ofList]
      exact Scan.gives_quoted_of_faithful hstring (hfaithful hstring) rest
    · next hstring =>
      exact Scan.gives_of_mem_tokens htoken hstring hrest fun hkind => absurd hkind hcolon
  · intro hkind
    have hword : ("assert", token.kind) ∈ Lexeme.keywords := by
      rw [hkind]
      decide
    have hmem : (token.text, token.kind) ∈ Lexeme.keywords :=
      Scan.mem_keywords_of_mem_tokens htoken hword
    simpa [Lexeme.keywords, hkind] using hmem

/-- A legible token other than a string literal is read from its own text. -/
theorem Legible.gives_text {token : Token} (hlegible : token.Legible)
    (hkind : token.kind ∉ [TokenKind.stringLiteral, TokenKind.colon]) {rest : List Char}
    (hrest : Separates rest) : Gives token.text.toList rest [token.unplaced] := by
  simp only [List.mem_cons, List.not_mem_nil, or_false, not_or] at hkind
  have hgives := hlegible.gives hkind.2 hrest
  rwa [Expr.text, if_neg hkind.1] at hgives

/-- A legible name is read from its own text. -/
theorem Legible.gives_name {token : Token} (hlegible : token.Legible)
    (hkind : token.kind = .identifier) {rest : List Char} (hrest : Separates rest) :
    Gives token.text.toList rest [token.unplaced] := by
  exact hlegible.gives_text (by simp [hkind]) hrest

theorem Legible.gives_type {token : Token} {ty : Ty} (hlegible : token.Legible)
    (hty : token.kind.namedType? = some ty) {rest : List Char} (hrest : Separates rest) :
    Gives token.text.toList rest [token.unplaced] := by
  refine hlegible.gives_text ?_ hrest
  intro hother
  simp only [List.mem_cons, List.not_mem_nil, or_false] at hother
  rcases hother with hkind | hkind <;> rw [hkind] at hty <;> cases hty

/-- The negation is read before every text. -/
theorem Legible.gives_negation {token : Token} {op : Operator} (hlegible : token.Legible)
    (hkind : token.kind = .unaryOperator) (hop : token.operator? = some op) (rest : List Char) :
    Gives op.lexeme.toList rest [token.unplaced] := by
  have hnot : op = .not := by
    rw [hlegible.scanned.unary hkind] at hop
    exact (Option.some.inj hop).symm
  rw [unplaced, ← lexeme_of_operator? hop, hkind, hnot]
  exact Scan.gives_simple rfl rest

end Token

/-! ## Printed expressions -/

namespace Expr

/-- An operand gives its tokens if the expression does. -/
theorem gives_asOperand {operand : Expr} {rest : List Char}
    (htext : ∀ {others : List Char}, Separates others →
      Gives operand.text.toList others operand.printed)
    (hrest : Separates rest) :
    Gives (operand.asOperand operand.text).toList rest (operand.bracketed operand.printed) := by
  unfold asOperand bracketed
  split
  · exact htext hrest
  · rw [String.toList_append, String.toList_append, List.append_assoc]
    refine (Scan.gives_simple rfl _).append ((htext (separates_cons rfl _)).append ?_)
    exact Scan.gives_simple rfl rest

/-- A printed expression gives its printed tokens. -/
theorem gives_text {expr : Expr} (hspelled : expr.Spelled)
    (hlegible : ∀ token ∈ expr.tokens, token.Legible) {rest : List Char}
    (hrest : Separates rest) : Gives expr.text.toList rest expr.printed := by
  induction expr generalizing rest with
  | leaf token =>
    have hcolon : token.kind ≠ .colon := by
      intro hkind
      simp [Spelled, Token.isOperand, hkind, TokenKind.isLiteral] at hspelled
    exact (hlegible token (List.mem_singleton_self token)).gives hcolon hrest
  | unary op token operand ih =>
    rcases hspelled with ⟨hkind, hop, hoperand⟩
    rcases List.forall_mem_cons.1 hlegible with ⟨hlegibleToken, hlegible⟩
    rw [text, String.toList_append]
    refine (hlegibleToken.gives_negation hkind hop _).append ?_
    exact gives_asOperand (ih hoperand hlegible) hrest
  | binary op token left right ihleft ihright =>
    rcases hspelled with ⟨hkind, hop, hleft, hright⟩
    simp only [tokens, List.forall_mem_append, List.forall_mem_cons] at hlegible
    rcases hlegible with ⟨hlegibleLeft, hlegibleToken, hlegibleRight⟩
    have hother : token.kind ∉ [TokenKind.stringLiteral, TokenKind.colon] := by simp [hkind]
    simp only [text, String.toList_append, List.append_assoc, Token.lexeme_of_operator? hop]
    refine (gives_asOperand (ihleft hleft hlegibleLeft) (separates_cons rfl _)).append ?_
    refine .space (.cons (hlegibleToken.gives_text hother (separates_cons rfl _)) ?_)
    exact .space (gives_asOperand (ihright hright hlegibleRight) hrest)

end Expr

/-! ## Printed statements -/

namespace Scan

/-- A keyword and a blank after it. -/
theorem gives_keyword_blank {text word : String} {kind : TokenKind} {c : Char}
    (hword : (word, kind) ∈ Lexeme.keywords) (hblank : Lexeme.isBlank c = true)
    (htext : text.toList = word.toList ++ [c]) (rest : List Char) :
    Gives text.toList rest [.bare kind word] := by
  have hends : Lexeme.endsWord c = true := by simp [Lexeme.endsWord, hblank]
  rw [htext]
  exact .cons (gives_keyword hword (separates_cons hends rest)) (.blank hblank (.nil rest))

/-- A keyword between two blanks. -/
theorem gives_spaced_keyword {text word : String} {kind : TokenKind} {c : Char}
    (hword : (word, kind) ∈ Lexeme.keywords) (hblank : Lexeme.isBlank c = true)
    (htext : text.toList = ' ' :: (word.toList ++ [c])) (rest : List Char) :
    Gives text.toList rest [.bare kind word] := by
  have hkeyword : Gives (word ++ String.singleton c).toList rest [.bare kind word] :=
    gives_keyword_blank hword hblank (by simp) rest
  rw [String.toList_append, String.toList_singleton] at hkeyword
  rw [htext]
  exact hkeyword.blank rfl

/-- The colon of a declaration is printed between spaces. -/
theorem gives_spaced_colon (rest : List Char) : Gives " : ".toList rest [.bare .colon ":"] :=
  .blank rfl (.cons (gives_colon rest) (.blank rfl (.nil rest)))

theorem gives_spaced_assignment (rest : List Char) :
    Gives " := ".toList rest [.bare .assignment ":="] :=
  .blank rfl (.cons (gives_assignment _) (.blank rfl (.nil rest)))

/-- The word of an assertion is printed in front of its bracket. -/
theorem gives_assert_bracket (rest : List Char) :
    Gives "assert (".toList rest [.bare .assertKeyword "assert", .bare .leftBracket "("] := by
  have hkeyword : Gives "assert ".toList (['('] ++ rest) [.bare .assertKeyword "assert"] :=
    gives_keyword_blank (by decide) rfl rfl _
  exact hkeyword.cons (gives_simple rfl rest)

/-- A loop is printed with both of its last words. -/
theorem gives_end_for {rest : List Char} (hrest : Separates rest) :
    Gives "end for".toList rest [.bare .endKeyword "end", .bare .forKeyword "for"] := by
  have hkeyword : Gives "end ".toList ("for".toList ++ rest) [.bare .endKeyword "end"] :=
    gives_keyword_blank (by decide) rfl rfl _
  exact hkeyword.cons (gives_keyword (by decide) hrest)

theorem gives_semicolon (rest : List Char) : Gives ";\n".toList rest [.bare .semicolon ";"] :=
  .cons (gives_simple rfl _) (.blank rfl (.nil rest))

end Scan

mutual

/-- A printed statement gives its printed tokens. -/
theorem Stmt.gives_text : ∀ {stmt : Stmt}, stmt.Formed →
    (∀ token ∈ stmt.tokens, token.Legible) → ∀ {rest : List Char}, Separates rest →
      Gives stmt.text.toList rest stmt.printed
  | .declare name typeToken ty none, hformed, hlegible, rest, hrest => by
    rcases hformed with ⟨hname, hty, -⟩
    simp only [Stmt.tokens, List.forall_mem_cons] at hlegible
    simp only [Stmt.text, String.toList_append, List.append_assoc]
    refine .cons (Scan.gives_keyword_blank (by decide) rfl rfl _) ?_
    refine .cons (hlegible.1.gives_name hname (separates_cons rfl _)) ?_
    refine .cons (Scan.gives_spaced_colon _) ?_
    exact hlegible.2.1.gives_type hty hrest
  | .declare name typeToken ty (some value), hformed, hlegible, rest, hrest => by
    rcases hformed with ⟨hname, hty, hvalue⟩
    simp only [Stmt.tokens, List.forall_mem_cons] at hlegible
    simp only [Stmt.text, String.toList_append, List.append_assoc]
    refine .cons (Scan.gives_keyword_blank (by decide) rfl rfl _) ?_
    refine .cons (hlegible.1.gives_name hname (separates_cons rfl _)) ?_
    refine .cons (Scan.gives_spaced_colon _) ?_
    refine .cons (hlegible.2.1.gives_type hty (separates_cons rfl _)) ?_
    refine .cons (Scan.gives_spaced_assignment _) ?_
    exact Expr.gives_text (hvalue value rfl) hlegible.2.2 hrest
  | .assign name value, hformed, hlegible, rest, hrest => by
    rcases hformed with ⟨hname, hvalue⟩
    simp only [Stmt.tokens, List.forall_mem_cons] at hlegible
    simp only [Stmt.text, String.toList_append, List.append_assoc]
    refine .cons (hlegible.1.gives_name hname (separates_cons rfl _)) ?_
    refine .cons (Scan.gives_spaced_assignment _) ?_
    exact Expr.gives_text hvalue hlegible.2 hrest
  | .loop counter first last body, hformed, hlegible, rest, hrest => by
    rcases hformed with ⟨hcounter, hfirst, hlast, hbody⟩
    simp only [Stmt.tokens, List.forall_mem_cons, List.forall_mem_append] at hlegible
    rcases hlegible with ⟨hlegible, hlegibleFirst, hlegibleLast, hlegibleBody⟩
    simp only [Stmt.text, String.toList_append, List.append_assoc]
    refine .cons (Scan.gives_keyword_blank (by decide) rfl rfl _) ?_
    refine .cons (hlegible.gives_name hcounter (separates_cons rfl _)) ?_
    refine .cons (Scan.gives_spaced_keyword (by decide) rfl rfl _) ?_
    refine (Expr.gives_text hfirst hlegibleFirst (separates_cons rfl _)).append ?_
    refine .cons (Scan.gives_range _) ?_
    refine (Expr.gives_text hlast hlegibleLast (separates_cons rfl _)).append ?_
    refine .cons (Scan.gives_spaced_keyword (by decide) rfl rfl _) ?_
    exact (Program.gives_text hbody hlegibleBody _).append (Scan.gives_end_for hrest)
  | .print value, hformed, hlegible, rest, hrest => by
    simp only [Stmt.tokens] at hlegible
    simp only [Stmt.text, String.toList_append]
    refine .cons (Scan.gives_keyword_blank (by decide) rfl rfl _) ?_
    exact Expr.gives_text hformed hlegible hrest
  | .read name, hformed, hlegible, rest, hrest => by
    simp only [Stmt.tokens, List.forall_mem_cons] at hlegible
    simp only [Stmt.text, String.toList_append]
    refine .cons (Scan.gives_keyword_blank (by decide) rfl rfl _) ?_
    exact hlegible.1.gives_name hformed hrest
  | .assert keyword condition quotation, hformed, hlegible, rest, hrest => by
    rcases hformed with ⟨-, hcondition⟩
    simp only [Stmt.tokens, List.forall_mem_cons] at hlegible
    simp only [Stmt.text, String.toList_append, List.append_assoc]
    refine (Scan.gives_assert_bracket _).append ?_
    refine (Expr.gives_text hcondition hlegible.2 (separates_cons rfl _)).append ?_
    exact Scan.gives_simple rfl rest

/-- A printed program gives its printed tokens. -/
theorem Program.gives_text : ∀ {program : List Stmt}, Program.Formed program →
    (∀ token ∈ Program.tokens program, token.Legible) → ∀ rest : List Char,
      Gives (Program.text program).toList rest (Program.printed program)
  | [], _, _, rest => .nil rest
  | stmt :: others, hformed, hlegible, rest => by
    simp only [Program.tokens, List.forall_mem_append] at hlegible
    simp only [Program.text, String.toList_append, List.append_assoc]
    refine (Stmt.gives_text hformed.1 hlegible.1 (separates_cons rfl _)).append ?_
    refine .cons (Scan.gives_semicolon _) ?_
    exact Program.gives_text hformed.2 hlegible.2 rest

end

end LoopLang
