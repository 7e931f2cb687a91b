import LoopLang.Proofs.Expr.Reference
import LoopLang.Stmt
import LoopLang.Text.Source

/-!
# Trees of derivations

The tokens of statements with the trees they stand for.  Each rule names its
tokens one by one, so that a tree has all tokens of its derivation, in their
order and each at its place.

Main definitions:

- `IsStatement`, `IsProgram`: the tokens of a statement and of a list of
  statements, with their trees.

Main results:

- Theorem `IsProgram.derives`: the tokens of a tree derive from the grammar.
- Theorem `exists_isProgram`: tokens that derive from the grammar have a tree if
  their operators are known.
-/

namespace LoopLang

namespace Grammar

/-- The source text from the first to the last of the tokens. -/
def quotation (source : String) (tokens : List Token) : String :=
  (Source.slice? source (tokens.headD .missing).start (tokens.getLastD .missing).stop).getD ""

mutual

/-- The tokens of a statement and its tree. -/
inductive IsStatement (source : String) : List Token → Stmt → Prop where
  | declaration {keyword name colon typeToken : Token} {ty : Ty}
      (hkeyword : keyword.kind = .varKeyword) (hname : name.kind = .identifier)
      (hcolon : colon.kind = .colon) (hty : typeToken.kind.namedType? = some ty) :
      IsStatement source [keyword, name, colon, typeToken] (.declare name typeToken ty none)
  | initialised {keyword name colon typeToken sign : Token} {ty : Ty} {tokens : List Token}
      {value : Expr} (hkeyword : keyword.kind = .varKeyword) (hname : name.kind = .identifier)
      (hcolon : colon.kind = .colon) (hty : typeToken.kind.namedType? = some ty)
      (hsign : sign.kind = .assignment) (hvalue : Expr.IsExpression tokens value) :
      IsStatement source (keyword :: name :: colon :: typeToken :: sign :: tokens)
        (.declare name typeToken ty (some value))
  | assignment {name sign : Token} {tokens : List Token} {value : Expr}
      (hname : name.kind = .identifier) (hsign : sign.kind = .assignment)
      (hvalue : Expr.IsExpression tokens value) :
      IsStatement source (name :: sign :: tokens) (.assign name value)
  | loop {keyword counter inWord range doWord endWord forWord : Token}
      {firstTokens lastTokens bodyTokens : List Token} {first last : Expr} {body : Program}
      (hkeyword : keyword.kind = .forKeyword) (hcounter : counter.kind = .identifier)
      (hin : inWord.kind = .inKeyword) (hfirst : Expr.IsExpression firstTokens first)
      (hrange : range.kind = .range) (hlast : Expr.IsExpression lastTokens last)
      (hdo : doWord.kind = .doKeyword) (hbody : IsProgram source bodyTokens body)
      (hend : endWord.kind = .endKeyword) (hfor : forWord.kind = .forKeyword) :
      IsStatement source (keyword :: counter :: inWord :: (firstTokens ++ range ::
        (lastTokens ++ doWord :: (bodyTokens ++ [endWord, forWord]))))
        (.loop counter first last body)
  | read {keyword name : Token} (hkeyword : keyword.kind = .readKeyword)
      (hname : name.kind = .identifier) : IsStatement source [keyword, name] (.read name)
  | print {keyword : Token} {tokens : List Token} {value : Expr}
      (hkeyword : keyword.kind = .printKeyword) (hvalue : Expr.IsExpression tokens value) :
      IsStatement source (keyword :: tokens) (.print value)
  | assertion {keyword opening closing : Token} {tokens : List Token} {condition : Expr}
      (hkeyword : keyword.kind = .assertKeyword) (hopening : opening.kind = .leftBracket)
      (hcondition : Expr.IsExpression tokens condition) (hclosing : closing.kind = .rightBracket) :
      IsStatement source (keyword :: opening :: (tokens ++ [closing]))
        (.assert keyword condition (quotation source tokens))

/-- The tokens of a list of statements and its trees. -/
inductive IsProgram (source : String) : List Token → Program → Prop where
  | empty : IsProgram source [] []
  | last {tokens : List Token} {stmt : Stmt} (hstmt : IsStatement source tokens stmt) :
      IsProgram source tokens [stmt]
  | separated {separator : Token} {tokens rest : List Token} {stmt : Stmt} {program : Program}
      (hstmt : IsStatement source tokens stmt) (hseparator : separator.kind = .semicolon)
      (hrest : IsProgram source rest program) :
      IsProgram source (tokens ++ separator :: rest) (stmt :: program)

end

/-! ## Trees and derivations -/

/-- The categories of type keywords are those that name a type. -/
theorem mem_types_iff {kind : TokenKind} : kind ∈ types ↔ ∃ ty, kind.namedType? = some ty := by
  cases kind <;> simp [types, TokenKind.namedType?]

mutual

/-- The tokens of a statement derive from a statement. -/
theorem IsStatement.derives {source : String} {tokens : List Token} {stmt : Stmt} :
    IsStatement source tokens stmt → Derives .statement (tokens.map Token.kind)
  | .declaration hkeyword hname hcolon hty => by
    simp only [List.map_cons, List.map_nil, hkeyword, hname, hcolon]
    exact .declaration (mem_types_iff.2 ⟨_, hty⟩)
  | .initialised hkeyword hname hcolon hty hsign hvalue => by
    simp only [List.map_cons, hkeyword, hname, hcolon, hsign]
    exact .initialised (mem_types_iff.2 ⟨_, hty⟩) hvalue.derives
  | .assignment hname hsign hvalue => by
    simp only [List.map_cons, hname, hsign]
    exact .assignment hvalue.derives
  | .loop hkeyword hcounter hin hfirst hrange hlast hdo hbody hend hfor => by
    simp only [List.map_cons, List.map_append, List.map_nil, hkeyword, hcounter, hin, hrange, hdo,
      hend, hfor]
    exact .loop hfirst.derives hlast.derives hbody.derives
  | .read hkeyword hname => by
    simp only [List.map_cons, List.map_nil, hkeyword, hname]
    exact .read
  | .print hkeyword hvalue => by
    simp only [List.map_cons, hkeyword]
    exact .print hvalue.derives
  | .assertion hkeyword hopening hcondition hclosing => by
    simp only [List.map_cons, List.map_append, List.map_nil, hkeyword, hopening, hclosing]
    exact .assertion hcondition.derives

/-- The tokens of a list of statements derive from statements. -/
theorem IsProgram.derives {source : String} {tokens : List Token} {program : Program} :
    IsProgram source tokens program → Derives .statements (tokens.map Token.kind)
  | .empty => .empty
  | .last hstmt => .last hstmt.derives
  | .separated hstmt hseparator hrest => by
    simp only [List.map_append, List.map_cons, hseparator]
    exact .separated hstmt.derives hrest.derives

end

/-- What a phrase outside of expressions has to give for its tokens. -/
def HasTree (source : String) (tokens : List Token) : Phrase → Prop
  | .statements => ∃ program, IsProgram source tokens program
  | .statement => ∃ stmt, IsStatement source tokens stmt
  | .expression | .term | .operand => True

/-- Tokens that derive from a phrase outside of expressions have a tree if their
operators are known. -/
theorem hasTree_of_derives (source : String) {phrase : Phrase} {kinds : List TokenKind}
    (hderives : Derives phrase kinds) {tokens : List Token}
    (hkinds : tokens.map Token.kind = kinds) (hknown : ∀ token ∈ tokens, token.Known) :
    HasTree source tokens phrase := by
  induction hderives generalizing tokens with
  | empty =>
    rw [List.map_eq_nil_iff.1 hkinds]
    exact ⟨[], .empty⟩
  | last hstmt ih =>
    rcases ih hkinds hknown with ⟨stmt, hstmt⟩
    exact ⟨[stmt], .last hstmt⟩
  | separated hstmt hrest ihstmt ihrest =>
    rcases List.map_eq_append_iff.1 hkinds with ⟨front, others, rfl, hfront, hothers⟩
    rcases List.map_eq_cons_iff.1 hothers with ⟨separator, rest, rfl, hseparator, hrest⟩
    obtain ⟨stmt, hstmt⟩ := ihstmt hfront fun t ht => hknown t (by simp [ht])
    obtain ⟨program, hprogram⟩ := ihrest hrest fun t ht => hknown t (by simp [ht])
    exact ⟨stmt :: program, .separated hstmt hseparator hprogram⟩
  | declaration hty =>
    simp only [List.map_eq_cons_iff, List.map_eq_nil_iff] at hkinds
    obtain ⟨keyword, _, rfl, hkeyword, name, _, rfl, hname, colon, _, rfl, hcolon, typeToken, _,
      rfl, rfl, rfl⟩ := hkinds
    rcases mem_types_iff.1 hty with ⟨ty, hty⟩
    exact ⟨_, .declaration hkeyword hname hcolon hty⟩
  | initialised hty hvalue =>
    simp only [List.map_eq_cons_iff] at hkinds
    obtain ⟨keyword, _, rfl, hkeyword, name, _, rfl, hname, colon, _, rfl, hcolon, typeToken, _,
      rfl, rfl, sign, valueTokens, rfl, hsign, rfl⟩ := hkinds
    rcases mem_types_iff.1 hty with ⟨ty, hty⟩
    obtain ⟨value, hvalue⟩ :=
      Expr.exists_isExpression hvalue fun t ht => hknown t (by simp [ht])
    exact ⟨_, .initialised hkeyword hname hcolon hty hsign hvalue⟩
  | assignment hvalue =>
    simp only [List.map_eq_cons_iff] at hkinds
    rcases hkinds with ⟨name, _, rfl, hname, sign, valueTokens, rfl, hsign, rfl⟩
    obtain ⟨value, hvalue⟩ :=
      Expr.exists_isExpression hvalue fun t ht => hknown t (by simp [ht])
    exact ⟨_, .assignment hname hsign hvalue⟩
  | loop hfirst hlast hbody _ _ ihbody =>
    simp only [List.map_eq_cons_iff, List.map_eq_append_iff, List.map_eq_nil_iff] at hkinds
    obtain ⟨keyword, _, rfl, hkeyword, counter, _, rfl, hcounter, inWord, _, rfl, hin,
      firstTokens, _, rfl, rfl, range, _, rfl, hrange, lastTokens, _, rfl, rfl, doWord, _, rfl, hdo,
      bodyTokens, _, rfl, hbodyKinds, endWord, _, rfl, hend, forWord, _, rfl, hfor, rfl⟩ := hkinds
    obtain ⟨first, hfirst⟩ :=
      Expr.exists_isExpression hfirst fun t ht => hknown t (by simp [ht])
    obtain ⟨last, hlast⟩ :=
      Expr.exists_isExpression hlast fun t ht => hknown t (by simp [ht])
    obtain ⟨body, hbody⟩ := ihbody hbodyKinds fun t ht => hknown t (by simp [ht])
    exact ⟨_, .loop hkeyword hcounter hin hfirst hrange hlast hdo hbody hend hfor⟩
  | read =>
    simp only [List.map_eq_cons_iff, List.map_eq_nil_iff] at hkinds
    rcases hkinds with ⟨keyword, _, rfl, hkeyword, name, _, rfl, hname, rfl⟩
    exact ⟨_, .read hkeyword hname⟩
  | print hvalue =>
    rcases List.map_eq_cons_iff.1 hkinds with ⟨keyword, valueTokens, rfl, hkeyword, rfl⟩
    obtain ⟨value, hvalue⟩ :=
      Expr.exists_isExpression hvalue fun t ht => hknown t (by simp [ht])
    exact ⟨_, .print hkeyword hvalue⟩
  | assertion hcondition =>
    simp only [List.map_eq_cons_iff, List.map_eq_append_iff, List.map_eq_nil_iff] at hkinds
    obtain ⟨keyword, _, rfl, hkeyword, opening, _, rfl, hopening, conditionTokens, _, rfl, rfl,
      closing, _, rfl, hclosing, rfl⟩ := hkinds
    obtain ⟨condition, hcondition⟩ :=
      Expr.exists_isExpression hcondition fun t ht => hknown t (by simp [ht])
    exact ⟨_, .assertion hkeyword hopening hcondition hclosing⟩
  | single | chain | bare | prefixed | literal | identifier | group => trivial

/-- Tokens that derive from the grammar have a tree if their operators are
known. -/
theorem exists_isProgram (source : String) {tokens : List Token}
    (hderives : Derives .statements (tokens.map Token.kind))
    (hknown : ∀ token ∈ tokens, token.Known) : ∃ program, IsProgram source tokens program :=
  hasTree_of_derives source hderives rfl hknown

end Grammar

end LoopLang
