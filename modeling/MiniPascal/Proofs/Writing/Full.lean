import MiniPascal.Proofs.Tree.Sourced
import MiniPascal.Proofs.Writing.Style
/-! The text of a tree is the tree written with every operation in parentheses. -/

namespace MiniPascal

def Expr.isOperation : Expr → Bool
  | .prefixed _ _ _ | .infixed _ _ _ _ => true
  | _ => false

def Style.full : Style where
  parentheses _ e := e.isOperation
  semicolon
    | .declare _ _ _ _ _ | .assign _ _ | .giveBack _ _ => true
    | _ => false

@[simp]
lemma Style.full_parentheses (position : Position) (e : Expr) :
    full.parentheses position e = e.isOperation :=
  rfl

namespace Lexical

open TokenKind (wordKinds signKinds)

variable {rest : List Char} {us : List Token}

lemma occurs_word {kind : TokenKind} (h : kind ∈ wordKinds) : Occurs kind.written := by
  obtain ⟨⟨word, kind'⟩, hmem, rfl⟩ := List.mem_map.1 h
  have hall : ∀ entry ∈ TokenKind.keywords, TokenKind.ofWord entry.1 = entry.2 ∧
      entry.1.toList ≠ [] ∧ entry.1.toList.all isLetter = true ∧
        entry.1 = entry.2.spelling := by
    decide
  obtain ⟨hkind, hne, hletters, hspelling⟩ := hall _ hmem
  rw [TokenKind.written, ← hspelling]
  exact .word hkind hne (List.all_eq_true.1 hletters)

lemma occurs_sign {kind : TokenKind} (h : kind ∈ signKinds) (hnot : kind ≠ .notWord) :
    Occurs kind.written := by
  have hlegal : ∀ k ∈ signKinds, k ≠ .illegal := by decide
  refine ⟨hlegal kind h, ?_⟩
  rcases List.mem_append.1 h with h | h
  · obtain ⟨⟨x, kind'⟩, hmem, rfl⟩ := List.mem_map.1 h
    have hall : ∀ entry ∈ Cursor.signs, Cursor.signs.lookup entry.1 = some entry.2 ∧
        (entry.2 ≠ .notWord → entry.1.toString = entry.2.spelling) := by
      decide
    obtain ⟨hlookup, hspelling⟩ := hall _ hmem
    refine ⟨[x], [], ?_⟩
    rw [TokenKind.written, ← hspelling hnot]
    exact .sign hlookup nofun
  · obtain ⟨⟨⟨x, y⟩, kind'⟩, hmem, rfl⟩ := List.mem_map.1 h
    have hall : ∀ entry ∈ Cursor.doubleSigns,
        Cursor.doubleSigns.lookup entry.1 = some entry.2 ∧
          String.ofList [entry.1.1, entry.1.2] = entry.2.spelling := by
      decide
    obtain ⟨hlookup, hspelling⟩ := hall _ hmem
    refine ⟨[x, y], [], ?_⟩
    rw [TokenKind.written, ← hspelling]
    exact .doubleSign hlookup

lemma Splits.written (h : Splits rest us) (kind : TokenKind)
    (hkind : kind ∈ wordKinds ∨ kind ∈ signKinds) (hrest : Parted rest) :
    Splits (kind.spelling.toList ++ rest) (kind.written :: us) := by
  have hoccurs : Occurs kind.written := by
    by_cases hword : kind ∈ wordKinds
    · exact occurs_word hword
    · have hsign := hkind.resolve_left hword
      refine occurs_sign hsign ?_
      rintro rfl
      exact hword (by decide)
  have hne : ∀ k, k ∈ wordKinds ∨ k ∈ signKinds → k ≠ .text := by
    rintro k hk rfl
    exact absurd hk (by decide)
  have hsplits := h.token hoccurs hrest
  rwa [Token.characters, if_neg (show kind.written.kind ≠ .text from hne kind hkind)] at hsplits

lemma Splits.named {name : String} (h : Splits rest us) (hrest : Parted rest)
    (hname : Occurs ⟨.identifier, name⟩) :
    Splits (name.toList ++ rest) (⟨.identifier, name⟩ :: us) :=
  h.token hname hrest

lemma Splits.leftParen (h : Splits rest us) :
    Splits ('(' :: rest) (TokenKind.leftParen.written :: us) :=
  h.sign (by decide) (by decide)

lemma Splits.rightParen (h : Splits rest us) :
    Splits (')' :: rest) (TokenKind.rightParen.written :: us) :=
  h.sign (by decide) (by decide)

lemma Splits.comma (h : Splits rest us) :
    Splits (',' :: rest) (TokenKind.comma.written :: us) :=
  h.sign (by decide) (by decide)

lemma Splits.semicolon (h : Splits rest us) :
    Splits (';' :: rest) (TokenKind.semicolon.written :: us) :=
  h.sign (by decide) (by decide)

lemma Splits.minus (h : Splits rest us) :
    Splits ('-' :: rest) (TokenKind.minus.written :: us) :=
  h.sign (by decide) (by decide)

end Lexical

open Lexical (Occurs Parted Splits)

namespace Style

variable {e : Expr} {rest : List Char} {us : List Token}

def Prints (e : Expr) : Prop :=
  ∀ rest us, Parted rest → Splits rest us →
    Splits (e.text.toList ++ rest) (full.expr .whole e ++ us)

def PrintsBlock (b : Block) : Prop :=
  ∀ rest us, Parted rest → Splits rest us → Splits (b.bodyText.toList ++ rest) (full.body b ++ us)

def PrintsStmt (s : Stmt) : Prop :=
  ∀ rest us, Splits rest us →
    Splits (s.text.toList ++ ' ' :: rest) (full.clause s ++ (ending (full.semicolon s) ++ us))

namespace Prints

lemma token {t : Token} (htokens : full.core e = [t]) (hparens : full.parentheses .whole e = false)
    (htext : e.text.toList = t.characters) (ht : Occurs t) : Prints e := by
  intro rest us hrest h
  rw [Style.expr, htokens, hparens, htext]
  exact h.token ht hrest

lemma boolean {lexeme : String} {value : Bool} : Prints (.boolean lexeme value) := by
  cases value with
  | false => exact token rfl rfl rfl (Lexical.occurs_word (by decide))
  | true => exact token rfl rfl rfl (Lexical.occurs_word (by decide))

lemma negate {lexeme : String} {right : Expr} (h : Prints right) :
    Prints (.prefixed lexeme .negate right) := by
  intro rest us _ hrest
  have hright := h _ _ .rightParen hrest.rightParen
  have htext : (Expr.text (.prefixed lexeme .negate right)).toList ++ rest =
      '(' :: '-' :: (right.text.toList ++ ')' :: rest) := by
    simp [Expr.text]
  have htokens : full.expr .whole (.prefixed lexeme .negate right) ++ us =
      TokenKind.leftParen.written :: TokenKind.minus.written ::
        (full.expr .whole right ++ TokenKind.rightParen.written :: us) := by
    simp [Style.expr, core, enclose, Expr.isOperation, PrefixOperator.kind]
  rw [htext, htokens]
  exact hright.minus.leftParen

lemma logicalNot {lexeme : String} {right : Expr} (h : Prints right) :
    Prints (.prefixed lexeme .logicalNot right) := by
  intro rest us _ hrest
  have hright := h _ _ .rightParen hrest.rightParen
  have htext : (Expr.text (.prefixed lexeme .logicalNot right)).toList ++ rest =
      '(' :: (TokenKind.notWord.spelling.toList ++ ' ' :: (right.text.toList ++ ')' :: rest)) := by
    simp [Expr.text, TokenKind.spelling]
  have htokens : full.expr .whole (.prefixed lexeme .logicalNot right) ++ us =
      TokenKind.leftParen.written :: TokenKind.notWord.written ::
        (full.expr .whole right ++ TokenKind.rightParen.written :: us) := by
    simp [Style.expr, core, enclose, Expr.isOperation, PrefixOperator.kind]
  rw [htext, htokens]
  exact (hright.space.written _ (by decide) .space).leftParen

lemma infixed {lexeme : String} {operator : InfixOperator} {left right : Expr}
    (hl : Prints left) (hr : Prints right) : Prints (.infixed lexeme operator left right) := by
  intro rest us _ hrest
  have hright := (hr _ _ .rightParen hrest.rightParen).space
  have hoperator := (hright.written operator.kind (by cases operator <;> decide) .space).space
  have hleft := hl _ _ .space hoperator
  have hsymbol : operator.symbol = operator.kind.spelling := by cases operator <;> rfl
  have htext : (Expr.text (.infixed lexeme operator left right)).toList ++ rest =
      '(' :: (left.text.toList ++ ' ' :: (operator.kind.spelling.toList ++ ' ' ::
        (right.text.toList ++ ')' :: rest))) := by
    simp [Expr.text, hsymbol]
  have htokens : full.expr .whole (.infixed lexeme operator left right) ++ us =
      TokenKind.leftParen.written :: (full.expr .whole left ++ operator.kind.written ::
        (full.expr .whole right ++ TokenKind.rightParen.written :: us)) := by
    simp [Style.expr, core, enclose, Expr.isOperation]
  rw [htext, htokens]
  exact hleft.leftParen

lemma conditional {lexeme : String} {condition : Expr} {consequence : Block}
    (hc : Prints condition) (hb : PrintsBlock consequence) :
    Prints (.conditional lexeme condition consequence none) := by
  intro rest us hparted hrest
  have hblock := (hb _ _ hparted hrest).space
  have hcondition := hc _ _ .space (hblock.written .thenWord (by decide) .space).space
  have htext : (Expr.text (.conditional lexeme condition consequence none)).toList ++ rest =
      TokenKind.ifWord.spelling.toList ++ ' ' :: (condition.text.toList ++ ' ' ::
        (TokenKind.thenWord.spelling.toList ++ ' ' :: (consequence.bodyText.toList ++ rest))) := by
    simp [Expr.text, TokenKind.spelling]
  have htokens : full.expr .whole (.conditional lexeme condition consequence none) ++ us =
      TokenKind.ifWord.written :: (full.expr .whole condition ++
        TokenKind.thenWord.written :: (full.body consequence ++ us)) := by
    simp [Style.expr, core, enclose, Expr.isOperation]
  rw [htext, htokens]
  exact hcondition.space.written _ (by decide) .space

lemma alternative {lexeme : String} {condition : Expr} {consequence other : Block}
    (hc : Prints condition) (hb : PrintsBlock consequence) (ho : PrintsBlock other) :
    Prints (.conditional lexeme condition consequence (some other)) := by
  intro rest us hparted hrest
  have hother := (ho _ _ hparted hrest).space
  have hblock := (hb _ _ .space (hother.written .elseWord (by decide) .space).space).space
  have hcondition := hc _ _ .space (hblock.written .thenWord (by decide) .space).space
  have htext : (Expr.text (.conditional lexeme condition consequence (some other))).toList ++ rest =
      TokenKind.ifWord.spelling.toList ++ ' ' :: (condition.text.toList ++ ' ' ::
        (TokenKind.thenWord.spelling.toList ++ ' ' :: (consequence.bodyText.toList ++ ' ' ::
          (TokenKind.elseWord.spelling.toList ++ ' ' :: (other.bodyText.toList ++ rest))))) := by
    simp [Expr.text, TokenKind.spelling]
  have htokens : full.expr .whole (.conditional lexeme condition consequence (some other)) ++ us =
      TokenKind.ifWord.written :: (full.expr .whole condition ++
        TokenKind.thenWord.written :: (full.body consequence ++
          TokenKind.elseWord.written :: (full.body other ++ us))) := by
    simp [Style.expr, core, enclose, Expr.isOperation]
  rw [htext, htokens]
  exact hcondition.space.written _ (by decide) .space

lemma splits_others (es : List Expr) (hes : ∀ x ∈ es, Prints x) (h : Splits rest us) (e : Expr)
    (he : Prints e) :
    Splits ((Expr.listText (e :: es)).toList ++ ')' :: rest)
      (full.expr .whole e ++ (others (full.arguments es) ++ us)) := by
  induction es generalizing e with
  | nil => exact he _ _ .rightParen h.rightParen
  | cons x es ih =>
    rw [List.forall_mem_cons] at hes
    have hothers := (ih hes.2 x hes.1).space.comma
    have htext : (Expr.listText (e :: x :: es)).toList ++ ')' :: rest =
        e.text.toList ++ ',' :: ' ' :: ((Expr.listText (x :: es)).toList ++ ')' :: rest) := by
      simp [Expr.listText_cons]
    have htokens : others (full.arguments (x :: es)) ++ us =
        TokenKind.comma.written :: (full.expr .whole x ++ (others (full.arguments es) ++ us)) := by
      simp [arguments, others, Style.expr]
    rw [htext, htokens]
    exact he _ _ .comma hothers

lemma splits_listed {es : List Expr} (hes : ∀ x ∈ es, Prints x) (h : Splits rest us) :
    Splits ((Expr.listText es).toList ++ ')' :: rest) (listed (full.arguments es) ++ us) := by
  cases es with
  | nil => exact h.rightParen
  | cons e es =>
    rw [List.forall_mem_cons] at hes
    rw [arguments, listed, List.append_assoc]
    exact splits_others es hes.2 h e hes.1

lemma call {lexeme : String} {callee : Expr} {es : List Expr} (hf : Prints callee)
    (hes : ∀ x ∈ es, Prints x) : Prints (.call lexeme callee es) := by
  intro rest us _ hrest
  have hcallee := hf _ _ .leftParen (splits_listed hes hrest).leftParen
  have htext : (Expr.text (.call lexeme callee es)).toList ++ rest =
      callee.text.toList ++ '(' :: ((Expr.listText es).toList ++ ')' :: rest) := by
    simp [Expr.text]
  have htokens : full.expr .whole (.call lexeme callee es) ++ us =
      full.expr .whole callee ++ TokenKind.leftParen.written ::
        (listed (full.arguments es) ++ us) := by
    simp [Style.expr, core, enclose, Expr.isOperation]
  rw [htext, htokens]
  exact hcallee

lemma splits_parameter {p : Parameter} (hp : Occurs ⟨.identifier, p.name⟩) (hparted : Parted rest)
    (h : Splits rest us) : Splits (p.text.toList ++ rest) (p.tokens ++ us) := by
  have htype := (h.written p.type.kind (by cases p.type <;> decide) hparted).space
  have hkeyword : p.type.keyword = p.type.kind.spelling := by cases p.type <;> rfl
  have hcolon := htype.written .colon (by decide) .space
  have htext : p.text.toList ++ rest = p.name.toList ++ ':' :: ' ' ::
      (p.type.kind.spelling.toList ++ rest) := by
    simp [Parameter.text, hkeyword]
  rw [htext]
  exact hcolon.named .colon hp

lemma splits_parameters (ps : List Parameter) (hps : ∀ p ∈ ps, Occurs ⟨.identifier, p.name⟩)
    (h : Splits rest us) (p : Parameter) (hp : Occurs ⟨.identifier, p.name⟩) :
    Splits ((", ".intercalate ((p :: ps).map Parameter.text)).toList ++ ')' :: rest)
      (p.tokens ++ (others (ps.map Parameter.tokens) ++ us)) := by
  induction ps generalizing p with
  | nil => exact splits_parameter hp .rightParen h.rightParen
  | cons q ps ih =>
    rw [List.forall_mem_cons] at hps
    have hothers := (ih hps.2 q hps.1).space.comma
    have htext : (", ".intercalate ((p :: q :: ps).map Parameter.text)).toList ++ ')' :: rest =
        p.text.toList ++ ',' :: ' ' ::
          ((", ".intercalate ((q :: ps).map Parameter.text)).toList ++ ')' :: rest) := by
      simp [String.intercalate_cons_cons]
    rw [htext]
    exact splits_parameter hp .comma hothers

lemma procedure {header : Header} {block : Block}
    (hheader : (Expr.procedure header block).Sourced) (hb : PrintsBlock block) :
    Prints (.procedure header block) := by
  intro rest us hparted hrest
  obtain ⟨hlexeme, hname, hparameters⟩ := hheader
  have hword : header.lexeme = TokenKind.procedureWord.spelling :=
    hlexeme.literal_eq rfl (by decide)
  have hblock := (hb _ _ hparted hrest).space
  have hbegin := (hblock.written .beginWord (by decide) .space).space
  have hlist : Splits ((", ".intercalate (header.parameters.map Parameter.text)).toList ++
      ')' :: ' ' :: (TokenKind.beginWord.spelling.toList ++ ' ' :: (block.bodyText.toList ++ rest)))
      (listed (header.parameters.map Parameter.tokens) ++
        TokenKind.beginWord.written :: (full.body block ++ us)) := by
    cases hps : header.parameters with
    | nil => exact hbegin.rightParen
    | cons p ps =>
      rw [hps, List.forall_mem_cons] at hparameters
      rw [List.map_cons (f := Parameter.tokens), listed, List.append_assoc]
      exact splits_parameters ps hparameters.2 hbegin p hparameters.1
  have hfirst := (hlist.leftParen.named .leftParen hname).space
  have htext : (Expr.text (.procedure header block)).toList ++ rest =
      TokenKind.procedureWord.spelling.toList ++ ' ' :: (header.name.toList ++ '(' ::
        ((", ".intercalate (header.parameters.map Parameter.text)).toList ++ ')' :: ' ' ::
          (TokenKind.beginWord.spelling.toList ++ ' ' :: (block.bodyText.toList ++ rest)))) := by
    simp [Expr.text, Header.text, hword, TokenKind.spelling]
  have htokens : full.expr .whole (.procedure header block) ++ us =
      TokenKind.procedureWord.written :: ⟨.identifier, header.name⟩ ::
        TokenKind.leftParen.written :: (listed (header.parameters.map Parameter.tokens) ++
          TokenKind.beginWord.written :: (full.body block ++ us)) := by
    simp [Style.expr, core, enclose, Expr.isOperation]
  rw [htext, htokens]
  exact hfirst.written _ (by decide) .space

end Prints

namespace PrintsStmt

lemma expression {lexeme : String} {value : Expr} (h : Prints value) :
    PrintsStmt (.expression lexeme value) := by
  intro rest us hrest
  have hvalue := h _ _ .space hrest.space
  simpa [Stmt.text, clause, ending, full, Style.expr] using hvalue

lemma giveBack {lexeme : String} {value : Expr} (hs : (Stmt.giveBack lexeme value).Sourced)
    (h : Prints value) : PrintsStmt (.giveBack lexeme value) := by
  intro rest us hrest
  have hword : lexeme = TokenKind.returnWord.spelling := hs.literal_eq rfl (by decide)
  have hvalue := (h _ _ .semicolon hrest.space.semicolon).space
  have htext : (Stmt.text (.giveBack lexeme value)).toList ++ ' ' :: rest =
      TokenKind.returnWord.spelling.toList ++ ' ' :: (value.text.toList ++ ';' :: ' ' :: rest) := by
    simp [Stmt.text, hword, TokenKind.spelling]
  rw [htext]
  exact hvalue.written _ (by decide) .space

lemma assign {name : String} {value : Expr} (hs : (Stmt.assign name value).Sourced)
    (h : Prints value) : PrintsStmt (.assign name value) := by
  intro rest us hrest
  have hvalue := (h _ _ .semicolon hrest.space.semicolon).space
  have hsign := (hvalue.written .assign (by decide) .space).space
  have htext : (Stmt.text (.assign name value)).toList ++ ' ' :: rest =
      name.toList ++ ' ' :: (TokenKind.assign.spelling.toList ++ ' ' ::
        (value.text.toList ++ ';' :: ' ' :: rest)) := by
    simp [Stmt.text, TokenKind.spelling]
  rw [htext]
  exact hsign.named .space hs

lemma declare {lexeme : String} {constant : Bool} {name : String} {type : NumericType}
    {value : Expr} (hs : (Stmt.declare lexeme constant name type value).Sourced)
    (h : Prints value) : PrintsStmt (.declare lexeme constant name type value) := by
  intro rest us hrest
  obtain ⟨hlexeme, hname⟩ := hs
  have hword : lexeme = (declarationWord constant).spelling :=
    hlexeme.literal_eq rfl (by cases constant <;> decide)
  have hkeyword : type.keyword = type.kind.spelling := by cases type <;> rfl
  have hvalue := (h _ _ .semicolon hrest.space.semicolon).space
  have hsign := (hvalue.written .assign (by decide) .space).space
  have htype := (hsign.written type.kind (by cases type <;> decide) .space).space
  have hcolon := htype.written .colon (by decide) .space
  have hfirst := (hcolon.named .colon hname).space
  have htext : (Stmt.text (.declare lexeme constant name type value)).toList ++ ' ' :: rest =
      (declarationWord constant).spelling.toList ++ ' ' :: (name.toList ++ ':' :: ' ' ::
        (type.kind.spelling.toList ++ ' ' :: (TokenKind.assign.spelling.toList ++ ' ' ::
          (value.text.toList ++ ';' :: ' ' :: rest)))) := by
    rw [← hword, ← hkeyword]
    simp [Stmt.text, TokenKind.spelling]
  rw [htext]
  exact hfirst.written _ (by cases constant <;> decide) .space

lemma block {b : Block} (hb : PrintsBlock b) : PrintsStmt (.block b) := by
  intro rest us hrest
  have hblock := (hb _ _ .space hrest.space).space
  have htext : (Stmt.text (.block b)).toList ++ ' ' :: rest =
      TokenKind.beginWord.spelling.toList ++ ' ' :: (b.bodyText.toList ++ ' ' :: rest) := by
    simp [Stmt.text, TokenKind.spelling]
  rw [htext]
  exact hblock.written _ (by decide) .space

lemma whileLoop {lexeme : String} {condition : Expr} {b : Block} (hc : Prints condition)
    (hb : PrintsBlock b) : PrintsStmt (.whileLoop lexeme condition b) := by
  intro rest us hrest
  have hblock := (hb _ _ .space hrest.space).space
  have hcondition := hc _ _ .space (hblock.written .doWord (by decide) .space).space
  have htext : (Stmt.text (.whileLoop lexeme condition b)).toList ++ ' ' :: rest =
      TokenKind.whileWord.spelling.toList ++ ' ' :: (condition.text.toList ++ ' ' ::
        (TokenKind.doWord.spelling.toList ++ ' ' :: (b.bodyText.toList ++ ' ' :: rest))) := by
    simp [Stmt.text, TokenKind.spelling]
  have htokens : full.clause (.whileLoop lexeme condition b) ++
      (ending (full.semicolon (.whileLoop lexeme condition b)) ++ us) =
      TokenKind.whileWord.written :: (full.expr .whole condition ++
        TokenKind.doWord.written :: (full.body b ++ us)) := by
    simp [clause, Style.expr, ending, full]
  rw [htext, htokens]
  exact hcondition.space.written _ (by decide) .space

lemma forLoop {lexeme counter : String} {first last : Expr} {b : Block}
    (hs : (Stmt.forLoop lexeme counter first last b).Sourced) (hf : Prints first)
    (hl : Prints last) (hb : PrintsBlock b) :
    PrintsStmt (.forLoop lexeme counter first last b) := by
  intro rest us hrest
  have hblock := (hb _ _ .space hrest.space).space
  have hlast := (hl _ _ .space (hblock.written .doWord (by decide) .space).space).space
  have hfirst := (hf _ _ .space (hlast.written .toWord (by decide) .space).space).space
  have hcounter := ((hfirst.written .assign (by decide) .space).space.named .space hs).space
  have htext : (Stmt.text (.forLoop lexeme counter first last b)).toList ++ ' ' :: rest =
      TokenKind.forWord.spelling.toList ++ ' ' :: (counter.toList ++ ' ' ::
        (TokenKind.assign.spelling.toList ++ ' ' :: (first.text.toList ++ ' ' ::
          (TokenKind.toWord.spelling.toList ++ ' ' :: (last.text.toList ++ ' ' ::
            (TokenKind.doWord.spelling.toList ++ ' ' ::
              (b.bodyText.toList ++ ' ' :: rest))))))) := by
    simp [Stmt.text, TokenKind.spelling]
  have htokens : full.clause (.forLoop lexeme counter first last b) ++
      (ending (full.semicolon (.forLoop lexeme counter first last b)) ++ us) =
      TokenKind.forWord.written :: ⟨.identifier, counter⟩ :: TokenKind.assign.written ::
        (full.expr .whole first ++ TokenKind.toWord.written :: (full.expr .whole last ++
          TokenKind.doWord.written :: (full.body b ++ us))) := by
    simp [clause, Style.expr, ending, full]
  rw [htext, htokens]
  exact hcounter.written _ (by decide) .space

end PrintsStmt

lemma splits_statements (ss : List Stmt) (hss : ∀ s ∈ ss, PrintsStmt s) (h : Splits rest us) :
    Splits ((Stmt.listText ss).toList ++ rest) (full.statements ss ++ us) := by
  induction ss with
  | nil => exact h
  | cons s ss ih =>
    rw [List.forall_mem_cons] at hss
    have hothers := hss.1 _ _ (ih hss.2)
    simpa [Stmt.listText, statements] using hothers

lemma PrintsStmt.body {opener : Token} {ss : List Stmt} (hss : ∀ s ∈ ss, PrintsStmt s) :
    PrintsBlock (.mk opener ss) := by
  intro rest us hparted hrest
  have hstatements := splits_statements ss hss (hrest.written .endWord (by decide) hparted)
  simpa [Block.bodyText, Style.body, TokenKind.spelling] using hstatements

-- Induction on the tree, one lemma above for each kind of node.
mutual
lemma prints : ∀ e : Expr, (∀ n ∈ e.nodes, n.Sourced) → Prints e
  | .named name, h => .token rfl rfl rfl (h _ (List.mem_singleton_self _))
  | .integer lexeme value, h => .token rfl rfl rfl (h _ (List.mem_singleton_self _)).1
  | .real lexeme value, h => .token rfl rfl rfl (h _ (List.mem_singleton_self _)).1
  | .boolean lexeme value, _ => .boolean
  | .string value, h => .token rfl rfl (by simp [Expr.text, Token.characters])
      (h _ (List.mem_singleton_self _))
  | .prefixed lexeme .negate right, h => by
    simp only [Expr.nodes, List.forall_mem_cons] at h
    exact .negate (prints right h.2)
  | .prefixed lexeme .logicalNot right, h => by
    simp only [Expr.nodes, List.forall_mem_cons] at h
    exact .logicalNot (prints right h.2)
  | .infixed lexeme operator left right, h => by
    simp only [Expr.nodes, List.forall_mem_cons, List.forall_mem_append] at h
    exact .infixed (prints left h.2.1) (prints right h.2.2)
  | .conditional lexeme condition consequence none, h => by
    simp only [Expr.nodes, List.forall_mem_cons, List.forall_mem_append] at h
    exact .conditional (prints condition h.2.1) (printsBlock consequence h.2.2)
  | .conditional lexeme condition consequence (some other), h => by
    simp only [Expr.nodes, List.forall_mem_cons, List.forall_mem_append] at h
    exact .alternative (prints condition h.2.1.1) (printsBlock consequence h.2.1.2)
      (printsBlock other h.2.2)
  | .procedure header block, h => by
    simp only [Expr.nodes, List.forall_mem_cons] at h
    exact .procedure h.1 (printsBlock block h.2)
  | .call lexeme callee args, h => by
    simp only [Expr.nodes, List.forall_mem_cons, List.forall_mem_append] at h
    exact .call (prints callee h.2.1) (printsAll args h.2.2)

lemma printsAll : ∀ es : List Expr, (∀ n ∈ Expr.listNodes es, n.Sourced) → ∀ e ∈ es, Prints e
  | [], _ => fun _ he => nomatch he
  | e :: es, h => by
    simp only [Expr.listNodes, List.forall_mem_append] at h
    exact List.forall_mem_cons.2 ⟨prints e h.1, printsAll es h.2⟩

lemma printsStmt : ∀ s : Stmt, s.Sourced → (∀ n ∈ s.nodes, n.Sourced) → PrintsStmt s
  | .declare lexeme constant name type value, hs, h => .declare hs (prints value h)
  | .assign name value, hs, h => .assign hs (prints value h)
  | .giveBack lexeme value, hs, h => .giveBack hs (prints value h)
  | .expression lexeme value, _, h => .expression (prints value h)
  | .block body, _, h => .block (printsBlock body h)
  | .whileLoop lexeme condition body, _, h => by
    simp only [Stmt.nodes, List.forall_mem_append] at h
    exact .whileLoop (prints condition h.1) (printsBlock body h.2)
  | .forLoop lexeme counter first last body, hs, h => by
    simp only [Stmt.nodes, List.forall_mem_append] at h
    exact .forLoop hs (prints first h.1.1) (prints last h.1.2) (printsBlock body h.2)

lemma printsStmts : ∀ ss : List Stmt, (∀ s ∈ ss, s.Sourced) →
    (∀ n ∈ Stmt.listNodes ss, n.Sourced) → ∀ s ∈ ss, PrintsStmt s
  | [], _, _ => fun _ hs => nomatch hs
  | s :: ss, hs, h => by
    simp only [Stmt.listNodes, List.forall_mem_append, List.forall_mem_cons] at hs h
    exact List.forall_mem_cons.2 ⟨printsStmt s hs.1 h.1, printsStmts ss hs.2 h.2⟩

lemma printsBlock : ∀ b : Block, (∀ n ∈ b.nodes, n.Sourced) → PrintsBlock b
  | .mk opener ss, h => by
    simp only [Block.nodes, List.forall_mem_cons] at h
    exact PrintsStmt.body (printsStmts ss h.1 h.2)
end

theorem scan_text {e : Expr} (h : ∀ n ∈ e.nodes, n.Sourced) :
    Token.scan e.text = full.expr .whole e := by
  have hsplits := prints e h [] [] nofun (.nil .nil)
  rw [List.append_nil, List.append_nil] at hsplits
  exact Lexical.splits_iff_scan.1 hsplits

end Style

end MiniPascal
