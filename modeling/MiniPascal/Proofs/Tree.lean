import MiniPascal.Program
import MiniPascal.Proofs.Token.Spelling

namespace MiniPascal

inductive Node where
  | expr (e : Expr)
  | body (statements : List Stmt)

-- The parts of a tree, in order; those in the statements of blocks are among them.
mutual
def Expr.nodes : Expr → List Node
  | .named name => [.expr (.named name)]
  | .integer lexeme value => [.expr (.integer lexeme value)]
  | .real lexeme value => [.expr (.real lexeme value)]
  | .boolean lexeme value => [.expr (.boolean lexeme value)]
  | .string value => [.expr (.string value)]
  | .prefixed lexeme operator right => .expr (.prefixed lexeme operator right) :: right.nodes
  | .infixed lexeme operator left right =>
    .expr (.infixed lexeme operator left right) :: (left.nodes ++ right.nodes)
  | .conditional lexeme condition consequence none =>
    .expr (.conditional lexeme condition consequence none) ::
      (condition.nodes ++ consequence.nodes)
  | .conditional lexeme condition consequence (some alternative) =>
    .expr (.conditional lexeme condition consequence (some alternative)) ::
      (condition.nodes ++ consequence.nodes ++ alternative.nodes)
  | .procedure header body => .expr (.procedure header body) :: body.nodes
  | .call lexeme callee arguments =>
    .expr (.call lexeme callee arguments) :: (callee.nodes ++ Expr.listNodes arguments)

def Expr.listNodes : List Expr → List Node
  | [] => []
  | e :: rest => e.nodes ++ Expr.listNodes rest

def Stmt.nodes : Stmt → List Node
  | .declare _ _ _ _ value => value.nodes
  | .assign _ value => value.nodes
  | .giveBack _ value => value.nodes
  | .expression _ value => value.nodes
  | .block body => body.nodes
  | .whileLoop _ condition body => condition.nodes ++ body.nodes
  | .forLoop _ _ first last body => first.nodes ++ last.nodes ++ body.nodes

def Stmt.listNodes : List Stmt → List Node
  | [] => []
  | s :: rest => s.nodes ++ Stmt.listNodes rest

def Block.nodes : Block → List Node
  | .mk _ statements => .body statements :: Stmt.listNodes statements
end

attribute [simp] Expr.nodes Expr.listNodes Stmt.nodes Stmt.listNodes Block.nodes

def Program.nodes (p : Program) : List Node := Stmt.listNodes p.statements

def Node.Closed (nodes : List Node) : Prop :=
  ∀ e, .expr e ∈ nodes → ∀ n ∈ e.nodes, n ∈ nodes

namespace Node.Closed

variable {nodes others : List Node}

lemma nil : Closed [] := nofun

lemma append (h : Closed nodes) (h' : Closed others) : Closed (nodes ++ others) := by
  intro e he n hn
  rcases List.mem_append.1 he with he | he
  · exact List.mem_append_left _ (h e he n hn)
  · exact List.mem_append_right _ (h' e he n hn)

lemma root {e : Expr} (he : e.nodes = .expr e :: nodes) (h : Closed nodes) : Closed e.nodes := by
  rw [he]
  intro x hx n hn
  rcases List.mem_cons.1 hx with hx | hx
  · cases hx
    rwa [he] at hn
  · exact List.mem_cons_of_mem _ (h x hx n hn)

lemma body {ss : List Stmt} (h : Closed nodes) : Closed (.body ss :: nodes) := by
  intro x hx n hn
  rcases List.mem_cons.1 hx with hx | hx
  · cases hx
  · exact List.mem_cons_of_mem _ (h x hx n hn)

end Node.Closed

mutual
lemma Expr.closed_nodes : ∀ e : Expr, Node.Closed e.nodes
  | .named _ => .root rfl .nil
  | .integer _ _ => .root rfl .nil
  | .real _ _ => .root rfl .nil
  | .boolean _ _ => .root rfl .nil
  | .string _ => .root rfl .nil
  | .prefixed _ _ right => .root rfl right.closed_nodes
  | .infixed _ _ left right => .root rfl (left.closed_nodes.append right.closed_nodes)
  | .conditional _ condition consequence none =>
    .root rfl (condition.closed_nodes.append consequence.closed_nodes)
  | .conditional _ condition consequence (some alternative) =>
    .root rfl ((condition.closed_nodes.append consequence.closed_nodes).append
      alternative.closed_nodes)
  | .procedure _ body => .root rfl body.closed_nodes
  | .call _ callee arguments =>
    .root rfl (callee.closed_nodes.append (Expr.closed_listNodes arguments))

lemma Expr.closed_listNodes : ∀ es : List Expr, Node.Closed (Expr.listNodes es)
  | [] => .nil
  | e :: es => e.closed_nodes.append (Expr.closed_listNodes es)

lemma Stmt.closed_nodes : ∀ s : Stmt, Node.Closed s.nodes
  | .declare _ _ _ _ value => value.closed_nodes
  | .assign _ value => value.closed_nodes
  | .giveBack _ value => value.closed_nodes
  | .expression _ value => value.closed_nodes
  | .block body => body.closed_nodes
  | .whileLoop _ condition body => condition.closed_nodes.append body.closed_nodes
  | .forLoop _ _ first last body =>
    (first.closed_nodes.append last.closed_nodes).append body.closed_nodes

lemma Stmt.closed_listNodes : ∀ ss : List Stmt, Node.Closed (Stmt.listNodes ss)
  | [] => .nil
  | s :: ss => s.closed_nodes.append (Stmt.closed_listNodes ss)

lemma Block.closed_nodes : ∀ b : Block, Node.Closed b.nodes
  | .mk _ ss => .body (Stmt.closed_listNodes ss)
end

-- The same tree with the usual token wherever a node keeps one that is no part of its meaning:
-- trees are the same up to the tokens they keep if these are equal.
mutual
def Expr.canonical : Expr → Expr
  | .named name => .named name
  | .integer lexeme value => .integer lexeme value
  | .real lexeme value => .real lexeme value
  | .boolean _ value => .boolean (booleanWord value).spelling value
  | .string value => .string value
  | .prefixed _ operator right => .prefixed operator.kind.spelling operator right.canonical
  | .infixed _ operator left right =>
    .infixed operator.kind.spelling operator left.canonical right.canonical
  | .conditional _ condition consequence none =>
    .conditional TokenKind.ifWord.spelling condition.canonical
      (consequence.canonical .thenWord) none
  | .conditional _ condition consequence (some alternative) =>
    .conditional TokenKind.ifWord.spelling condition.canonical
      (consequence.canonical .thenWord) (some (alternative.canonical .elseWord))
  | .procedure header body =>
    .procedure ⟨TokenKind.procedureWord.spelling, header.name, header.parameters⟩
      (body.canonical .beginWord)
  | .call _ callee arguments =>
    .call TokenKind.leftParen.spelling callee.canonical (Expr.listCanonical arguments)

def Expr.listCanonical : List Expr → List Expr
  | [] => []
  | e :: rest => e.canonical :: Expr.listCanonical rest

def Stmt.canonical : Stmt → Stmt
  | .declare _ constant name type value =>
    .declare (declarationWord constant).spelling constant name type value.canonical
  | .assign name value => .assign name value.canonical
  | .giveBack _ value => .giveBack TokenKind.returnWord.spelling value.canonical
  | .expression _ value => .expression "" value.canonical
  | .block body => .block (body.canonical .beginWord)
  | .whileLoop _ condition body =>
    .whileLoop TokenKind.whileWord.spelling condition.canonical (body.canonical .doWord)
  | .forLoop _ counter first last body =>
    .forLoop TokenKind.forWord.spelling counter first.canonical last.canonical
      (body.canonical .doWord)

def Stmt.listCanonical : List Stmt → List Stmt
  | [] => []
  | s :: rest => s.canonical :: Stmt.listCanonical rest

def Block.canonical (opener : TokenKind) : Block → Block
  | .mk _ statements => .mk opener.written (Stmt.listCanonical statements)
end

attribute [simp] Expr.canonical Expr.listCanonical Stmt.canonical Stmt.listCanonical
  Block.canonical

end MiniPascal
