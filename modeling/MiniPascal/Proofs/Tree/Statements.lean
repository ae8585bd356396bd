import Mathlib
import MiniPascal.Program

namespace MiniPascal

-- The statements inside a tree, in order; `deep` says whether the bodies of procedures are part of
-- it. A statement is not inside itself.
mutual
def Expr.inner (deep : Bool) : Expr → List Stmt
  | .named _ | .integer _ _ | .real _ _ | .boolean _ _ | .string _ => []
  | .prefixed _ _ right => right.inner deep
  | .infixed _ _ left right => left.inner deep ++ right.inner deep
  | .conditional _ condition consequence none => condition.inner deep ++ consequence.inner deep
  | .conditional _ condition consequence (some alternative) =>
    condition.inner deep ++ consequence.inner deep ++ alternative.inner deep
  | .procedure _ body => if deep then body.inner deep else []
  | .call _ callee arguments => callee.inner deep ++ Expr.listInner deep arguments

def Expr.listInner (deep : Bool) : List Expr → List Stmt
  | [] => []
  | e :: rest => e.inner deep ++ Expr.listInner deep rest

def Stmt.inner (deep : Bool) : Stmt → List Stmt
  | .declare _ _ _ _ value => value.inner deep
  | .assign _ value => value.inner deep
  | .giveBack _ value => value.inner deep
  | .expression _ value => value.inner deep
  | .block body => body.inner deep
  | .whileLoop _ condition body => condition.inner deep ++ body.inner deep
  | .forLoop _ _ first last body => first.inner deep ++ last.inner deep ++ body.inner deep

def Stmt.listInner (deep : Bool) : List Stmt → List Stmt
  | [] => []
  | s :: rest => s :: (s.inner deep ++ Stmt.listInner deep rest)

def Block.inner (deep : Bool) : Block → List Stmt
  | .mk _ statements => Stmt.listInner deep statements
end

attribute [simp] Expr.inner Expr.listInner Stmt.inner Stmt.listInner Block.inner

lemma Stmt.listInner_cons (deep : Bool) (s : Stmt) (rest : List Stmt) :
    Stmt.listInner deep (s :: rest) = (s :: s.inner deep) ++ Stmt.listInner deep rest := rfl

lemma Expr.mem_listInner {deep : Bool} {s : Stmt} {es : List Expr} :
    s ∈ Expr.listInner deep es ↔ ∃ e ∈ es, s ∈ e.inner deep := by
  induction es with
  | nil => simp
  | cons e rest ih => simp [ih]

def Stmt.isWhile : Stmt → Bool
  | .whileLoop _ _ _ => true
  | _ => false

def Stmt.isReturn : Stmt → Bool
  | .giveBack _ _ => true
  | _ => false

end MiniPascal
