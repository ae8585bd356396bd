import MiniPascal.Program.Printer
import MiniPascal.Proofs.Tree
import MiniPascal.Proofs.Grammar
import MiniPascal.Proofs.Lexical.Spelling

namespace MiniPascal

open Lexical (Occurs)

/-- What a node keeps of its tokens can stand in a source, and its literal reads as its value. -/
def Expr.Sourced : Expr → Prop
  | .named name => Occurs ⟨.identifier, name⟩
  | .integer lexeme value => Occurs ⟨.integer, lexeme⟩ ∧ Decimal.integer? lexeme = some value
  | .real lexeme value => Occurs ⟨.real, lexeme⟩ ∧ Decimal.real? lexeme = some value
  | .string value => Occurs ⟨.text, value⟩
  | .procedure header _ =>
    Occurs ⟨.procedureWord, header.lexeme⟩ ∧ Occurs ⟨.identifier, header.name⟩ ∧
      ∀ p ∈ header.parameters, Occurs ⟨.identifier, p.name⟩
  | _ => True

def Stmt.Sourced : Stmt → Prop
  | .declare lexeme constant name _ _ =>
    Occurs ⟨declarationWord constant, lexeme⟩ ∧ Occurs ⟨.identifier, name⟩
  | .assign name _ => Occurs ⟨.identifier, name⟩
  | .giveBack lexeme _ => Occurs ⟨.returnWord, lexeme⟩
  | .forLoop _ counter _ _ _ => Occurs ⟨.identifier, counter⟩
  | _ => True

def Node.Sourced : Node → Prop
  | .expr e => e.Sourced
  | .body ss => ∀ s ∈ ss, s.Sourced

namespace Grammar

variable {ts rest : List Token}

lemma Consumes.occurs (h : Consumes ts rest) (hts : ∀ t ∈ ts, Occurs t) :
    ∀ t ∈ rest, Occurs t := by
  intro t ht
  exact hts t (h.suffix.subset ht)

lemma IsSomeParameters.sourced {ps : List Parameter} (h : IsSomeParameters ts ps rest)
    (hts : ∀ t ∈ ts, Occurs t) : ∀ p ∈ ps, Occurs ⟨.identifier, p.name⟩ := by
  induction h with
  | last type =>
    simp only [List.forall_mem_cons] at hts
    simpa using hts.1
  | cons type _ ih =>
    simp only [List.forall_mem_cons] at hts ⊢
    exact ⟨hts.1, ih hts.2.2.2.2⟩

lemma IsParameters.sourced {ps : List Parameter} (h : IsParameters ts ps rest)
    (hts : ∀ t ∈ ts, Occurs t) : ∀ p ∈ ps, Occurs ⟨.identifier, p.name⟩ := by
  cases h with
  | none => exact nofun
  | some h => exact h.sourced hts

-- Induction on the derivation.
mutual
lemma IsExpr.sourced {ts e rest} : IsExpr ts e rest → (∀ t ∈ ts, Occurs t) →
    ∀ n ∈ e.nodes, n.Sourced
  | .named, hts => by
    simp only [Expr.nodes, List.forall_mem_cons] at hts ⊢
    exact ⟨hts.1, nofun⟩
  | .integer hvalue, hts => by
    simp only [Expr.nodes, List.forall_mem_cons] at hts ⊢
    exact ⟨⟨hts.1, hvalue⟩, nofun⟩
  | .real hvalue, hts => by
    simp only [Expr.nodes, List.forall_mem_cons] at hts ⊢
    exact ⟨⟨hts.1, hvalue⟩, nofun⟩
  | .string, hts => by
    simp only [Expr.nodes, List.forall_mem_cons] at hts ⊢
    exact ⟨hts.1, nofun⟩
  | .trueWord, _ => by
    simp only [Expr.nodes, List.forall_mem_cons]
    exact ⟨trivial, nofun⟩
  | .falseWord, _ => by
    simp only [Expr.nodes, List.forall_mem_cons]
    exact ⟨trivial, nofun⟩
  | .prefixed _ h, hts => by
    simp only [Expr.nodes, List.forall_mem_cons] at hts ⊢
    exact ⟨trivial, h.sourced hts.2⟩
  | .infixed hl _ hr, hts => by
    have hmid := hl.consumes.occurs hts
    simp only [Expr.nodes, List.forall_mem_cons, List.forall_mem_append] at hmid ⊢
    exact ⟨trivial, hl.sourced hts, hr.sourced hmid.2⟩
  | .call hf hargs, hts => by
    have hmid := hf.consumes.occurs hts
    simp only [Expr.nodes, List.forall_mem_cons, List.forall_mem_append] at hmid ⊢
    exact ⟨trivial, hf.sourced hts, hargs.sourced hmid.2⟩
  | .grouped h, hts => by
    simp only [List.forall_mem_cons] at hts
    exact h.sourced hts.2
  | .conditional hc hb, hts => by
    simp only [List.forall_mem_cons] at hts
    have hmid := hc.consumes.occurs hts.2
    simp only [Expr.nodes, Block.nodes, List.forall_mem_cons, List.forall_mem_append] at hmid ⊢
    exact ⟨trivial, hc.sourced hts.2, hb.sourced hmid.2⟩
  | .alternative hc hb hb', hts => by
    simp only [List.forall_mem_cons] at hts
    have hmid := hc.consumes.occurs hts.2
    simp only [List.forall_mem_cons] at hmid
    have hmid' := hb.consumes.occurs hmid.2
    simp only [Expr.nodes, Block.nodes, List.forall_mem_cons, List.forall_mem_append] at hmid' ⊢
    exact ⟨trivial, ⟨hc.sourced hts.2, hb.sourced hmid.2⟩, hb'.sourced hmid'.2⟩
  | .procedure hp hb, hts => by
    simp only [List.forall_mem_cons] at hts
    have hmid := hp.consumes.occurs hts.2.2.2
    simp only [Expr.nodes, Block.nodes, List.forall_mem_cons] at hmid ⊢
    exact ⟨⟨hts.1, hts.2.1, hp.sourced hts.2.2.2⟩, hb.sourced hmid.2⟩

lemma IsArguments.sourced {ts args rest} : IsArguments ts args rest → (∀ t ∈ ts, Occurs t) →
    ∀ n ∈ Expr.listNodes args, n.Sourced
  | .none, _ => by
    rw [Expr.listNodes]
    exact nofun
  | .some h, hts => h.sourced hts

lemma IsSomeArguments.sourced {ts args rest} : IsSomeArguments ts args rest →
    (∀ t ∈ ts, Occurs t) → ∀ n ∈ Expr.listNodes args, n.Sourced
  | .last h, hts => by
    simp only [Expr.listNodes, List.append_nil]
    exact h.sourced hts
  | .cons h hs, hts => by
    have hmid := h.consumes.occurs hts
    simp only [Expr.listNodes, List.forall_mem_cons, List.forall_mem_append] at hmid ⊢
    exact ⟨h.sourced hts, hs.sourced hmid.2⟩

lemma IsStmt.sourced {ts s rest} : IsStmt ts s rest → (∀ t ∈ ts, Occurs t) →
    s.Sourced ∧ ∀ n ∈ s.nodes, n.Sourced
  | .declare constant type h, hts => by
    simp only [List.forall_mem_cons] at hts
    exact ⟨⟨hts.1, hts.2.1⟩, h.sourced hts.2.2.2.2.2⟩
  | .block hb _, hts => by
    simp only [List.forall_mem_cons] at hts
    have hbody := hb.sourced hts.2
    simp only [Stmt.nodes, Block.nodes, List.forall_mem_cons]
    exact ⟨trivial, hbody⟩
  | .giveBack h _, hts => by
    simp only [List.forall_mem_cons] at hts
    exact ⟨hts.1, h.sourced hts.2⟩
  | .whileLoop hc hb _, hts => by
    simp only [List.forall_mem_cons] at hts
    have hmid := hc.consumes.occurs hts.2
    simp only [List.forall_mem_cons] at hmid
    have hbody := hb.sourced hmid.2
    simp only [Stmt.nodes, Block.nodes, List.forall_mem_cons, List.forall_mem_append]
    exact ⟨trivial, hc.sourced hts.2, hbody⟩
  | .forLoop hf hl hb _, hts => by
    simp only [List.forall_mem_cons] at hts
    have hmid := hf.consumes.occurs hts.2.2.2
    simp only [List.forall_mem_cons] at hmid
    have hmid' := hl.consumes.occurs hmid.2
    simp only [List.forall_mem_cons] at hmid'
    have hbody := hb.sourced hmid'.2
    simp only [Stmt.nodes, Block.nodes, List.forall_mem_cons, List.forall_mem_append]
    exact ⟨hts.2.1, ⟨hf.sourced hts.2.2.2, hl.sourced hmid.2⟩, hbody⟩
  | .assign h _, hts => by
    simp only [List.forall_mem_cons] at hts
    exact ⟨hts.1, h.sourced hts.2.2⟩
  | .expression h _, hts => ⟨trivial, h.sourced hts⟩

lemma IsStmts.sourced {ts ss rest} : IsStmts ts ss rest → (∀ t ∈ ts, Occurs t) →
    (∀ s ∈ ss, s.Sourced) ∧ ∀ n ∈ Stmt.listNodes ss, n.Sourced
  | .nil, _ => by
    rw [Stmt.listNodes]
    exact ⟨nofun, nofun⟩
  | .cons h hs, hts => by
    obtain ⟨hfirst, hnodes⟩ := h.sourced hts
    obtain ⟨hothers, hnodes'⟩ := hs.sourced (h.consumes.occurs hts)
    simp only [Stmt.listNodes, List.forall_mem_cons, List.forall_mem_append]
    exact ⟨⟨hfirst, hothers⟩, hnodes, hnodes'⟩

lemma IsBody.sourced {ts ss rest} : IsBody ts ss rest → (∀ t ∈ ts, Occurs t) →
    (∀ s ∈ ss, s.Sourced) ∧ ∀ n ∈ Stmt.listNodes ss, n.Sourced
  | .closed h, hts => h.sourced hts
  | .atEnd h, hts => h.sourced hts
end

end Grammar

lemma Expr.listText_cons (e e' : Expr) (es : List Expr) :
    listText (e :: e' :: es) = e.text ++ ", " ++ listText (e' :: es) := by
  rw [listText]
  exact nofun

-- Induction on the tree: only declarations, returns and headers show a token that they keep.
mutual
lemma Expr.text_canonical : ∀ e : Expr, (∀ n ∈ e.nodes, n.Sourced) → e.canonical.text = e.text
  | .named _, _ => rfl
  | .integer _ _, _ => rfl
  | .real _ _, _ => rfl
  | .boolean _ _, _ => rfl
  | .string _, _ => rfl
  | .prefixed _ .negate right, h => by
    simp only [Expr.nodes, List.forall_mem_cons] at h
    rw [Expr.canonical, Expr.text, Expr.text, right.text_canonical h.2]
  | .prefixed _ .logicalNot right, h => by
    simp only [Expr.nodes, List.forall_mem_cons] at h
    rw [Expr.canonical, Expr.text, Expr.text, right.text_canonical h.2]
  | .infixed _ _ left right, h => by
    simp only [Expr.nodes, List.forall_mem_cons, List.forall_mem_append] at h
    rw [Expr.canonical, Expr.text, Expr.text, left.text_canonical h.2.1,
      right.text_canonical h.2.2]
  | .conditional _ condition consequence none, h => by
    simp only [Expr.nodes, List.forall_mem_cons, List.forall_mem_append] at h
    rw [Expr.canonical, Expr.text, Expr.text, condition.text_canonical h.2.1,
      consequence.bodyText_canonical h.2.2]
  | .conditional _ condition consequence (some alternative), h => by
    simp only [Expr.nodes, List.forall_mem_cons, List.forall_mem_append] at h
    rw [Expr.canonical, Expr.text, Expr.text, condition.text_canonical h.2.1.1,
      consequence.bodyText_canonical h.2.1.2, alternative.bodyText_canonical h.2.2]
  | .procedure header body, h => by
    simp only [Expr.nodes, List.forall_mem_cons] at h
    have hlexeme : header.lexeme = TokenKind.procedureWord.spelling :=
      h.1.1.literal_eq rfl (by decide)
    rw [Expr.canonical, Expr.text, Expr.text, body.bodyText_canonical h.2, Header.text,
      Header.text, hlexeme]
  | .call _ callee arguments, h => by
    simp only [Expr.nodes, List.forall_mem_cons, List.forall_mem_append] at h
    rw [Expr.canonical, Expr.text, Expr.text, callee.text_canonical h.2.1,
      Expr.listText_canonical arguments h.2.2]

lemma Expr.listText_canonical : ∀ es : List Expr, (∀ n ∈ Expr.listNodes es, n.Sourced) →
    Expr.listText (Expr.listCanonical es) = Expr.listText es
  | [], _ => rfl
  | [e], h => by
    simp only [Expr.listNodes, List.append_nil] at h
    rw [Expr.listCanonical, Expr.listCanonical, Expr.listText, Expr.listText,
      e.text_canonical h]
  | e :: e' :: es, h => by
    rw [Expr.listNodes, List.forall_mem_append] at h
    have hothers := Expr.listText_canonical (e' :: es) h.2
    rw [Expr.listCanonical] at hothers
    rw [Expr.listCanonical, Expr.listCanonical, Expr.listText_cons, Expr.listText_cons,
      e.text_canonical h.1, hothers]

lemma Stmt.text_canonical : ∀ s : Stmt, s.Sourced → (∀ n ∈ s.nodes, n.Sourced) →
    s.canonical.text = s.text
  | .declare lexeme constant name type value, hs, h => by
    have hlexeme : lexeme = (declarationWord constant).spelling :=
      hs.1.literal_eq rfl (by cases constant <;> decide)
    rw [Stmt.canonical, Stmt.text, Stmt.text, value.text_canonical h, hlexeme]
  | .assign _ value, _, h => by
    rw [Stmt.canonical, Stmt.text, Stmt.text, value.text_canonical h]
  | .giveBack lexeme value, hs, h => by
    have hlexeme : lexeme = TokenKind.returnWord.spelling :=
      hs.literal_eq rfl (by decide)
    rw [Stmt.canonical, Stmt.text, Stmt.text, value.text_canonical h, hlexeme]
  | .expression _ value, _, h => by
    rw [Stmt.canonical, Stmt.text, Stmt.text, value.text_canonical h]
  | .block body, _, h => by
    rw [Stmt.canonical, Stmt.text, Stmt.text, body.bodyText_canonical h]
  | .whileLoop _ condition body, _, h => by
    simp only [Stmt.nodes, List.forall_mem_append] at h
    rw [Stmt.canonical, Stmt.text, Stmt.text, condition.text_canonical h.1,
      body.bodyText_canonical h.2]
  | .forLoop _ _ first last body, _, h => by
    simp only [Stmt.nodes, List.forall_mem_append] at h
    rw [Stmt.canonical, Stmt.text, Stmt.text, first.text_canonical h.1.1,
      last.text_canonical h.1.2, body.bodyText_canonical h.2]

lemma Stmt.listText_canonical : ∀ ss : List Stmt, (∀ s ∈ ss, s.Sourced) →
    (∀ n ∈ Stmt.listNodes ss, n.Sourced) → Stmt.listText (Stmt.listCanonical ss) = Stmt.listText ss
  | [], _, _ => rfl
  | s :: ss, hs, h => by
    simp only [Stmt.listNodes, List.forall_mem_append, List.forall_mem_cons] at hs h
    rw [Stmt.listCanonical, Stmt.listText, Stmt.listText, s.text_canonical hs.1 h.1,
      Stmt.listText_canonical ss hs.2 h.2]

lemma Block.bodyText_canonical {opener : TokenKind} : ∀ b : Block, (∀ n ∈ b.nodes, n.Sourced) →
    (b.canonical opener).bodyText = b.bodyText
  | .mk _ ss, h => by
    simp only [Block.nodes, List.forall_mem_cons] at h
    rw [Block.canonical, Block.bodyText, Block.bodyText, Stmt.listText_canonical ss h.1 h.2]
end

end MiniPascal
