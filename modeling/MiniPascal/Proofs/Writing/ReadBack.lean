import MiniPascal.Proofs.Writing.ReadExpr

namespace MiniPascal

open Reading

lemma Stmt.read_declarationWord (constant : Bool) (literal : String) (ts : List Token) :
    read ⟨declarationWord constant, literal⟩ ts =
      readDeclaration ⟨declarationWord constant, literal⟩ constant ts := by
  cases constant with
  | false => exact read_varWord literal ts
  | true => exact read_constWord literal ts

namespace Style

variable {st : Style} {k : List Token}

lemma enclose_ne_nil {ts : List Token} (h : ts ≠ []) (b : Bool) : enclose ts b ≠ [] := by
  cases b with
  | false => exact h
  | true => exact List.cons_ne_nil _ _

lemma core_ne_nil (st : Style) (e : Expr) : st.core e ≠ [] := by
  cases e with
  | conditional lexeme condition consequence alternative =>
    cases alternative <;> simp [Style.core]
  | _ => simp [Style.core]

section Ending

variable {b : Bool}

lemma ends_ending (hk : Token.headKind k ∈ Grammar.followKinds)
    (h : b = true ∨ Grammar.Lowest k) : Ends (ending b ++ k) := by
  cases b with
  | true => exact .written ⟨rfl, nofun⟩
  | false =>
    have hlowest : Grammar.Lowest k := by simpa using h
    exact ⟨hlowest, Grammar.ne_of_mem_followKinds .elseWord hk (by decide)⟩

lemma ending_ne_assign (hk : Token.headKind k ∈ Grammar.followKinds) :
    Token.headKind (ending b ++ k) ≠ .assign := by
  cases b with
  | true => exact nofun
  | false => exact Grammar.ne_of_mem_followKinds .assign hk (by decide)

lemma finish_ending (s : Stmt) (last : TokenKind)
    (hk : Token.headKind k ∈ Grammar.followKinds) :
    ∃ last', Stmt.finish s ⟨last, ending b ++ k⟩ = done s ⟨last', k⟩ := by
  cases b with
  | true => exact ⟨.semicolon, rfl⟩
  | false =>
    refine ⟨last, ?_⟩
    have hne := Grammar.ne_of_mem_followKinds .semicolon hk (by decide)
    cases k with
    | nil => rfl
    | cons t k => simp_all [Stmt.finish, Place.skipSemicolon, ending, Token.headKind]

end Ending

namespace ReadsStmt

lemma expression {lexeme : String} {value : Expr} (hst : st.Faithful) (h : st.Reads value) :
    st.ReadsStmt (.expression lexeme value) := by
  intro k hk hopen
  obtain ⟨value', last, hread, he⟩ := h.whole hst (ends_ending hk (hopen rfl))
  have hclause : st.clause (.expression lexeme value) = st.expr .whole value := by
    simp [Style.clause, Style.expr]
  rw [hclause]
  cases hts : st.expr .whole value ++ (ending (st.semicolon (.expression lexeme value)) ++ k) with
  | nil =>
    rw [hts, Expr.read_nil] at hread
    exact absurd hread fail_ne_done
  | cons t ts =>
    rw [hts] at hread
    have hkind := Expr.headKind_of_read hread
    obtain ⟨last', hfinish⟩ := finish_ending (.expression t.literal value') last hk
    refine ⟨t, ts, .expression t.literal value', last', rfl, List.mem_append_left _ hkind, ?_, ?_⟩
    · rw [Stmt.read_of_expr hread (ending_ne_assign hk), hfinish]
    · rw [Stmt.canonical, Stmt.canonical, he]

lemma giveBack {lexeme : String} {value : Expr} (hst : st.Faithful) (h : st.Reads value) :
    st.ReadsStmt (.giveBack lexeme value) := by
  intro k hk hopen
  obtain ⟨value', last, hvalue, he⟩ := h.whole hst (ends_ending hk (hopen rfl))
  obtain ⟨last', hfinish⟩ :=
    finish_ending (.giveBack TokenKind.returnWord.spelling value') last hk
  have hread : Stmt.read TokenKind.returnWord.written
      (st.expr .whole value ++ (ending (st.semicolon (.giveBack lexeme value)) ++ k)) =
      done (.giveBack TokenKind.returnWord.spelling value') ⟨last', k⟩ := by
    refine (Stmt.read_returnWord _ _).trans ?_
    rw [hvalue, onSuccess_done, hfinish]
  refine ⟨_, _, _, last', rfl, by decide, hread, ?_⟩
  rw [Stmt.canonical, Stmt.canonical, he]

lemma assign {name : String} {value : Expr} (hst : st.Faithful) (h : st.Reads value) :
    st.ReadsStmt (.assign name value) := by
  intro k hk hopen
  obtain ⟨value', last, hvalue, he⟩ := h.whole hst (ends_ending hk (hopen rfl))
  obtain ⟨last', hfinish⟩ := finish_ending (.assign name value') last hk
  have hread : Stmt.read ⟨.identifier, name⟩ (TokenKind.assign.written ::
      (st.expr .whole value ++ (ending (st.semicolon (.assign name value)) ++ k))) =
      done (.assign name value') ⟨last', k⟩ := by
    refine (Stmt.read_assignment name _ _).trans ?_
    rw [hvalue, onSuccess_done, hfinish]
  refine ⟨_, _, _, last', rfl, by simp [Expr.operandKinds], hread, ?_⟩
  rw [Stmt.canonical, Stmt.canonical, he]

lemma declare {lexeme : String} {constant : Bool} {name : String} {type : NumericType}
    {value : Expr} (hst : st.Faithful) (h : st.Reads value) :
    st.ReadsStmt (.declare lexeme constant name type value) := by
  intro k hk _
  obtain ⟨value', last, hvalue, he⟩ :=
    h.whole hst (k := TokenKind.semicolon.written :: k) (.written ⟨rfl, nofun⟩)
  have hdeclaration : Stmt.readDeclaration (declarationWord constant).written constant
      (⟨.identifier, name⟩ :: TokenKind.colon.written :: type.kind.written ::
        TokenKind.assign.written :: (st.expr .whole value ++ TokenKind.semicolon.written :: k)) =
      done (.declare (declarationWord constant).spelling constant name type value')
        ⟨.semicolon, k⟩ := by
    rw [Stmt.readDeclaration_eq, expect_cons, onSuccess_done, expect_written, onSuccess_done,
      expectType_written, onSuccess_done, expect_written, onSuccess_done, hvalue, onSuccess_done,
      expect_written, onSuccess_done]
    rfl
  have hts : st.clause (.declare lexeme constant name type value) ++
      (ending (st.semicolon (.declare lexeme constant name type value)) ++ k) =
      (declarationWord constant).written :: ⟨.identifier, name⟩ :: TokenKind.colon.written ::
        type.kind.written :: TokenKind.assign.written ::
          (st.expr .whole value ++ TokenKind.semicolon.written :: k) := by
    rw [hst.declaration]
    rfl
  have hread := fun ts => Stmt.read_declarationWord constant (declarationWord constant).spelling ts
  refine ⟨_, _, _, .semicolon, hts, by cases constant <;> decide, (hread _).trans hdeclaration, ?_⟩
  rw [Stmt.canonical, Stmt.canonical, he]

lemma block {b : Block} (hb : st.ReadsBlock b) : st.ReadsStmt (.block b) := by
  intro k hk _
  obtain ⟨b', last, hblock, heb⟩ := hb TokenKind.beginWord.written
    (ending (st.semicolon (.block b)) ++ k)
  obtain ⟨last', hfinish⟩ := finish_ending (.block b') last hk
  have hread : Stmt.read TokenKind.beginWord.written
      (st.body b ++ (ending (st.semicolon (.block b)) ++ k)) = done (.block b') ⟨last', k⟩ := by
    refine (Stmt.read_beginWord _ _).trans ?_
    rw [← TokenKind.written, hblock, andThen_clean, hfinish]
  refine ⟨_, _, _, last', rfl, by decide, hread, ?_⟩
  rw [Stmt.canonical, Stmt.canonical, heb]

lemma whileLoop {lexeme : String} {condition : Expr} {b : Block} (hst : st.Faithful)
    (hc : st.Reads condition) (hb : st.ReadsBlock b) :
    st.ReadsStmt (.whileLoop lexeme condition b) := by
  intro k hk _
  obtain ⟨b', last, hblock, heb⟩ := hb TokenKind.doWord.written
    (ending (st.semicolon (.whileLoop lexeme condition b)) ++ k)
  obtain ⟨c', _, hcondition, hec⟩ := hc.whole hst (k := TokenKind.doWord.written ::
    (st.body b ++ (ending (st.semicolon (.whileLoop lexeme condition b)) ++ k)))
    (.written ⟨rfl, nofun⟩)
  obtain ⟨last', hfinish⟩ :=
    finish_ending (.whileLoop TokenKind.whileWord.spelling c' b') last hk
  have hts : st.clause (.whileLoop lexeme condition b) ++
      (ending (st.semicolon (.whileLoop lexeme condition b)) ++ k) =
      TokenKind.whileWord.written :: (st.expr .whole condition ++ TokenKind.doWord.written ::
        (st.body b ++ (ending (st.semicolon (.whileLoop lexeme condition b)) ++ k))) := by
    simp [Style.clause, Style.expr]
  refine ⟨_, _, .whileLoop TokenKind.whileWord.spelling c' b', last', hts, by decide,
    (Stmt.read_whileWord _ _).trans ?_, ?_⟩
  · rw [hcondition, onSuccess_done, expect_written, onSuccess_done, hblock, andThen_clean, hfinish]
  · rw [Stmt.canonical, Stmt.canonical, hec, heb]

lemma forLoop {lexeme counter : String} {first last : Expr} {b : Block} (hst : st.Faithful)
    (hf : st.Reads first) (hl : st.Reads last) (hb : st.ReadsBlock b) :
    st.ReadsStmt (.forLoop lexeme counter first last b) := by
  intro k hk _
  obtain ⟨b', kind, hblock, heb⟩ := hb TokenKind.doWord.written
    (ending (st.semicolon (.forLoop lexeme counter first last b)) ++ k)
  obtain ⟨l', _, hlast, hel⟩ := hl.whole hst (k := TokenKind.doWord.written ::
    (st.body b ++ (ending (st.semicolon (.forLoop lexeme counter first last b)) ++ k)))
    (.written ⟨rfl, nofun⟩)
  obtain ⟨f', _, hfirst, hef⟩ := hf.whole hst (k := TokenKind.toWord.written ::
    (st.expr .whole last ++ TokenKind.doWord.written :: (st.body b ++
      (ending (st.semicolon (.forLoop lexeme counter first last b)) ++ k)))) (.written ⟨rfl, nofun⟩)
  obtain ⟨kind', hfinish⟩ :=
    finish_ending (.forLoop TokenKind.forWord.spelling counter f' l' b') kind hk
  have hts : st.clause (.forLoop lexeme counter first last b) ++
      (ending (st.semicolon (.forLoop lexeme counter first last b)) ++ k) =
      TokenKind.forWord.written :: ⟨.identifier, counter⟩ :: TokenKind.assign.written ::
        (st.expr .whole first ++ TokenKind.toWord.written :: (st.expr .whole last ++
          TokenKind.doWord.written :: (st.body b ++
            (ending (st.semicolon (.forLoop lexeme counter first last b)) ++ k)))) := by
    simp [Style.clause, Style.expr]
  refine ⟨_, _, .forLoop TokenKind.forWord.spelling counter f' l' b', kind', hts, by decide,
    (Stmt.read_forWord _ _).trans ?_, ?_⟩
  · rw [expect_cons, onSuccess_done, expect_written, onSuccess_done, hfirst, onSuccess_done,
      expect_written, onSuccess_done, hlast, onSuccess_done, expect_written, onSuccess_done,
      hblock, andThen_clean, hfinish]
  · rw [Stmt.canonical, Stmt.canonical, hef, hel, heb]

end ReadsStmt

lemma clause_ne_nil (s : Stmt) : st.clause s ≠ [] := by
  cases s with
  | expression _ value =>
    rw [Style.clause]
    exact enclose_ne_nil (st.core_ne_nil value) _
  | _ => simp [Style.clause]

namespace ReadsStmts

lemma nil : st.ReadsStmts [] := by
  intro k
  refine ⟨(by decide : TokenKind.endWord ∈ Grammar.followKinds), [], ?_, rfl⟩
  rw [Style.statements, List.nil_append, Stmt.readMany_last true _ k (by decide)]
  rfl

lemma cons {s : Stmt} {ss : List Stmt} (hapart : st.Apart (s :: ss)) (h : st.ReadsStmt s)
    (hs : st.ReadsStmts ss) : st.ReadsStmts (s :: ss) := by
  intro k
  obtain ⟨hfollow, ss', hreads, hss⟩ := hs k
  have hopen : s.endsOpen = true → st.semicolon s = true ∨
      Grammar.Lowest (st.statements ss ++ TokenKind.endWord.written :: k) := by
    intro hends
    cases ss with
    | nil => exact .inr rfl
    | cons next after =>
      refine (hapart [] s next after rfl hends).imp_right fun hlowest => ?_
      rw [Style.statements, List.append_assoc, List.append_assoc]
      rw [Grammar.Lowest] at hlowest ⊢
      rw [Token.headKind_append (clause_ne_nil next), hlowest]
  obtain ⟨t, ts, s', last, hts, hkind, hread, hes⟩ := h _ hfollow hopen
  have hall : st.statements (s :: ss) ++ TokenKind.endWord.written :: k = t :: ts := by
    rw [← hts, Style.statements, List.append_assoc, List.append_assoc]
  have hmore := (Stmt.readMany_cons_eq_iff (Grammar.isLast_eq_false hkind)).2
    ⟨s', ⟨last, _⟩, ss', hread, hreads, rfl⟩
  rw [hall]
  refine ⟨?_, s' :: ss', hmore, ?_⟩
  · exact List.mem_cons_of_mem _ (List.mem_cons_of_mem _ hkind)
  · rw [Stmt.listCanonical, Stmt.listCanonical, hes, hss]

end ReadsStmts

lemma ReadsStmts.block {opener : Token} {ss : List Stmt} (h : st.ReadsStmts ss) :
    st.ReadsBlock (.mk opener ss) := by
  intro opener' k
  obtain ⟨_, ss', hreads, hss⟩ := h k
  refine ⟨.mk opener' ss', .endWord, ?_, ?_⟩
  · rw [Block.read_eq, Style.body, List.append_assoc, List.singleton_append, hreads, andThen_clean]
  · intro kind
    rw [Block.canonical, Block.canonical, hss]

-- Induction on the tree, one lemma above for each kind of node.
mutual
lemma reads (hst : st.Faithful) : ∀ e : Expr, (∀ n ∈ e.nodes, st.Fits n) → st.Reads e
  | .named name, _ => .leaf rfl (Expr.readOperand_identifier name) rfl
  | .integer lexeme value, h =>
    .leaf rfl (fun k => Expr.readOperand_integer_some k (h _ (List.mem_singleton_self _))) rfl
  | .real lexeme value, h =>
    .leaf rfl (fun k => Expr.readOperand_real_some k (h _ (List.mem_singleton_self _))) rfl
  | .boolean lexeme true, _ =>
    .leaf rfl (Expr.readOperand_trueWord TokenKind.trueWord.spelling) rfl
  | .boolean lexeme false, _ =>
    .leaf rfl (Expr.readOperand_falseWord TokenKind.falseWord.spelling) rfl
  | .string value, _ => .leaf rfl (Expr.readOperand_text value) rfl
  | .prefixed lexeme operator right, h => by
    simp only [Expr.nodes, List.forall_mem_cons] at h
    exact .prefixed hst (reads hst right h.2)
  | .infixed lexeme operator left right, h => by
    simp only [Expr.nodes, List.forall_mem_cons, List.forall_mem_append] at h
    exact .infixed hst (reads hst left h.2.1) (reads hst right h.2.2)
  | .conditional lexeme condition consequence none, h => by
    simp only [Expr.nodes, List.forall_mem_cons, List.forall_mem_append] at h
    exact .conditional hst (reads hst condition h.2.1) (readsBlock hst consequence h.2.2)
  | .conditional lexeme condition consequence (some other), h => by
    simp only [Expr.nodes, List.forall_mem_cons, List.forall_mem_append] at h
    exact .alternative hst (reads hst condition h.2.1.1) (readsBlock hst consequence h.2.1.2)
      (readsBlock hst other h.2.2)
  | .procedure header block, h => by
    simp only [Expr.nodes, List.forall_mem_cons] at h
    exact .procedure (readsBlock hst block h.2)
  | .call lexeme callee args, h => by
    simp only [Expr.nodes, List.forall_mem_cons, List.forall_mem_append] at h
    exact .call hst (reads hst callee h.2.1) (readsAll hst args h.2.2)

lemma readsAll (hst : st.Faithful) : ∀ es : List Expr, (∀ n ∈ Expr.listNodes es, st.Fits n) →
    ∀ e ∈ es, st.Reads e
  | [], _ => fun _ he => nomatch he
  | e :: es, h => by
    simp only [Expr.listNodes, List.forall_mem_append] at h
    exact List.forall_mem_cons.2 ⟨reads hst e h.1, readsAll hst es h.2⟩

lemma readsStmt (hst : st.Faithful) : ∀ s : Stmt, (∀ n ∈ s.nodes, st.Fits n) → st.ReadsStmt s
  | .declare lexeme constant name type value, h => .declare hst (reads hst value h)
  | .assign name value, h => .assign hst (reads hst value h)
  | .giveBack lexeme value, h => .giveBack hst (reads hst value h)
  | .expression lexeme value, h => .expression hst (reads hst value h)
  | .block body, h => .block (readsBlock hst body h)
  | .whileLoop lexeme condition body, h => by
    simp only [Stmt.nodes, List.forall_mem_append] at h
    exact .whileLoop hst (reads hst condition h.1) (readsBlock hst body h.2)
  | .forLoop lexeme counter first last body, h => by
    simp only [Stmt.nodes, List.forall_mem_append] at h
    exact .forLoop hst (reads hst first h.1.1) (reads hst last h.1.2) (readsBlock hst body h.2)

lemma readsStmts (hst : st.Faithful) : ∀ ss : List Stmt, (∀ n ∈ Stmt.listNodes ss, st.Fits n) →
    st.Apart ss → st.ReadsStmts ss
  | [], _, _ => .nil
  | s :: ss, h, hapart => by
    simp only [Stmt.listNodes, List.forall_mem_append] at h
    exact .cons hapart (readsStmt hst s h.1) (readsStmts hst ss h.2 hapart.tail)

lemma readsBlock (hst : st.Faithful) : ∀ b : Block, (∀ n ∈ b.nodes, st.Fits n) → st.ReadsBlock b
  | .mk opener ss, h => by
    simp only [Block.nodes, List.forall_mem_cons] at h
    exact (readsStmts hst ss h.2 h.1).block
end

end Style

end MiniPascal
