import MiniPascal.Proofs.Store

namespace MiniPascal

namespace Store

inductive Built : Store → Prop
  | empty : Built ⟨#[]⟩
  | root {s} : Built s → Built (s.push none)
  | child {s i} : Built s → i < s.size → Built (s.push (some i))
  | define {s i} (name : String) (v : Value) : Built s → i < s.size → Built (s.define i name v)
  | declare {s i} (name : String) (v : Value) (constant : Bool) : Built s → i < s.size →
    Built (s.declare i name v constant).2
  | assign {s i} (name : String) (v : Value) : Built s → i < s.size → Built (s.assign i name v).2

/-- `holder` is the first scope to bind the name on the way from a scope over its parents. -/
inductive Nearest (s : Store) (name : String) : ScopeId → ScopeId → Prop
  | here {i} : name ∈ s.names i → Nearest s name i i
  | outer {i parent holder} : name ∉ s.names i → s.parent? i = some parent →
    Nearest s name parent holder → Nearest s name i holder

def Ordered (s : Store) : Prop := ∀ ⦃i parent⦄, s.parent? i = some parent → parent < i

variable {s t : Store} {i j parent holder : ScopeId} {name other : String} {b : Binding}
  {v w : Value}

lemma not_mem_names : name ∉ s.names i ↔ s.bindingAt? i name = none := by
  rw [mem_names, Option.eq_none_iff_forall_ne_some, not_exists]

lemma lt_size_of_mem_names (h : name ∈ s.names i) : i < s.size := by
  by_contra hle
  obtain ⟨b, hb⟩ := mem_names.1 h
  rw [bindingAt?_of_size_le (Nat.le_of_not_lt hle)] at hb
  cases hb

namespace Ordered

lemma put (h : s.Ordered) : (s.put j name b).Ordered := by
  intro i parent hi
  rw [parent?_put] at hi
  exact h hi

lemma push {parent : Option ScopeId} (h : s.Ordered) (hlt : ∀ p ∈ parent, p < s.size) :
    (s.push parent).Ordered := by
  intro i p hi
  rcases Nat.lt_trichotomy i s.size with hi' | rfl | hi'
  · rw [parent?_push hi'] at hi
    exact h hi
  · rw [parent?, scopes_push_size] at hi
    exact hlt p hi
  · have hnone : (s.push parent).scopes[i]? = none :=
      Array.getElem?_eq_none ((size_push parent).trans_le hi')
    rw [parent?, hnone] at hi
    cases hi

end Ordered

lemma Built.ordered (h : s.Built) : s.Ordered := by
  induction h with
  | empty =>
    intro i parent h
    cases h
  | root _ ih =>
    apply ih.push
    rintro p ⟨⟩
  | child _ hi ih =>
    apply ih.push
    rintro p ⟨⟩
    exact hi
  | define name v _ _ ih => exact ih.put
  | declare name v constant _ _ ih =>
    rcases declare_cases _ _ name v constant with h | ⟨_, h⟩
    · rwa [h]
    · rw [h]
      exact ih.put
  | assign name v _ _ ih =>
    rcases assign_cases _ _ name v with h | ⟨_, _, _, _, _, h⟩
    · rwa [h]
    · rw [h]
      exact ih.put

lemma find?_eq (hs : s.Ordered) : s.find? i name =
    match s.bindingAt? i name with
    | some b => some (i, b)
    | none => (s.parent? i).bind (s.find? · name) := by
  rw [find?, chain, bindingAt?, parent?]
  cases hscope : s.scopes[i]? with
  | none => rfl
  | some scope =>
    simp only [Option.bind_some]
    cases hparent : scope.parent with
    | none =>
      simp only [List.findSome?_cons, List.findSome?_nil, bindingAt?, hscope, Option.bind_some]
      cases scope.find? name <;> rfl
    | some parent =>
      have hlt : parent < i := hs (by rw [parent?, hscope]; exact hparent)
      simp only [hlt, if_true, List.findSome?_cons, bindingAt?, hscope, Option.bind_some, find?]
      cases scope.find? name <;> rfl

namespace Nearest

lemma find?_eq_some (hs : s.Ordered) (h : s.Nearest name i holder) :
    ∃ b, s.bindingAt? holder name = some b ∧ s.find? i name = some (holder, b) := by
  induction h with
  | here hname =>
    obtain ⟨b, hb⟩ := mem_names.1 hname
    refine ⟨b, hb, ?_⟩
    rw [find?_eq hs, hb]
  | outer hname hparent _ ih =>
    obtain ⟨b, hb, hfind⟩ := ih
    refine ⟨b, hb, ?_⟩
    rw [find?_eq hs, not_mem_names.1 hname, hparent]
    exact hfind

lemma of_find? (hs : s.Ordered) (h : s.find? i name = some (holder, b)) :
    s.Nearest name i holder := by
  induction i using Nat.strongRecOn with
  | ind i ih =>
    rw [find?_eq hs] at h
    split at h
    · next hb =>
      cases h
      exact .here (mem_names.2 ⟨_, hb⟩)
    · next hb =>
      obtain ⟨parent, hparent, hfind⟩ := Option.bind_eq_some_iff.1 h
      exact .outer (not_mem_names.2 hb) hparent (ih parent (hs hparent) hfind)

lemma mem_names (h : s.Nearest name i holder) : name ∈ s.names holder := by
  induction h with
  | here hname => exact hname
  | outer _ _ _ ih => exact ih

lemma unique (h : s.Nearest name i holder) (h' : s.Nearest name i j) : holder = j := by
  induction h with
  | here hname =>
    cases h' with
    | here _ => rfl
    | outer hnone _ _ => exact absurd hname hnone
  | outer hnone hparent _ ih =>
    cases h' with
    | here hname => exact absurd hname hnone
    | outer _ hparent' h' =>
      cases hparent.symm.trans hparent'
      exact ih h'

lemma congr (hnames : ∀ j, name ∈ s.names j ↔ name ∈ t.names j)
    (hparent : ∀ j, s.parent? j = t.parent? j) (h : s.Nearest name i holder) :
    t.Nearest name i holder := by
  induction h with
  | here hname => exact .here ((hnames _).1 hname)
  | outer hnone hp _ ih =>
    exact .outer (fun hname => hnone ((hnames _).2 hname)) ((hparent _).symm.trans hp) ih

end Nearest

lemma find?_eq_none_iff (hs : s.Ordered) :
    s.find? i name = none ↔ ∀ holder, ¬ s.Nearest name i holder := by
  constructor
  · intro hnone holder h
    obtain ⟨b, _, hfind⟩ := h.find?_eq_some hs
    rw [hnone] at hfind
    cases hfind
  · intro h
    rw [Option.eq_none_iff_forall_ne_some]
    rintro ⟨holder, b⟩ hfind
    exact h holder (.of_find? hs hfind)

/-- In `t` the scope `holder` binds the name to `b`. Nothing else has changed since `s`, and the new
binding is what the name means wherever `holder` is the first scope to bind it. -/
structure Rebinds (s t : Store) (holder : ScopeId) (name : String) (b : Binding) : Prop where
  binding : t.bindingAt? holder name = some b
  others {j : ScopeId} {other : String} :
    j ≠ holder ∨ other ≠ name → t.bindingAt? j other = s.bindingAt? j other
  parent (j : ScopeId) : t.parent? j = s.parent? j
  seen {j : ScopeId} : t.Nearest name j holder → t.get? j name = some b.value
  unseen {j : ScopeId} {other : String} :
    other ≠ name ∨ ¬ t.Nearest name j holder → t.get? j other = s.get? j other

lemma get?_put_of_unseen (hs : s.Ordered)
    (h : other ≠ name ∨ ¬ (s.put holder name b).Nearest name j holder) :
    (s.put holder name b).get? j other = s.get? j other := by
  induction j using Nat.strongRecOn with
  | ind j ih =>
    have hkept : (s.put holder name b).bindingAt? j other = s.bindingAt? j other := by
      rw [bindingAt?_put, if_neg]
      rintro ⟨rfl, rfl, hlt⟩
      refine h.resolve_left (not_not_intro rfl) (.here (mem_names_put.2 (.inl ⟨rfl, rfl, hlt⟩)))
    rw [get?, get?, find?_eq hs.put, find?_eq hs, hkept, parent?_put]
    cases hb : s.bindingAt? j other with
    | some c => rfl
    | none =>
      cases hp : s.parent? j with
      | none => rfl
      | some p =>
        apply ih p (hs hp)
        by_cases hname : other = name
        · subst hname
          refine .inr fun hnear => h.resolve_left (not_not_intro rfl) ?_
          exact .outer (not_mem_names.2 (hkept.trans hb)) (parent?_put.trans hp) hnear
        · exact .inl hname

lemma rebinds_put (hs : s.Ordered) (hlt : holder < s.size) :
    Rebinds s (s.put holder name b) holder name b := by
  have hbinding : (s.put holder name b).bindingAt? holder name = some b := by
    rw [bindingAt?_put, if_pos ⟨rfl, rfl, hlt⟩]
  refine ⟨hbinding, fun h => ?_, fun _ => parent?_put, fun h => ?_, get?_put_of_unseen hs⟩
  · rw [bindingAt?_put, if_neg]
    rintro ⟨hj, hother, _⟩
    exact h.elim (absurd hj) (absurd hother)
  · obtain ⟨c, hc, hfind⟩ := h.find?_eq_some hs.put
    cases hbinding.symm.trans hc
    rw [get?, hfind]
    rfl

lemma get?_eq_some_iff (hs : s.Ordered) : s.get? i name = some v ↔
    ∃ holder b, s.Nearest name i holder ∧ s.bindingAt? holder name = some b ∧ b.value = v := by
  rw [get?, Option.map_eq_some_iff]
  constructor
  · rintro ⟨⟨holder, b⟩, hfind, hv⟩
    exact ⟨holder, b, .of_find? hs hfind, (find?_eq_some hfind).2, hv⟩
  · rintro ⟨holder, b, h, hb, hv⟩
    obtain ⟨c, hc, hfind⟩ := h.find?_eq_some hs
    cases hb.symm.trans hc
    exact ⟨(holder, b), hfind, hv⟩

lemma assign_of_nearest (hs : s.Ordered) (h : s.Nearest name i holder)
    (hb : s.bindingAt? holder name = some b) : s.assign i name v =
      if b.constant then (some (.constantAssignment name), s)
      else (none, s.put holder name ⟨v, false⟩) := by
  obtain ⟨c, hc, hfind⟩ := h.find?_eq_some hs
  cases hb.symm.trans hc
  rw [assign, hfind]

lemma assign_of_unbound (hs : s.Ordered) (h : ∀ holder, ¬ s.Nearest name i holder) :
    s.assign i name v = (some (.notFound name), s) := by
  rw [assign, (find?_eq_none_iff hs).2 h]

lemma assign_succeeds_iff (hs : s.Ordered) : (s.assign i name v).1 = none ↔
    ∃ holder w, s.Nearest name i holder ∧ s.bindingAt? holder name = some ⟨w, false⟩ := by
  by_cases h : ∃ holder, s.Nearest name i holder
  · obtain ⟨holder, h⟩ := h
    obtain ⟨⟨w, constant⟩, hb⟩ := mem_names.1 h.mem_names
    rw [assign_of_nearest hs h hb]
    cases constant with
    | false => exact ⟨fun _ => ⟨holder, w, h, hb⟩, fun _ => rfl⟩
    | true =>
      constructor
      · intro hnone
        cases hnone
      · rintro ⟨other, w', h', hb'⟩
        cases h.unique h'
        cases hb.symm.trans hb'
  · rw [not_exists] at h
    rw [assign_of_unbound hs h]
    constructor
    · intro hnone
      cases hnone
    · rintro ⟨holder, _, hnear, _⟩
      exact absurd hnear (h holder)

lemma rebinds_assign (hs : s.Ordered) (h : s.Nearest name i holder)
    (hb : s.bindingAt? holder name = some ⟨w, false⟩) :
    Rebinds s (s.assign i name v).2 holder name ⟨v, false⟩ ∧
      ∀ j, (s.assign i name v).2.Nearest name j holder ↔ s.Nearest name j holder := by
  rw [assign_of_nearest hs h hb]
  have hlt := lt_size_of_mem_names h.mem_names
  have hnames (j : ScopeId) :
      name ∈ (s.put holder name ⟨v, false⟩).names j ↔ name ∈ s.names j := by
    rw [mem_names_put]
    refine or_iff_right_of_imp ?_
    rintro ⟨rfl, -, -⟩
    exact h.mem_names
  exact ⟨rebinds_put hs hlt, fun j => ⟨.congr hnames fun _ => parent?_put,
    .congr (fun j => (hnames j).symm) fun _ => parent?_put.symm⟩⟩

lemma assign_of_fails (h : (s.assign i name v).1 ≠ none) : (s.assign i name v).2 = s := by
  revert h
  rw [assign]
  split
  · exact fun _ => rfl
  split
  · exact fun _ => rfl
  · exact fun h => absurd rfl h

lemma declare_fails_iff {constant : Bool} : (s.declare i name v constant).1 ≠ none ↔
    ∃ w, s.bindingAt? i name = some ⟨w, true⟩ := by
  rw [declare]
  cases s.bindingAt? i name with
  | none => simp
  | some b => obtain ⟨w, _ | _⟩ := b <;> simp

lemma declare_of_fails {constant : Bool} (h : (s.declare i name v constant).1 ≠ none) :
    (s.declare i name v constant).2 = s := by
  revert h
  rw [declare]
  split
  · exact fun _ => rfl
  · exact fun h => absurd rfl h

lemma rebinds_declare (hs : s.Ordered) (hi : i < s.size) {constant : Bool}
    (h : (s.declare i name v constant).1 = none) :
    Rebinds s (s.declare i name v constant).2 i name ⟨v, constant⟩ := by
  rw [declare] at h ⊢
  split at h
  · cases h
  · next hvariable =>
    rw [if_neg hvariable]
    exact rebinds_put hs hi

/-- What a name means is the nearest binding of it. Looking it up gives its value, assigning to it
changes that binding unless it is a constant, and declaring it puts a binding into the scope itself
unless a constant is there. The change is seen wherever that binding is the nearest one, and nothing
changes if it is refused. -/
theorem meanings_agree (hs : s.Built) (hi : i < s.size) (name : String) (v : Value) :
    (∀ w, s.get? i name = some w ↔
      ∃ holder b, s.Nearest name i holder ∧ s.bindingAt? holder name = some b ∧ b.value = w) ∧
    ((s.assign i name v).1 = none ↔
      ∃ holder w, s.Nearest name i holder ∧ s.bindingAt? holder name = some ⟨w, false⟩) ∧
    (∀ holder, s.Nearest name i holder → (s.assign i name v).1 = none →
      Rebinds s (s.assign i name v).2 holder name ⟨v, false⟩ ∧
        ∀ j, (s.assign i name v).2.Nearest name j holder ↔ s.Nearest name j holder) ∧
    ((s.assign i name v).1 ≠ none → (s.assign i name v).2 = s) ∧
    ∀ constant,
      ((s.declare i name v constant).1 ≠ none ↔ ∃ w, s.bindingAt? i name = some ⟨w, true⟩) ∧
      ((s.declare i name v constant).1 = none →
        Rebinds s (s.declare i name v constant).2 i name ⟨v, constant⟩) ∧
      ((s.declare i name v constant).1 ≠ none → (s.declare i name v constant).2 = s) := by
  have hordered := hs.ordered
  refine ⟨fun w => get?_eq_some_iff hordered, assign_succeeds_iff hordered, ?_, assign_of_fails,
    fun constant => ⟨declare_fails_iff, rebinds_declare hordered hi, declare_of_fails⟩⟩
  intro holder h hsucceeds
  obtain ⟨other, w, h', hb⟩ := (assign_succeeds_iff hordered).1 hsucceeds
  cases h.unique h'
  exact rebinds_assign hordered h hb

def shadowed : Store :=
  ⟨#[⟨[("x", ⟨.integer 1, false⟩), ("y", ⟨.integer 2, true⟩)], none⟩,
    ⟨[("x", ⟨.integer 3, false⟩)], some 0⟩, ⟨[], some 1⟩, ⟨[], some 0⟩]⟩

lemma built_shadowed : shadowed.Built := by
  have hroot := Built.empty.root.define "x" (.integer 1) (i := 0) (by decide)
  have hconstant := hroot.declare "y" (.integer 2) true (i := 0) (by decide)
  have hinner := (hconstant.child (i := 0) (by decide)).define "x" (.integer 3) (i := 1) (by decide)
  exact (hinner.child (i := 1) (by decide)).child (i := 0) (by decide)

theorem meanings_agree_shadowed :
    shadowed.Built ∧ 2 < shadowed.size ∧ 3 < shadowed.size ∧
      (shadowed.assign 2 "x" (.integer 4)).2.get? 2 "x" = some (.integer 4) ∧
      (shadowed.assign 2 "x" (.integer 4)).2.get? 3 "x" = some (.integer 1) ∧
      (shadowed.assign 2 "y" (.integer 4)).2 = shadowed ∧
      (shadowed.declare 2 "y" (.integer 4) false).2.get? 2 "y" = some (.integer 4) := by
  have hx₂ : shadowed.Nearest "x" 2 1 := .outer (by decide) rfl (.here (by decide))
  have hx₃ : shadowed.Nearest "x" 3 0 := .outer (by decide) rfl (.here (by decide))
  have hy₂ : shadowed.Nearest "y" 2 0 :=
    .outer (by decide) rfl (.outer (by decide) rfl (.here (by decide)))
  obtain ⟨-, hsucceeds, hassign, -⟩ :=
    meanings_agree built_shadowed (i := 2) (by decide) "x" (.integer 4)
  obtain ⟨-, hsucceeds', -, hrefused, hdeclare⟩ :=
    meanings_agree built_shadowed (i := 2) (by decide) "y" (.integer 4)
  obtain ⟨hget, -⟩ := meanings_agree built_shadowed (i := 3) (by decide) "x" (.integer 4)
  obtain ⟨hrebinds, hnearest⟩ := hassign 1 hx₂ (hsucceeds.2 ⟨1, _, hx₂, rfl⟩)
  refine ⟨built_shadowed, by decide, by decide, hrebinds.seen ((hnearest 2).2 hx₂), ?_, ?_, ?_⟩
  · rw [hrebinds.unseen (.inr fun h => ?_)]
    · exact (hget _).2 ⟨0, _, hx₃, rfl, rfl⟩
    · cases ((hnearest 3).1 h).unique hx₃
  · apply hrefused
    rw [Ne, hsucceeds']
    rintro ⟨holder, w, h, hw⟩
    cases h.unique hy₂
    cases hw
  · exact ((hdeclare false).2.1 rfl).seen (.here (by decide))

end Store

end MiniPascal
