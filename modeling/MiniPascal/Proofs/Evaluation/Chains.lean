import MiniPascal.Proofs.Evaluation.Reach
import MiniPascal.Proofs.Evaluation.Regime
import MiniPascal.Proofs.Evaluation.Stages
import MiniPascal.Proofs.Store.Chains

namespace MiniPascal

lemma Value.Inside.mono {S T : Set ScopeId} {v : Value} (h : v.Inside S) (hST : S ⊆ T) :
    v.Inside T :=
  fun p hp => hST (h p hp)

namespace Store

structure Founded (base s : Store) : Prop where
  ordered : s.Ordered
  bound : s.BindsOnly (Value.Inside (Set.Iio s.size))
  size : base.size ≤ s.size
  parent {i : ScopeId} : i < base.size → s.parent? i = base.parent? i

namespace Founded

variable {base s : Store} {c i : ScopeId} {name : String} {v : Value} {constant : Bool}

lemma initial : Founded .initial .initial where
  ordered := by
    intro i parent h
    obtain ⟨scope, hscope, hparent⟩ := Option.bind_eq_some_iff.1 h
    cases Array.mem_singleton.1 (Array.mem_of_getElem? hscope)
    cases hparent
  bound := .initial
  size := Nat.le_refl _
  parent _ := rfl

lemma self (h : Founded base s) : Founded s s := ⟨h.ordered, h.bound, Nat.le_refl _, fun _ => rfl⟩

lemma trans {t : Store} (h : Founded base s) (h' : Founded s t) : Founded base t where
  ordered := h'.ordered
  bound := h'.bound
  size := h.size.trans h'.size
  parent hi := (h'.parent (hi.trans_le h.size)).trans (h.parent hi)

lemma put (h : Founded base s) (hv : v.Inside (Set.Iio s.size)) :
    Founded base (s.put i name ⟨v, constant⟩) where
  ordered := h.ordered.put
  bound := by
    rw [size_put]
    exact h.bound.put hv constant
  size := h.size.trans_eq size_put.symm
  parent hi := parent?_put.trans (h.parent hi)

lemma declare (h : Founded base s) (hv : v.Inside (Set.Iio s.size)) :
    Founded base (s.declare i name v constant).2 := by
  rcases declare_cases s i name v constant with hs | ⟨_, hs⟩
  · rwa [hs]
  · rw [hs]
    exact h.put hv

lemma assign (h : Founded base s) (hv : v.Inside (Set.Iio s.size)) :
    Founded base (s.assign i name v).2 := by
  rcases assign_cases s i name v with hs | ⟨_, _, _, _, _, hs⟩
  · rwa [hs]
  · rw [hs]
    exact h.put hv

lemma push {parent : Option ScopeId} (h : Founded base s) (hparent : ∀ p ∈ parent, p < s.size) :
    Founded base (s.push parent) where
  ordered := h.ordered.push hparent
  bound j other b hb := by
    have hle : s.size ≤ (s.push parent).size := (size_lt_push s parent).le
    exact (h.bound.push parent j other b hb).mono (Set.Iio_subset_Iio hle)
  size := h.size.trans (size_lt_push s parent).le
  parent hj := (parent?_push (hj.trans_le h.size)).trans (h.parent hj)

end Founded

end Store

open Store (Founded)

def Discipline.founded (base : Store) : Discipline where
  inv := Founded base
  live s c := c < s.size
  val s v := v.Inside (Set.Iio s.size)
  held s v := v.Inside (Set.Iio s.size)
  rel _ s t := s.size ≤ t.size
  refl := Nat.le_refl _
  trans := Nat.le_trans
  live_mono hst hc := hc.trans_le hst
  val_mono hst hv := hv.mono (Set.Iio_subset_Iio hst)
  held_mono hst hv := hv.mono (Set.Iio_subset_Iio hst)
  plain := .of_isPlain
  hold hv _ := hv
  returned := .returned
  unwrap := .unwrap
  closure := Value.inside_procedure_iff.1
  close _ _ _ hc := Value.inside_procedure_iff.2 hc
  get h _ hget := h.bound.get hget
  declare _ _ h _ hv := ⟨h.declare hv, (h.self.declare hv).size⟩
  assign _ h _ hv := ⟨h.assign hv, (h.self.assign hv).size⟩
  define _ h _ _ hv := ⟨h.put hv, (h.self.put hv).size, trivial⟩
  scope {c s} h hc := by
    refine ⟨h.push ?_, s.size_lt_push _, trivial⟩
    rintro p ⟨⟩
    exact hc
  leave {c d s t} hst := (s.size_lt_push (some d)).le.trans hst

namespace Machine

/-- What may be done next: a scope is made, a name is bound in a scope there is or assigned to from
it, another scope becomes the current one, or something is evaluated, either to its end or up to
the evaluation of one of its parts. -/
inductive Moves (m : Machine) : Machine → Prop
  | root : Moves m { m with store := m.store.push none }
  | child {i} : i < m.store.size → Moves m { m with store := m.store.push (some i) }
  | define {i v} (name : String) : i < m.store.size → v.Inside (Set.Iio m.store.size) →
    Moves m { m with store := m.store.define i name v }
  | declare {i v} (name : String) (constant : Bool) : i < m.store.size →
    v.Inside (Set.Iio m.store.size) →
    Moves m { m with store := (m.store.declare i name v constant).2 }
  | assign {i v} (name : String) : i < m.store.size → v.Inside (Set.Iio m.store.size) →
    Moves m { m with store := (m.store.assign i name v).2 }
  | swap {i} : i < m.store.size → Moves m { m with current := i }
  | evaluate {m'} : m.Evaluates m' → Moves m m'
  | part {t u m'} : Phrase.Reaches (t, m) (u, m') ∨ Phrase.Enters (t, m) (u, m') → Moves m m'

section Moves

variable {base s : Store} {c : ScopeId} {m m' : Machine}

lemma ready_of_founded (h : (Discipline.founded base).Ready c m) (hs : Founded m.store s) :
    (Discipline.founded base).Ready c { m with store := s } :=
  ⟨h.current, h.inv.trans hs, h.live.trans_le hs.size⟩

lemma Moves.ready (hmove : m.Moves m') (h : (Discipline.founded base).Ready c m) :
    ∃ d, (Discipline.founded base).Ready d m' := by
  have hself : Founded m.store m.store := h.inv.self
  cases hmove with
  | root => exact ⟨c, ready_of_founded h (hself.push nofun)⟩
  | child hi =>
    refine ⟨c, ready_of_founded h (hself.push ?_)⟩
    rintro p ⟨⟩
    exact hi
  | define name _ hv => exact ⟨c, ready_of_founded h (hself.put hv)⟩
  | declare name constant _ hv => exact ⟨c, ready_of_founded h (hself.declare hv)⟩
  | assign name _ hv => exact ⟨c, ready_of_founded h (hself.assign hv)⟩
  | swap hi => exact ⟨_, rfl, h.inv, hi⟩
  | evaluate heval => exact ⟨c, h.after (Discipline.change_of_evaluates h heval)⟩
  | part hpart => exact hpart.elim (·.ready h) (·.ready h)

lemma ready_of_moves (hmoves : Relation.ReflTransGen Moves m m')
    (h : (Discipline.founded base).Ready c m) : ∃ d, (Discipline.founded base).Ready d m' := by
  induction hmoves with
  | refl => exact ⟨c, h⟩
  | tail _ hmove ih =>
    obtain ⟨d, hd⟩ := ih
    exact hmove.ready hd

lemma ready_initial : (Discipline.founded .initial).Ready 0 initial :=
  ⟨rfl, .initial, Nat.zero_lt_one⟩

/-- At every stage of a run the scopes in use are there: the current one and those in which the
procedures were made that are bound or given. No scope lies within itself, and the way from a scope
over its parents ends in one without a parent and comes to no scope twice; so looking up a name and
assigning to it come to an end on that way. Later, the scopes still have the same parents. -/
theorem chains_end (hm : Relation.ReflTransGen Moves initial m) :
    m.current < m.store.size ∧
    m.store.BindsOnly (Value.Inside (Set.Iio m.store.size)) ∧
    (∀ t o m', Phrase.Gives t m o m' → ∀ v ∈ o, v.Inside (Set.Iio m'.store.size)) ∧
    (∀ i, ¬ m.store.Within i i) ∧
    (∀ i < m.store.size, m.store.Ascends i (m.store.chain i) ∧ (m.store.chain i).Nodup ∧
      ∀ name, ∃ visited found, m.store.Resolves i name visited found) ∧
    ∀ m', Relation.ReflTransGen Moves m m' → m.store.size ≤ m'.store.size ∧
      ∀ i < m.store.size, m'.store.parent? i = m.store.parent? i := by
  obtain ⟨c, h⟩ := ready_of_moves hm ready_initial
  have hordered := h.inv.ordered
  have hacyclic i : ¬ m.store.Within i i := Store.not_within_self hordered
  refine ⟨h.current.trans_lt h.live, h.inv.bound, ?_, hacyclic, ?_, ?_⟩
  · intro t o m' hgives
    exact (hgives.kept h).good
  · intro i hi
    have hascends := Store.ascends_chain hordered hi
    exact ⟨hascends, hascends.nodup hordered, Store.exists_resolves hordered hi⟩
  · intro m' hlater
    -- The rest of the run is held against the store as it is now.
    have hnow : (Discipline.founded m.store).Ready c m := ⟨h.current, h.inv.self, h.live⟩
    obtain ⟨d, h'⟩ := ready_of_moves hlater hnow
    exact ⟨h'.inv.size, fun i => h'.inv.parent⟩

end Moves

def adding : Program where
  statements :=
    [.expression "procedure" (.procedure ⟨"procedure", "adder", [⟨"x", .integer⟩]⟩
      (.mk ⟨.beginWord, "begin"⟩
        [.expression "procedure" (.procedure ⟨"procedure", "add", [⟨"y", .integer⟩]⟩
          (.mk ⟨.beginWord, "begin"⟩
            [.expression "x" (.infixed "+" .add (.named "x") (.named "y"))]))])),
    .declare "var" false "addTwo" .integer (.call "(" (.named "adder") [.integer "2" 2])]

def callOfAdd : Stmt := .expression "add" (.call "(" (.named "add") [.integer "3" 3])

def insideFirst (m : Machine) : Machine := { m with store := m.store.push (some 1), current := 2 }

def madeInFirst : Value → Bool
  | .procedure p => p.closure == 1
  | _ => false

theorem chains_end_adding :
    ∃ m₁ p m₂, Relation.ReflTransGen Moves initial m₁ ∧
      m₁.store.get? 1 "add" = some (.procedure p) ∧ p.closure = 1 ∧ ¬ m₁.store.Within 1 1 ∧
      Relation.ReflTransGen Moves m₁ m₂ ∧ m₂.store.parent? 1 = m₁.store.parent? 1 ∧
      m₂.store.Ascends 3 [3, 1, 0] ∧
      ∃ visited found, m₂.store.Resolves 3 "adder" visited found := by
  have hruns : (adding.execStatements 1 initial).any (fun r =>
      r.2.store.size == 2 && (r.2.store.get? 1 "add").any madeInFirst &&
        (callOfAdd.exec (callWithin 1) 1 (insideFirst r.2)).any fun r' =>
          r'.2.store.size == 4 && r'.2.store.chain 3 == [3, 1, 0]) = true := by
    decide +kernel
  obtain ⟨⟨o₁, m₁⟩, hfirst, hruns⟩ := (Option.any_eq_true _ _).1 hruns
  simp only [Bool.and_eq_true, beq_iff_eq] at hruns
  obtain ⟨⟨hsize, hmade⟩, hsecond⟩ := hruns
  obtain ⟨v, hget, hv⟩ := (Option.any_eq_true _ _).1 hmade
  obtain ⟨p, rfl, hp⟩ : ∃ p, v = .procedure p ∧ p.closure = 1 := by
    cases v <;> simp_all [madeInFirst]
  obtain ⟨⟨o₂, m₂⟩, hsecond, hafter⟩ := (Option.any_eq_true _ _).1 hsecond
  simp only [Bool.and_eq_true, beq_iff_eq] at hafter
  obtain ⟨hsize', hchain⟩ := hafter
  have hmoves : Relation.ReflTransGen Moves initial m₁ := .single (.evaluate (.statements _ hfirst))
  have hlater : Relation.ReflTransGen Moves m₁ m₂ := by
    have hchild : m₁.Moves { m₁ with store := m₁.store.push (some 1) } := .child (by omega)
    have hsize₁ : 2 < (m₁.store.push (some 1)).size := by
      rw [Store.size_push]
      omega
    have hswap : Moves { m₁ with store := m₁.store.push (some 1) } (insideFirst m₁) := .swap hsize₁
    exact ((Relation.ReflTransGen.single hchild).tail hswap).tail (.evaluate (.statement _ hsecond))
  obtain ⟨-, -, -, hacyclic, -, hkept⟩ := chains_end hmoves
  obtain ⟨-, -, -, -, hends, -⟩ := chains_end (hmoves.trans hlater)
  obtain ⟨hascends, -, hresolves⟩ := hends 3 (by omega)
  rw [hchain] at hascends
  exact ⟨m₁, p, m₂, hmoves, hget, hp, hacyclic 1, hlater, (hkept m₂ hlater).2 1 (by omega),
    hascends, hresolves "adder"⟩

end Machine

end MiniPascal
