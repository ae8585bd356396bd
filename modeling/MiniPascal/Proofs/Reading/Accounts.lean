import MiniPascal.Proofs.Reading.Append
import MiniPascal.Proofs.Reading.Turns
import MiniPascal.Proofs.Tree.Statements

namespace MiniPascal

variable {α β : Type} {d m n : ℕ} {base : List Stmt} {ts : List Token} {turns turns' : List Turn}

namespace Turn

lemma length_filterMap (turns : List Turn) :
    (turns.filterMap error?).length + (turns.filterMap statement?).length = turns.length := by
  induction turns with
  | nil => rfl
  | cons r turns ih =>
    rw [List.filterMap_cons, List.filterMap_cons, error?, statement?]
    cases r.result <;> simp [Except.toOption] <;> omega

lemma filterMap_cons (f : Turn → Option β) (r : Turn) (turns : List Turn) :
    (r :: turns).filterMap f = (f r).toList ++ turns.filterMap f := by
  rw [List.filterMap_cons]
  cases f r <;> rfl

def Falls (turns : List Turn) : Prop :=
  turns.Pairwise fun r r' => r'.start.length < r.start.length

lemma Falls.length_add_le (h : Falls turns) {k n : ℕ} (hk : k ≤ n)
    (hstarts : ∀ r ∈ turns, k < r.start.length ∧ r.start.length ≤ n) : turns.length + k ≤ n := by
  induction turns generalizing n with
  | nil => simpa using hk
  | cons r turns ih =>
    obtain ⟨hfirst, hrest⟩ := List.pairwise_cons.1 h
    obtain ⟨hr, hstarts⟩ := List.forall_mem_cons.1 hstarts
    have hlater : ∀ r' ∈ turns, k < r'.start.length ∧ r'.start.length ≤ r.start.length - 1 :=
      fun r' hr' => ⟨(hstarts r' hr').1, Nat.le_sub_one_of_lt (hfirst r' hr')⟩
    have hle := ih hrest (Nat.le_sub_one_of_lt hr.1) hlater
    rw [List.length_cons]
    omega

end Turn

open Turn (Falls)

/-- The turns account for a reading of `ts`: they start one after the other on tokens that are used,
their errors are those of the reading, and the statements inside what is read are among theirs and
those of `base`, which were read before. -/
structure Accounts (d : ℕ) (base : List Stmt) (ts : List Token) (content : α → List Stmt)
    (x : Reading α) (turns : List Turn) : Prop where
  left : x.place.unread <:+ ts
  starts : ∀ r ∈ turns, r.start <:+ ts ∧ x.place.unread.length < r.start.length
  falls : Falls turns
  deep : ∀ r ∈ turns, d ≤ r.depth
  errors : (x.failures.map Failure.error).Perm (turns.filterMap Turn.error?)
  statements : (content x.value).Sublist (base ++ turns.filterMap Turn.statement?)

def found (content : α → List Stmt) : Except ParseError α → List Stmt
  | .error _ => []
  | .ok a => content a

namespace Accounts

variable {content : α → List Stmt} {content' : β → List Stmt}

lemma none {a : α} {p : Place} (hp : p.unread <:+ ts) (ha : (content a).Sublist base) :
    Accounts d base ts content ⟨a, p, []⟩ [] where
  left := hp
  starts := List.forall_mem_nil _
  falls := .nil
  deep := List.forall_mem_nil _
  errors := .nil
  statements := by simpa using ha

lemma fail {e : ParseError} {p : Place} (hp : p.unread <:+ ts) :
    Accounts d base ts (found content) (.fail e p) [] :=
  none hp (List.nil_sublist _)

lemma shallow {c : ℕ} {x : Reading α} (hx : Accounts d base ts content x turns) (h : c ≤ d) :
    Accounts c base ts content x turns where
  left := hx.left
  starts := hx.starts
  falls := hx.falls
  deep r hr := h.trans (hx.deep r hr)
  errors := hx.errors
  statements := hx.statements

lemma behind {x : Reading α} (hx : Accounts d [] ts content x turns) (front : List Stmt) :
    Accounts d front ts (fun a => front ++ content a) x turns where
  left := hx.left
  starts := hx.starts
  falls := hx.falls
  deep := hx.deep
  errors := hx.errors
  statements := hx.statements.append_left front

-- A turn stands before the turns of what is read in it and after it.
lemma cons {t : Token} {rest : List Token} {x : Reading α} {y : Reading β}
    (hx : Accounts d [] rest content x turns) (hplace : y.place = x.place)
    (herrors : (y.failures.map Failure.error).Perm
      ((Turn.mk d t rest).error?.toList ++ x.failures.map Failure.error))
    (hstatements : (content' y.value).Sublist
      ((Turn.mk d t rest).statement?.toList ++ content x.value)) :
    Accounts d [] (t :: rest) content' y (⟨d, t, rest⟩ :: turns) where
  left := by
    rw [hplace]
    exact hx.left.trans (List.suffix_cons _ _)
  starts := by
    rw [hplace]
    refine List.forall_mem_cons.2 ⟨⟨List.suffix_refl _, Nat.lt_succ_of_le hx.left.length_le⟩, ?_⟩
    exact fun r hr => (hx.starts r hr).imp_left (·.trans (List.suffix_cons _ _))
  falls := List.pairwise_cons.2
    ⟨fun r hr => Nat.lt_succ_of_le (hx.starts r hr).1.length_le, hx.falls⟩
  deep := List.forall_mem_cons.2 ⟨Nat.le_refl _, hx.deep⟩
  errors := by
    rw [Turn.filterMap_cons]
    exact herrors.trans (hx.errors.append_left _)
  statements := by
    rw [Turn.filterMap_cons]
    exact hstatements.trans (hx.statements.append_left _)

lemma andThen {x : Reading α} {y : Reading β} (hx : Accounts d [] ts content x turns)
    (hy : Accounts d (base ++ content x.value) x.place.unread content' y turns') :
    Accounts d base ts content' ⟨y.value, y.place, x.failures ++ y.failures⟩ (turns ++ turns') where
  left := hy.left.trans hx.left
  starts := by
    intro r hr
    rcases List.mem_append.1 hr with hr | hr
    · obtain ⟨hstart, hlt⟩ := hx.starts r hr
      exact ⟨hstart, hy.left.length_le.trans_lt hlt⟩
    · obtain ⟨hstart, hlt⟩ := hy.starts r hr
      exact ⟨hstart.trans hx.left, hlt⟩
  falls := by
    refine List.pairwise_append.2 ⟨hx.falls, hy.falls, fun r hr r' hr' => ?_⟩
    exact (hy.starts r' hr').1.length_le.trans_lt (hx.starts r hr).2
  deep := by
    intro r hr
    exact (List.mem_append.1 hr).elim (hx.deep r) (hy.deep r)
  errors := by
    rw [List.map_append, List.filterMap_append]
    exact hx.errors.append hy.errors
  statements := by
    have hread := hx.statements
    rw [List.nil_append] at hread
    rw [List.filterMap_append, ← List.append_assoc]
    exact hy.statements.trans ((hread.append_left base).append_right _)

section Block

variable {x : Within m α} {f : α → (p : Place) → p.unread.length ≤ m → Within n β}

lemma afterwards {g : (p : Place) → p.unread.length ≤ m → List Turn}
    (hx : Accounts d [] ts content x.reading turns)
    (hf : ∀ a p hp, Accounts d (base ++ content a) p.unread content' (f a p hp).reading (g p hp)) :
    Accounts d base ts content' (x.andThen f).reading (turns ++ x.afterwards g) :=
  andThen hx (hf _ _ x.bound)

lemma andThen_last (hx : Accounts d [] ts content x.reading turns)
    (hf : ∀ a p hp, Accounts d (base ++ content a) p.unread content' (f a p hp).reading []) :
    Accounts d base ts content' (x.andThen f).reading turns := by
  have hwhole := andThen hx (hf _ _ x.bound)
  rwa [List.append_nil] at hwhole

end Block

section Within

variable {x : AttemptWithin m α} {h : m ≤ n}
  {f : α → (p : Place) → p.unread.length ≤ m → AttemptWithin n β}
  {g : α → (p : Place) → p.unread.length ≤ m → List Turn}

lemma onSuccess (hx : Accounts d [] ts (found content) x.reading turns)
    (hf : ∀ a p hp, Accounts d (base ++ content a) p.unread (found content') (f a p hp).reading
      (g a p hp)) :
    Accounts d base ts (found content') (x.onSuccess h f).reading (turns ++ x.follow g) := by
  refine andThen hx ?_
  rw [Within.follow]
  cases hvalue : x.reading.value with
  | error e => exact fail (List.suffix_refl _)
  | ok a => exact hf a x.reading.place x.bound

-- After what is read last there is nothing more to list.
lemma onSuccess_last (hx : Accounts d [] ts (found content) x.reading turns)
    (hf : ∀ a p hp, Accounts d (base ++ content a) p.unread (found content')
      (f a p hp).reading []) :
    Accounts d base ts (found content') (x.onSuccess h f).reading turns := by
  have hwhole := onSuccess (g := fun _ _ _ => []) (h := h) hx hf
  rw [Within.follow] at hwhole
  cases hvalue : x.reading.value <;> simpa [hvalue] using hwhole

lemma onSuccess_plain (hx : Accounts d [] ts (found fun _ => []) x.reading [])
    (hf : ∀ a p hp, Accounts d base p.unread (found content') (f a p hp).reading (g a p hp)) :
    Accounts d base ts (found content') (x.onSuccess h f).reading (x.follow g) := by
  change Accounts d base ts _ _ ([] ++ x.follow g)
  refine onSuccess hx fun a p hp => ?_
  rw [List.append_nil]
  exact hf a p hp

end Within

lemma expect (kind last : TokenKind) (ts : List Token) :
    Accounts d [] ts (found fun _ => []) (Within.expect kind last ts).reading [] := by
  change Accounts d [] ts _ (Reading.expect kind last ts) []
  cases ts with
  | nil => exact fail (List.suffix_refl _)
  | cons t rest =>
    rw [Reading.expect.eq_def]
    dsimp only
    split
    · exact none (List.suffix_cons _ _) (List.nil_sublist _)
    · exact fail (List.suffix_refl _)

lemma expectType (last : TokenKind) (ts : List Token) :
    Accounts d [] ts (found fun _ => []) (Within.expectType last ts).reading [] := by
  change Accounts d [] ts _ (Reading.expectType last ts) []
  cases ts with
  | nil => exact fail (List.suffix_refl _)
  | cons t rest =>
    rw [Reading.expectType.eq_def]
    dsimp only
    split
    · exact none (List.suffix_cons _ _) (List.nil_sublist _)
    split
    · exact none (List.suffix_cons _ _) (List.nil_sublist _)
    · exact fail (List.suffix_refl _)

lemma mono {us : List Token} {x : Reading α} (hx : Accounts d base us content x turns)
    (h : us <:+ ts) : Accounts d base ts content x turns where
  left := hx.left.trans h
  starts r hr := (hx.starts r hr).imp_left (·.trans h)
  falls := hx.falls
  deep := hx.deep
  errors := hx.errors
  statements := hx.statements

lemma map {x : Within n α} {f : α → β} (hx : Accounts d base ts content x.reading turns)
    (hf : ∀ a, content' (f a) = content a) :
    Accounts d base ts content' (x.map f).reading turns where
  left := hx.left
  starts := hx.starts
  falls := hx.falls
  deep := hx.deep
  errors := hx.errors
  statements := by
    change (content' (f x.reading.value)).Sublist _
    rw [hf]
    exact hx.statements

lemma done {a : α} {p : Place} (hp : p.unread <:+ ts) (ha : (content a).Sublist base) :
    Accounts d base ts (found content) (.done a p) [] :=
  none hp ha

lemma finish {s : Stmt} {p : Place} {hp : p.unread.length ≤ n}
    (hs : (s.inner true).Sublist base) :
    Accounts d base p.unread (found (Stmt.inner true)) (Within.finish s p hp).reading [] := by
  refine done ?_ hs
  rw [Place.skipSemicolon]
  split
  · exact List.suffix_refl _
  · next t rest h =>
    split
    · rw [h]
      exact List.suffix_cons _ _
    · exact List.suffix_refl _

lemma parameter (last : TokenKind) (ts : List Token) :
    Accounts d [] ts (found fun _ => []) (Within.parameter last ts).reading [] := by
  refine onSuccess_last (expect _ _ _) fun name p _ => ?_
  refine onSuccess_last (expect _ _ _) fun _ p _ => ?_
  refine onSuccess_last (expectType _ _) fun type p _ => ?_
  exact done (List.suffix_refl _) (List.nil_sublist _)

lemma someParameters (last : TokenKind) (h : ts.length < n) :
    Accounts d [] ts (found fun _ => []) (Within.someParameters last ts).reading [] := by
  induction n generalizing last ts with
  | zero => exact absurd h (Nat.not_lt_zero _)
  | succ n ih =>
    rw [Within.someParameters]
    refine onSuccess_last (parameter _ _) fun first p hp => ?_
    obtain ⟨last, _ | ⟨t, rest⟩⟩ := p
    · exact fail (List.suffix_refl _)
    · dsimp only
      split
      · have hrest : rest.length < n := by
          rw [List.length_cons] at hp
          omega
        refine mono (onSuccess_last (ih .comma hrest) fun others p _ => ?_)
          (List.suffix_cons _ _)
        exact done (List.suffix_refl _) (List.nil_sublist _)
      split
      · exact done (List.suffix_cons _ _) (List.nil_sublist _)
      · exact fail (List.suffix_refl _)

lemma parameters (ts : List Token) :
    Accounts d [] ts (found fun _ => []) (Within.parameters ts).reading [] := by
  rw [Within.parameters.eq_def]
  split
  · exact someParameters _ (Nat.lt_succ_self _)
  · split
    · exact done (List.suffix_cons _ _) (List.nil_sublist _)
    · exact someParameters _ (Nat.lt_succ_self _)

end Accounts

end MiniPascal
