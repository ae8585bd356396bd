import MiniPascal.Proofs.Evaluation.Closed
import MiniPascal.Proofs.Store
import MiniPascal.Proofs.Value
/-! Rules about stores that every evaluation keeps to if the single changes to a store do. -/

namespace MiniPascal

/-- Rules for evaluation: which stores are right, which scopes of a store it works in, which of
these have had nothing but variables bound in them since they were opened, which values it meets and
which of them it binds, and how it changes a store when it began in a given scope. -/
structure Discipline where
  inv : Store → Prop := fun _ => True
  live : Store → ScopeId → Prop := fun _ _ => True
  fresh : Store → ScopeId → Prop := fun _ _ => True
  val : Store → Value → Prop := fun _ _ => True
  held : Store → Value → Prop := fun _ _ => True
  rel : ScopeId → Store → Store → Prop := fun _ _ _ => True
  refl {c s} : rel c s s := by intros; trivial
  trans {c s t u} : rel c s t → rel c t u → rel c s u := by intros; trivial
  live_mono {c d s t} : rel c s t → live s d → live t d := by intros; trivial
  val_mono {c s t v} : rel c s t → val s v → val t v := by intros; trivial
  held_mono {c s t v} : rel c s t → held s v → held t v := by intros; trivial
  -- What has scopes of its own keeps to the rules of every scope.
  fresh_mono {c s t} : (∀ d, rel d s t) → fresh s c → fresh t c := by intros; trivial
  plain {s v} : v.IsPlain → val s v := by intros; trivial
  hold {s v} : val s v → v.isAbrupt = false → held s v := by intros; trivial
  returned {s v} : held s v → val s (.returned v) := by intros; trivial
  unwrap {s v} : val s v → val s v.unwrap := by intros; trivial
  closure {s p} : val s (.procedure p) → live s p.closure := by intros; trivial
  close {c s} (identity : Nat) (header : Header) (body : Block) :
    live s c → val s (.procedure ⟨identity, header, body, c⟩) := by intros; trivial
  get {c s v} {name : String} : inv s → live s c → s.get? c name = some v → val s v := by
    intros; trivial
  declare {c s v} (name : String) (constant : Bool) : inv s → live s c → held s v →
    inv (s.declare c name v constant).2 ∧ rel c s (s.declare c name v constant).2 := by
    intros; trivial
  assign {c s v} (name : String) : inv s → live s c → held s v →
    inv (s.assign c name v).2 ∧ rel c s (s.assign c name v).2 := by
    intros; trivial
  define {c s v} (name : String) : inv s → live s c → fresh s c → held s v →
    inv (s.define c name v) ∧ rel c s (s.define c name v) ∧ fresh (s.define c name v) c := by
    intros; trivial
  scope {c s} : inv s → live s c →
    inv (s.push (some c)) ∧ live (s.push (some c)) s.size ∧ fresh (s.push (some c)) s.size := by
    intros; trivial
  -- A run in a new scope keeps to the rules of the scope it comes back to.
  leave {c d s t} : rel s.size (s.push (some d)) t → rel c s t := by intros; trivial

namespace Discipline

open Run

variable {α β : Type} (D : Discipline)

structure Ready (c : ScopeId) (m : Machine) : Prop where
  current : m.current = c
  inv : D.inv m.store
  live : D.live m.store c

structure Change (c : ScopeId) (m m' : Machine) : Prop where
  current : m'.current = m.current
  depth : m'.depth = m.depth
  inv : D.inv m'.store
  rel : D.rel c m.store m'.store

structure Kept (c : ScopeId) (good : Store → α → Prop) (m : Machine) (a : α) (m' : Machine) : Prop
    extends D.Change c m m' where
  good : good m'.store a

def Keeps (c : ScopeId) (good : Store → α → Prop) (m : Machine) (x : Run α) : Prop :=
  ∀ a m', x m = some (a, m') → D.Kept c good m a m'

def Outcome (s : Store) (outcome : Option Value) : Prop := ∀ v ∈ outcome, D.val s v

def Arguments (s : Store) : Except Value (List Value) → Prop
  | .ok vs => ∀ v ∈ vs, D.held s v
  | .error v => D.val s v

variable {D} {c d : ScopeId} {m m' : Machine} {good : Store → α → Prop} {goal : Store → β → Prop}
  {s t : Store}

lemma outcome_none : D.Outcome s none := nofun

lemma outcome_some {v : Value} (h : D.val s v) : D.Outcome s (some v) := by
  rintro w ⟨⟩
  exact h

lemma outcome_getD {outcome : Option Value} (h : D.Outcome s outcome) :
    D.val s (outcome.getD .null) := by
  cases outcome with
  | none => exact D.plain trivial
  | some v => exact h v rfl

lemma outcome_refusal (refusal : Option EvalError) :
    D.Outcome s (refusal.map Value.ofError) := by
  cases refusal with
  | none => exact outcome_none
  | some e => exact outcome_some (D.plain (Value.isPlain_ofError e))

lemma Ready.after (h : D.Ready c m) (hm : D.Change d m m') : D.Ready c m' where
  current := hm.current.trans h.current
  inv := hm.inv
  live := D.live_mono hm.rel h.live

lemma Change.refl (h : D.Ready c m) : D.Change d m m := ⟨rfl, rfl, h.inv, D.refl⟩

lemma Change.trans {m₁ m₂ m₃ : Machine} (h : D.Change d m₁ m₂) (h' : D.Change d m₂ m₃) :
    D.Change d m₁ m₃ where
  current := h'.current.trans h.current
  depth := h'.depth.trans h.depth
  inv := h'.inv
  rel := D.trans h.rel h'.rel

namespace Keeps

variable {x : Run α} {f : α → Run β}

lemma pure {a : α} (h : D.Ready c m) (ha : good m.store a) : D.Keeps d good m (pure a) := by
  rintro b m' ⟨⟩
  exact ⟨.refl h, ha⟩

lemma bind (h : D.Ready c m) (hx : D.Keeps d good m x)
    (hf : ∀ a m', D.Ready c m' → good m'.store a → D.Keeps d goal m' (f a)) :
    D.Keeps d goal m (x >>= f) := by
  intro b m₂ hrun
  rw [bind_apply, Option.bind_eq_some_iff] at hrun
  obtain ⟨⟨a, m₁⟩, hm₁, hm₂⟩ := hrun
  have hfirst := hx a m₁ hm₁
  have hsecond := hf a m₁ (h.after hfirst.toChange) hfirst.good b m₂ hm₂
  exact ⟨hfirst.toChange.trans hsecond.toChange, hsecond.good⟩

lemma map {f : α → β} (h : D.Ready c m) (hx : D.Keeps d good m x)
    (hf : ∀ a s, good s a → goal s (f a)) : D.Keeps d goal m (x >>= fun a => Pure.pure (f a)) :=
  hx.bind h fun a m' h' ha => .pure h' (hf a m'.store ha)

lemma with_mono {P : Store → Prop} (hx : D.Keeps d good m x)
    (hmono : ∀ s t, D.rel d s t → P s → P t) (hP : P m.store) :
    D.Keeps d (fun s a => good s a ∧ P s) m x := by
  intro a m' hrun
  have hk := hx a m' hrun
  exact ⟨hk.toChange, hk.good, hmono _ _ hk.rel hP⟩

lemma with_fresh (hx : ∀ d, D.Keeps d good m x) (hc : D.fresh m.store c) :
    D.Keeps d (fun s a => good s a ∧ D.fresh s c) m x := by
  intro a m' hrun
  have hk := hx d a m' hrun
  have hfresh := D.fresh_mono (fun d => (hx d a m' hrun).rel) hc
  exact ⟨hk.toChange, hk.good, hfresh⟩

lemma onValue {outcome : Value → β} {x : Run Value} {f : Value → Run β} (h : D.Ready c m)
    (hx : D.Keeps d D.val m x) (hout : ∀ s v, D.val s v → goal s (outcome v))
    (hf : ∀ v m', D.Ready c m' → D.held m'.store v → D.Keeps d goal m' (f v)) :
    D.Keeps d goal m (onValue outcome x f) := by
  refine hx.bind h fun v m' h' hv => ?_
  split
  · exact .pure h' (hout m'.store v hv)
  · next habrupt => exact hf v m' h' (D.hold hv (by simpa using habrupt))

lemma cutOff : D.Keeps d good m (cutOff : Run α) := nofun

lemma lookup (name : String) (h : D.Ready c m) : D.Keeps d D.val m (lookup name) := by
  rintro v m' ⟨⟩
  refine ⟨.refl h, ?_⟩
  cases hget : m.store.get? m.current name with
  | none => exact D.plain (Value.isPlain_ofError _)
  | some v => exact D.get h.inv (h.current.symm ▸ h.live) hget

lemma declare {v : Value} (name : String) (constant : Bool) (h : D.Ready c m)
    (hv : D.held m.store v) : D.Keeps c D.Outcome m (Run.declare name v constant) := by
  obtain ⟨rfl, hinv, hlive⟩ := h
  obtain ⟨hinv, hrel⟩ := D.declare name constant hinv hlive hv
  rintro outcome m' ⟨⟩
  exact ⟨⟨rfl, rfl, hinv, hrel⟩, outcome_refusal _⟩

lemma assign {v : Value} (name : String) (h : D.Ready c m) (hv : D.held m.store v) :
    D.Keeps c D.Outcome m (Run.assign name v) := by
  obtain ⟨rfl, hinv, hlive⟩ := h
  obtain ⟨hinv, hrel⟩ := D.assign name hinv hlive hv
  rintro outcome m' ⟨⟩
  exact ⟨⟨rfl, rfl, hinv, hrel⟩, outcome_refusal _⟩

lemma define {v : Value} (name : String) (h : D.Ready c m) (hc : D.fresh m.store c)
    (hv : D.held m.store v) : D.Keeps c (fun s _ => D.fresh s c) m (Run.define name v) := by
  obtain ⟨rfl, hinv, hlive⟩ := h
  obtain ⟨hinv, hrel, hfresh⟩ := D.define name hinv hlive hc hv
  rintro a m' ⟨⟩
  exact ⟨⟨rfl, rfl, hinv, hrel⟩, hfresh⟩

lemma close (header : Header) (body : Block) (h : D.Ready c m) :
    D.Keeps d (fun s p => D.val s (.procedure p)) m (Run.close header body) := by
  obtain ⟨rfl, hinv, hlive⟩ := h
  rintro p m' ⟨⟩
  exact ⟨⟨rfl, rfl, hinv, D.refl⟩, D.close _ header body hlive⟩

lemma record (call : CallRecord) (h : D.Ready c m) :
    D.Keeps d (fun s _ => s = m.store) m (record call) := by
  rintro a m' ⟨⟩
  exact ⟨⟨rfl, rfl, h.inv, D.refl⟩, rfl⟩

lemma depth (h : D.Ready c m) : D.Keeps d (fun s _ => s = m.store) m depth := by
  rintro n m' ⟨⟩
  exact ⟨.refl h, rfl⟩

lemma current (h : D.Ready c m) : D.Keeps d (fun s id => s = m.store ∧ id = c) m current := by
  rintro id m' ⟨⟩
  exact ⟨.refl h, rfl, h.current⟩

lemma deeper {x : Run Value} (h : D.Ready c m)
    (hx : ∀ m', D.Ready c m' → m'.store = m.store → D.Keeps d D.val m' x) :
    D.Keeps d D.val m (deeper x) := by
  intro v m' hrun
  rw [deeper_apply, Option.map_eq_some_iff] at hrun
  obtain ⟨⟨v, after⟩, hinner, ⟨⟩⟩ := hrun
  have hk := hx { m with depth := m.depth + 1 } ⟨h.current, h.inv, h.live⟩ rfl v after hinner
  refine ⟨⟨hk.current, ?_, hk.inv, hk.rel⟩, hk.good⟩
  exact Nat.sub_eq_of_eq_add hk.depth

lemma inScope {parent : ScopeId} (h : D.Ready c m) (hparent : D.live m.store parent)
    (hx : D.Ready m.store.size (m.openScope parent).2 →
      D.fresh (m.openScope parent).2.store m.store.size →
      D.Keeps m.store.size good (m.openScope parent).2 x) :
    D.Keeps d good m (inScope parent x) := by
  intro a m' hrun
  rw [inScope_apply, Option.map_eq_some_iff] at hrun
  obtain ⟨⟨a, after⟩, hinner, ⟨⟩⟩ := hrun
  obtain ⟨hinv, hlive, hfresh⟩ := D.scope h.inv hparent
  have hk := hx ⟨rfl, hinv, hlive⟩ hfresh a after hinner
  exact ⟨⟨rfl, hk.depth, hk.inv, D.leave hk.rel⟩, hk.good⟩

lemma repeatWhile {test : Run Value} {body : Run (Option Value)}
    (htest : ∀ m, D.Ready c m → D.Keeps d D.val m test)
    (hbody : ∀ m, D.Ready c m → D.Keeps d D.Outcome m body) (passes : Nat) (h : D.Ready c m) :
    D.Keeps d D.Outcome m (repeatWhile test body passes) := by
  induction passes generalizing m with
  | zero => exact cutOff
  | succ passes ih =>
    refine onValue h (htest m h) (fun _ _ => outcome_some) fun v m' h' _ => ?_
    split
    · refine (hbody m' h').bind h' fun outcome m₂ h₂ houtcome => ?_
      split
      · exact .pure h₂ houtcome
      · exact ih h₂
    · exact .pure h' outcome_none

lemma repeatFor {body : Run (Option Value)}
    (hbody : ∀ m, D.Ready c m → ∀ d, D.Keeps d D.Outcome m body) (counter : String) (count : Nat)
    (n : Int64) (h : D.Ready c m) (hc : D.fresh m.store c) :
    D.Keeps c D.Outcome m (repeatFor counter body count n) := by
  induction count generalizing m n with
  | zero => exact .pure h outcome_none
  | succ count ih =>
    have hn : D.held m.store (.integer n) := D.hold (D.plain trivial) rfl
    refine (define counter h hc hn).bind h fun _ m₁ h₁ hc₁ => ?_
    refine (with_fresh (hbody m₁ h₁) hc₁).bind h₁ fun outcome m₂ h₂ houtcome => ?_
    split
    · exact .pure h₂ houtcome.1
    · exact ih (n + 1) h₂ houtcome.2

lemma countedLoop {body : Run (Option Value)}
    (hbody : ∀ c m, D.Ready c m → ∀ d, D.Keeps d D.Outcome m body) (counter : String)
    (first last : Value) (h : D.Ready c m) :
    D.Keeps d D.Outcome m (countedLoop counter body first last) := by
  rw [Run.countedLoop.eq_def]
  split
  · refine (current h).bind h fun id m₁ h₁ hid => ?_
    obtain ⟨_, rfl⟩ := hid
    refine inScope h₁ h₁.live fun h₂ hfresh => ?_
    exact repeatFor (hbody m₁.store.size) counter _ _ h₂ hfresh
  · exact .pure h (outcome_some (D.plain (Value.isPlain_ofError _)))
  · exact .pure h (outcome_some (D.plain (Value.isPlain_ofError _)))

lemma bindAll {bindings : List (Parameter × Value)} (h : D.Ready c m) (hc : D.fresh m.store c)
    (hvalues : ∀ b ∈ bindings, D.held m.store b.2) :
    D.Keeps c (fun _ _ => True) m (bindAll bindings) := by
  induction bindings generalizing m with
  | nil => exact .pure h trivial
  | cons b rest ih =>
    rw [List.forall_mem_cons] at hvalues
    have hmono s t (hrel : D.rel c s t) (h : ∀ b ∈ rest, D.held s b.2) : ∀ b ∈ rest, D.held t b.2 :=
      fun b hb => D.held_mono hrel (h b hb)
    refine ((define b.1.name h hc hvalues.1).with_mono hmono hvalues.2).bind h
      fun _ m₁ h₁ hm₁ => ?_
    exact ih h₁ hm₁.1 hm₁.2

lemma execute {body : Run (Option Value)} {p : Procedure} {args : List Value}
    (hbody : ∀ c m, D.Ready c m → D.Keeps c D.Outcome m body) (h : D.Ready c m)
    (hp : D.val m.store (.procedure p))
    (hargs : ∀ v ∈ args, D.held m.store v) : D.Keeps d D.val m (execute p args body) := by
  rw [Run.execute]
  split
  · refine (record _ h).bind h fun _ m₁ h₁ hstore => ?_
    rw [← hstore] at hp hargs
    refine map h₁ (inScope h₁ (D.closure hp) fun h₂ hfresh => ?_)
      fun outcome s houtcome => D.unwrap (outcome_getD houtcome)
    have hopened : D.rel d m₁.store (m₁.openScope p.closure).2.store := D.leave D.refl
    have hvalues : ∀ b ∈ p.header.parameters.zip args,
        D.held (m₁.openScope p.closure).2.store b.2 :=
      fun b hb => D.held_mono hopened (hargs b.2 (List.of_mem_zip hb).2)
    exact (bindAll h₂ hfresh hvalues).bind h₂ fun _ m₃ h₃ _ => hbody _ m₃ h₃
  · exact .pure h (D.plain (Value.isPlain_ofError _))

lemma enter {x : Run Value} (h : D.Ready c m)
    (hx : ∀ m', D.Ready c m' → m'.store = m.store → D.Keeps d D.val m' x) :
    D.Keeps d D.val m (enter x) := by
  refine (depth h).bind h fun n m₁ h₁ hstore => ?_
  split
  · exact .pure h₁ (D.plain (Value.isPlain_ofError _))
  · exact deeper h₁ fun m' h' hstore' => hx m' h' (hstore'.trans hstore)

end Keeps

end Discipline

end MiniPascal
