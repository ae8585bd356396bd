import MiniPascal.Proofs.Reading.Success
/-! How reading goes on when more tokens stand behind a list that ends in a semicolon. -/

namespace MiniPascal

namespace Token

def openers : List TokenKind := [.beginWord, .thenWord, .elseWord, .doWord]

def openings (ts : List Token) : Nat := ts.countP fun t => t.kind ∈ openers

def closings (ts : List Token) : Nat := ts.countP fun t => t.kind = .endWord

def depth (ts : List Token) : Int := openings ts - closings ts

section Counts

variable {ts us : List Token}

@[simp]
lemma openings_append : openings (ts ++ us) = openings ts + openings us := List.countP_append

@[simp]
lemma depth_append : depth (ts ++ us) = depth ts + depth us := by
  simp only [depth, openings, closings, List.countP_append]
  omega

lemma openings_eq_zero_iff : openings ts = 0 ↔ ∀ t ∈ ts, t.kind ∉ openers := by
  simp [openings, List.countP_eq_zero]

lemma depth_le_openings : depth ts ≤ openings ts := by
  rw [depth]
  omega

def IsPlain (kind : TokenKind) : Prop := kind ∉ openers ∧ kind ≠ .endWord

instance (kind : TokenKind) : Decidable (IsPlain kind) := inferInstanceAs (Decidable (_ ∧ _))

variable {kind : TokenKind} {s : String}

lemma depth_of_plain (h : IsPlain kind) : depth [⟨kind, s⟩] = 0 := by
  simp [depth, openings, closings, h.1, h.2]

lemma openings_of_opener (h : kind ∈ openers) : openings [⟨kind, s⟩] = 1 := by
  simp [openings, h]

end Counts

structure Terminated (ts : List Token) : Prop where
  semicolon : ∃ t ∈ ts.getLast?, t.kind = .semicolon
  endless : ∀ t ∈ ts, t.kind ≠ .endOfInput

namespace Terminated

variable {t : Token} {ts us : List Token}

lemma ne_nil (h : Terminated ts) : ts ≠ [] := by
  rintro rfl
  obtain ⟨t, ht, _⟩ := h.semicolon
  cases ht

lemma right (h : Terminated (ts ++ us)) (hne : us ≠ []) : Terminated us := by
  obtain ⟨⟨t, ht, hk⟩, hendless⟩ := h
  refine ⟨⟨t, ?_, hk⟩, fun u hu => hendless u (List.mem_append_right ts hu)⟩
  rwa [List.getLast?_append_of_ne_nil ts hne] at ht

lemma tail (h : Terminated (t :: ts)) (hne : ts ≠ []) : Terminated ts := by
  rw [← List.singleton_append] at h
  exact h.right hne

lemma semicolon_of_nil (h : Terminated [t]) : t.kind = .semicolon := by
  obtain ⟨u, hu, hk⟩ := h.semicolon
  obtain rfl : t = u := by simpa using hu
  exact hk

lemma tail_of_ne (h : Terminated (t :: ts)) (ht : t.kind ≠ .semicolon) : Terminated ts := by
  apply h.tail
  rintro rfl
  exact ht h.semicolon_of_nil

end Terminated

end Token

open Token

def Place.extend (k : List Token) (p : Place) : Place := ⟨p.last, p.unread ++ k⟩

def Failure.extend (k : List Token) (f : Failure) : Failure := ⟨f.error, f.place.extend k⟩

namespace Reading

variable {α β : Type}

def extend (k : List Token) (x : Reading α) : Reading α :=
  ⟨x.value, x.place.extend k, x.failures.map (Failure.extend k)⟩

def after (fs : List Failure) (x : Reading α) : Reading α := ⟨x.value, x.place, fs ++ x.failures⟩

def sure (x : Reading α) : Attempt α := ⟨.ok x.value, x.place, x.failures⟩

def Clean (x : Attempt α) : Prop := ∃ a p, x = done a p

lemma extend_after (k : List Token) (fs : List Failure) (x : Reading α) :
    (x.after fs).extend k = (x.extend k).after (fs.map (Failure.extend k)) := by
  simp [extend, after]

lemma onSuccess_ok (a : α) (p : Place) (fs : List Failure) (f : α → Place → Attempt β) :
    onSuccess ⟨.ok a, p, fs⟩ f = (f a p).after fs := rfl

lemma onSuccess_error (e : ParseError) (p : Place) (fs : List Failure)
    (f : α → Place → Attempt β) : onSuccess ⟨.error e, p, fs⟩ f = ⟨.error e, p, fs⟩ := by
  simp [onSuccess, andThen, fail]

lemma Clean.of_after {x : Attempt α} {fs : List Failure} (h : Clean (x.after fs)) :
    fs = [] ∧ Clean x := by
  obtain ⟨value, p, failures⟩ := x
  obtain ⟨a, q, h⟩ := h
  simp only [after, done, Reading.mk.injEq, List.append_eq_nil_iff] at h
  obtain ⟨rfl, rfl, rfl, rfl⟩ := h
  exact ⟨rfl, a, p, rfl⟩

lemma Clean.of_sure_after {x : Reading α} {fs : List Failure} (h : Clean (x.after fs).sure) :
    fs = [] :=
  (of_after (x := x.sure) h).1

lemma not_clean_error {e : ParseError} {p : Place} {fs : List Failure} :
    ¬ Clean (⟨.error e, p, fs⟩ : Attempt α) := by
  rintro ⟨a, q, h⟩
  cases h

/-- What becomes of a reading `x` of tokens `ts` that end in a semicolon when the tokens `k` stand
behind them, which gives `y`. Only a `final` reading comes to an end with that semicolon without an
error. The difference `δ` of blocks opened and closed is right if nothing fails. -/
inductive Course (final : Prop) (δ : Int) (k ts : List Token) (x y : Attempt α) : Prop
  | within (used : List Token) : ts = used ++ x.place.unread → Terminated x.place.unread →
    y = x.extend k → ((∃ a, x.value = .ok a) → δ ≤ openings used) →
    (Clean x → depth used = δ) → Course final δ k ts x y
  | whole : x.place = ⟨.semicolon, []⟩ → y = x.extend k → ((∃ a, x.value = .ok a) → final) →
    (Clean x → depth ts = δ) → Course final δ k ts x y
  | cut : x.place.unread = [] → x.place.last ≠ .semicolon → δ < openings ts →
    (Clean x → δ < depth ts) → Course final δ k ts x y

namespace Course

variable {final : Prop} {δ ε ζ : Int} {k ts used : List Token} {x y : Attempt α}

lemma after {fs : List Failure} (h : Course final δ k ts x y) :
    Course final δ k ts (x.after fs) (y.after (fs.map (Failure.extend k))) := by
  cases h with
  | within used hts hend hy hle hclean =>
    refine .within used hts hend ?_ hle fun hx => hclean hx.of_after.2
    rw [extend_after, hy]
  | whole hplace hy hfinal hclean =>
    refine .whole hplace ?_ hfinal fun hx => hclean hx.of_after.2
    rw [extend_after, hy]
  | cut hunread hlast hlt hclean =>
    exact .cut hunread hlast hlt fun hx => hclean hx.of_after.2

lemma behind (h : Course final ε k ts x y) (hle : δ ≤ openings used)
    (hused : Clean x → depth used = δ) (hsum : δ + ε = ζ) :
    Course final ζ k (used ++ ts) x y := by
  cases h with
  | within used' hts hend hy hle' hclean =>
    refine .within (used ++ used') ?_ hend hy (fun hx => ?_) fun hx => ?_
    · rw [List.append_assoc, ← hts]
    · have hle := hle' hx
      rw [openings_append]
      omega
    · rw [depth_append, hused hx, hclean hx, hsum]
  | whole hplace hy hfinal hclean =>
    refine .whole hplace hy hfinal fun hx => ?_
    rw [depth_append, hused hx, hclean hx, hsum]
  | cut hunread hlast hlt hclean =>
    refine .cut hunread hlast ?_ fun hx => ?_
    · rw [openings_append]
      omega
    · have hdepth := hclean hx
      rw [depth_append, hused hx]
      omega

lemma fails {e : ParseError} {p : Place} (used : List Token) (hts : ts = used ++ p.unread)
    (hend : Terminated p.unread) :
    Course final δ k ts (fail e p : Attempt α) (fail e (p.extend k)) := by
  refine .within used hts hend rfl ?_ fun hx => (not_clean_error hx).elim
  rintro ⟨a, ha⟩
  cases ha

lemma succeeds {a : α} {p : Place} (used : List Token) (hts : ts = used ++ p.unread)
    (hend : Terminated p.unread) (hused : depth used = δ) :
    Course final δ k ts (done a p) (done a (p.extend k)) :=
  .within used hts hend rfl (fun _ => hused ▸ depth_le_openings) fun _ => hused

lemma semicolon {a : α} {s : String} {rest : List Token}
    (hts : Terminated (⟨.semicolon, s⟩ :: rest)) :
    Course True 0 k (⟨.semicolon, s⟩ :: rest) (done a ⟨.semicolon, rest⟩)
      (done a ⟨.semicolon, rest ++ k⟩) := by
  have hdepth : depth [⟨.semicolon, s⟩] = 0 := depth_of_plain (by decide)
  cases rest with
  | nil => exact .whole rfl rfl (fun _ => trivial) fun _ => hdepth
  | cons t rest => exact .succeeds [⟨.semicolon, s⟩] rfl (hts.tail (List.cons_ne_nil _ _)) hdepth

lemma refused {e : ParseError} {t : Token} {rest : List Token} (hts : Terminated (t :: rest)) :
    Course final δ k (t :: rest) (fail (α := α) e ⟨t.kind, rest⟩)
      (fail e ⟨t.kind, rest ++ k⟩) := by
  cases rest with
  | nil =>
    refine .whole ?_ rfl ?_ fun hx => (not_clean_error hx).elim
    · exact congrArg (Place.mk · []) hts.semicolon_of_nil
    · rintro ⟨a, ha⟩
      cases ha
  | cons u rest => exact .fails [t] rfl (hts.tail (List.cons_ne_nil _ _))

end Course

structure Continues (final : Prop) (δ : Int) (n : Nat) (g : Place → Attempt α) : Prop where
  course : ∀ p k, p.unread.length < n → Terminated p.unread →
    Course final δ k p.unread (g p) (g (p.extend k))
  ended : ∀ last, last ≠ .semicolon →
    (g ⟨last, []⟩).place.unread = [] ∧ (g ⟨last, []⟩).place.last ≠ .semicolon

namespace Continues

variable {final : Prop} {δ ε ζ : Int} {n : Nat} {g : Place → Attempt α}
  {f : α → Place → Attempt β}

lemma done (a : α) : Continues final 0 n fun p => .done a p where
  course _ _ _ hp := .succeeds [] rfl hp rfl
  ended _ hlast := ⟨rfl, hlast⟩

lemma fail (e : ParseError) : Continues final δ n fun p => (.fail e p : Attempt α) where
  course _ _ _ hp := .fails [] rfl hp
  ended _ hlast := ⟨rfl, hlast⟩

lemma onSuccess (hg : Continues False δ n g) (hf : ∀ a, Continues final ε n (f a)) (hε : ε ≤ 0)
    (hsum : δ + ε = ζ) : Continues final ζ n fun p => (g p).onSuccess f where
  course p k hn hp := by
    have hcourse := hg.course p k hn hp
    generalize g p = x at hcourse ⊢
    generalize g (p.extend k) = y at hcourse ⊢
    obtain ⟨value, q, fs⟩ := x
    cases hcourse with
    | within used hts hend hy hle hclean =>
      dsimp only at hts hend
      cases value with
      | error e =>
        rw [hy, extend, onSuccess_error, onSuccess_error]
        refine .within used hts hend rfl ?_ fun hx => (not_clean_error hx).elim
        rintro ⟨b, hb⟩
        cases hb
      | ok a =>
        have hlength := congrArg List.length hts
        rw [List.length_append] at hlength
        have hrest := (hf a).course q k (by omega) hend
        rw [hy, extend, onSuccess_ok, onSuccess_ok, hts]
        refine hrest.after.behind (hle ⟨a, rfl⟩) (fun hx => hclean ?_) hsum
        obtain ⟨rfl, _⟩ := hx.of_after
        exact ⟨a, q, rfl⟩
    | whole hplace hy hfinal hclean =>
      cases value with
      | error e =>
        rw [hy, extend, onSuccess_error, onSuccess_error]
        refine .whole hplace rfl ?_ fun hx => (not_clean_error hx).elim
        rintro ⟨b, hb⟩
        cases hb
      | ok a => exact (hfinal ⟨a, rfl⟩).elim
    | cut hunread hlast hlt hclean =>
      cases value with
      | error e =>
        rw [onSuccess_error]
        exact .cut hunread hlast (by omega) fun hx => (not_clean_error hx).elim
      | ok a =>
        obtain ⟨last, unread⟩ := q
        obtain rfl : unread = [] := hunread
        obtain ⟨hunread', hlast'⟩ := (hf a).ended last hlast
        rw [onSuccess_ok]
        refine .cut hunread' hlast' (by omega) fun hx => ?_
        obtain ⟨rfl, _⟩ := hx.of_after
        have hdepth := hclean ⟨a, _, rfl⟩
        omega
  ended last hlast := by
    obtain ⟨hunread, hlast⟩ := hg.ended last hlast
    generalize g ⟨last, []⟩ = x at hunread hlast ⊢
    obtain ⟨value, ⟨last', unread⟩, fs⟩ := x
    obtain rfl : unread = [] := hunread
    cases value with
    | error e =>
      rw [onSuccess_error]
      exact ⟨rfl, hlast⟩
    | ok a => exact (hf a).ended last' hlast

end Continues

end Reading

end MiniPascal
