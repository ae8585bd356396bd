import MiniPascal.Proofs.Text.Passing

namespace MiniPascal

namespace Text

variable {u v w x y : String}

def slice? (s : String) (start stop : ℕ) : Option String :=
  if start ≤ stop ∧ String.Pos.Raw.IsValid s ⟨start⟩ ∧ String.Pos.Raw.IsValid s ⟨stop⟩ then
    some (String.Pos.Raw.extract s ⟨start⟩ ⟨stop⟩)
  else none

lemma isValid_append (u v : String) : String.Pos.Raw.IsValid (u ++ v) ⟨u.utf8ByteSize⟩ :=
  String.Pos.Raw.isValid_iff_exists_append.2 ⟨u, v, rfl, rfl⟩

lemma exists_append_of_isValid {s : String} {k : ℕ} (h : String.Pos.Raw.IsValid s ⟨k⟩) :
    ∃ u v, s = u ++ v ∧ u.utf8ByteSize = k := by
  obtain ⟨u, v, rfl, hk⟩ := String.Pos.Raw.isValid_iff_exists_append.1 h
  exact ⟨u, v, rfl, (congrArg String.Pos.Raw.byteIdx hk).symm⟩

lemma utf8ByteSize_ofList (w : List Char) :
    (String.ofList w).utf8ByteSize = (w.map Char.utf8Size).sum := by
  rw [String.utf8ByteSize_ofList]
  induction w with
  | nil => rfl
  | cons c w ih => rw [String.utf8Len_cons, ih, List.map_cons, List.sum_cons, Nat.add_comm]

lemma exists_append (h : u ++ x = y ++ w) (hle : u.utf8ByteSize ≤ y.utf8ByteSize) :
    ∃ v, y = u ++ v := by
  have hlist := congrArg String.toList h
  rw [String.toList_append, String.toList_append, List.append_eq_append_iff] at hlist
  rcases hlist with ⟨v, hy, -⟩ | ⟨v, hu, -⟩
  · refine ⟨.ofList v, ?_⟩
    rw [← String.toList_inj, String.toList_append, String.toList_ofList, hy]
  · have hu' : u = y ++ .ofList v := by
      rw [← String.toList_inj, String.toList_append, String.toList_ofList, hu]
    rw [hu', String.utf8ByteSize_append] at hle
    have hempty : String.ofList v = "" := String.utf8ByteSize_eq_zero_iff.1 (by omega)
    refine ⟨"", ?_⟩
    rw [hu', hempty, String.append_empty, String.append_empty]

lemma slice?_append (u v w : String) :
    slice? (u ++ v ++ w) u.utf8ByteSize (u ++ v).utf8ByteSize = some v := by
  have hle : u.utf8ByteSize ≤ (u ++ v).utf8ByteSize := by
    rw [String.utf8ByteSize_append]
    exact Nat.le_add_right _ _
  have hstart : String.Pos.Raw.IsValid (u ++ v ++ w) ⟨u.utf8ByteSize⟩ := by
    rw [String.append_assoc]
    exact isValid_append u (v ++ w)
  rw [slice?, if_pos ⟨hle, hstart, isValid_append (u ++ v) w⟩]
  have hextract := String.extract_of_valid u.toList v.toList w.toList
  simp only [← String.utf8ByteSize_ofList, String.ofList_append, String.ofList_toList] at hextract
  rw [String.utf8ByteSize_append, hextract]

end Text

namespace Cursor

variable {source u v : String} {c d : Cursor} {w : List Char} {k : ℕ}

def passed (c : Cursor) : String := .ofList c.before.reverse

def rest (c : Cursor) : String := .ofList c.after

structure Over (source : String) (c : Cursor) : Prop where
  text : c.passed ++ c.rest = source
  offset : c.offset = c.passed.utf8ByteSize

lemma Over.start (source : String) : Over source (.ofString source) := by
  refine ⟨?_, rfl⟩
  rw [passed, rest]
  simp [ofString, ofList]

lemma Passes.passed (h : Passes c w d) : d.passed = c.passed ++ .ofList w := by
  rw [Cursor.passed, h.before, List.reverse_append, List.reverse_reverse, String.ofList_append]
  rfl

lemma Passes.over (h : Passes c w d) (hc : Over source c) : Over source d where
  text := by
    rw [h.passed, String.append_assoc, rest, ← String.ofList_append, ← h.after]
    exact hc.text
  offset := by
    rw [h.passed, String.utf8ByteSize_append, Text.utf8ByteSize_ofList, h.offset, hc.offset]

lemma exists_lastBytes? {size : ℕ} {before found bytes : List Char}
    (h : lastBytes? size before found = some bytes) :
    ∃ v older, before = v ++ older ∧ (v.map Char.utf8Size).sum = size ∧
      bytes = v.reverse ++ found := by
  induction size, before, found using lastBytes?.induct with
  | case1 before found =>
    rw [lastBytes?] at h
    cases h
    exact ⟨[], before, rfl, rfl, rfl⟩
  | case2 => cases h
  | case3 size x older found hle ih =>
    rw [lastBytes?, if_pos hle] at h
    obtain ⟨v, oldest, rfl, hsum, rfl⟩ := ih h
    refine ⟨x :: v, oldest, rfl, ?_, by simp⟩
    rw [List.map_cons, List.sum_cons, hsum]
    omega
  | case4 size x older found hlt =>
    rw [lastBytes?, if_neg hlt] at h
    cases h

namespace Over

lemma sliceFrom?_append (h : Over source c) (hpassed : c.passed = u ++ v) :
    c.sliceFrom? u.utf8ByteSize = some v := by
  have hstart : Passes ⟨u.toList.reverse, v.toList ++ c.after, u.utf8ByteSize⟩ v.toList c := by
    have hbefore : c.before.reverse = u.toList ++ v.toList := by
      rw [← String.toList_append, ← hpassed, passed, String.toList_ofList]
    refine ⟨rfl, ?_, ?_⟩
    · rw [← List.reverse_append, ← hbefore, List.reverse_reverse]
    · rw [h.offset, hpassed, String.utf8ByteSize_append, ← Text.utf8ByteSize_ofList,
        String.ofList_toList]
  have hslice := hstart.sliceFrom?
  rwa [String.ofList_toList] at hslice

lemma exists_of_sliceFrom? (h : Over source c) (hslice : c.sliceFrom? k = some v) :
    ∃ u, c.passed = u ++ v ∧ u.utf8ByteSize = k := by
  rw [Cursor.sliceFrom?] at hslice
  split at hslice
  · next hle =>
    obtain ⟨bytes, hbytes, rfl⟩ := Option.map_eq_some_iff.1 hslice
    obtain ⟨w, older, hbefore, hsum, rfl⟩ := exists_lastBytes? hbytes
    have hpassed : c.passed = .ofList older.reverse ++ .ofList w.reverse := by
      rw [passed, hbefore, List.reverse_append, String.ofList_append]
    refine ⟨_, by rw [hpassed, List.append_nil], ?_⟩
    have hsize := h.offset
    rw [hpassed, String.utf8ByteSize_append, Text.utf8ByteSize_ofList w.reverse, List.map_reverse,
      List.sum_reverse, hsum] at hsize
    omega
  · cases hslice

lemma sliceFrom? (h : Over source c) (k : ℕ) :
    c.sliceFrom? k = Text.slice? source k c.offset := by
  by_cases hk : k ≤ c.offset ∧ String.Pos.Raw.IsValid source ⟨k⟩
  · obtain ⟨hle, hvalid⟩ := hk
    obtain ⟨u, x, hsource, rfl⟩ := Text.exists_append_of_isValid hvalid
    rw [h.offset] at hle
    obtain ⟨v, hpassed⟩ := Text.exists_append (hsource.symm.trans h.text.symm) hle
    rw [h.sliceFrom?_append hpassed, h.offset, ← h.text, hpassed, Text.slice?_append]
  · rw [Text.slice?, if_neg fun hslice => hk ⟨hslice.1, hslice.2.1⟩]
    rw [Option.eq_none_iff_forall_ne_some]
    intro v hv
    obtain ⟨u, hpassed, rfl⟩ := h.exists_of_sliceFrom? hv
    refine hk ⟨?_, ?_⟩
    · rw [h.offset, hpassed, String.utf8ByteSize_append]
      exact Nat.le_add_right _ _
    · rw [← h.text, hpassed, String.append_assoc]
      exact Text.isValid_append u _

lemma isSome_sliceFrom?_iff (h : Over source c) (k : ℕ) :
    (c.sliceFrom? k).isSome = true ↔ k ≤ c.offset ∧ String.Pos.Raw.IsValid source ⟨k⟩ := by
  have hoffset : String.Pos.Raw.IsValid source ⟨c.offset⟩ := by
    rw [h.offset, ← h.text]
    exact Text.isValid_append _ _
  rw [h.sliceFrom?, Text.slice?]
  split
  · next hslice => exact ⟨fun _ => ⟨hslice.1, hslice.2.1⟩, fun _ => rfl⟩
  · next hslice => exact ⟨nofun, fun hk => absurd ⟨hk.1, hk.2, hoffset⟩ hslice⟩

end Over

end Cursor

end MiniPascal
