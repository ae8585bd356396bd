import Mathlib
import MiniPascal.Shell
/-! Lines sent one after the other arrive as the lines they were. -/

namespace MiniPascal.Shell

def IsLine (line : String) : Prop := ∃ body : String, line = body ++ "\n" ∧ '\n' ∉ body.toList

def bytes (s : String) : List UInt8 := s.toList.flatMap String.utf8EncodeChar

lemma bytes_append (s t : String) : bytes (s ++ t) = bytes s ++ bytes t := by
  rw [bytes, String.toList_append, List.flatMap_append]
  rfl

lemma data_toByteArray (s : String) : s.toByteArray.data.toList = bytes s := by
  rw [← String.utf8Encode_toList, List.utf8Encode, List.toList_data_toByteArray]
  rfl

lemma toList_loop (b : ByteArray) (i : Nat) (r : List UInt8) :
    ByteArray.toList.loop b i r = r.reverse ++ b.data.toList.drop i := by
  induction hn : b.size - i generalizing i r with
  | zero =>
    have hle : b.size ≤ i := Nat.le_of_sub_eq_zero hn
    rw [ByteArray.toList.loop, if_neg (Nat.not_lt.2 hle), List.drop_of_length_le hle,
      List.append_nil]
  | succ n ih =>
    have hlt : i < b.size := by omega
    have hlength : i < b.data.toList.length := hlt
    have hget : b.data.toList[i] = b.get! i := (getElem!_pos b.data i hlt).symm
    rw [ByteArray.toList.loop, if_pos hlt, ih (i + 1) _ (by omega),
      List.drop_eq_getElem_cons hlength, hget]
    simp

lemma toList_toUTF8 (s : String) : s.toUTF8.toList = bytes s := by
  rw [ByteArray.toList, toList_loop, String.toUTF8_eq_toByteArray, data_toByteArray]
  rfl

lemma fromUTF8?_toUTF8 (s : String) : String.fromUTF8? s.toUTF8 = some s := by
  have hvalid : s.toUTF8.IsValidUTF8 := s.isValidUTF8
  rw [String.fromUTF8?, dif_pos hvalid]
  rfl

lemma fromUTF8?_bytes (s : String) : String.fromUTF8? ⟨(bytes s).toArray⟩ = some s := by
  rw [← data_toByteArray, Array.toArray_toList]
  exact fromUTF8?_toUTF8 s

lemma eq_newline_of_mem {c : Char} (h : 10 ∈ String.utf8EncodeChar c) : c = '\n' := by
  have hbyte (n : Nat) (hn : 10 = UInt8.ofNat n) : n % 256 = 10 := by
    simpa using (congrArg UInt8.toNat hn).symm
  rw [String.utf8EncodeChar] at h
  split at h
  · rw [List.mem_singleton] at h
    have hvalue := hbyte _ h
    rw [← Char.toNat_inj]
    change c.val.toNat = 10
    omega
  split at h
  · simp only [List.mem_cons, List.not_mem_nil, or_false] at h
    rcases h with h | h <;> have hvalue := hbyte _ h <;> omega
  split at h
  · simp only [List.mem_cons, List.not_mem_nil, or_false] at h
    rcases h with h | h | h <;> have hvalue := hbyte _ h <;> omega
  · simp only [List.mem_cons, List.not_mem_nil, or_false] at h
    rcases h with h | h | h | h <;> have hvalue := hbyte _ h <;> omega

lemma newline_not_mem_bytes {s : String} (h : '\n' ∉ s.toList) : 10 ∉ bytes s := by
  rw [bytes, List.mem_flatMap]
  rintro ⟨c, hc, hmem⟩
  rw [eq_newline_of_mem hmem] at hc
  exact h hc

lemma splitLines_newline {w rest : List UInt8} (h : 10 ∉ w) (line : List UInt8) :
    splitLines line (w ++ 10 :: rest) = (line.reverse ++ w ++ [10]) :: splitLines [] rest := by
  induction w generalizing line with
  | nil => simp [splitLines]
  | cons byte w ih =>
    rw [List.mem_cons, not_or] at h
    rw [List.cons_append, splitLines, if_neg (Ne.symm h.1), ih h.2]
    simp

lemma splitLines_bytes {lines : List String} (h : ∀ line ∈ lines, IsLine line) :
    splitLines [] (bytes (String.join lines)) = lines.map bytes := by
  induction lines with
  | nil => rfl
  | cons line rest ih =>
    rw [List.forall_mem_cons] at h
    obtain ⟨body, rfl, hbody⟩ := h.1
    have hnewline : bytes "\n" = [10] := by decide
    rw [String.join_cons, bytes_append, bytes_append, hnewline, List.append_assoc,
      List.singleton_append, splitLines_newline (newline_not_mem_bytes hbody), ih h.2]
    simp [bytes_append, hnewline]

end MiniPascal.Shell
