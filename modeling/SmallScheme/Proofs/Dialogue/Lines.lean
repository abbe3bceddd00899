import Mathlib.Data.List.Basic
import SmallScheme.Dialogue

/-!
# Lines of an input

An input divides into lines in one way: each ends with its line feed, and what is left behind the
last line feed is a line if it is not empty (`Dialogue.SplitsInto`). Line after line is taken from
the input just so. In UTF-8 the line feed is one byte that is part of no other character, so the
lines of an encoded text are encoded texts.

## Main results

* `Dialogue.SplitsInto.takeLine`: the first line is what is taken from an input.
* `Dialogue.exists_splitsInto`, `Dialogue.SplitsInto.unique`: every input divides into lines, and in
  one way.
* `Dialogue.SplitsInto.append`: an input that ends with a line feed and a further one have the lines
  of both.
* `Dialogue.decode_eq_some_iff`, `Dialogue.exists_texts`: which lines are decoded, and that all
  lines of an encoded text are.
-/

namespace SmallScheme.Dialogue

/-! ### Dividing an input -/

/-- Whether these are the lines of an input, each with its line feed; the last may lack one. -/
inductive SplitsInto : List UInt8 → List (List UInt8) → Prop
  | nil : SplitsInto [] []
  | last {line : List UInt8} : line ≠ [] → 10 ∉ line → SplitsInto line [line]
  | line {body rest : List UInt8} {lines : List (List UInt8)} :
      10 ∉ body → SplitsInto rest lines → SplitsInto (body ++ 10 :: rest) ((body ++ [10]) :: lines)

variable {line body rest input : List UInt8} {lines : List (List UInt8)}

/-- `takeLine` takes all of an input without line feeds. -/
theorem takeLine_of_notMem (noFeed : 10 ∉ line) : takeLine line = (line, []) := by
  induction line with
  | nil => rfl
  | cons byte bytes ih =>
      rw [List.mem_cons, not_or] at noFeed
      obtain ⟨other, later⟩ := noFeed
      rw [takeLine, if_neg (Ne.symm other), ih later]

/-- `takeLine` takes an input up to its first line feed. -/
theorem takeLine_append_cons (noFeed : 10 ∉ body) :
    takeLine (body ++ 10 :: rest) = (body ++ [10], rest) := by
  induction body with
  | nil => rw [List.nil_append, takeLine, if_pos rfl, List.nil_append]
  | cons byte bytes ih =>
      rw [List.mem_cons, not_or] at noFeed
      obtain ⟨other, later⟩ := noFeed
      rw [List.cons_append, takeLine, if_neg (Ne.symm other), ih later, List.cons_append]

/-- **`takeLine` takes the first of the lines that an input `SplitsInto`**, and leaves an input that
splits into the others. -/
theorem SplitsInto.takeLine (h : SplitsInto input (line :: lines)) :
    line ≠ [] ∧ ∃ rest, takeLine input = (line, rest) ∧ SplitsInto rest lines := by
  cases h with
  | last nonempty noFeed => exact ⟨nonempty, [], takeLine_of_notMem noFeed, .nil⟩
  | @line body rest _ noFeed split =>
      exact ⟨List.concat_ne_nil 10 body, rest, takeLine_append_cons noFeed, split⟩

/-- **Every input `SplitsInto` lines.** -/
theorem exists_splitsInto (input : List UInt8) : ∃ lines, SplitsInto input lines := by
  by_cases feed : 10 ∈ input
  · obtain ⟨body, rest, whole, noFeed⟩ := List.eq_append_cons_of_mem feed
    have shorter : rest.length < input.length := by
      rw [whole, List.length_append, List.length_cons]
      omega
    obtain ⟨lines, split⟩ := exists_splitsInto rest
    rw [whole]
    exact ⟨_, .line noFeed split⟩
  · by_cases empty : input = []
    · rw [empty]
      exact ⟨[], .nil⟩
    · exact ⟨[input], .last empty feed⟩
termination_by input.length

/-- An input `SplitsInto` lines in one way only. -/
theorem SplitsInto.unique {lines' : List (List UInt8)} (h : SplitsInto input lines)
    (h' : SplitsInto input lines') : lines = lines' := by
  have empty {input : List UInt8} {lines : List (List UInt8)} (h : SplitsInto input lines)
      (h' : SplitsInto input []) : lines = [] := by
    cases h'
    cases lines with
    | nil => rfl
    | cons line lines =>
        obtain ⟨nonempty, rest, taken, -⟩ := h.takeLine
        cases taken
        exact absurd rfl nonempty
  induction lines generalizing input lines' with
  | nil => exact (empty h' h).symm
  | cons line lines ih =>
      cases lines' with
      | nil => exact empty h h'
      | cons line' lines' =>
          obtain ⟨-, rest, taken, split⟩ := h.takeLine
          obtain ⟨-, rest', taken', split'⟩ := h'.takeLine
          obtain ⟨rfl, rfl⟩ : line = line' ∧ rest = rest' := by simpa [taken] using taken'
          rw [ih split split']

/-- **The lines of an input that is empty or ends with a line feed, and those of any further input,
are the lines of both together.** -/
theorem SplitsInto.append {further : List UInt8} {lines' : List (List UInt8)}
    (h : SplitsInto input lines) (closed : input = [] ∨ input.getLast? = some 10)
    (h' : SplitsInto further lines') : SplitsInto (input ++ further) (lines ++ lines') := by
  induction h with
  | nil => exact h'
  | @last line nonempty noFeed =>
      rcases closed with empty | ends
      · exact absurd empty nonempty
      · exact absurd (List.mem_of_getLast? ends) noFeed
  | @line body rest lines noFeed _ ih =>
      have closedRest : rest = [] ∨ rest.getLast? = some 10 := by
        cases rest with
        | nil => exact Or.inl rfl
        | cons byte bytes => exact Or.inr (by simpa [List.getLast?_append] using closed)
      rw [List.append_assoc, List.cons_append, List.cons_append]
      exact .line noFeed (ih closedRest)

/-! ### Encoded texts -/

/-- The bytes of a text in UTF-8. -/
def encode (text : String) : List UInt8 :=
  text.toUTF8.data.toList

/-- **`decode` finds the text whose UTF-8 encoding a line is**, if there is one. -/
theorem decode_eq_some_iff {text : String} : decode line = some text ↔ encode text = line := by
  rw [decode, String.fromUTF8?]
  constructor
  · intro decoded
    split at decoded
    · cases decoded
      simp [encode, String.fromUTF8]
    · cases decoded
  · rintro rfl
    have valid := text.isValidUTF8
    simp [encode, String.fromUTF8, valid]

/-- The UTF-8 encoding of a text is that of its characters, one after the other. -/
theorem encode_ofList (cs : List Char) :
    encode (String.ofList cs) = cs.flatMap String.utf8EncodeChar := by
  simp [encode, List.utf8Encode, List.data_toByteArray]

/-- The byte of the line feed occurs in the UTF-8 encoding of no other character. -/
theorem eq_lineFeed_of_mem {c : Char} (h : 10 ∈ String.utf8EncodeChar c) : c = '\n' := by
  have bytes (byte : Nat) : (10 : UInt8) = UInt8.ofNat byte ↔ 10 = byte % 256 := by
    rw [← UInt8.toNat_inj, UInt8.toNat_ofNat']
    rfl
  have value : c.val.toNat = 10 → c = '\n' := by
    intro isTen
    exact Char.ext (UInt32.toNat_inj.1 isTen)
  unfold String.utf8EncodeChar at h
  simp only at h
  split at h
  · rw [List.mem_singleton, bytes] at h
    exact value (by omega)
  -- the bytes of a longer encoding are all above those of ASCII
  · split at h
    · simp only [List.mem_cons, List.not_mem_nil, or_false, bytes] at h
      omega
    · split at h
      · simp only [List.mem_cons, List.not_mem_nil, or_false, bytes] at h
        omega
      · simp only [List.mem_cons, List.not_mem_nil, or_false, bytes] at h
        omega

/-- The UTF-8 encoding of characters without a line feed has no byte of a line feed. -/
theorem lineFeed_notMem_encode {cs : List Char} (noFeed : '\n' ∉ cs) :
    10 ∉ encode (String.ofList cs) := by
  rw [encode_ofList, List.mem_flatMap]
  rintro ⟨c, member, inside⟩
  obtain rfl := eq_lineFeed_of_mem inside
  exact noFeed member

/-- The UTF-8 encoding of characters with a line feed among them has one byte for the line feed. -/
theorem encode_append_cons (front back : List Char) :
    encode (String.ofList (front ++ '\n' :: back)) =
      encode (String.ofList front) ++ 10 :: encode (String.ofList back) := by
  have lineFeed : String.utf8EncodeChar '\n' = [10] := by decide
  rw [encode_ofList, encode_ofList, encode_ofList, List.flatMap_append, List.flatMap_cons, lineFeed]
  rfl

/-- The UTF-8 encoding of a list of characters `SplitsInto` encodings of texts. -/
theorem exists_texts_ofList (cs : List Char) :
    ∃ texts : List String, SplitsInto (encode (String.ofList cs)) (texts.map encode) := by
  by_cases feed : '\n' ∈ cs
  · obtain ⟨front, back, whole, noFeed⟩ := List.eq_append_cons_of_mem feed
    have shorter : back.length < cs.length := by
      rw [whole, List.length_append, List.length_cons]
      omega
    obtain ⟨texts, split⟩ := exists_texts_ofList back
    have first : encode (String.ofList (front ++ ['\n'])) = encode (String.ofList front) ++ [10] :=
      encode_append_cons front []
    refine ⟨String.ofList (front ++ ['\n']) :: texts, ?_⟩
    rw [whole, encode_append_cons, List.map_cons, first]
    exact .line (lineFeed_notMem_encode noFeed) split
  · by_cases empty : encode (String.ofList cs) = []
    · rw [empty]
      exact ⟨[], .nil⟩
    · exact ⟨[String.ofList cs], .last empty (lineFeed_notMem_encode feed)⟩
termination_by cs.length

/-- **The UTF-8 encoding of a text `SplitsInto` encodings of texts.** -/
theorem exists_texts (text : String) :
    ∃ texts : List String, SplitsInto (encode text) (texts.map encode) := by
  obtain ⟨texts, split⟩ := exists_texts_ofList text.toList
  rw [String.ofList_toList] at split
  exact ⟨texts, split⟩

end SmallScheme.Dialogue
