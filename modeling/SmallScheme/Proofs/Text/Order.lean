import Mathlib.Data.List.Lex
import Mathlib.Data.String.Basic
import SmallScheme.Proofs.Dialogue.Lines

/-!
# The order of texts

Texts are ordered as words in a dictionary, by the code points of their characters, and a text
comes before all that go on from it. Their bytes in UTF-8 are in the same order. An encoding begins
with a byte that is the larger the more bytes there are behind it, and these are digits to base 64.
So of two characters that differ, the encodings differ in a byte that both have, and the smaller
byte goes with the smaller character.

## Main results

* `Text.flatMap_lt_iff`: a code that keeps the order of letters keeps the order of words.
* `Text.below_utf8EncodeChar`: the encodings of characters are in the order of the characters.
* `Text.encode_lt_iff`, `Text.codePoints_lex_iff`: texts are ordered as their bytes are, and as
  their code points.
-/

namespace SmallScheme.Text

/-! ### Codes that keep an order -/

/-- Whether the first of two lists has the smaller item where they first differ, and neither has
ended before. -/
def Below {β : Type} [LT β] : List β → List β → Prop
  | x :: xs, y :: ys => x < y ∨ x = y ∧ Below xs ys
  | _, _ => False

section

variable {α β : Type} [LinearOrder α] [LT β]

/-- A list that is `Below` another is less than it, whatever follows the two. -/
theorem Below.append_lt {xs ys : List β} (h : Below xs ys) (rest rest' : List β) :
    xs ++ rest < ys ++ rest' := by
  induction xs generalizing ys with
  | nil => exact absurd h (by simp [Below])
  | cons x xs ih =>
      cases ys with
      | nil => exact absurd h (by simp [Below])
      | cons y ys =>
          rcases h with smaller | ⟨rfl, later⟩
          · exact .rel smaller
          · exact .cons (ih later)

variable {code : α → List β}

/-- Words in order have codes in order, if no letter has an empty code and the code of a letter is
`Below` that of every larger one. -/
theorem flatMap_lt_of_lt (nonempty : ∀ a, code a ≠ [])
    (below : ∀ a b, a < b → Below (code a) (code b)) {as bs : List α} (h : as < bs) :
    as.flatMap code < bs.flatMap code := by
  induction h with
  | @nil b bs =>
      obtain ⟨x, xs, first⟩ := List.exists_cons_of_ne_nil (nonempty b)
      rw [List.flatMap_nil, List.flatMap_cons, first]
      exact .nil
  | @rel a as b bs smaller => exact (below a b smaller).append_lt _ _
  | @cons a as bs _ ih => exact List.Lex.append_left _ ih (code a)

/-- **A code that keeps the order of letters keeps the order of words**, in both directions. -/
theorem flatMap_lt_iff [Std.Asymm (α := β) (· < ·)] (nonempty : ∀ a, code a ≠ [])
    (below : ∀ a b, a < b → Below (code a) (code b)) (as bs : List α) :
    as.flatMap code < bs.flatMap code ↔ as < bs := by
  refine ⟨fun h => ?_, flatMap_lt_of_lt nonempty below⟩
  rcases lt_trichotomy as bs with less | rfl | greater
  · exact less
  · exact absurd h (List.lt_irrefl _)
  · exact absurd h (List.lt_asymm (flatMap_lt_of_lt nonempty below greater))

end

/-! ### UTF-8 -/

/-- Code points end at `10FFFF` in hexadecimal. -/
theorem codePoint_lt (c : Char) : c.toNat < 0x110000 := by
  rcases c.valid with low | high
  · exact Nat.lt_trans low (by decide)
  · exact high.2

/-- The last bytes of an encoding: the last digits of a code point to base 64. -/
def continuation : (count v : Nat) → List UInt8
  | 0, _ => []
  | count + 1, v => UInt8.ofNat (v / 64 ^ count % 64 + 128) :: continuation count v

/-- How many bytes follow the first one in the encoding of a code point. -/
def continuationLength (v : Nat) : Nat :=
  if v ≤ 127 then 0 else if v ≤ 2047 then 1 else if v ≤ 65535 then 2 else 3

/-- What is added to the first digit of a code point in a first byte with so many bytes behind
it. -/
def leadBits : Nat → Nat
  | 0 => 0
  | 1 => 192
  | 2 => 224
  | _ => 240

/-- The first byte of an encoding with so many bytes behind it. -/
def lead (count v : Nat) : Nat :=
  v / 64 ^ count + leadBits count

/-- The UTF-8 encoding of a character is its `lead` byte and as many `continuation` bytes as its
code point takes. -/
theorem utf8EncodeChar_eq (c : Char) :
    String.utf8EncodeChar c =
      UInt8.ofNat (lead (continuationLength c.toNat) c.toNat) ::
        continuation (continuationLength c.toNat) c.toNat := by
  have value : c.val.toNat = c.toNat := rfl
  have bound := codePoint_lt c
  unfold String.utf8EncodeChar
  simp only [value]
  generalize c.toNat = v at bound
  have two : v ≤ 2047 → v / 64 % 32 = v / 64 := by omega
  have three : v ≤ 65535 → v / 4096 % 16 = v / 4096 := by omega
  have four : v / 262144 % 8 = v / 262144 := by omega
  rw [continuationLength]
  split_ifs with one isTwo isThree
  · simp [lead, leadBits, continuation]
  · simp [lead, leadBits, continuation, two isTwo]
  · simp [lead, leadBits, continuation, three isThree]
  · simp [lead, leadBits, continuation, four]

/-- Of two lists of bytes, the first is `Below` the second if its first byte is the smaller, or the
first bytes are the same and what follows is `Below`. -/
theorem below_cons_ofNat {a b : Nat} (bound : a < 256) (bound' : b < 256) {xs ys : List UInt8} :
    Below (UInt8.ofNat a :: xs) (UInt8.ofNat b :: ys) ↔ a < b ∨ a = b ∧ Below xs ys := by
  rw [Below, UInt8.lt_iff_toNat_lt, ← UInt8.toNat_inj, UInt8.toNat_ofNat', UInt8.toNat_ofNat',
    Nat.mod_eq_of_lt bound, Nat.mod_eq_of_lt bound']

/-- The `continuation` bytes of two code points are in the order of what is left of these below the
first byte. -/
theorem below_continuation {count v w : Nat} (h : v % 64 ^ count < w % 64 ^ count) :
    Below (continuation count v) (continuation count w) := by
  induction count with
  | zero => simp [Nat.mod_one] at h
  | succ count ih =>
      have digit (n : Nat) : n / 64 ^ count % 64 < 64 := Nat.mod_lt _ (by decide)
      have low (n : Nat) : n % 64 ^ count < 64 ^ count := Nat.mod_lt _ (Nat.pow_pos (by decide))
      rw [continuation, continuation,
        below_cons_ofNat (by have := digit v; omega) (by have := digit w; omega)]
      rw [Nat.pow_succ, Nat.mod_mul, Nat.mod_mul] at h
      rcases Nat.lt_trichotomy (v / 64 ^ count % 64) (w / 64 ^ count % 64) with less | same | more
      · exact Or.inl (Nat.add_lt_add_right less 128)
      · rw [same] at h ⊢
        exact Or.inr ⟨rfl, ih (Nat.lt_of_add_lt_add_right h)⟩
      · have step := Nat.mul_le_mul_left (64 ^ count) more
        rw [Nat.mul_succ] at step
        have := low w
        omega

/-- **The UTF-8 encodings of characters are in the order of the characters.** -/
theorem below_utf8EncodeChar {c d : Char} (h : c < d) :
    Below (String.utf8EncodeChar c) (String.utf8EncodeChar d) := by
  have less : c.toNat < d.toNat := h
  have bound := codePoint_lt d
  rw [utf8EncodeChar_eq, utf8EncodeChar_eq]
  generalize c.toNat = v at *
  generalize d.toNat = w at *
  have small (n : Nat) (_ : n < 0x110000) : lead (continuationLength n) n < 256 := by
    rw [continuationLength]
    split_ifs <;> simp only [lead, leadBits] <;> omega
  rw [below_cons_ofNat (small v (Nat.lt_trans less bound)) (small w bound)]
  by_cases same : continuationLength v = continuationLength w
  · rw [same, lead, lead]
    generalize continuationLength w = count
    rcases Nat.lt_or_eq_of_le (Nat.div_le_div_right (c := 64 ^ count) less.le) with first | first
    · exact Or.inl (Nat.add_lt_add_right first _)
    · rw [first]
      refine Or.inr ⟨rfl, below_continuation ?_⟩
      have whole := Nat.div_add_mod v (64 ^ count)
      have whole' := Nat.div_add_mod w (64 ^ count)
      rw [first] at whole
      omega
  · -- a longer encoding begins with a larger byte
    refine Or.inl ?_
    rw [continuationLength, continuationLength] at same ⊢
    split_ifs at same ⊢ <;> simp only [lead, leadBits] <;> omega

/-- The UTF-8 encoding of a character is not empty. -/
theorem utf8EncodeChar_ne_nil (c : Char) : String.utf8EncodeChar c ≠ [] := by
  rw [utf8EncodeChar_eq]
  exact List.cons_ne_nil _ _

/-- **Texts are ordered as their UTF-8 encodings are, byte by byte.** -/
theorem encode_lt_iff {s t : String} : Dialogue.encode s < Dialogue.encode t ↔ s < t := by
  have order := flatMap_lt_iff utf8EncodeChar_ne_nil (fun _ _ => below_utf8EncodeChar) s.toList
    t.toList
  rw [String.lt_iff_toList_lt, ← order, ← Dialogue.encode_ofList, ← Dialogue.encode_ofList,
    String.ofList_toList, String.ofList_toList]

/-- The code points of a text. -/
def codePoints (s : String) : List Nat :=
  s.toList.map Char.toNat

/-- **Texts are ordered by their code points**, as words in a dictionary. -/
theorem codePoints_lex_iff {s t : String} :
    List.Lex (· < ·) (codePoints s) (codePoints t) ↔ s < t := by
  have below (c d : Char) (less : c < d) : Below [c.toNat] [d.toNat] := Or.inl less
  have order := flatMap_lt_iff (fun _ => List.cons_ne_nil _ _) below s.toList t.toList
  rw [String.lt_iff_toList_lt, ← order, ← List.map_eq_flatMap, ← List.map_eq_flatMap]
  exact Iff.rfl

end SmallScheme.Text
