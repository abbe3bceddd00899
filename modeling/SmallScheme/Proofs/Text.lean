import Mathlib.Data.List.TakeWhile
import Mathlib.Tactic.Common
import SmallScheme.Text

/-!
# Runs of characters, and quoted text read back

A run is as many characters of one class as stand together. That a run is as long as it can
be means that a character of another class follows it, or none.

A quoted text stands on one line and belongs to one text only. Each character is shown in one of
three ways, as itself, by a letter behind a backslash, or by its code point between braces, and what
is shown says by itself which way it is and where it ends. So characters can be read off one after
the other.

## Main results

* `Text.append_inj_of_run`: a run and what stands behind it are known from the two together.
* `Text.escape_append_inj`: the character that is shown in front of a text, and the text.
* `Text.quoted_injective`: a text is known from its quoted form.
* `Text.lineFeed_notMem_quoted`: a quoted text has no line feed.
-/

namespace SmallScheme.Text

/-! ### Runs -/

/-- Characters of one class are the longest run of that class in front of a text, if the text goes
on with another character or not at all. -/
theorem takeWhile_append_eq {p : Char → Bool} (run rest : List Char)
    (inside : ∀ c ∈ run, p c = true) (stop : ∀ c ∈ rest.head?, p c = false) :
    (run ++ rest).takeWhile p = run ∧ (run ++ rest).dropWhile p = rest := by
  rw [List.takeWhile_append_of_pos inside, List.dropWhile_append_of_pos inside]
  cases rest with
  | nil => simp
  | cons c cs =>
      have other : p c = false := stop c rfl
      simp [other]

/-- The first character behind the longest run of a class is not of that class. -/
theorem eq_false_of_mem_head?_dropWhile {p : Char → Bool} {cs : List Char} :
    ∀ c ∈ (cs.dropWhile p).head?, p c = false := by
  intro c hc
  have stop := List.head?_dropWhile_not p cs
  rw [Option.mem_def] at hc
  rw [hc] at stop
  simpa using stop

/-- A run of one class, followed by a character of another class or by nothing, can be told from
what follows it. -/
theorem append_inj_of_run {p : Char → Bool} {run run' rest rest' : List Char}
    (inside : ∀ c ∈ run, p c = true) (stop : ∀ c ∈ rest.head?, p c = false)
    (inside' : ∀ c ∈ run', p c = true) (stop' : ∀ c ∈ rest'.head?, p c = false)
    (same : run ++ rest = run' ++ rest') : run = run' ∧ rest = rest' := by
  obtain ⟨taken, dropped⟩ := takeWhile_append_eq run rest inside stop
  obtain ⟨taken', dropped'⟩ := takeWhile_append_eq run' rest' inside' stop'
  rw [same] at taken dropped
  exact ⟨taken.symm.trans taken', dropped.symm.trans dropped'⟩

/-- A run of one class at the end of a text can be told from what precedes it, if the character just
before it is not of that class. -/
theorem append_cons_inj_of_run {p : Char → Bool} {front front' run run' : List Char} {c : Char}
    (stop : p c = false) (inside : ∀ c ∈ run, p c = true) (inside' : ∀ c ∈ run', p c = true)
    (same : front ++ c :: run = front' ++ c :: run') : front = front' ∧ run = run' := by
  have backwards : run.reverse ++ c :: front.reverse = run'.reverse ++ c :: front'.reverse := by
    simpa using congrArg List.reverse same
  obtain ⟨runs, fronts⟩ := append_inj_of_run
    (fun d hd => inside d (List.mem_reverse.1 hd)) (fun d hd => by cases hd; exact stop)
    (fun d hd => inside' d (List.mem_reverse.1 hd)) (fun d hd => by cases hd; exact stop) backwards
  exact ⟨List.reverse_inj.1 (List.cons.inj fronts).2, List.reverse_inj.1 runs⟩

/-! ### Hexadecimal digits -/

/-- A natural below sixteen has one hexadecimal digit, and any other has those of its sixteenth and
one more. -/
theorem toDigits_sixteen (n : Nat) :
    n < 16 ∧ Nat.toDigits 16 n = [n.digitChar] ∨
      n / 16 < n ∧ Nat.toDigits 16 n = Nat.toDigits 16 (n / 16) ++ [(n % 16).digitChar] := by
  by_cases small : n < 16
  · exact Or.inl ⟨small, Nat.toDigits_of_lt_base small⟩
  · have low : n % 16 < 16 := Nat.mod_lt n (by decide)
    have whole := Nat.toDigits_append_toDigits (b := 16) (by decide)
      (Nat.div_pos (Nat.le_of_not_lt small) (by decide)) low
    rw [Nat.div_add_mod, Nat.toDigits_of_lt_base low] at whole
    exact Or.inr ⟨Nat.div_lt_self (by omega) (by decide), whole.symm⟩

/-- Every hexadecimal digit of a natural is the `Nat.digitChar` of a natural below sixteen. -/
theorem exists_of_mem_toDigits {n : Nat} {c : Char} (h : c ∈ Nat.toDigits 16 n) :
    ∃ d < 16, c = Nat.digitChar d := by
  induction n using Nat.strongRecOn with
  | ind n ih =>
      rcases toDigits_sixteen n with ⟨small, digits⟩ | ⟨shorter, digits⟩
      · rw [digits, List.mem_singleton] at h
        exact ⟨n, small, h⟩
      · rw [digits, List.mem_append, List.mem_singleton] at h
        rcases h with before | last
        · exact ih _ shorter before
        · exact ⟨n % 16, Nat.mod_lt n (by decide), last⟩

/-- The value of a hexadecimal digit. -/
def hexValue (c : Char) : Nat :=
  if c.isDigit then c.toNat - '0'.toNat else c.toNat - 'a'.toNat + 10

/-- The natural that hexadecimal digits stand for. -/
def ofHex (digits : List Char) : Nat :=
  digits.foldl (fun n c => 16 * n + hexValue c) 0

/-- A natural is read back by `ofHex` from its hexadecimal digits. -/
theorem ofHex_toDigits (n : Nat) : ofHex (Nat.toDigits 16 n) = n := by
  have value : ∀ d < 16, hexValue (Nat.digitChar d) = d := by decide
  induction n using Nat.strongRecOn with
  | ind n ih =>
      rcases toDigits_sixteen n with ⟨small, digits⟩ | ⟨shorter, digits⟩
      · rw [digits, ofHex, List.foldl_cons, List.foldl_nil, value n small, Nat.mul_zero,
          Nat.zero_add]
      · have front := ih _ shorter
        rw [ofHex] at front ⊢
        rw [digits, List.foldl_append, front, List.foldl_cons, List.foldl_nil,
          value _ (Nat.mod_lt n (by decide)), Nat.div_add_mod]

/-! ### Characters -/

/-- The characters that are shown by a letter behind a backslash, with their letters. -/
def letters : List (Char × Char) :=
  [('\x00', '0'), ('\t', 't'), ('\n', 'n'), ('\r', 'r'), ('"', '"'), ('\\', '\\')]

/-- The three ways in which a character is shown: as itself, by a letter behind a backslash, or by
its code point. -/
inductive Shows (c : Char) : List Char → Prop
  | letter {l : Char} : (c, l) ∈ letters → Shows c ['\\', l]
  | code : Shows c ('\\' :: 'u' :: '\x7b' :: (Nat.toDigits 16 c.toNat ++ ['\x7d']))
  | plain : c ≠ '\\' → c ≠ '\n' → Shows c [c]

/-- `escape` shows every character in one of the ways that `Shows` lists. -/
theorem shows_escape (c : Char) : Shows c (escape c) := by
  rw [escape]
  split_ifs with null tab feed back mark slash hidden
  · exact .letter (by rw [null]; decide)
  · exact .letter (by rw [tab]; decide)
  · exact .letter (by rw [feed]; decide)
  · exact .letter (by rw [back]; decide)
  · exact .letter (by rw [mark]; decide)
  · exact .letter (by rw [slash]; decide)
  · exact .code
  · exact .plain slash feed

/-- No two characters have the same letter behind their backslash, and none has the `u` that
introduces a code point. -/
theorem letters_inj : (∀ p ∈ letters, ∀ q ∈ letters, p.2 = q.2 → p.1 = q.1) ∧
    ∀ p ∈ letters, p.2 ≠ 'u' := by
  decide

/-- A closing brace is no hexadecimal digit. -/
theorem brace_notMem_toDigits {n : Nat} : ∀ c ∈ Nat.toDigits 16 n, (c != '\x7d') = true := by
  have each : ∀ d < 16, (Nat.digitChar d != '\x7d') = true := by decide
  intro c member
  obtain ⟨d, small, rfl⟩ := exists_of_mem_toDigits member
  exact each d small

/-- **What `Shows` a character can be told from the text behind it, and so can the character.** -/
theorem Shows.append_inj {c d : Char} {x y rest rest' : List Char} (first : Shows c x)
    (second : Shows d y) (same : x ++ rest = y ++ rest') : c = d ∧ rest = rest' := by
  cases first with
  | @letter l isLetter =>
      cases second with
      | @letter l' isLetter' =>
          obtain ⟨rfl, rfl⟩ : l = l' ∧ rest = rest' := by simpa using same
          exact ⟨letters_inj.1 _ isLetter _ isLetter' rfl, rfl⟩
      | code =>
          obtain ⟨rfl, -⟩ : l = 'u' ∧ _ := by simpa using same
          exact absurd rfl (letters_inj.2 _ isLetter)
      | plain notSlash => exact absurd (List.cons.inj same).1.symm notSlash
  | code =>
      cases second with
      | @letter l' isLetter' =>
          obtain ⟨rfl, -⟩ : 'u' = l' ∧ _ := by simpa using same
          exact absurd rfl (letters_inj.2 _ isLetter')
      | code =>
          have digits : Nat.toDigits 16 c.toNat ++ '\x7d' :: rest =
              Nat.toDigits 16 d.toNat ++ '\x7d' :: rest' := by simpa using same
          obtain ⟨code, behind⟩ := append_inj_of_run brace_notMem_toDigits (by simp)
            brace_notMem_toDigits (by simp) digits
          have point : c.toNat = d.toNat := by
            rw [← ofHex_toDigits c.toNat, code, ofHex_toDigits]
          exact ⟨Char.toNat_inj.1 point, (List.cons.inj behind).2⟩
      | plain notSlash => exact absurd (List.cons.inj same).1.symm notSlash
  | plain notSlash =>
      cases second with
      | letter => exact absurd (List.cons.inj same).1 notSlash
      | code => exact absurd (List.cons.inj same).1 notSlash
      | plain => exact List.cons.inj same

/-- **A character and the text behind it are determined by the `escape` of the character and that
text.** -/
theorem escape_append_inj {c d : Char} {rest rest' : List Char}
    (same : escape c ++ rest = escape d ++ rest') : c = d ∧ rest = rest' :=
  (shows_escape c).append_inj (shows_escape d) same

/-! ### Texts -/

/-- Lists of characters with the same `escape`, one character after the other, are equal. -/
theorem flatMap_escape_injective {cs ds : List Char}
    (same : cs.flatMap escape = ds.flatMap escape) : cs = ds := by
  have nonempty (c : Char) (others : List Char) : escape c ++ others ≠ [] := by
    have shows := shows_escape c
    generalize escape c = x at shows
    cases shows <;> simp
  induction cs generalizing ds with
  | nil =>
      cases ds with
      | nil => rfl
      | cons d ds => exact absurd same.symm (nonempty d _)
  | cons c cs ih =>
      cases ds with
      | nil => exact absurd same (nonempty c _)
      | cons d ds =>
          rw [List.flatMap_cons, List.flatMap_cons] at same
          obtain ⟨rfl, others⟩ := escape_append_inj same
          rw [ih others]

/-- The characters of `quoted s` are the `escape` of those of `s` between two quotation marks. -/
theorem toList_quoted (s : String) :
    (quoted s).toList = '"' :: (s.toList.flatMap escape ++ ['"']) := by
  rw [quoted, String.toList_ofList]
  rfl

/-- **Texts with the same `quoted` form are equal.** -/
theorem quoted_injective {s t : String} (same : quoted s = quoted t) : s = t := by
  have inner := congrArg String.toList same
  rw [toList_quoted, toList_quoted, List.cons.injEq, List.append_cancel_right_eq] at inner
  exact String.toList_inj.1 (flatMap_escape_injective inner.2)

/-- **A `quoted` text has no line feed**, whatever the text has. -/
theorem lineFeed_notMem_quoted (s : String) : '\n' ∉ (quoted s).toList := by
  have shown {c : Char} : '\n' ∉ escape c := by
    have shows := shows_escape c
    generalize escape c = x at shows
    cases shows with
    | @letter l isLetter =>
        have : l ≠ '\n' := by
          rintro rfl
          simp [letters] at isLetter
        simpa using this.symm
    | code =>
        intro member
        have digit : '\n' ∈ Nat.toDigits 16 c.toNat := by simpa using member
        have each : ∀ d < 16, '\n' ≠ Nat.digitChar d := by decide
        obtain ⟨d, small, isDigit⟩ := exists_of_mem_toDigits digit
        exact each d small isDigit
    | plain _ notFeed => simpa using notFeed.symm
  rw [toList_quoted]
  simp [shown]

end SmallScheme.Text
