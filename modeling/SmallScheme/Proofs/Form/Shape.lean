import SmallScheme.Form
import SmallScheme.Token

/-!
# The shape of forms

Views of a form that leave its text out: the lexemes that spell it (`Form.lexemes`), which
are the grammar of sequences of tokens, and how deep it is nested (`Form.depth`), which is what
a nesting limit is about. A limit leaves room for a number of levels below a depth or it does not
(`Limit.Allows`). Both the reader and the evaluator go down one level at a time, and what has room
at one depth has one level less below it.

Every form that stands in another one, itself included, has its place in the order in which they
begin: a form before what stands inside it, and the items of a list from left to right
(`Form.occurrences`). Each comes with its depth and with the number of lexemes that stand before it,
so that the lexeme at this index is the one that begins it (`Form.lexemes_of_mem_occurrences`).
-/

namespace SmallScheme

namespace Form

/-! ### Spelling -/

mutual

/-- The lexemes that spell a form: an atom is its own lexeme, a list stands in parentheses,
and a quote mark stands before what it quotes. -/
def lexemes : Form → List Lexeme
  | number x => [.number x]
  | string s => [.string s]
  | boolean b => [.boolean b]
  | symbol name => [.symbol name]
  | list items => .leftParen :: (lexemesAll items ++ [.rightParen])
  | quote inner => .quote :: inner.lexemes

/-- The lexemes that spell several forms, one behind the other. -/
def lexemesAll : List Form → List Lexeme
  | [] => []
  | form :: forms => form.lexemes ++ lexemesAll forms

end

/-- The lexemes of forms in two groups are those of the first group and then those of the second. -/
@[simp]
theorem lexemesAll_append (forms others : List Form) :
    lexemesAll (forms ++ others) = lexemesAll forms ++ lexemesAll others := by
  induction forms with
  | nil => rfl
  | cons form forms ih =>
      rw [List.cons_append, lexemesAll, lexemesAll, ih, List.append_assoc]

/-- A lexeme of several forms is a lexeme of one of them. -/
theorem mem_lexemesAll {l : Lexeme} {forms : List Form} :
    l ∈ lexemesAll forms ↔ ∃ form ∈ forms, l ∈ form.lexemes := by
  induction forms with
  | nil => simp [lexemesAll]
  | cons form forms ih => simp [lexemesAll, ih]

/-- The end of input is not among the lexemes of a form. -/
theorem endOfInput_notMem_lexemes (form : Form) : .endOfInput ∉ form.lexemes := by
  induction form with
  | number x => simp [lexemes]
  | string s => simp [lexemes]
  | boolean b => simp [lexemes]
  | symbol name => simp [lexemes]
  | list items ih =>
      simp only [lexemes, List.mem_cons, List.mem_append, mem_lexemesAll, List.not_mem_nil]
      rintro (same | ⟨item, member, inside⟩ | same | absent)
      · cases same
      · exact ih item member inside
      · cases same
      · exact absent
  | quote inner ih => simp [lexemes, ih]

/-- Every form is spelled by at least one lexeme. -/
theorem lexemes_ne_nil (form : Form) : form.lexemes ≠ [] := by
  cases form <;> simp [lexemes]

/-! ### Nesting -/

mutual

/-- How many levels a form has: atoms and the empty list are one, a list is one more than its
deepest item, a quoted form one more than what is quoted. -/
def depth : Form → Nat
  | list items => 1 + depthAll items
  | quote inner => 1 + inner.depth
  | _ => 1

/-- How many levels the deepest of several forms has. -/
def depthAll : List Form → Nat
  | [] => 0
  | form :: forms => max form.depth (depthAll forms)

end

/-- Every form has at least one level. -/
theorem one_le_depth (form : Form) : 1 ≤ form.depth := by
  cases form <;> simp [depth]

/-- Several forms have at most `levels` levels exactly when each of them has. -/
theorem depthAll_le_iff {forms : List Form} {levels : Nat} :
    depthAll forms ≤ levels ↔ ∀ form ∈ forms, form.depth ≤ levels := by
  induction forms with
  | nil => simp [depthAll]
  | cons form forms ih => rw [depthAll, Nat.max_le, ih, List.forall_mem_cons]

end Form

/-! ### Room under a limit -/

namespace Limit

/-- Whether this many levels can be entered below a depth. -/
def Allows (limit : Limit) (depth levels : Nat) : Prop :=
  ∀ most ∈ limit, depth + levels ≤ most

/-- Without a limit there is always room. -/
theorem allows_none (depth levels : Nat) : Limit.Allows none depth levels := by
  intro most absent
  cases absent

/-- A limit `Allows` as many levels below a depth as are left of it there. -/
theorem allows_some {most depth levels : Nat} :
    Limit.Allows (some most) depth levels ↔ depth + levels ≤ most := by
  simp [Allows]

variable {limit : Limit} {depth levels fewer : Nat}

/-- A limit that `Allows` some levels allows fewer. -/
theorem Allows.mono (room : limit.Allows depth levels) (fits : fewer ≤ levels) :
    limit.Allows depth fewer := by
  intro most isLimit
  have bound := room most isLimit
  omega

/-- A limit that `Allows` some levels at a depth allows one level less at the next depth. -/
theorem Allows.below (room : limit.Allows depth levels) (fits : 1 + fewer ≤ levels) :
    limit.Allows (depth + 1) fewer := by
  intro most isLimit
  have bound := room most isLimit
  omega

/-- A limit that `Allows` a level below a depth is not reached at that depth. -/
theorem Allows.reached?_eq_none (room : limit.Allows depth levels) (fits : 1 ≤ levels) :
    limit.reached? depth = none := by
  cases limit with
  | none => rfl
  | some most =>
      have bound := allows_some.1 room
      rw [Limit.reached?_some, if_neg (by omega)]

/-- The limit that `Limit.reached?` reports is the one that was given. -/
theorem eq_of_reached? {limit : Limit} {depth most : Nat}
    (reached : limit.reached? depth = some most) : limit = some most :=
  (Option.filter_eq_some_iff.1 reached).1

end Limit

/-! ### Forms in a form, in order -/

/-- A form where it stands in another one. -/
structure Occurrence where
  form : Form
  /-- How deep it stands: the other form itself has depth one. -/
  depth : Nat
  /-- How many lexemes of the other form stand before it. -/
  index : Nat

namespace Form

mutual

/-- The forms that stand in a form of a depth, behind a number of lexemes, in the order in which
they begin. -/
def occurrences (depth index : Nat) : Form → List Occurrence
  | list items => ⟨list items, depth, index⟩ :: occurrencesAll (depth + 1) (index + 1) items
  | quote inner => ⟨quote inner, depth, index⟩ :: inner.occurrences (depth + 1) (index + 1)
  | number x => [⟨number x, depth, index⟩]
  | string s => [⟨string s, depth, index⟩]
  | boolean b => [⟨boolean b, depth, index⟩]
  | symbol name => [⟨symbol name, depth, index⟩]

/-- The forms that stand in several forms side by side. -/
def occurrencesAll (depth index : Nat) : List Form → List Occurrence
  | [] => []
  | form :: forms =>
    form.occurrences depth index ++ occurrencesAll depth (index + form.lexemes.length) forms

end

variable {depth index : Nat} {form : Form} {forms : List Form} {o : Occurrence}

/-- The first of the `Form.occurrences` in a form is the form itself. -/
theorem head?_occurrences (depth index : Nat) (form : Form) :
    (form.occurrences depth index).head? = some ⟨form, depth, index⟩ := by
  cases form <;> rfl

/-- An occurrence in several forms is one in some form of them, behind the lexemes of the forms
before it. -/
theorem mem_occurrencesAll (h : o ∈ occurrencesAll depth index forms) :
    ∃ before form after, forms = before ++ form :: after ∧
      o ∈ form.occurrences depth (index + (lexemesAll before).length) := by
  induction forms generalizing index with
  | nil => cases h
  | cons form forms ih =>
      rcases List.mem_append.1 h with inside | later
      · exact ⟨[], form, forms, rfl, inside⟩
      · obtain ⟨before, other, after, rfl, inside⟩ := ih later
        refine ⟨form :: before, other, after, rfl, ?_⟩
        rwa [lexemesAll, List.length_append, ← Nat.add_assoc]

/-- Below a depth, no occurrence in a form is deeper than the levels that the form has. -/
theorem depth_lt_of_mem_occurrences (h : o ∈ form.occurrences depth index) :
    o.depth < depth + form.depth := by
  induction form generalizing depth index with
  | number x => obtain rfl := List.mem_singleton.1 h; exact Nat.lt_add_one depth
  | string s => obtain rfl := List.mem_singleton.1 h; exact Nat.lt_add_one depth
  | boolean b => obtain rfl := List.mem_singleton.1 h; exact Nat.lt_add_one depth
  | symbol name => obtain rfl := List.mem_singleton.1 h; exact Nat.lt_add_one depth
  | list items ih =>
      rcases List.mem_cons.1 h with rfl | inside
      · exact Nat.lt_add_of_pos_right (one_le_depth _)
      · obtain ⟨before, item, after, rfl, inItem⟩ := mem_occurrencesAll inside
        have member : item ∈ before ++ item :: after := by simp
        have shallow := ih item member inItem
        have bound := depthAll_le_iff.1 (Nat.le_refl _) item member
        rw [Form.depth]
        omega
  | quote inner ih =>
      rcases List.mem_cons.1 h with rfl | inside
      · exact Nat.lt_add_of_pos_right (one_le_depth _)
      · have shallow := ih inside
        rw [Form.depth]
        omega

/-- **The lexemes of an occurrence stand among those of the whole form, from its index on.** -/
theorem lexemes_of_mem_occurrences (h : o ∈ form.occurrences depth index) :
    ∃ before after, form.lexemes = before ++ o.form.lexemes ++ after ∧
      o.index = index + before.length := by
  induction form generalizing depth index with
  | number x => obtain rfl := List.mem_singleton.1 h; exact ⟨[], [], rfl, rfl⟩
  | string s => obtain rfl := List.mem_singleton.1 h; exact ⟨[], [], rfl, rfl⟩
  | boolean b => obtain rfl := List.mem_singleton.1 h; exact ⟨[], [], rfl, rfl⟩
  | symbol name => obtain rfl := List.mem_singleton.1 h; exact ⟨[], [], rfl, rfl⟩
  | list items ih =>
      rcases List.mem_cons.1 h with rfl | inside
      · exact ⟨[], [], (List.append_nil _).symm, rfl⟩
      · obtain ⟨before, item, after, rfl, inItem⟩ := mem_occurrencesAll inside
        obtain ⟨front, behind, spelled, stands⟩ := ih item (by simp) inItem
        refine ⟨.leftParen :: (lexemesAll before ++ front),
          behind ++ lexemesAll after ++ [.rightParen], ?_, ?_⟩
        · rw [lexemes, lexemesAll_append, lexemesAll, spelled]
          simp
        · rw [stands, List.length_cons, List.length_append]
          omega
  | quote inner ih =>
      rcases List.mem_cons.1 h with rfl | inside
      · exact ⟨[], [], (List.append_nil _).symm, rfl⟩
      · obtain ⟨front, behind, spelled, stands⟩ := ih inside
        refine ⟨.quote :: front, behind, ?_, ?_⟩
        · rw [lexemes, spelled]
          rfl
        · rw [stands, List.length_cons]
          omega

end Form

end SmallScheme
