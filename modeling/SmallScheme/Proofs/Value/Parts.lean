import Mathlib.Logic.Relation
import SmallScheme.Value

/-!
# Parts of values

The parts of a value are the value itself and, if it is a list, the parts of its items. A form among
the values is one part: what stands inside it are forms.

Some parts say by themselves all that there is to say: numbers, booleans, and the mere fact that
values stand in a list. The other parts are carried from one value to another
(`Value.MadeOf`).
-/

namespace SmallScheme.Value

/-! ### Parts -/

/-- Whether a value is an item of another one, which then is a list. -/
inductive IsItem : Value → Value → Prop
  | item {value : Value} {items : List Value} : value ∈ items → IsItem value (.list items)

/-- Whether a value is another one, or stands inside it at any depth of lists. -/
def PartOf : Value → Value → Prop :=
  Relation.ReflTransGen IsItem

variable {part value : Value} {items : List Value}

/-- Every value is a part of itself. -/
theorem PartOf.refl (value : Value) : value.PartOf value :=
  Relation.ReflTransGen.refl

/-- A part of an item is a part of the list. -/
theorem PartOf.item (isPart : part.PartOf value) (member : value ∈ items) :
    part.PartOf (.list items) :=
  Relation.ReflTransGen.tail isPart (.item member)

/-- A part of a value is the value, or a part of one of its items. -/
theorem PartOf.eq_or_item (isPart : part.PartOf value) :
    value = part ∨ ∃ items, value = .list items ∧ ∃ item ∈ items, part.PartOf item := by
  rcases Relation.ReflTransGen.cases_tail isPart with same | ⟨inner, inside, isItem⟩
  · exact Or.inl same
  · obtain ⟨member⟩ := isItem
    exact Or.inr ⟨_, rfl, inner, member, inside⟩

/-- The parts of a list are the list and the parts of its items. -/
theorem partOf_list_iff :
    part.PartOf (.list items) ↔ part = .list items ∨ ∃ item ∈ items, part.PartOf item := by
  constructor
  · intro isPart
    rcases isPart.eq_or_item with same | ⟨_, same, item, member, inside⟩
    · exact Or.inl same.symm
    · cases same
      exact Or.inr ⟨item, member, inside⟩
  · rintro (rfl | ⟨item, member, inside⟩)
    · exact .refl _
    · exact inside.item member

/-- A value that is no list has no part but itself. -/
theorem PartOf.eq_of_not_list (isPart : part.PartOf value) (atom : ∀ items, value ≠ .list items) :
    part = value := by
  rcases isPart.eq_or_item with same | ⟨items, isList, -⟩
  · exact same.symm
  · exact absurd isList (atom items)

/-! ### What is made of what -/

/-- Whether a value is a number, a boolean or a list. -/
inductive Computed : Value → Prop
  | number (x : Number) : Computed (.number x)
  | boolean (b : Bool) : Computed (.boolean b)
  | list (items : List Value) : Computed (.list items)

/-- Whether a value has no parts but parts of other values, numbers, booleans and lists. -/
def MadeOf (args : List Value) (value : Value) : Prop :=
  ∀ part : Value, part.PartOf value → part.Computed ∨ ∃ arg ∈ args, part.PartOf arg

variable {args : List Value}

/-- A number or a boolean is `MadeOf` any values. -/
theorem Computed.madeOf (computed : value.Computed) (atom : ∀ items, value ≠ .list items)
    (args : List Value) : MadeOf args value := by
  intro part isPart
  obtain rfl : part = value := isPart.eq_of_not_list atom
  exact Or.inl computed

/-- A number is `MadeOf` any values. -/
theorem madeOf_number (args : List Value) (x : Number) : MadeOf args (.number x) :=
  (Computed.number x).madeOf (by simp) args

/-- A boolean is `MadeOf` any values. -/
theorem madeOf_boolean (args : List Value) (b : Bool) : MadeOf args (.boolean b) :=
  (Computed.boolean b).madeOf (by simp) args

/-- Each of several values is `MadeOf` these. -/
theorem madeOf_of_mem {arg : Value} (member : arg ∈ args) : MadeOf args arg :=
  fun _ isPart => Or.inr ⟨arg, member, isPart⟩

/-- A list is `MadeOf` some values if each of its items is. -/
theorem madeOf_list (each : ∀ item ∈ items, MadeOf args item) : MadeOf args (.list items) := by
  intro part isPart
  rcases partOf_list_iff.1 isPart with rfl | ⟨item, member, inside⟩
  · exact Or.inl (.list items)
  · exact each item member part inside

/-- The items of a list that is `MadeOf` some values are made of these. -/
theorem MadeOf.item (made : MadeOf args (.list items)) (member : value ∈ items) :
    MadeOf args value :=
  fun part isPart => made part (isPart.item member)

end SmallScheme.Value
