import SmallScheme.Session

/-!
# Histories of sessions

What has been done to the scopes of a session, the latest first, says by itself which frames there
are and what every name is bound to in them. A frame goes by a number, that of the change that
made it, and the first frame by zero. For a frame the definitions count that were made while it
was the current one, and if it is a copy, those that counted for its original before. A name that
none of them defines is bound to what it is bound to in the enclosing frame.

This is said without scopes: no definition is ever stored, and none is taken away.

## Main results

* `History.own`, `History.enclosing`, `History.bound`: what a history says about its frames.
* `History.bound_define`, `History.bound_push`, `History.bound_fork`: what a history says about its
  frames after one change more.
-/

namespace SmallScheme

/-- What can be done to the scopes of a session. -/
inductive Change where
  | define (name : String) (value : Value)
  | push
  | fork
  | pop

/-- What has been done to the scopes of a session, the latest first. -/
abbrev History := List Change

namespace History

/-! ### Frames -/

mutual

/-- The frame on top. The last frame that is left is not taken away. -/
def current : History → Nat
  | [] => 0
  | .define _ _ :: h => current h
  | .push :: h => h.length + 1
  | .fork :: h => h.length + 1
  | .pop :: h => (below h).headD (current h)

/-- The frames below the current one, the nearest first. -/
def below : History → List Nat
  | [] => []
  | .define _ _ :: h => below h
  | .push :: h => current h :: below h
  | .fork :: h => current h :: below h
  | .pop :: h => (below h).tail

end

/-- After a history, no frame in use has a number beyond the length of the history, and every frame
has a larger number than those below it. -/
theorem current_le_and_pairwise (h : History) :
    current h ≤ h.length ∧ (current h :: below h).Pairwise (· > ·) := by
  induction h with
  | nil => exact ⟨Nat.le_refl 0, List.pairwise_singleton _ 0⟩
  | cons change h ih =>
      obtain ⟨atMost, ordered⟩ := ih
      -- a new frame has a larger number than all that there are
      have onTop : ((h.length + 1) :: current h :: below h).Pairwise (· > ·) := by
        refine List.pairwise_cons.2 ⟨fun f member => ?_, ordered⟩
        rcases List.mem_cons.1 member with rfl | isBelow
        · omega
        · have smaller : f < current h := List.rel_of_pairwise_cons ordered isBelow
          omega
      cases change with
      | define name value => exact ⟨Nat.le_succ_of_le atMost, ordered⟩
      | push => exact ⟨Nat.le_refl _, onTop⟩
      | fork => exact ⟨Nat.le_refl _, onTop⟩
      | pop =>
          rw [current, below, List.length_cons]
          cases frames : below h with
          | nil => exact ⟨Nat.le_succ_of_le atMost, List.pairwise_singleton _ _⟩
          | cons f others =>
              rw [frames] at ordered
              have smaller : f < current h := List.rel_of_pairwise_cons ordered List.mem_cons_self
              exact ⟨by rw [List.headD_cons]; omega, ordered.of_cons⟩

/-- The number of the current frame is at most the length of the history. -/
theorem current_le (h : History) : current h ≤ h.length :=
  (current_le_and_pairwise h).1

/-- The frames below the current one have smaller numbers than it. -/
theorem lt_current {h : History} {f : Nat} (member : f ∈ below h) : f < current h :=
  List.rel_of_pairwise_cons (current_le_and_pairwise h).2 member

/-! ### Bindings -/

/-- The value of the latest definition of a name that counts for a frame: it was made while the
frame was the current one, or counted for the original of the frame when that was copied. -/
def own (name : String) : History → Nat → Option Value
  | [], _ => none
  | .define other value :: h, f =>
    if f = current h ∧ name = other then some value else own name h f
  | .push :: h, f => own name h f
  | .fork :: h, f => own name h (if f = h.length + 1 then current h else f)
  | .pop :: h, f => own name h f

/-- The frame that encloses a frame. A copy is enclosed by what encloses its original, and the
first frame by none. -/
def enclosing : History → Nat → Option Nat
  | [], _ => none
  | .define _ _ :: h, f => enclosing h f
  | .push :: h, f => if f = h.length + 1 then some (current h) else enclosing h f
  | .fork :: h, f => enclosing h (if f = h.length + 1 then current h else f)
  | .pop :: h, f => enclosing h f

/-- The `enclosing` frame of a frame has a smaller number. -/
theorem enclosing_lt {h : History} {f g : Nat} (encloses : enclosing h f = some g) : g < f := by
  induction h generalizing f with
  | nil => cases encloses
  | cons change h ih =>
      have atMost := current_le h
      cases change with
      | define name value => exact ih encloses
      | push =>
          rw [enclosing] at encloses
          split at encloses
          · next isNew =>
            obtain rfl := Option.some.inj encloses
            omega
          · exact ih encloses
      | fork =>
          rw [enclosing] at encloses
          have older := ih encloses
          split at older
          · omega
          · exact older
      | pop => exact ih encloses

/-- **What a name is bound to in a frame**: the value of the latest definition that counts for the
frame, else what the name is bound to in the enclosing frame. Around the first frame names are bound
as the session found them. -/
def bound (root : Scope) (h : History) (f : Nat) (name : String) : Option Value :=
  (own name h f).or <|
    match encloses : enclosing h f with
    | some g =>
      have := enclosing_lt encloses
      bound root h g name
    | none => root.get? name
termination_by f

variable {root : Scope} {h h' : History} {f : Nat}

/-- `bound` is what a frame's `own` definitions say, or else `bound` in the `enclosing` frame, or
else what the session found. -/
theorem bound_eq (root : Scope) (h : History) (f : Nat) (name : String) :
    bound root h f name =
      (own name h f).or ((enclosing h f).elim (root.get? name) (bound root h · name)) := by
  rw [bound]
  split
  · next encloses => simp only [encloses, Option.elim_some]
  · next outermost => simp only [outermost, Option.elim_none]

/-- What a name is bound to in the current frame. -/
def here (root : Scope) (h : History) (name : String) : Option Value :=
  bound root h (current h) name

/-- `bound` in a frame is the same after two histories that agree on `enclosing` and `own` for this
frame and for all with smaller numbers. -/
theorem bound_congr
    (same : ∀ g ≤ f, enclosing h g = enclosing h' g ∧ ∀ name, own name h g = own name h' g) :
    bound root h f = bound root h' f := by
  funext name
  induction f using Nat.strongRecOn with
  | ind f ih =>
      obtain ⟨sameEnclosing, sameOwn⟩ := same f (Nat.le_refl f)
      rw [bound_eq, bound_eq, sameOwn, ← sameEnclosing]
      cases encloses : enclosing h f with
      | none => rfl
      | some g =>
          have older := enclosing_lt encloses
          rw [Option.elim_some, Option.elim_some,
            ih g older fun g' before => same g' (Nat.le_trans before (Nat.le_of_lt older))]

/-- `own` is nothing for a frame with a number beyond the length of the history. -/
theorem own_of_length_lt {name : String} (later : h.length < f) : own name h f = none := by
  induction h generalizing f with
  | nil => rfl
  | cons change h ih =>
      have atMost := current_le h
      rw [List.length_cons] at later
      cases change with
      | define other value =>
          rw [own, if_neg (by omega)]
          exact ih (by omega)
      | push => exact ih (by omega)
      | fork =>
          rw [own, if_neg (by omega)]
          exact ih (by omega)
      | pop => exact ih (by omega)

/-! ### One change more -/

/-- A definition does not change `bound` in the frames below the current one. -/
theorem bound_define_of_lt {other : String} {value : Value} (older : f < current h) :
    bound root (.define other value :: h) f = bound root h f := by
  refine bound_congr fun g atMost => ⟨rfl, fun name => ?_⟩
  rw [own, if_neg (by omega)]

/-- **A definition changes `bound` in the current frame for its own name only.** -/
theorem bound_define (root : Scope) (h : History) (other : String) (value : Value)
    (name : String) : bound root (.define other value :: h) (current h) name =
      if name = other then some value else bound root h (current h) name := by
  by_cases same : name = other
  · rw [bound_eq, own, if_pos ⟨rfl, same⟩, if_pos same, Option.some_or]
  · rw [bound_eq, bound_eq root h, own, if_neg (fun both => same both.2), if_neg same, enclosing]
    cases encloses : enclosing h (current h) with
    | none => rfl
    | some g => rw [Option.elim_some, Option.elim_some, bound_define_of_lt (enclosing_lt encloses)]

/-- Pushing a frame does not change `bound` in the frames that there are. -/
theorem bound_push_of_le (older : f ≤ h.length) :
    bound root (.push :: h) f = bound root h f := by
  refine bound_congr fun g atMost => ⟨?_, fun _ => rfl⟩
  rw [enclosing, if_neg (by omega)]

/-- **In a frame that was just pushed, `bound` is what it is in the frame below.** -/
theorem bound_push (root : Scope) (h : History) :
    bound root (.push :: h) (h.length + 1) = bound root h (current h) := by
  funext name
  have nothing : own name h (h.length + 1) = none := own_of_length_lt (Nat.lt_succ_self _)
  rw [bound_eq, own, nothing, Option.none_or, enclosing, if_pos rfl, Option.elim_some,
    bound_push_of_le (current_le h)]

/-- Copying a frame does not change `bound` in the frames that there are. -/
theorem bound_fork_of_le (older : f ≤ h.length) :
    bound root (.fork :: h) f = bound root h f := by
  refine bound_congr fun g atMost => ⟨?_, fun name => ?_⟩
  · rw [enclosing, if_neg (by omega)]
  · rw [own, if_neg (by omega)]

/-- **In a copy that was just made, `bound` is what it is in the original.** -/
theorem bound_fork (root : Scope) (h : History) :
    bound root (.fork :: h) (h.length + 1) = bound root h (current h) := by
  funext name
  rw [bound_eq, bound_eq root h, own, enclosing, if_pos rfl]
  cases encloses : enclosing h (current h) with
  | none => rfl
  | some g =>
      have older := Nat.le_trans (Nat.le_of_lt (enclosing_lt encloses)) (current_le h)
      rw [Option.elim_some, Option.elim_some, bound_fork_of_le older]

/-- Taking a frame away does not change `bound` in any frame. -/
theorem bound_pop (root : Scope) (h : History) : bound root (.pop :: h) = bound root h :=
  funext fun _ => bound_congr fun _ _ => ⟨rfl, fun _ => rfl⟩

end History

end SmallScheme
