import Mathlib.Data.List.Destutter

/-!
# Announcing changes

An announcer remembers what it told last. In each look it sees a value, and it speaks when that
is not what it told last, or when a repeat is due. What it says counts as told only once the
message has arrived and been written down. So, repeats apart, its messages are the changes of
what it saw in the looks in which a message would have arrived.
-/

namespace Foghorn.Std

/-- What becomes of a message. -/
inductive Receipt where
  | refused
  /-- It arrives, and that it did is not written down. -/
  | unrecorded
  | recorded
deriving DecidableEq

/-- What an announcer finds in a look. -/
structure Announcer (Look Value : Type) where
  seen : Look → Value
  /-- Whether it is time to speak again. -/
  due : Look → Bool
  /-- What would become of a message. -/
  delivery : Look → Receipt

namespace Announcer

variable {Look Value : Type} [DecidableEq Value] (announcer : Announcer Look Value)

def speaks (told : Value) (look : Look) : Bool :=
  announcer.seen look ≠ told || announcer.due look

/-- What counts as told after a look. -/
def next (told : Value) (look : Look) : Value :=
  if announcer.speaks told look ∧ announcer.delivery look = .recorded then announcer.seen look
  else told

/-- What counts as told after some looks. -/
def after (told : Value) (looks : List Look) : Value := looks.foldl announcer.next told

/-- The looks whose messages arrived. -/
def sent : Value → List Look → List Look
  | _, [] => []
  | told, look :: rest =>
    if announcer.speaks told look ∧ announcer.delivery look ≠ .refused then
      look :: sent (announcer.next told look) rest
    else sent (announcer.next told look) rest

/-- What was seen in the looks in which a message counts. -/
def heard (looks : List Look) : List Value :=
  (looks.filter fun look => announcer.delivery look = .recorded).map announcer.seen

variable {announcer} {told : Value} {look : Look} {looks : List Look}

/-- What was told changes by a recorded delivery only. -/
theorem next_eq : announcer.next told look =
    if announcer.delivery look = .recorded then announcer.seen look else told := by
  by_cases recorded : announcer.delivery look = .recorded
  · rw [if_pos recorded, next]
    by_cases spoken : announcer.speaks told look
    · rw [if_pos ⟨spoken, recorded⟩]
    · rw [if_neg fun both => spoken both.1]
      simp only [speaks, Bool.or_eq_true, decide_eq_true_eq, not_or, not_not] at spoken
      exact spoken.1.symm
  · rw [if_neg recorded, next, if_neg fun both => recorded both.2]

omit [DecidableEq Value] in
private theorem heard_cons : announcer.heard (look :: looks) =
    if announcer.delivery look = .recorded then announcer.seen look :: announcer.heard looks
    else announcer.heard looks := by
  by_cases recorded : announcer.delivery look = .recorded <;> simp [heard, recorded]

/-- What counts as told is what was seen last in a look in which a message counts. -/
theorem after_eq (told : Value) (looks : List Look) :
    announcer.after told looks = (announcer.heard looks).getLastD told := by
  induction looks generalizing told with
  | nil => rfl
  | cons look rest ih =>
    rw [after, List.foldl_cons, ← after, ih, next_eq, heard_cons]
    split
    · rw [List.getLastD_cons]
    · rfl

/-- What was told after two stretches is what the second leaves of the first. -/
theorem after_append (told : Value) (first second : List Look) :
    announcer.after told (first ++ second) = announcer.after (announcer.after told first) second :=
  List.foldl_append

/-- The second of two stretches is sent from what the first left told. -/
theorem sent_append (told : Value) (first second : List Look) :
    announcer.sent told (first ++ second) =
      announcer.sent told first ++ announcer.sent (announcer.after told first) second := by
  induction first generalizing told with
  | nil => rfl
  | cons look rest ih =>
    rw [List.cons_append, sent, sent, ih]
    split <;> rfl

/-- Repeats apart, the messages are the changes of what was heard. -/
theorem destutter_sent (written : ∀ look ∈ looks, announcer.delivery look ≠ .unrecorded)
    (told : Value) : ((announcer.sent told looks).map announcer.seen).destutter' (· ≠ ·) told =
      (announcer.heard looks).destutter' (· ≠ ·) told := by
  induction looks generalizing told with
  | nil => rfl
  | cons look rest ih =>
    have later := fun told => ih (fun other member => written other (List.mem_cons_of_mem _ member))
      told
    rw [sent, heard_cons, next_eq]
    cases outcome : announcer.delivery look with
    | unrecorded => exact absurd outcome (written look List.mem_cons_self)
    | refused => simpa using later told
    | recorded =>
      by_cases same : told = announcer.seen look
      · -- A repeat, if anything is said.
        subst same
        rw [if_pos rfl, if_pos rfl, List.destutter'_cons_neg _ (by simp), ← later]
        split
        · rw [List.map_cons, List.destutter'_cons_neg _ (by simp)]
        · rfl
      · have spoken : announcer.speaks told look := by simp [speaks, Ne.symm same]
        rw [if_pos rfl, if_pos ⟨spoken, by simp⟩, if_pos rfl, List.map_cons,
          List.destutter'_cons_pos _ same, List.destutter'_cons_pos _ same, later]

/-- Without repeats no message says what the one before it said. -/
theorem isChain_sent (written : ∀ look ∈ looks, announcer.delivery look ≠ .unrecorded)
    (quiet : ∀ look ∈ looks, announcer.due look = false) (told : Value) :
    (told :: (announcer.sent told looks).map announcer.seen).IsChain (· ≠ ·) := by
  induction looks generalizing told with
  | nil => exact List.isChain_singleton _
  | cons look rest ih =>
    have later := fun told => ih (fun other member => written other (List.mem_cons_of_mem _ member))
      (fun other member => quiet other (List.mem_cons_of_mem _ member)) told
    rw [sent]
    split
    · rename_i spoken
      have recorded : announcer.delivery look = .recorded := by
        cases outcome : announcer.delivery look with
        | recorded => rfl
        | refused => exact absurd outcome spoken.2
        | unrecorded => exact absurd outcome (written look List.mem_cons_self)
      have changed : told ≠ announcer.seen look := by
        have silent := quiet look List.mem_cons_self
        rw [speaks, silent, Bool.or_false] at spoken
        exact Ne.symm (of_decide_eq_true spoken.1)
      rw [next_eq, if_pos recorded, List.map_cons, List.isChain_cons_cons]
      exact ⟨changed, later _⟩
    · rename_i unspoken
      rw [next, if_neg fun both => unspoken ⟨both.1, by simp [both.2]⟩]
      exact later told

/-- Without repeats the messages are the changes of what was heard. -/
theorem sent_eq (written : ∀ look ∈ looks, announcer.delivery look ≠ .unrecorded)
    (quiet : ∀ look ∈ looks, announcer.due look = false) (told : Value) :
    told :: (announcer.sent told looks).map announcer.seen =
      (announcer.heard looks).destutter' (· ≠ ·) told := by
  rw [← destutter_sent written, List.destutter'_of_isChain_cons _ _ (isChain_sent written quiet told)]

end Announcer

end Foghorn.Std
