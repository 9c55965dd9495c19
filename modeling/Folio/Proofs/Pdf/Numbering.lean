import Mathlib.Tactic
import Folio.Pdf.ObjectIds

/-!
Numbers of objects, handed out one after the other (`ObjectIds.handOut`). The number of an object is
the one that was handed out for it last (`ObjectIds.find?_handOut`).
-/

namespace Folio

namespace ObjectIds

/-- The table after the next numbers were handed out for some objects, in order. -/
def handOut (keys : List ObjectKey) (ids : ObjectIds) : ObjectIds :=
  ⟨(keys.zipIdx ids.next).reverse ++ ids.held, ids.next + keys.length⟩

variable {ids : ObjectIds} {key : ObjectKey}

@[simp] lemma next_handOut (keys : List ObjectKey) :
    (ids.handOut keys).next = ids.next + keys.length := rfl

lemma held_handOut (keys : List ObjectKey) :
    (ids.handOut keys).held = (keys.zipIdx ids.next).reverse ++ ids.held := rfl

lemma handOut_append (keys keys' : List ObjectKey) :
    ids.handOut (keys ++ keys') = (ids.handOut keys).handOut keys' := by
  simp [handOut, List.zipIdx_append, Nat.add_assoc]

/-- A step works on the table that the step before it leaves. -/
lemma run_bind {α β : Type} (step : StateM ObjectIds α) (next : α → StateM ObjectIds β)
    (ids : ObjectIds) :
    (step >>= next).run ids = (next (step.run ids).1).run (step.run ids).2 := rfl

/-- A step that takes no number leaves the table as it is. -/
lemma run_pure {α : Type} (a : α) (ids : ObjectIds) :
    (pure a : StateM ObjectIds α).run ids = (a, ids) := rfl

lemma run_generate (key : ObjectKey) (ids : ObjectIds) :
    (generate key).run ids = (ids.next, ids.handOut [key]) := rfl

/-- Taking a number for each of some objects hands out the next ones. -/
lemma run_mapM_generate (keys : List ObjectKey) (ids : ObjectIds) :
    (keys.mapM generate).run ids = (List.range' ids.next keys.length, ids.handOut keys) := by
  induction keys generalizing ids with
  | nil => rfl
  | cons key keys ih =>
      have hnext : ids.handOut (key :: keys) = (ids.handOut [key]).handOut keys :=
        handOut_append [key] keys
      rw [List.mapM_cons, run_bind, run_generate, hnext, List.length_cons, List.range'_succ,
        run_bind, ih, run_pure]
      rfl

/-- **The number of an object** is the one that was handed out for it last. -/
theorem find?_handOut (ids : ObjectIds) (before : List ObjectKey) (key : ObjectKey)
    {after : List ObjectKey} (h : key ∉ after) :
    (ids.handOut (before ++ key :: after)).find? key = some (ids.next + before.length) := by
  rw [find?, List.lookup_eq_some_iff]
  refine ⟨(after.zipIdx (ids.next + before.length + 1)).reverse,
    (before.zipIdx ids.next).reverse ++ ids.held, ?_, fun entry hentry => ?_⟩
  · simp [held_handOut, List.zipIdx_append]
  · have hmem : entry.1 ∈ after := List.fst_mem_of_mem_zipIdx (List.mem_reverse.1 hentry)
    exact bne_iff_ne.2 fun heq => h (heq ▸ hmem)

/-- An object that has a number keeps it, and no further number is handed out. -/
lemma run_obtain {id : Nat} (h : ids.find? key = some id) : (obtain key).run ids = (id, ids) := by
  change obtain key ids = (id, ids)
  rw [ObjectIds.obtain, h]

end ObjectIds

end Folio
