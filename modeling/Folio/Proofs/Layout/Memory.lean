import Mathlib.Tactic
import Folio.Layout.Page

/-!
Wrapping in two monads at once, and the memory that no result shows.

* `Simulation`: a relation between the computations of two monads that returning and sequencing
  respect. Wrapping does nothing else but measure, so `Simulation.wrapLines` carries a relation
  between two ways to measure over to the wrapping of a whole text.
* `Widths.Sound`: a table that holds true widths only, the invariant of `memoized`.
-/

namespace Folio

/-! ### Computations that may fail -/

section Traversal

variable {ε α β : Type} {f : α → Except ε β} {xs : List α}

lemma mapM_eq_ok_iff {ys : List β} : xs.mapM f = .ok ys ↔ xs.map f = ys.map .ok := by
  induction xs generalizing ys with
  | nil => cases ys <;> simp [pure, Except.pure]
  | cons x xs ih =>
      rw [List.mapM_cons, List.map_cons]
      cases hx : f x with
      | error e => cases ys <;> simp [bind, Except.bind]
      | ok y =>
          cases hxs : xs.mapM f with
          | error e =>
              cases ys with
              | nil => simp [bind, Except.bind]
              | cons z zs =>
                  have hne : xs.map f ≠ zs.map .ok := fun h => by simp [ih.2 h] at hxs
                  simp [bind, Except.bind, hne]
          | ok zs =>
              have hzs := ih.1 hxs
              cases ys with
              | nil => simp [bind, Except.bind, pure, Except.pure]
              | cons z zs' =>
                  have hinj : zs.map Except.ok = zs'.map (Except.ok (ε := ε)) ↔ zs = zs' :=
                    List.map_inj_right fun _ _ h => Except.ok.inj h
                  simp [bind, Except.bind, pure, Except.pure, hzs, hinj]

/-- A list of computations fails as the first of them that fails. -/
lemma mapM_eq_error_of_first {before after : List α} {x : α} {e : ε}
    (hbefore : ∀ b ∈ before, ∃ y, f b = .ok y) (hx : f x = .error e) :
    (before ++ x :: after).mapM f = .error e := by
  induction before with
  | nil => simp [hx, bind, Except.bind]
  | cons b before ih =>
      obtain ⟨y, hy⟩ := hbefore b List.mem_cons_self
      rw [List.cons_append, List.mapM_cons, hy,
        ih fun c hc => hbefore c (List.mem_cons_of_mem b hc)]
      rfl

lemma exists_map_eq_ok (h : ∀ x ∈ xs, ∃ y, f x = .ok y) : ∃ ys : List β, xs.map f = ys.map .ok := by
  induction xs with
  | nil => exact ⟨[], rfl⟩
  | cons x xs ih =>
      obtain ⟨y, hy⟩ := h x List.mem_cons_self
      obtain ⟨ys, hys⟩ := ih fun z hz => h z (List.mem_cons_of_mem x hz)
      exact ⟨y :: ys, by rw [List.map_cons, List.map_cons, hy, hys]⟩

/-- If some computation of a list fails, one of them is the first to fail. -/
lemma exists_first_error (h : ∃ x ∈ xs, ∃ e, f x = .error e) :
    ∃ before x after e, xs = before ++ x :: after ∧ (∀ b ∈ before, ∃ y, f b = .ok y) ∧
      f x = .error e := by
  induction xs with
  | nil => simp at h
  | cons x xs ih =>
      cases hx : f x with
      | error e => exact ⟨[], x, xs, e, rfl, by simp, hx⟩
      | ok y =>
          have hrest : ∃ z ∈ xs, ∃ e, f z = .error e := by
            obtain ⟨z, hz, e, he⟩ := h
            rcases List.mem_cons.1 hz with rfl | hz
            · rw [hx] at he
              exact absurd he (by simp)
            · exact ⟨z, hz, e, he⟩
          obtain ⟨before, z, after, e, hxs, hbefore, hz⟩ := ih hrest
          refine ⟨x :: before, z, after, e, by rw [hxs, List.cons_append], fun b hb => ?_, hz⟩
          rcases List.mem_cons.1 hb with rfl | hb
          · exact ⟨y, hx⟩
          · exact hbefore b hb

end Traversal

/-! ### Simulations -/

/-- A relation between the computations of two monads that holds of what returns one value on
both sides, and that sequencing respects. -/
structure Simulation (m n : Type → Type) [Monad m] [Monad n] where
  Rel : {α : Type} → m α → n α → Prop
  pure : ∀ {α : Type} (a : α), Rel (pure a : m α) (pure a : n α)
  bind : ∀ {α β : Type} {x : m α} {y : n α} {f : α → m β} {g : α → n β},
    Rel x y → (∀ a, Rel (f a) (g a)) → Rel (x >>= f) (y >>= g)

namespace Simulation

variable {m n : Type → Type} [Monad m] [Monad n] (R : Simulation m n)
variable {f : String → m Points} {g : String → n Points}

include R in
lemma fill (h : ∀ t, R.Rel (f t) (g t)) (limit : Points) (fragment : String)
    (words : List String) : R.Rel (fill f limit fragment words) (fill g limit fragment words) := by
  induction words generalizing fragment with
  | nil => exact R.pure _
  | cons word rest ih =>
      refine R.bind (h _) fun w => ?_
      by_cases hw : w < limit
      · simp only [hw, ite_true]
        exact ih _
      · simp only [hw, ite_false]
        exact R.bind (ih word) fun _ => R.pure _

/-- Wrapping one line keeps a simulation of the measuring. -/
lemma wrap (h : ∀ t, R.Rel (f t) (g t)) (limit : Points) (line : String) :
    R.Rel (wrap f limit line) (wrap g limit line) := by
  unfold Folio.wrap
  cases words line with
  | nil => exact R.pure _
  | cons word rest => exact R.bind (h word) fun _ => R.fill h limit word rest

lemma mapM [LawfulMonad m] [LawfulMonad n] {α β : Type} {p : α → m β} {q : α → n β}
    (h : ∀ a, R.Rel (p a) (q a)) (xs : List α) : R.Rel (xs.mapM p) (xs.mapM q) := by
  induction xs with
  | nil => simpa using R.pure _
  | cons x xs ih =>
      rw [List.mapM_cons, List.mapM_cons]
      exact R.bind (h x) fun _ => R.bind ih fun _ => R.pure _

/-- Wrapping a text keeps a simulation of the measuring. -/
lemma wrapLines [LawfulMonad m] [LawfulMonad n] (h : ∀ t, R.Rel (f t) (g t)) (limit : Points)
    (text : String) : R.Rel (wrapLines f limit text) (wrapLines g limit text) :=
  R.mapM (R.wrap h limit) _

end Simulation

/-! ### Memory -/

/-- A known width is looked up; another one is measured and, unless that fails, remembered. -/
lemma run_memoized {m : Type → Type} [Monad m] [LawfulMonad m] (width : String → m Points)
    (text : String) (table : Widths) :
    (memoized width text).run table = match table[text]? with
      | some w => pure (w, table)
      | none => do
        let w ← width text
        return (w, table.insert text w) := by
  cases h : table[text]? with
  | some w =>
      simp only [memoized, StateT.run_bind, StateT.run_get, pure_bind, h]
      rfl
  | none =>
      simp only [memoized, StateT.run_bind, StateT.run_get, pure_bind, h, StateT.run_monadLift,
        bind_assoc, monadLift_self, StateT.run_modify, StateT.run_pure]

section Memory

variable (width : String → Except Error Points)

/-- A table of true widths. -/
def Widths.Sound (table : Widths) : Prop := ∀ text w, table[text]? = some w → width text = .ok w

lemma Widths.sound_empty : Widths.Sound width ∅ := by
  intro text w h
  simp at h

lemma Widths.Sound.insert {table : Widths} (hs : table.Sound width) {text : String} {w : Points}
    (hw : width text = .ok w) : Widths.Sound width (table.insert text w) := by
  intro other v hv
  rw [Std.HashMap.getElem?_insert] at hv
  split at hv
  · rename_i heq
    rw [← beq_iff_eq.1 heq, hw, Option.some.inj hv]
  · exact hs other v hv

/-- What remembers does as what does not, on every sound table, and leaves a sound table. -/
def memorySimulation : Simulation (StateT Widths (Except Error)) (Except Error) where
  Rel x y := ∀ table : Widths, table.Sound width →
    (∃ e, x.run table = .error e ∧ y = .error e) ∨
      ∃ a, ∃ table' : Widths, table'.Sound width ∧ x.run table = .ok (a, table') ∧ y = .ok a
  pure a table hs := .inr ⟨a, table, hs, rfl, rfl⟩
  bind {α β x y f g} hxy hfg table hs := by
    rcases hxy table hs with ⟨e, hx, hy⟩ | ⟨a, table', hs', hx, hy⟩
    · exact .inl ⟨e, by rw [StateT.run_bind, hx]; rfl, by rw [hy]; rfl⟩
    · have hrun : (x >>= f).run table = (f a).run table' := by rw [StateT.run_bind, hx]; rfl
      have hval : (y >>= g) = g a := by rw [hy]; rfl
      rw [hrun, hval]
      exact hfg a table' hs'

/-- Measuring with a memory does as measuring without. -/
lemma memorySimulation_memoized (text : String) :
    (memorySimulation width).Rel (memoized width text) (width text) := by
  intro table hs
  rw [run_memoized]
  cases hknown : table[text]? with
  | some w => exact .inr ⟨w, table, hs, rfl, hs text w hknown⟩
  | none =>
      cases hw : width text with
      | error e => exact .inl ⟨e, rfl, rfl⟩
      | ok w => exact .inr ⟨w, table.insert text w, hs.insert width hw, rfl, rfl⟩

/-- **No result shows the memory**: a text wraps with it as it does without. -/
theorem run'_wrapLines_memoized (limit : Points) (text : String) :
    (wrapLines (memoized width) limit text).run' ∅ = wrapLines width limit text := by
  have hsim := (memorySimulation width).wrapLines (memorySimulation_memoized width) limit text ∅
    (Widths.sound_empty width)
  rcases hsim with ⟨e, hrun, hval⟩ | ⟨a, table, -, hrun, hval⟩
  · rw [hval, StateT.run'_eq, hrun]
    rfl
  · rw [hval, StateT.run'_eq, hrun]
    rfl

end Memory

/-- Pagination of a text, with every width measured afresh. -/
theorem paginate_eq (text : String) (setup : PageSetup) (measure : Measurer) :
    paginate text setup measure = do
      setup.check.mapError .invalidSetup
      let wrapped ← wrapLines measure.width setup.contentBox.width text
      return stackAll setup wrapped := by
  rw [paginate, run'_wrapLines_memoized]

end Folio
