import Mathlib.Tactic
import Folio.Proofs.Layout.Memory

/-!
What pagination asks the measurer.

* `Measurer.recorded`: measuring that keeps a record of the texts that were measured, also when it
  fails. `paginateWith`: pagination with any way to measure, such as this one.
* `callSimulation`: a computation with a memory has the result of the one without, and measures the
  texts that the other measures for the first time.
-/

namespace Folio

/-! ### First occurrences -/

section

variable {α : Type} [DecidableEq α] {l : List α} {a : α}

lemma eraseDups_concat_of_mem (h : a ∈ l) : (l ++ [a]).eraseDups = l.eraseDups := by
  rw [List.eraseDups_append]
  simp [List.removeAll, h]

lemma eraseDups_concat_of_notMem (h : a ∉ l) : (l ++ [a]).eraseDups = l.eraseDups ++ [a] := by
  rw [List.eraseDups_append]
  simp [List.removeAll, h, List.eraseDups_cons]

lemma nodup_eraseDups (l : List α) : l.eraseDups.Nodup := by
  induction l using List.reverseRecOn with
  | nil => simp
  | append_singleton l a ih =>
      by_cases ha : a ∈ l
      · rwa [eraseDups_concat_of_mem ha]
      · rw [eraseDups_concat_of_notMem ha]
        rw [← List.concat_eq_append]
        exact ih.concat fun h => ha (List.mem_eraseDups.1 h)

end

/-! ### Records -/

/-- Computations that keep a record of texts, also when they fail. -/
abbrev Recorded := ExceptT Error (StateM (List String))

/-- Measuring that records each text before it is measured. -/
def Measurer.recorded (measure : Measurer) (text : String) : Recorded Points := do
  modify (· ++ [text])
  liftExcept (measure.width text)

namespace Recorded

variable {α β : Type}

/-- The result of a computation, and the record that was `calls` before it. -/
def runFrom (calls : List String) (x : Recorded α) : Except Error α × List String := x.run.run calls

lemma runFrom_bind (calls : List String) (x : Recorded α) (f : α → Recorded β) :
    runFrom calls (x >>= f) = match runFrom calls x with
      | (.ok a, calls') => runFrom calls' (f a)
      | (.error e, calls') => (.error e, calls') := by
  simp only [runFrom]
  rcases h : x.run.run calls with ⟨result, calls'⟩
  rw [ExceptT.run_bind, StateT.run_bind, h]
  cases result <;> rfl

lemma runFrom_recorded (measure : Measurer) (calls : List String) (text : String) :
    runFrom calls (measure.recorded text) = (measure.width text, calls ++ [text]) := by
  rw [Measurer.recorded, runFrom_bind]
  cases measure.width text <;> rfl

lemma runFrom_map (calls : List String) (f : α → β) (x : Recorded α) :
    runFrom calls (f <$> x) = ((runFrom calls x).1.map f, (runFrom calls x).2) := by
  rw [map_eq_pure_bind, runFrom_bind]
  rcases runFrom calls x with ⟨_ | _, calls'⟩ <;> rfl

end Recorded

/-! ### Measuring without a memory -/

/-- The texts were measured one after the other, up to the first one that could not be. If there is
one, it is to blame for the failure of the computation. -/
inductive StopsAtFailure (measure : Measurer) {α : Type} : Except Error α → List String → Prop
  | done {calls : List String} (hcalls : ∀ t ∈ calls, ∃ w, measure t = .ok w) (a : α) :
      StopsAtFailure measure (.ok a) calls
  | fails {before : List String} {t : String} {cause : MeasureError}
      (hbefore : ∀ s ∈ before, ∃ w, measure s = .ok w) (ht : measure t = .error cause) :
      StopsAtFailure measure (.error (.unmeasured t cause)) (before ++ [t])

/-- It makes no difference if the texts that were measured before are left out. -/
lemma StopsAtFailure.eraseDups {measure : Measurer} {α : Type} {result : Except Error α}
    {calls : List String} (h : StopsAtFailure measure result calls) :
    StopsAtFailure measure result calls.eraseDups := by
  cases h with
  | done hcalls a => exact .done (fun t ht => hcalls t (List.mem_eraseDups.1 ht)) a
  | @fails before t cause hbefore ht =>
      have hnew : t ∉ before := fun hmem => by
        obtain ⟨w, hw⟩ := hbefore t hmem
        rw [hw] at ht
        cases ht
      rw [eraseDups_concat_of_notMem hnew]
      exact .fails (fun s hs => hbefore s (List.mem_eraseDups.1 hs)) ht

/-- A computation with a record has the result of the one without, and its record stops at the first
failure. -/
def recordSimulation (measure : Measurer) : Simulation Recorded (Except Error) where
  Rel x y := ∀ calls : List String, (∀ t ∈ calls, ∃ w, measure t = .ok w) →
    ∃ calls', Recorded.runFrom calls x = (y, calls') ∧ StopsAtFailure measure y calls'
  pure a calls hcalls := ⟨calls, rfl, .done hcalls a⟩
  bind {α β x y f g} hxy hfg calls hcalls := by
    obtain ⟨calls', hx, hstops⟩ := hxy calls hcalls
    rw [Recorded.runFrom_bind, hx]
    cases hstops with
    | done hcalls' a => exact hfg a calls' hcalls'
    | fails hbefore ht => exact ⟨_, rfl, .fails hbefore ht⟩

lemma recordSimulation_recorded (measure : Measurer) (text : String) :
    (recordSimulation measure).Rel (measure.recorded text) (measure.width text) := by
  intro calls hcalls
  refine ⟨calls ++ [text], Recorded.runFrom_recorded measure calls text, ?_⟩
  rw [Measurer.width]
  cases htext : measure text with
  | error cause => exact .fails hcalls htext
  | ok w =>
      refine .done (List.forall_mem_append.2 ⟨hcalls, fun t ht => ⟨w, ?_⟩⟩) w
      rw [List.mem_singleton.1 ht, htext]

/-! ### Measuring with a memory -/

/-- The table holds the widths of the texts that were measured, and nothing else. -/
structure Known (measure : Measurer) (table : Widths) (calls : List String) : Prop where
  sound : ∀ t w, table[t]? = some w → t ∈ calls ∧ measure.width t = .ok w
  complete : ∀ t ∈ calls, ∃ w, table[t]? = some w

lemma Known.empty (measure : Measurer) : Known measure ∅ [] where
  sound t w h := by simp at h
  complete t ht := by simp at ht

/-- A text that is measured again is known already. -/
lemma Known.again {measure : Measurer} {table : Widths} {calls : List String} {text : String}
    (h : Known measure table calls) (htext : text ∈ calls) :
    Known measure table (calls ++ [text]) where
  sound t w ht := ⟨List.mem_append_left _ (h.sound t w ht).1, (h.sound t w ht).2⟩
  complete t ht := by
    rcases List.mem_append.1 ht with ht | ht
    · exact h.complete t ht
    · rw [List.mem_singleton.1 ht]
      exact h.complete text htext

/-- A text that is measured for the first time is known from then on. -/
lemma Known.insert {measure : Measurer} {table : Widths} {calls : List String} {text : String}
    {width : Points} (h : Known measure table calls) (hwidth : measure.width text = .ok width) :
    Known measure (table.insert text width) (calls ++ [text]) where
  sound t w ht := by
    rw [Std.HashMap.getElem?_insert] at ht
    split at ht
    · rename_i heq
      rw [← beq_iff_eq.1 heq, hwidth, Option.some.inj ht]
      exact ⟨List.mem_append_right _ List.mem_cons_self, rfl⟩
    · exact ⟨List.mem_append_left _ (h.sound t w ht).1, (h.sound t w ht).2⟩
  complete t ht := by
    rw [Std.HashMap.getElem?_insert]
    split
    · exact ⟨width, rfl⟩
    · rename_i hne
      rcases List.mem_append.1 ht with ht | ht
      · exact h.complete t ht
      · exact absurd (by simp [List.mem_singleton.1 ht]) hne

/-- A computation with a memory has the result of the one without. It measures what the other one
measures for the first time. -/
def callSimulation (measure : Measurer) : Simulation (StateT Widths Recorded) Recorded where
  Rel x y := ∀ (table : Widths) (calls : List String), Known measure table calls →
    (∃ e calls', Recorded.runFrom calls.eraseDups (x.run table) = (.error e, calls'.eraseDups) ∧
      Recorded.runFrom calls y = (.error e, calls')) ∨
    ∃ a table' calls', Known measure table' calls' ∧
      Recorded.runFrom calls.eraseDups (x.run table) = (.ok (a, table'), calls'.eraseDups) ∧
      Recorded.runFrom calls y = (.ok a, calls')
  pure a table calls h := .inr ⟨a, table, calls, h, rfl, rfl⟩
  bind {α β x y f g} hxy hfg table calls h := by
    rw [StateT.run_bind, Recorded.runFrom_bind, Recorded.runFrom_bind]
    rcases hxy table calls h with ⟨e, calls', hx, hy⟩ | ⟨a, table', calls', h', hx, hy⟩
    · rw [hx, hy]
      exact .inl ⟨e, calls', rfl, rfl⟩
    · rw [hx, hy]
      exact hfg a table' calls' h'

/-- Measuring one text with a memory measures it unless it was measured before. -/
lemma callSimulation_memoized (measure : Measurer) (text : String) :
    (callSimulation measure).Rel (memoized measure.recorded text) (measure.recorded text) := by
  intro table calls h
  rw [run_memoized, Recorded.runFrom_recorded]
  cases hknown : table[text]? with
  | some w =>
      obtain ⟨hmem, hw⟩ := h.sound text w hknown
      refine .inr ⟨w, table, calls ++ [text], h.again hmem, ?_, by rw [hw]⟩
      rw [eraseDups_concat_of_mem hmem]
      rfl
  | none =>
      have hnew : text ∉ calls := fun hmem => by
        obtain ⟨w, hw⟩ := h.complete text hmem
        rw [hknown] at hw
        cases hw
      simp only [Recorded.runFrom_bind, Recorded.runFrom_recorded]
      rw [← eraseDups_concat_of_notMem hnew]
      cases hw : measure.width text with
      | error e => exact .inl ⟨e, calls ++ [text], rfl, rfl⟩
      | ok w => exact .inr ⟨w, table.insert text w, calls ++ [text], h.insert hw, rfl, rfl⟩

/-! ### Pagination -/

/-- The pages of a text, with any way to measure. -/
def paginateWith {m : Type → Type} [Monad m] [MonadExceptOf Error m] (width : String → m Points)
    (text : String) (setup : PageSetup) : m (List Page) := do
  liftExcept (setup.check.mapError Error.invalidSetup)
  let wrapped ← wrapLines width setup.contentBox.width text
  return stackAll setup wrapped

/-- Pagination measures with a memory. -/
lemma paginate_eq_run'_paginateWith (text : String) (setup : PageSetup) (measure : Measurer) :
    paginate text setup measure
      = (paginateWith (memoized measure.width) text setup).run' ∅ := by
  rw [paginate, paginateWith]
  cases setup.check with
  | error fault => rfl
  | ok u =>
      have hlift : (liftExcept (Except.mapError Error.invalidSetup (.ok u)) :
          StateT Widths (Except Error) Unit) = pure u := rfl
      rw [StateT.run'_eq, StateT.run'_eq, hlift, pure_bind, StateT.run_bind]
      cases (wrapLines (memoized measure.width) setup.contentBox.width text).run ∅ <;> rfl

/-- Pagination has the same result without its memory. -/
lemma paginate_eq_paginateWith (text : String) (setup : PageSetup) (measure : Measurer) :
    paginate text setup measure = paginateWith measure.width text setup := by
  rw [paginate_eq, paginateWith]
  cases setup.check <;> rfl

variable {setup : PageSetup}

/-- If the setup can be used, pagination keeps a simulation of the measuring. -/
lemma Simulation.paginateWith {m n : Type → Type} [Monad m] [Monad n] [LawfulMonad m]
    [LawfulMonad n] [MonadExceptOf Error m] [MonadExceptOf Error n] (R : Simulation m n)
    {f : String → m Points} {g : String → n Points} (h : ∀ t, R.Rel (f t) (g t))
    (hcheck : setup.check = .ok ()) (text : String) :
    R.Rel (paginateWith f text setup) (paginateWith g text setup) := by
  rw [Folio.paginateWith, Folio.paginateWith, hcheck]
  exact R.bind (R.pure ()) fun _ => R.bind (R.wrapLines h _ text) fun _ => R.pure _

/-- **Pagination measures no text twice**, and its memory shows in no result.

Pagination is the same algorithm with a memory. It gives the same pages as without one, or fails
with the same error. The texts that the measurer is asked for are the same in both cases and in the
same order, but for the repetitions, which the memory leaves out. The last of them is the first one
that cannot be measured, if there is one. -/
theorem paginate_measures_once (text : String) {setup : PageSetup} (measure : Measurer)
    (hcheck : setup.check = .ok ()) :
    let direct := Recorded.runFrom [] (paginateWith measure.recorded text setup)
    let remembering :=
      Recorded.runFrom [] ((paginateWith (memoized measure.recorded) text setup).run' ∅)
    paginate text setup measure = (paginateWith (memoized measure.width) text setup).run' ∅ ∧
    paginate text setup measure = paginateWith measure.width text setup ∧
    direct.1 = paginate text setup measure ∧ remembering.1 = paginate text setup measure ∧
    remembering.2 = direct.2.eraseDups ∧ remembering.2.Nodup ∧
    StopsAtFailure measure direct.1 direct.2 ∧
    StopsAtFailure measure remembering.1 remembering.2 := by
  intro direct remembering
  have hbare := paginate_eq_paginateWith text setup measure
  obtain ⟨calls, hrecord, hstops⟩ := (recordSimulation measure).paginateWith
    (recordSimulation_recorded measure) hcheck text [] (by simp)
  have hdirect : direct = (paginate text setup measure, calls) := by rw [hbare, ← hrecord]
  have hremembering : remembering = (paginate text setup measure, calls.eraseDups) := by
    have hmap : remembering = _ :=
      Recorded.runFrom_map [] Prod.fst ((paginateWith (memoized measure.recorded) text setup).run ∅)
    rcases (callSimulation measure).paginateWith (callSimulation_memoized measure) hcheck text ∅ []
      (Known.empty measure)
      with ⟨e, calls', hmemory, hplain⟩ | ⟨a, table, calls', -, hmemory, hplain⟩
    · obtain ⟨hfail, rfl⟩ := Prod.mk.inj (hrecord.symm.trans hplain)
      rw [List.eraseDups_nil] at hmemory
      rw [hmap, hmemory, hbare, hfail]
      rfl
    · obtain ⟨hdone, rfl⟩ := Prod.mk.inj (hrecord.symm.trans hplain)
      rw [List.eraseDups_nil] at hmemory
      rw [hmap, hmemory, hbare, hdone]
      rfl
  rw [← hbare] at hstops
  rw [hdirect, hremembering]
  exact ⟨paginate_eq_run'_paginateWith text setup measure, hbare, rfl, rfl, rfl,
    nodup_eraseDups calls, hstops, hstops.eraseDups⟩

/-- Three lines with a repeated word and a repeated line. The third one cannot be measured as soon
as its second word is added. -/
theorem paginate_measures_once_of_missing_glyph :
    let text := "a a\na\nb q c"
    let setup : PageSetup := ⟨20, 40, 5, 5, 10, 5⟩
    let measure : Measurer := .refusing "q" "no glyph" (.monospace 3)
    let fault : Error := .unmeasured "b q" ⟨"no glyph"⟩
    let remembering :=
      Recorded.runFrom [] ((paginateWith (memoized measure.recorded) text setup).run' ∅)
    setup.check = .ok () ∧
    Recorded.runFrom [] (paginateWith measure.recorded text setup)
      = (.error fault, ["a", "a a", "a", "b", "b q"]) ∧
    paginate text setup measure = .error fault ∧
    remembering = (.error fault, ["a", "a a", "b", "b q"]) ∧
    StopsAtFailure measure remembering.1 remembering.2 := by
  intro text setup measure fault remembering
  have hcheck : setup.check = .ok () := by decide +kernel
  have hdirect : Recorded.runFrom [] (paginateWith measure.recorded text setup)
      = (.error fault, ["a", "a a", "a", "b", "b q"]) := by decide +kernel
  have hdistinct : ["a", "a a", "a", "b", "b q"].eraseDups = ["a", "a a", "b", "b q"] := by
    simp [List.eraseDups_cons]
  obtain ⟨-, -, hfault, hresult, hcalls, -, -, hstops⟩ :=
    paginate_measures_once text measure hcheck
  rw [hdirect] at hfault hcalls
  have hremembering : remembering = (.error fault, ["a", "a a", "b", "b q"]) :=
    Prod.ext (hresult.trans hfault.symm) (hcalls.trans hdistinct)
  exact ⟨hcheck, hdirect, hfault.symm, hremembering, hstops⟩

end Folio
