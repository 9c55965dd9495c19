import Mathlib.Tactic
import Folio.Proofs.Pdf.Numbering

/-!
Calls on a table of numbers, in any order and any number of them.

* `ObjectIds.log`: calls that are made one after the other, each with its answer and the tables
  before and after it. `ObjectIds.record_cases`: what a single call does.
* `ObjectIds.Ledger`: the calls that were made tell what the table holds. `ObjectIds.Ledger.step`,
  `ObjectIds.Ledger.run`: every call keeps this, and so do all of them.
-/

namespace Folio

namespace ObjectIds

/-! ### Calls -/

/-- A call on a table: for a new number, for the number that an object has, or for that and else a
new one. -/
inductive Call where
  | generate (key : ObjectKey)
  | find (key : ObjectKey)
  | obtain (key : ObjectKey)
  deriving DecidableEq, Repr

namespace Call

/-- The object that a call is about. -/
def key : Call → ObjectKey
  | generate key | find key | obtain key => key

/-- Makes a call. Only one that looks a number up may be answered with none. -/
def run : Call → StateM ObjectIds (Option Nat)
  | generate key => some <$> ObjectIds.generate key
  | find key => return (← get).find? key
  | obtain key => some <$> ObjectIds.obtain key

end Call

/-- A call that was made, with its answer and the tables before and after it. -/
structure Entry where
  call : Call
  answer : Option Nat
  before : ObjectIds
  after : ObjectIds

/-- Did the call take a number off the counter? -/
def Entry.allocates (e : Entry) : Bool := e.before.next < e.after.next

/-- The entry of a call on a table. -/
def record (call : Call) (ids : ObjectIds) : Entry :=
  ⟨call, (call.run.run ids).1, ids, (call.run.run ids).2⟩

/-- The entries of calls that are made one after the other. -/
def log (ids : ObjectIds) : List Call → List Entry
  | [] => []
  | call :: calls => record call ids :: log (record call ids).after calls

/-- The number that was allocated last for an object. -/
def lastAllocated (entries : List Entry) (key : ObjectKey) : Option Nat :=
  (entries.reverse.find? fun e => e.allocates && e.call.key = key).bind Entry.answer

/-- The objects that numbers were allocated for, in order. -/
def allocatedKeys (entries : List Entry) : List ObjectKey :=
  (entries.filter Entry.allocates).map fun e => e.call.key

/-! ### One call -/

variable {ids : ObjectIds} {key : ObjectKey}

lemma record_obtain (h : ids.find? key = none) :
    record (.obtain key) ids = ⟨.obtain key, some ids.next, ids, ids.handOut [key]⟩ := by
  have hrun : (ObjectIds.obtain key).run ids = (ids.next, ids.handOut [key]) := by
    change ObjectIds.obtain key ids = _
    rw [ObjectIds.obtain, h]
    rfl
  rw [record, Call.run, StateT.run_map, hrun]
  rfl

lemma record_obtain_of_some {id : Nat} (h : ids.find? key = some id) :
    record (.obtain key) ids = ⟨.obtain key, some id, ids, ids⟩ := by
  rw [record, Call.run, StateT.run_map, run_obtain h]
  rfl

@[simp] lemma call_record (call : Call) (ids : ObjectIds) : (record call ids).call = call := rfl

@[simp] lemma before_record (call : Call) (ids : ObjectIds) : (record call ids).before = ids := rfl

/-- Handing a number out takes it off the counter, and leaving the table as it is does not. -/
lemma allocates_eq_true {e : Entry} (h : e.after = e.before.handOut [e.call.key]) :
    e.allocates = true := by
  rw [Entry.allocates, h, decide_eq_true_eq, next_handOut]
  exact Nat.lt_succ_self _

lemma allocates_eq_false {e : Entry} (h : e.after = e.before) : e.allocates = false := by
  rw [Entry.allocates, h, decide_eq_false (lt_irrefl _)]

/-- **A call** hands out the next number, or looks a number up and leaves the table as it is. -/
lemma record_cases (call : Call) (ids : ObjectIds) :
    ((record call ids).allocates = true ∧ (record call ids).answer = some ids.next ∧
      (record call ids).after = ids.handOut [call.key]) ∨
    ((record call ids).allocates = false ∧ (record call ids).answer = ids.find? call.key ∧
      (record call ids).after = ids) := by
  cases call with
  | generate key => exact .inl ⟨allocates_eq_true rfl, rfl, rfl⟩
  | find key => exact .inr ⟨allocates_eq_false rfl, rfl, rfl⟩
  | obtain key =>
      cases hfind : ids.find? key with
      | none =>
          rw [record_obtain hfind]
          exact .inl ⟨allocates_eq_true rfl, rfl, rfl⟩
      | some id =>
          rw [record_obtain_of_some hfind]
          exact .inr ⟨allocates_eq_false rfl, hfind.symm, rfl⟩

/-- A call for the number that an object has and else a new one takes a number exactly if the object
has none. -/
lemma allocates_record_obtain :
    (record (.obtain key) ids).allocates = true ↔ ids.find? key = none := by
  cases hfind : ids.find? key with
  | none =>
      rw [record_obtain hfind]
      exact iff_of_true (allocates_eq_true rfl) rfl
  | some id =>
      rw [record_obtain_of_some hfind, allocates_eq_false rfl]
      simp

/-! ### Tables -/

/-- The numbers that the table holds lie below its counter, and no two objects have the same one. -/
structure Sound (ids : ObjectIds) : Prop where
  bounds : ∀ key id, ids.find? key = some id → 1 ≤ id ∧ id < ids.next
  injective : ∀ key key' id, ids.find? key = some id → ids.find? key' = some id → key = key'

lemma held_handOut_start (keys : List ObjectKey) :
    (start.handOut keys).held = (keys.zipIdx 1).reverse := List.append_nil _

lemma mem_of_find?_handOut {keys : List ObjectKey} {id : Nat}
    (h : (start.handOut keys).find? key = some id) : (key, id) ∈ keys.zipIdx 1 := by
  obtain ⟨later, earlier, hheld, -⟩ := List.lookup_eq_some_iff.1 h
  rw [held_handOut_start] at hheld
  rw [← List.mem_reverse, hheld]
  simp

/-- **Tables are sound**, whatever numbers were handed out. -/
lemma sound_handOut (keys : List ObjectKey) : (start.handOut keys).Sound where
  bounds key id h := by
    have hmem := mem_of_find?_handOut h
    have hlow := List.le_snd_of_mem_zipIdx hmem
    have hhigh := List.snd_lt_add_of_mem_zipIdx hmem
    exact ⟨hlow, hhigh⟩
  injective key key' id h h' := by
    have hmem := List.mem_zipIdx (mem_of_find?_handOut h)
    have hmem' := List.mem_zipIdx (mem_of_find?_handOut h')
    exact hmem.2.2.trans hmem'.2.2.symm

/-- An object has a number on a table exactly if one was handed out for it. -/
lemma find?_handOut_eq_none_iff {keys : List ObjectKey} :
    (start.handOut keys).find? key = none ↔ key ∉ keys := by
  rw [find?, List.lookup_eq_none_iff, held_handOut_start]
  conv_rhs => rw [← List.zipIdx_map_fst 1 keys]
  simp only [List.mem_reverse, List.mem_map, not_exists, not_and, bne_iff_ne]
  exact forall₂_congr fun entry _ => ne_comm

/-- After the next number was handed out, it is that of its object, and all others are kept. -/
lemma find?_handOut_singleton (ids : ObjectIds) (key other : ObjectKey) :
    (ids.handOut [other]).find? key = if other = key then some ids.next else ids.find? key := by
  change ((other, ids.next) :: ids.held).lookup key = _
  rw [List.lookup_cons]
  by_cases h : other = key
  · simp [h]
  · rw [if_neg h, beq_eq_false_iff_ne.2 (Ne.symm h)]
    rfl

/-! ### All calls -/

/-- The calls that were made tell what the table holds: it handed out the next number at each call
that allocated one, that was the answer, and the last one for an object is its number. -/
structure Ledger (past : List Entry) (ids : ObjectIds) : Prop where
  table : ids = start.handOut (allocatedKeys past)
  answers : (past.filter Entry.allocates).map Entry.answer
    = (List.range' 1 (allocatedKeys past).length).map some
  find : ∀ key, ids.find? key = lastAllocated past key

namespace Ledger

variable {past : List Entry}

lemma start_nil : Ledger [] start := ⟨rfl, rfl, fun _ => rfl⟩

/-- **Every call keeps the ledger.** -/
lemma step (h : Ledger past ids) (call : Call) :
    Ledger (past ++ [record call ids]) (record call ids).after := by
  rcases record_cases call ids with ⟨hnew, hanswer, hafter⟩ | ⟨hold, -, hafter⟩
  · have hkeys : allocatedKeys (past ++ [record call ids]) = allocatedKeys past ++ [call.key] := by
      simp [allocatedKeys, List.filter_append, hnew]
    have hnext : ids.next = 1 + (allocatedKeys past).length := by
      rw [h.table]
      rfl
    refine ⟨?_, ?_, fun key => ?_⟩
    · rw [hafter, hkeys, handOut_append, ← h.table]
    · rw [hkeys, List.length_append, List.filter_append, List.map_append, h.answers]
      simp [hnew, hanswer, hnext, List.range'_concat]
    · rw [hafter, find?_handOut_singleton, h.find key]
      simp only [lastAllocated, List.reverse_append, List.reverse_singleton, List.singleton_append,
        List.find?_cons, hnew, call_record, Bool.true_and]
      by_cases hkey : call.key = key
      · simp [hkey, hanswer]
      · simp [hkey]
  · have hkeys : allocatedKeys (past ++ [record call ids]) = allocatedKeys past := by
      simp [allocatedKeys, List.filter_append, hold]
    refine ⟨?_, ?_, fun key => ?_⟩
    · rw [hafter, hkeys, ← h.table]
    · rw [hkeys, List.filter_append, List.map_append, h.answers]
      simp [hold]
    · rw [hafter, h.find key]
      simp [lastAllocated, hold]

/-- **All calls keep the ledger**, and each of them finds one of those before it. -/
lemma run (h : Ledger past ids) {calls : List Call} {before after : List Entry} {e : Entry}
    (hlog : log ids calls = before ++ e :: after) :
    Ledger (past ++ before) e.before ∧ e = record e.call e.before := by
  induction calls generalizing past ids before with
  | nil => simp [log] at hlog
  | cons call calls ih =>
      rw [log] at hlog
      cases before with
      | nil =>
          obtain rfl := (List.cons.inj hlog).1
          exact ⟨by simpa using h, rfl⟩
      | cons d before =>
          obtain ⟨rfl, hrest⟩ := List.cons.inj hlog
          have hledger := ih (h.step call) hrest
          rwa [List.append_assoc, List.singleton_append] at hledger

lemma exists_of_log (h : Ledger past ids) (calls : List Call) :
    ∃ last, Ledger (past ++ log ids calls) last := by
  induction calls generalizing past ids with
  | nil => exact ⟨ids, by simpa [log] using h⟩
  | cons call calls ih =>
      obtain ⟨last, hlast⟩ := ih (h.step call)
      rw [List.append_assoc, List.singleton_append] at hlast
      exact ⟨last, hlast⟩

lemma find?_eq_none_iff (h : Ledger past ids) :
    ids.find? key = none ↔ ∀ e ∈ past, e.allocates = true → e.call.key ≠ key := by
  rw [h.table, find?_handOut_eq_none_iff, allocatedKeys, List.mem_map]
  simp

lemma sound (h : Ledger past ids) : ids.Sound := h.table ▸ sound_handOut _

/-- What each call does, told by the calls before it. -/
lemma record_spec (h : Ledger past ids) (call : Call) :
    match call with
    | .generate _ => (record call ids).allocates = true
    | .find key => (record call ids).answer = lastAllocated past key ∧ (record call ids).after = ids
    | .obtain key =>
      ((record call ids).allocates = true ↔ ∀ d ∈ past, d.allocates = true → d.call.key ≠ key) ∧
      ((record call ids).allocates = false →
        (record call ids).answer = (record (.find key) ids).answer ∧
        (record call ids).after = ids) := by
  cases call with
  | generate key => exact allocates_eq_true rfl
  | find key => exact ⟨h.find key, rfl⟩
  | obtain key =>
      refine ⟨allocates_record_obtain.trans h.find?_eq_none_iff, fun hold => ?_⟩
      rcases record_cases (.obtain key) ids with ⟨hnew, -⟩ | ⟨-, hanswer, hafter⟩
      · exact absurd (hold.symm.trans hnew) Bool.false_ne_true
      · exact ⟨hanswer, hafter⟩

end Ledger

/-- **Numbers are allocated in order.** Make any calls on a new table that allocate fewer than `2 ^
31 - 1` numbers. Those that allocate one are answered with one, two, three and so on. At every point
the counter is a number of 32 bits with a sign, the numbers that are held lie between one and the
counter, and no two objects have the same one. A call for a new number always allocates one. A call
that looks a number up is answered with the one that was allocated last for its object, and changes
nothing. A call that may do either allocates a number exactly if its object never had one, and else
does what looking it up does. -/
theorem log_allocates_in_order (calls : List Call)
    (hfew : ((log start calls).filter Entry.allocates).length < 2 ^ 31 - 1) :
    ((log start calls).filter Entry.allocates).map Entry.answer
      = (List.range' 1 ((log start calls).filter Entry.allocates).length).map some ∧
    ∀ before e after, log start calls = before ++ e :: after →
      e.before.Sound ∧ e.after.Sound ∧ e.after.next < 2 ^ 31 ∧
      match e.call with
      | .generate _ => e.allocates = true
      | .find key => e.answer = lastAllocated before key ∧ e.after = e.before
      | .obtain key =>
        (e.allocates = true ↔ ∀ d ∈ before, d.allocates = true → d.call.key ≠ key) ∧
        (e.allocates = false →
          e.answer = (record (.find key) e.before).answer ∧ e.after = e.before) := by
  constructor
  · obtain ⟨last, hlast⟩ := Ledger.start_nil.exists_of_log calls
    simpa [allocatedKeys] using hlast.answers
  · intro before e after hlog
    obtain ⟨hledger, he⟩ := Ledger.start_nil.run hlog
    rw [List.nil_append] at hledger
    obtain ⟨call, ids, rfl⟩ : ∃ call ids, e = record call ids := ⟨_, _, he⟩
    rw [before_record] at hledger
    have hafter := hledger.step call
    refine ⟨hledger.sound, hafter.sound, ?_, hledger.record_spec call⟩
    -- the numbers allocated up to here are some of all
    have hsome : (allocatedKeys (before ++ [record call ids])).length
        ≤ ((log start calls).filter Entry.allocates).length := by
      rw [allocatedKeys, List.length_map, hlog, List.append_cons before _ after]
      exact ((List.sublist_append_left _ after).filter _).length_le
    have hnext : (record call ids).after.next
        = 1 + (allocatedKeys (before ++ [record call ids])).length := by
      rw [hafter.table]
      rfl
    omega

/-- The page tree gets a second number, which hides its first one; the first page gets one only
once, and the second one has none. -/
theorem log_allocates_in_order_of_pages :
    let calls : List Call := [.generate .catalog, .generate .pageTree, .obtain .pageTree,
      .generate .pageTree, .obtain (.page 0), .find (.page 1), .obtain (.page 0), .find .pageTree]
    ((log start calls).filter Entry.allocates).length < 2 ^ 31 - 1 ∧
    ((log start calls).filter Entry.allocates).map Entry.answer = [some 1, some 2, some 3, some 4] ∧
    ∀ e ∈ log start calls, e.after.Sound := by
  intro calls
  have hfew : ((log start calls).filter Entry.allocates).length < 2 ^ 31 - 1 := by decide
  obtain ⟨hanswers, hall⟩ := log_allocates_in_order calls hfew
  refine ⟨hfew, hanswers, fun e he => ?_⟩
  obtain ⟨before, after, hlog⟩ := List.append_of_mem he
  exact (hall before e after hlog).2.1

end ObjectIds

end Folio
