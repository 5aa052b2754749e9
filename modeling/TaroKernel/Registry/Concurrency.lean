import Mathlib.Data.List.Permutation
import TaroKernel.Lib.Linearizability
import TaroKernel.Registry.Exits

/-!
# Callers at the same time

Add and update look their process up before they take `memory_limit_mutex`, so each is two steps
with a window between them; remove, get and the exit of a process are one step. In that window
the process may exit. A call whose process is still there when it gets the mutex takes effect at
that moment, so runs in which this is so for all calls are linearizable, in the order in which the
calls finish. A call that goes on with a process that has exited may not fit any order.
-/

namespace Taro

open Keyed Linearizability Machine

variable {Signal : Type*} [DecidableEq Signal]

/-! ### One at a time -/

/-- The registry, and the processes that have exited. -/
structure Shared (Signal : Type*) where
  kernel : Kernel Signal
  exited : List PidT

/-- `find_task_by_vpid`, where `table` says who had which number at the start. -/
def Shared.findTaskByVpid (table : PidT → Option (Task Signal)) (w : Shared Signal) (p : PidT) :
    Option (Task Signal) :=
  if p ∈ w.exited then none else table p

inductive Operation where
  | call (q : Request)
  | exit (p : PidT)

/-- The answer recorded for the exit of a process. -/
def exitRet : Ret := ⟨0, .nothing⟩

/-- An operation run as a single uninterrupted step. -/
def Shared.next (table : PidT → Option (Task Signal)) (w : Shared Signal) :
    Operation → Ret × Shared Signal
  | .call q =>
    let r := syscall w.kernel (q.invoke (q.call.target.bind (w.findTaskByVpid table)))
    (r.1, { w with kernel := r.2 })
  | .exit p => (exitRet, { w with exited := p :: w.exited })

/-! ### Interleaved -/

/-- The two syscalls that look their process up before the mutex. -/
inductive Limiting where
  | add
  | update

def Limiting.call (k : Limiting) (p : PidT) (L : SizeT) : Call :=
  match k with
  | .add    => .add p L
  | .update => .update p L

/-- Their part under the mutex. -/
def Limiting.locked (k : Limiting) (s : Kernel Signal) (p : PidT) (L : SizeT)
    (task : TaskStruct Signal) (o : Outcomes Signal) : Int × Kernel Signal :=
  match k with
  | .add    => addLocked s p L task o
  | .update => updateLocked s p L task o

/-- A call between its lookup and the mutex: its arguments and answers, the task it found, and the
moment it started. -/
structure Waiting (Signal : Type*) where
  limiting : Limiting
  processPid : PidT
  memoryLimit : SizeT
  answers : Answers
  task : TaskStruct Signal
  start : ℕ

def Waiting.request (c : Waiting Signal) : Request :=
  ⟨c.limiting.call c.processPid c.memoryLimit, c.answers, c.task.mm⟩

/-- All callers together: what they share, the call each of them is in the middle of, the time,
and the operations finished so far. -/
structure Callers (Signal : Type*) where
  shared : Shared Signal
  waiting : ℕ → Option (Waiting Signal)
  now : ℕ
  completed : List (Completed Operation Ret)

/-- The atomic steps. `lookup` and `locked` are the two steps of a call of one caller. -/
inductive Move where
  | lookup (caller : ℕ) (k : Limiting) (p : PidT) (L : SizeT) (a : Answers) (mm : Option MmStruct)
  | locked (caller : ℕ)
  | remove (p : PidT) (a : Answers)
  | get (u : UInt64) (n : SizeT) (c : UInt64) (a : Answers)
  | exit (p : PidT)

/-- An operation that is one step. -/
def Callers.atomic (table : PidT → Option (Task Signal)) (w : Callers Signal) (op : Operation) :
    Callers Signal :=
  let r := w.shared.next table op
  { w with
    shared := r.2
    now := w.now + 1
    completed := w.completed ++ [⟨op, r.1, w.now, w.now⟩] }

/-- A lookup that fails is the whole call. A caller that is in the middle of a call cannot start
another, and one that is not has nothing to go on with: such moves do nothing. -/
def Callers.next (table : PidT → Option (Task Signal)) (w : Callers Signal) :
    Move → Unit × Callers Signal
  | .lookup caller k p L a mm =>
    match w.waiting caller with
    | some _ => ((), w)
    | none   =>
      match beforeMutex p L ⟨a, (w.shared.findTaskByVpid table p).map fun t => ⟨t, mm⟩⟩ with
      | .error code =>
        ((), { w with
          now := w.now + 1
          completed :=
            w.completed ++ [⟨.call ⟨k.call p L, a, mm⟩, ⟨code, .nothing⟩, w.now, w.now⟩] })
      | .ok task =>
        ((), { w with
          waiting := Function.update w.waiting caller (some ⟨k, p, L, a, task, w.now⟩)
          now := w.now + 1 })
  | .locked caller =>
    match w.waiting caller with
    | none   => ((), w)
    | some c =>
      let r := c.limiting.locked w.shared.kernel c.processPid c.memoryLimit c.task
        ⟨c.answers, some c.task⟩
      ((), {
        shared := { w.shared with kernel := r.2 }
        waiting := Function.update w.waiting caller none
        now := w.now + 1
        completed := w.completed ++ [⟨.call c.request, ⟨r.1, .nothing⟩, c.start, w.now⟩] })
  | .remove p a => ((), w.atomic table (.call ⟨.remove p, a, none⟩))
  | .get u n c a => ((), w.atomic table (.call ⟨.get u n c, a, none⟩))
  | .exit p => ((), w.atomic table (.exit p))

def Shared.boot (rlimitAs : Signal → Rlimit) : Shared Signal := ⟨Taro.boot rlimitAs, []⟩

def Callers.boot (rlimitAs : Signal → Rlimit) : Callers Signal :=
  ⟨.boot rlimitAs, fun _ => none, 0, []⟩

/-- If the move takes a call on under the mutex, the process of that call has not exited since its
lookup. -/
def StillThere (w : Callers Signal) : Move → Prop
  | .locked caller => ∀ c ∈ w.waiting caller, c.processPid ∉ w.shared.exited
  | _ => True

instance (w : Callers Signal) : ∀ m, Decidable (StillThere w m)
  | .locked caller =>
    inferInstanceAs (Decidable (∀ c ∈ w.waiting caller, c.processPid ∉ w.shared.exited))
  | .lookup .. | .remove .. | .get .. | .exit .. => isTrue trivial

/-! ### The window -/

section Window

variable {table : PidT → Option (Task Signal)} {w : Shared Signal} {k : Limiting} {p : PidT}
  {L : SizeT} {a : Answers} {mm : Option MmStruct} {task : TaskStruct Signal}

omit [DecidableEq Signal] in
lemma findTaskByVpid_eq_some_iff {t : Task Signal} :
    w.findTaskByVpid table p = some t ↔ p ∉ w.exited ∧ table p = some t := by
  unfold Shared.findTaskByVpid
  split_ifs with h <;> simp [h]

/-- A call whose lookup fails, alone. -/
lemma next_of_lookup_error {code : Int}
    (h : beforeMutex p L ⟨a, (w.findTaskByVpid table p).map fun t => ⟨t, mm⟩⟩ = .error code) :
    w.next table (.call ⟨k.call p L, a, mm⟩) = (⟨code, .nothing⟩, w) := by
  cases k <;>
    simp only [Shared.next, Limiting.call, Request.invoke, Call.target, Option.bind_some, syscall,
      taroAddMemoryLimit, taroUpdateMemoryLimit, h]

/-- A call whose process is found, alone. -/
lemma next_of_lookup_ok (hp : 0 ≤ p) (hL : L ≠ 0)
    (hfind : w.findTaskByVpid table p = some task.toTask) :
    w.next table (.call ⟨k.call p L, a, task.mm⟩) =
      (⟨(k.locked w.kernel p L task ⟨a, some task⟩).1, .nothing⟩,
        { w with kernel := (k.locked w.kernel p L task ⟨a, some task⟩).2 }) := by
  have hb : beforeMutex p L ⟨a, some task⟩ = .ok task := beforeMutex_eq_ok_iff.mpr ⟨hp, hL, rfl⟩
  cases k <;>
    simp only [Shared.next, Limiting.call, Limiting.locked, Request.invoke, Call.target,
      Option.bind_some, hfind, Option.map_some, syscall, taroAddMemoryLimit,
      taroUpdateMemoryLimit, hb]

end Window

/-! ### Runs -/

variable {table : PidT → Option (Task Signal)} {w₀ : Shared Signal} {w : Callers Signal}

/-- What finished replays in the order it finished, and a call in its window has found the process
that had its number at the start. -/
structure Consistent (table : PidT → Option (Task Signal)) (w₀ : Shared Signal)
    (w : Callers Signal) : Prop where
  order : CompletionOrder (Shared.next table) w₀ w.completed w.shared w.now
  waiting : ∀ caller c, w.waiting caller = some c →
    c.start ≤ w.now ∧ 0 ≤ c.processPid ∧ c.memoryLimit ≠ 0 ∧
      table c.processPid = some c.task.toTask

lemma consistent_boot (rlimitAs : Signal → Rlimit) :
    Consistent table (.boot rlimitAs) (.boot rlimitAs) :=
  ⟨.nil, by simp [Callers.boot]⟩

lemma Consistent.atomic (h : Consistent table w₀ w) (op : Operation) :
    Consistent table w₀ (w.atomic table op) where
  order := h.order.complete rfl (Nat.le_refl _)
  waiting caller c hc := by
    obtain ⟨hstart, hrest⟩ := h.waiting caller c hc
    exact ⟨Nat.le_succ_of_le hstart, hrest⟩

lemma Consistent.lookup (h : Consistent table w₀ w) (caller : ℕ) (k : Limiting) (p : PidT)
    (L : SizeT) (a : Answers) (mm : Option MmStruct) :
    Consistent table w₀ (w.next table (.lookup caller k p L a mm)).2 := by
  simp only [Callers.next]
  cases hbusy : w.waiting caller with
  | some c => exact h
  | none =>
    cases hb : beforeMutex p L ⟨a, (w.shared.findTaskByVpid table p).map fun t => ⟨t, mm⟩⟩ with
    | error code =>
      refine ⟨h.order.complete (next_of_lookup_error hb) (Nat.le_refl _), ?_⟩
      intro caller c hc
      obtain ⟨hstart, hrest⟩ := h.waiting caller c hc
      exact ⟨Nat.le_succ_of_le hstart, hrest⟩
    | ok task =>
      refine ⟨h.order.tick, ?_⟩
      intro caller' c hc
      dsimp only at hc
      by_cases hcaller : caller' = caller
      · subst hcaller
        rw [Function.update_self] at hc
        obtain rfl := Option.some.inj hc
        obtain ⟨hp, hL, hmap⟩ := beforeMutex_eq_ok_iff.mp hb
        obtain ⟨t, hfind, rfl⟩ := Option.map_eq_some_iff.mp hmap
        exact ⟨Nat.le_succ _, hp, hL, (findTaskByVpid_eq_some_iff.mp hfind).2⟩
      · rw [Function.update_of_ne hcaller] at hc
        obtain ⟨hstart, hrest⟩ := h.waiting caller' c hc
        exact ⟨Nat.le_succ_of_le hstart, hrest⟩

/-- The body of a call whose process is still there does what the whole call does alone. -/
lemma Consistent.locked (h : Consistent table w₀ w) (caller : ℕ)
    (hthere : StillThere w (.locked caller)) :
    Consistent table w₀ (w.next table (.locked caller)).2 := by
  simp only [Callers.next]
  cases hc : w.waiting caller with
  | none => exact h
  | some c =>
    obtain ⟨hstart, hp, hL, htask⟩ := h.waiting caller c hc
    have hfind : w.shared.findTaskByVpid table c.processPid = some c.task.toTask :=
      findTaskByVpid_eq_some_iff.mpr ⟨hthere c hc, htask⟩
    refine ⟨h.order.complete (next_of_lookup_ok hp hL hfind) hstart, ?_⟩
    intro caller' c' hc'
    dsimp only at hc'
    by_cases hcaller : caller' = caller
    · subst hcaller
      rw [Function.update_self] at hc'
      cases hc'
    · rw [Function.update_of_ne hcaller] at hc'
      obtain ⟨hstart', hrest⟩ := h.waiting caller' c' hc'
      exact ⟨Nat.le_succ_of_le hstart', hrest⟩

lemma Consistent.next (h : Consistent table w₀ w) (m : Move) (hthere : StillThere w m) :
    Consistent table w₀ (w.next table m).2 := by
  cases m with
  | lookup caller k p L a mm => exact h.lookup caller k p L a mm
  | locked caller => exact h.locked caller hthere
  | remove p a => exact h.atomic _
  | get u n c a => exact h.atomic _
  | exit p => exact h.atomic _

lemma consistent_final (rlimitAs : Signal → Rlimit) (ms : List Move)
    (hall : ∀ st ∈ steps (Callers.next table) (.boot rlimitAs) ms, StillThere st.pre st.input) :
    Consistent table (.boot rlimitAs) (final (Callers.next table) (.boot rlimitAs) ms) := by
  revert hall
  refine history_induction (P := fun (h : List (Step (Callers Signal) Move Unit)) w =>
    (∀ st ∈ h, StillThere st.pre st.input) → Consistent table (.boot rlimitAs) w) ?_ ?_ ms
  · exact fun _ => consistent_boot rlimitAs
  · intro h w m ih hall
    have hpast := ih fun st hst => hall st (List.mem_append_left _ hst)
    exact hpast.next m (hall (stepAt (Callers.next table) w m) (by simp))

/-- Take any interleaving in which every call of add and update gets the mutex before the process
it looked up exits. Then the operations completed in it, run one at a time in some order that
respects real time, give the same answers and leave the same registry. -/
theorem linearizable_of_stillThere {α : Type*} (answer : Ret → α)
    (table : PidT → Option (Task Signal)) (rlimitAs : Signal → Rlimit) (ms : List Move)
    (hall : ∀ st ∈ steps (Callers.next table) (.boot rlimitAs) ms, StillThere st.pre st.input) :
    Linearizable (Shared.next table) answer (fun w => w.kernel.memoryLimitList) (.boot rlimitAs)
      (final (Callers.next table) (.boot rlimitAs) ms).completed
      (final (Callers.next table) (.boot rlimitAs) ms).shared.kernel.memoryLimitList :=
  (consistent_final rlimitAs ms hall).order.linearizable answer fun w => w.kernel.memoryLimitList

/-- Only pid 7 is there. -/
def onlySeven (p : PidT) : Option (Task Unit) := if p = 7 then some ⟨1, ()⟩ else none

/-- Two callers look pid 7 up at the same time; the second gets the mutex first, and the process
exits after both are done. -/
theorem overlapping_adds_linearizable :
    Linearizable (Shared.next onlySeven) Ret.code (fun w => w.kernel.memoryLimitList)
      (.boot fun _ => ⟨0, 0⟩)
      (final (Callers.next onlySeven) (.boot fun _ => ⟨0, 0⟩)
        [.lookup 0 .add 7 4096 ⟨true, true, 0, 0, 0⟩ none,
          .lookup 1 .add 7 8192 ⟨true, true, 0, 0, 0⟩ none, .locked 1, .locked 0,
          .exit 7]).completed
      (final (Callers.next onlySeven) (.boot fun _ => ⟨0, 0⟩)
        [.lookup 0 .add 7 4096 ⟨true, true, 0, 0, 0⟩ none,
          .lookup 1 .add 7 8192 ⟨true, true, 0, 0, 0⟩ none, .locked 1, .locked 0,
          .exit 7]).shared.kernel.memoryLimitList :=
  linearizable_of_stillThere Ret.code onlySeven (fun _ => ⟨0, 0⟩) _ (by decide)

/-- An add looks pid 7 up, the process exits, a remove of 7 finds nothing, and then the add goes on
and succeeds. Before the exit it would have given the remove something to find, after the exit it
would have failed. -/
theorem add_after_exit_not_linearizable :
    ¬ ∀ (table : PidT → Option (Task Unit)) (rlimitAs : Unit → Rlimit) (ms : List Move),
      Linearizable (Shared.next table) Ret.code (fun w => w.kernel.memoryLimitList)
        (.boot rlimitAs) (final (Callers.next table) (.boot rlimitAs) ms).completed
        (final (Callers.next table) (.boot rlimitAs) ms).shared.kernel.memoryLimitList := by
  intro h
  let a : Answers := ⟨true, true, 0, 0, 0⟩
  obtain ⟨order, hperm, htime, hreplay, _⟩ := h onlySeven (fun _ => ⟨0, 0⟩)
    [.lookup 0 .add 7 4096 a none, .exit 7, .remove 7 a, .locked 0]
  have hnone : ∀ order ∈ (final (Callers.next onlySeven) (.boot fun _ => ⟨0, 0⟩)
      [.lookup 0 .add 7 4096 a none, .exit 7, .remove 7 a, .locked 0]).completed.permutations',
      order.Pairwise (fun c d => ¬ d.finish < c.start) →
        ¬ Replays (Shared.next onlySeven) Ret.code (.boot fun _ => ⟨0, 0⟩) order := by
    decide
  exact hnone order (List.mem_permutations'.mpr hperm) htime hreplay

end Taro
