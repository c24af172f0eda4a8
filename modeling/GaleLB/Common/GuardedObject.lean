import GaleLB.Common.Potential

/-!
# Objects behind a reader–writer lock

The operations on an object are small programs: each takes the lock, makes one small step
after the other on the object and on its own local state, and gives the lock back with a
result. Writers hold the lock alone; readers share it, and leave the object as it is. The
small steps of different threads interleave in any way that the lock allows.

Every such interleaving amounts to a sequential execution: taken in the order in which they
give the lock back, the finished operations are each carried out in one piece, with the
result that they returned. An operation gives the lock back after it was called and before
it returns, so the sequential order respects the order of operations that do not overlap.
-/

namespace Locking

open Transition

/-- How an operation takes the lock. -/
inductive Mode where
  | read
  | write
deriving DecidableEq, Repr

/-- The operations of an object with state `σ`, as programs with local states `L` whose small steps take
inputs `I` from outside. -/
structure Program (σ Op L I ρ : Type*) where
  mode : Op → Mode
  start : Op → L
  micro : L × σ → I → Option (L × σ)
  result : L → Option ρ

/-- Where a thread is with its operation. -/
inductive Thread (Op L : Type*) where
  | idle
  | waiting (op : Op)
  | inside (op : Op) (pc : L)

/-- The object, who holds its lock, and the threads. -/
structure Guarded (T σ Op L : Type*) where
  object : σ
  holders : List (T × Mode)
  threads : T → Thread Op L

/-- The atomic actions of the threads. -/
inductive Action (T Op I ρ : Type*) where
  | call (t : T) (op : Op)
  | lock (t : T) (op : Op)
  | micro (t : T) (input : I)
  | unlock (t : T) (op : Op) (result : ρ)

variable {T σ Op L I ρ : Type*}

/-- Nobody uses the object. -/
def initial (object : σ) : Guarded T σ Op L := ⟨object, [], fun _ => .idle⟩

/-- Whether the lock can be taken: alone for writing, next to other readers for reading. -/
def Guarded.free (s : Guarded T σ Op L) : Mode → Bool
  | .write => s.holders.isEmpty
  | .read => s.holders.all fun holder => holder.2 = .read

/-- Nobody holds the lock for writing. -/
def Guarded.Quiet (s : Guarded T σ Op L) : Prop := ∀ t, (t, Mode.write) ∉ s.holders

/-- How a thread holds the lock. -/
def Thread.holds (P : Program σ Op L I ρ) : Thread Op L → Option Mode
  | .inside op _ => some (P.mode op)
  | _ => none

/-- The lock records exactly who is inside, and a writer is alone. -/
structure Guarded.Exclusive (P : Program σ Op L I ρ) (s : Guarded T σ Op L) : Prop where
  holder : ∀ thread mode, (thread, mode) ∈ s.holders ↔ (s.threads thread).holds P = some mode
  alone : ∀ thread, (thread, .write) ∈ s.holders → s.holders = [(thread, .write)]

section Exclusive

variable {P : Program σ Op L I ρ} {s : Guarded T σ Op L}

/-- Where one thread holds the lock for reading, nobody holds it for writing. -/
theorem Guarded.Exclusive.quiet (h : s.Exclusive P) {thread : T} (hread : (s.threads thread).holds P = some .read) :
    s.Quiet := by
  intro other hwrite
  have hmem := (h.holder thread .read).mpr hread
  rw [h.alone other hwrite, List.mem_singleton] at hmem
  cases hmem

/-- Where one thread holds the lock for writing, no other thread holds it. -/
theorem Guarded.Exclusive.eq_of_write (h : s.Exclusive P) {thread other : T} {mode : Mode}
    (hwrite : (s.threads thread).holds P = some .write) (hother : (s.threads other).holds P = some mode) :
    other = thread := by
  have hmem := (h.holder other mode).mpr hother
  rw [h.alone thread ((h.holder thread .write).mpr hwrite), List.mem_singleton] at hmem
  exact (Prod.mk.inj hmem).1

/-- Whoever can take the lock finds no writer. -/
theorem Guarded.quiet_of_free {mode : Mode} (h : s.free mode = true) : s.Quiet := by
  intro thread hmem
  cases mode with
  | write =>
    rw [Guarded.free, List.isEmpty_iff] at h
    rw [h] at hmem
    cases hmem
  | read =>
    rw [Guarded.free, List.all_eq_true] at h
    have hread := h _ hmem
    simp at hread

end Exclusive

variable [DecidableEq T] {P : Program σ Op L I ρ}

/-- A thread that moves without taking or giving back the lock changes nothing in what the threads hold. -/
theorem holds_update {threads : T → Thread Op L} {thread : T} {next : Thread Op L}
    (h : next.holds P = (threads thread).holds P) (other : T) :
    (Function.update threads thread next other).holds P = (threads other).holds P := by
  by_cases hother : other = thread
  · subst hother
    rw [Function.update_self, h]
  · rw [Function.update_of_ne hother]

/-- A thread inside the lock is one that has just moved there or was there before. -/
theorem inside_of_update {threads : T → Thread Op L} {thread other : T} {next : Thread Op L} {op : Op} {pc : L}
    (h : Function.update threads thread next other = .inside op pc) :
    (other = thread ∧ next = .inside op pc) ∨ (other ≠ thread ∧ threads other = .inside op pc) := by
  by_cases hother : other = thread
  · subst hother
    exact Or.inl ⟨rfl, by rwa [Function.update_self] at h⟩
  · exact Or.inr ⟨hother, by rwa [Function.update_of_ne hother] at h⟩

variable [DecidableEq Op] [DecidableEq ρ] (P)

/-- One action, where it is enabled. -/
def Program.step (s : Guarded T σ Op L) : Action T Op I ρ → Option (Guarded T σ Op L)
  | .call t op =>
    match s.threads t with
    | .idle => some { s with threads := Function.update s.threads t (.waiting op) }
    | _ => none
  | .lock t op =>
    match s.threads t with
    | .waiting op' =>
      if op' = op ∧ s.free (P.mode op) then
        some { s with
          holders := (t, P.mode op) :: s.holders
          threads := Function.update s.threads t (.inside op (P.start op)) }
      else none
    | _ => none
  | .micro t input =>
    match s.threads t with
    | .inside op pc =>
      (P.micro (pc, s.object) input).map fun next =>
        { s with object := next.2, threads := Function.update s.threads t (.inside op next.1) }
    | _ => none
  | .unlock t op result =>
    match s.threads t with
    | .inside op' pc =>
      if op' = op ∧ P.result pc = some result then
        some { s with
          holders := s.holders.filter fun holder => holder.1 ≠ t
          threads := Function.update s.threads t .idle }
      else none
    | _ => none

/-- The steps of the threads as a relation. -/
abbrev Program.Step : Guarded T σ Op L → Action T Op I ρ → Guarded T σ Op L → Prop := Computes P.step

omit [DecidableEq T] [DecidableEq Op] [DecidableEq ρ] in
/-- The small steps of an operation that nobody interferes with. -/
abbrev Program.Body : L × σ → I → L × σ → Prop := Computes P.micro

/-- One operation carried out in one piece. -/
def Program.Exec (s : σ) (finished : Op × ρ) (t : σ) : Prop :=
  ∃ inputs pc, Run P.Body (P.start finished.1, s) inputs (pc, t) ∧ P.result pc = some finished.2

/-- An operation that has given the lock back, with its result. -/
def Action.finished : Action T Op I ρ → Option (Op × ρ)
  | .unlock _ op result => some (op, result)
  | _ => none

/-- Everything that one action can do. -/
inductive Program.StepCase (s : Guarded T σ Op L) : Action T Op I ρ → Guarded T σ Op L → Prop
  | call {t op} (hthread : s.threads t = .idle) :
      StepCase s (.call t op) { s with threads := Function.update s.threads t (.waiting op) }
  | lock {t op} (hthread : s.threads t = .waiting op) (hfree : s.free (P.mode op) = true) :
      StepCase s (.lock t op)
        { s with
          holders := (t, P.mode op) :: s.holders
          threads := Function.update s.threads t (.inside op (P.start op)) }
  | micro {t input op pc next} (hthread : s.threads t = .inside op pc)
      (hmicro : P.micro (pc, s.object) input = some next) :
      StepCase s (.micro t input)
        { s with object := next.2, threads := Function.update s.threads t (.inside op next.1) }
  | unlock {t op pc result} (hthread : s.threads t = .inside op pc) (hresult : P.result pc = some result) :
      StepCase s (.unlock t op result)
        { s with
          holders := s.holders.filter fun holder => holder.1 ≠ t
          threads := Function.update s.threads t .idle }

variable {P} {s t : Guarded T σ Op L} {e : Action T Op I ρ} {events : List (Action T Op I ρ)}

/-- The cases exhaust the steps. -/
theorem Program.Step.cases (h : P.Step s e t) : P.StepCase s e t := by
  cases e with
  | call thread op =>
    simp only [Computes, Program.step] at h
    split at h
    · cases h
      exact .call ‹_›
    · cases h
  | lock thread op =>
    simp only [Computes, Program.step] at h
    split at h
    · obtain ⟨⟨rfl, hfree⟩, h⟩ := Option.ite_none_right_eq_some.mp h
      cases h
      exact .lock ‹_› hfree
    · cases h
  | micro thread input =>
    simp only [Computes, Program.step] at h
    split at h
    · obtain ⟨next, hmicro, rfl⟩ := Option.map_eq_some_iff.mp h
      exact .micro ‹_› hmicro
    · cases h
  | unlock thread op result =>
    simp only [Computes, Program.step] at h
    split at h
    · split at h
      · obtain ⟨rfl, hresult⟩ := ‹_ ∧ _›
        cases h
        exact .unlock ‹_› hresult
      · cases h
    · cases h

/-- The cases are steps. -/
theorem Program.StepCase.step (h : P.StepCase s e t) : P.Step s e t := by
  cases h with
  | call hthread => simp only [Computes, Program.step, hthread]
  | lock hthread hfree => simp only [Computes, Program.step, hthread, hfree, and_self, if_true]
  | micro hthread hmicro => simp only [Computes, Program.step, hthread, hmicro, Option.map_some]
  | unlock hthread hresult => simp only [Computes, Program.step, hthread, hresult, and_self, if_true]

/-- Every step keeps the lock exclusive. -/
theorem Guarded.Exclusive.step (h : s.Exclusive P) (hstep : P.Step s e t) : t.Exclusive P := by
  cases hstep.cases with
  | @call thread op hthread =>
    refine ⟨fun other mode => ?_, h.alone⟩
    rw [h.holder, holds_update (by rw [hthread]; rfl)]
  | @micro thread input op pc next hthread hmicro =>
    refine ⟨fun other mode => ?_, h.alone⟩
    rw [h.holder, holds_update (by rw [hthread]; rfl)]
  | @lock thread op hthread hfree =>
    have hnot (mode : Mode) : (thread, mode) ∉ s.holders := by
      rw [h.holder, hthread]
      nofun
    refine ⟨fun other mode => ?_, fun other hmem => ?_⟩
    · by_cases hother : other = thread
      · subst hother
        simp [hnot, Thread.holds, eq_comm]
      · simp [hother, h.holder]
    · cases hmode : P.mode op with
      | write =>
        rw [hmode, Guarded.free, List.isEmpty_iff] at hfree
        simp only [hmode, hfree, List.mem_singleton] at hmem ⊢
        rw [← hmem]
      | read =>
        rw [hmode, Guarded.free, List.all_eq_true] at hfree
        simp only [hmode, List.mem_cons, Prod.mk.injEq, reduceCtorEq, and_false, false_or] at hmem
        have hread := hfree _ hmem
        simp at hread
  | @unlock thread op pc result hthread hresult =>
    refine ⟨fun other mode => ?_, fun other hmem => ?_⟩
    · by_cases hother : other = thread
      · subst hother
        simp [Thread.holds]
      · simp [hother, h.holder]
    · obtain ⟨hmem, hother⟩ := List.mem_filter.mp hmem
      simp only [h.alone other hmem, List.filter_cons, hother, if_true, List.filter_nil]

/-- What the threads have done so far, seen from a state of the object at which all finished operations
have been carried out and no other: unfinished operations are on their way from there. -/
structure Guarded.Progress (P : Program σ Op L I ρ) (s : Guarded T σ Op L) (o : σ) : Prop where
  quiet : s.Quiet → s.object = o
  inside : ∀ thread op pc, s.threads thread = .inside op pc →
    ∃ inputs, Run P.Body (P.start op, o) inputs (pc, s.object)

/-- Operations that take the lock for reading leave the object as it is. -/
def Program.ReadsOnly (P : Program σ Op L I ρ) : Prop :=
  ∀ op s inputs pc t, P.mode op = .read → Run P.Body (P.start op, s) inputs (pc, t) → t = s

/-- One step: an operation that gives the lock back is carried out in one piece, and nothing else changes
the object as it is seen from there. -/
theorem Guarded.Progress.step {o : σ} (hreads : P.ReadsOnly) (hexclusive : s.Exclusive P) (h : s.Progress P o)
    (hstep : P.Step s e t) : ∃ o', Run P.Exec o e.finished.toList o' ∧ t.Progress P o' := by
  cases hstep.cases with
  | @call thread op hthread =>
    refine ⟨o, Run.nil, h.quiet, fun other op' pc hinside => ?_⟩
    obtain ⟨-, hnext⟩ | ⟨-, hinside⟩ := inside_of_update hinside
    · cases hnext
    · exact h.inside other op' pc hinside
  | @lock thread op hthread hfree =>
    have hobject := h.quiet (Guarded.quiet_of_free hfree)
    refine ⟨o, Run.nil, fun _ => hobject, fun other op' pc hinside => ?_⟩
    obtain ⟨-, hnext⟩ | ⟨-, hinside⟩ := inside_of_update hinside
    · cases hnext
      exact ⟨[], hobject ▸ Run.nil⟩
    · exact h.inside other op' pc hinside
  | @micro thread input op pc next hthread hmicro =>
    obtain ⟨inputs, hrun⟩ := h.inside thread op pc hthread
    have hrun' : Run P.Body (P.start op, o) (inputs ++ [input]) next := hrun.snoc hmicro
    cases hmode : P.mode op with
    | read =>
      have hread : (s.threads thread).holds P = some .read := by rw [hthread, Thread.holds, hmode]
      have hobject := h.quiet (hexclusive.quiet hread)
      have hnext : next.2 = o := hreads op o _ next.1 next.2 hmode hrun'
      refine ⟨o, Run.nil, fun _ => hnext, fun other op' pc' hinside => ?_⟩
      obtain ⟨-, hmoved⟩ | ⟨-, hinside⟩ := inside_of_update hinside
      · cases hmoved
        exact ⟨_, hrun'⟩
      · have hother := h.inside other op' pc' hinside
        rwa [hobject.trans hnext.symm] at hother
    | write =>
      have hwrite : (s.threads thread).holds P = some .write := by rw [hthread, Thread.holds, hmode]
      refine ⟨o, Run.nil, fun hquiet => absurd ((hexclusive.holder thread .write).mpr hwrite) (hquiet thread),
        fun other op' pc' hinside => ?_⟩
      obtain ⟨-, hmoved⟩ | ⟨hne, hinside⟩ := inside_of_update hinside
      · cases hmoved
        exact ⟨_, hrun'⟩
      · exact absurd (hexclusive.eq_of_write hwrite (by rw [hinside]; rfl)) hne
  | @unlock thread op pc result hthread hresult =>
    obtain ⟨inputs, hrun⟩ := h.inside thread op pc hthread
    refine ⟨s.object, Run.single ⟨inputs, pc, hrun, hresult⟩, fun _ => rfl, fun other op' pc' hinside => ?_⟩
    obtain ⟨-, hmoved⟩ | ⟨hne, hinside⟩ := inside_of_update hinside
    · cases hmoved
    · -- Another thread is inside as well, so both are readers, and the object has not changed.
      cases hmode : P.mode op with
      | read =>
        have hread : (s.threads thread).holds P = some .read := by rw [hthread, Thread.holds, hmode]
        have hobject := h.quiet (hexclusive.quiet hread)
        have hother := h.inside other op' pc' hinside
        rwa [← hobject] at hother
      | write =>
        have hwrite : (s.threads thread).holds P = some .write := by rw [hthread, Thread.holds, hmode]
        exact absurd (hexclusive.eq_of_write hwrite (by rw [hinside]; rfl)) hne

/-- Every interleaving amounts to a sequential execution of the finished operations, in the order in which
they gave the lock back and with the results that they returned. -/
theorem linearizable (hreads : P.ReadsOnly) {object : σ} (hrun : Run P.Step (initial object) events s) :
    s.Exclusive P ∧ ∃ o, Run P.Exec object (events.filterMap Action.finished) o ∧ s.Progress P o := by
  induction hrun with
  | nil => exact ⟨⟨fun _ _ => ⟨nofun, nofun⟩, nofun⟩, object, Run.nil, fun _ => rfl, nofun⟩
  | @snoc events s t e _ hlast ih =>
    obtain ⟨hexclusive, o, hseq, hprogress⟩ := ih
    obtain ⟨o', hexec, hprogress'⟩ := hprogress.step hreads hexclusive hlast
    refine ⟨hexclusive.step hlast, o', ?_, hprogress'⟩
    have hfinished : [e].filterMap Action.finished = e.finished.toList := by
      cases hf : e.finished <;> simp [hf]
    rw [List.filterMap_append, hfinished]
    exact hseq.append hexec

/-- A thread inside the lock can make its small steps one after the other. -/
theorem run_micro {thread : T} {op : Op} {pc pc' : L} {o : σ} {inputs : List I}
    (hthread : s.threads thread = .inside op pc) (h : Run P.Body (pc, s.object) inputs (pc', o)) :
    Run P.Step s (inputs.map (.micro thread))
      { s with object := o, threads := Function.update s.threads thread (.inside op pc') } := by
  generalize hend : (pc', o) = last at h
  induction h generalizing pc' o with
  | nil =>
    cases hend
    rw [← hthread, Function.update_eq_self]
    exact Run.nil
  | @snoc inputs last next input _ hlast ih =>
    cases hend
    rw [List.map_append, List.map_singleton]
    refine (ih rfl).snoc ?_
    have hstep := Program.StepCase.step (P := P) (.micro (s := { s with
      object := last.2
      threads := Function.update s.threads thread (.inside op last.1) }) (t := thread)
      (Function.update_self _ _ _) hlast)
    rwa [Function.update_idem] at hstep

/-- If the small steps of every operation come to an end with a result, a thread inside the lock can always
finish by itself. -/
theorem exists_unlock {potential : L × σ → ℕ} (hpays : Pays P.Body (fun _ => True) potential fun _ => 0)
    (hresult : ∀ x, Stuck P.Body (fun _ => True) x → (P.result x.1).isSome) {thread : T} {op : Op} {pc : L}
    (hthread : s.threads thread = .inside op pc) :
    ∃ (inputs : List I) (result : ρ) (u : Guarded T σ Op L),
      Run P.Step s (inputs.map (.micro thread) ++ [.unlock thread op result]) u := by
  obtain ⟨inputs, ⟨pc', o⟩, hrun, -, hstuck⟩ := hpays.exists_stuck (s := (pc, s.object)) (fun _ _ => rfl) trivial
  obtain ⟨result, hresult⟩ := Option.isSome_iff_exists.mp (hresult _ hstuck)
  exact ⟨inputs, result, _, (run_micro hthread hrun).snoc
    (Program.StepCase.step (.unlock (Function.update_self _ _ _) hresult))⟩

end Locking
